import MicroTak.Missions.LogEntries

/-!
# Who reads a log entry

Responses with log entries: what was just saved, an entry asked for by its id, the log of a mission,
and a mission or a new subscription with its log.  The log of a mission holds the entries of its
name.
-/

namespace MicroTak.Missions

open Std Handler Groups Transition Env

variable {env : Env} {caller : Caller} {inputs : Inputs} {request : Request} {server next : Server}
variable {entry : LogEntryRecord} {reply : Reply} {mission : MissionRecord} {handler : Api Reply}
  {state : State}

theorem entries_of_plain (h : reply.plain = true) : reply.entries = [] := by
  cases reply with
  | logEntry | logEntries | withLogs | events => cases h
  | _ => rfl

theorem createImpl_plain (name : String) (create : CreateRequest) (allowGroupChange : Bool)
    (dupe : Dupe) :
    Answers (fun reply => reply.plain = true)
    (createImpl env caller inputs name create allowGroupChange dupe) := by
  refine answers_bind fun _ => ?_
  refine answers_bind fun groups => ?_
  refine answers_bind fun found => ?_
  split
  · repeat' first | exact answers_pure rfl | refine answers_bind fun _ => ?_
  · exact answers_bind fun _ => answers_bind fun _ => answers_pure rfl

/-- What lets a request about a mission show the mission's log. -/
def MayReadLog (env : Env) (caller : Caller) (state : State) (mission : MissionRecord)
    (request : Request) : Prop :=
  (env.roleFor state mission caller).any (·.has .read) = true ∨
    (∃ key password, request = .get key password ∧ env.passwordMatches mission password = true) ∨
      ∃ key uid topic password role, request = .about key (.subscribe uid topic password) ∧
        subscriptionRole env caller state mission password = .ok role

inductive LogRead (env : Env) (caller : Caller) (state : State) (entry : LogEntryRecord) :
    Request → Prop where
  | posted (creatorUid : String) :
    LogRead env caller state entry (.postLogEntry entry.content creatorUid entry.missionNames)
  | put (id creatorUid : String) :
    LogRead env caller state entry (.putLogEntry id entry.content creatorUid entry.missionNames)
  | byId (id : String) (hentry : state.logs[id]? = some entry)
      (hchecked : LogChecked env caller state .read entry.missionNames) :
        LogRead env caller state entry (.getLogEntry id)
  | inLog (request : Request) (mission : MissionRecord) (htarget : request.target caller state =
    some mission)
      (hstored : ∃ id : String, state.logs[id]? = some entry)
        (hname : mission.name ∈ entry.missionNames)
      (hmay : MayReadLog env caller state mission request) : LogRead env caller state entry request

theorem mem_logEntriesIn {name : String} {window : Window}
    (h : entry ∈ state.logEntriesIn name window) : (∃ id : String, state.logs[id]? = some entry) ∧
    name ∈ entry.missionNames :=
  State.mem_logEntriesFor.1 (List.mem_of_mem_filter h)

def Reads (env : Env) (caller : Caller) (state : State) (request : Request)
    (reply : Reply) : Prop :=
  ∀ entry ∈ reply.entries, LogRead env caller state entry request

theorem reads_of_none (h : Answers (fun reply => reply.entries = []) handler) :
    wp handler (fun reply _ => Reads env caller server.state request reply) (fun _ _ =>
      True) server := by
  refine (h.reply server).mono (fun reply next h entry hentry => ?_) (fun _ _ h => h)
  rw [h] at hentry
  cases hentry

theorem reads_of_plain (h : Answers (fun reply => reply.plain = true) handler) :
    wp handler (fun reply _ => Reads env caller server.state request reply) (fun _ _ =>
      True) server :=
  reads_of_none (h.mono fun _ => entries_of_plain)

theorem getMissionImpl_reads (key : Key) (password : String) :
    wp (getMissionImpl env caller inputs key password) (fun reply _ =>
      Reads env caller server.state (.get key password) reply) (fun _ _ => True) server := by
  -- Where a response may hold the log, it holds nothing else of it.
  have hlogged : ∀ mission window reply, reply.entries = [] →
      Request.target caller server.state (.get key password) = some mission →
      MayReadLog env caller server.state mission (.get key password) →
      Reads env caller server.state (.get key password)
        (logged inputs server.state mission window reply) := by
    intro mission window reply hreply htarget hmay entry hentry
    rw [logged] at hentry
    split at hentry
    · rw [Reply.entries, hreply] at hentry
      obtain ⟨hstored, hname⟩ := mem_logEntriesIn hentry
      exact .inLog _ mission htarget hstored hname hmay
    · rw [hreply] at hentry
      cases hentry
  rw [getMissionImpl, Caller.existing, wp_bind, wp_reads]
  refine ⟨fun mission htarget => ?_, fun _ _ => trivial⟩
  have hmission : Request.target caller server.state (.get key password) = some mission :=
    toOption_eq_some.2 htarget
  rw [wp_bind]
  refine wp_readWindow (fun window => ?_) fun _ => trivial
  rw [wp_bind, wp_get]
  split
  · simp only [wp_bind, wp_ensure]
    exact ⟨fun hmatches =>
      hlogged mission window _ rfl hmission (.inr (.inl ⟨key, password, rfl, hmatches⟩)),
        fun _ => trivial⟩
  · split
    · next hread => exact hlogged mission window _ rfl hmission (.inl hread)
    · simp only [wp_bind, wp_ensure]
      exact ⟨fun _ => List.forall_mem_nil _, fun _ => trivial⟩

theorem logsForMission_reads (key : Key)
    (hmission : Request.target caller server.state (.about key .logs) = some mission) :
    wp (logsForMission env caller inputs mission) (fun reply _ =>
      Reads env caller server.state (.about key .logs) reply) (fun _ _ => True) server := by
  simp only [logsForMission, require, wp_bind, wp_check]
  refine ⟨fun hread => wp_readWindow (fun window entry hentry => ?_) fun _ =>
    trivial, fun _ => trivial⟩
  obtain ⟨hstored, hname⟩ := mem_logEntriesIn hentry
  exact .inLog _ mission hmission hstored hname (.inl hread)

theorem subscribeImpl_reads (key : Key) (uid topic password : String)
    (hmission : Request.target caller server.state (.about key (.subscribe uid topic password)) =
      some mission) :
    wp (subscribeImpl env caller inputs mission uid topic password)
      (fun reply _ =>
        Reads env caller server.state (.about key (.subscribe uid topic password)) reply)
        (fun _ _ => True) server := by
  have hjustified : Justified env caller (.about key (.subscribe uid topic password)) server
      (subscribeImpl env caller inputs mission uid topic password) :=
        subscribeImpl_justified hmission uid topic password ⟨key, rfl⟩
  have hentries : wp (subscribeImpl env caller inputs mission uid topic password)
      (fun reply next => ∀ entry ∈ reply.entries,
        (∃ id : String, next.state.logs[id]? = some entry) ∧ mission.name ∈ entry.missionNames ∧
          ∃ role, subscriptionRole env caller server.state mission password = .ok role) (fun _ _ =>
            True) server := by
    rw [subscribeImpl, wp_bind]
    refine wp_readWindow (fun window => ?_) fun _ => trivial
    rw [wp_bind, wp_reads]
    refine ⟨fun role hrole => ?_, fun _ _ => trivial⟩
    rw [wp_bind, wp_ensure]
    refine ⟨fun _ => ?_, fun _ => trivial⟩
    refine wp_then fun sub _ => wp_then fun _ _ => wp_then fun _ next => ?_
    split
    · intro entry hentry
      obtain ⟨hstored, hname⟩ := mem_logEntriesIn hentry
      exact ⟨hstored, hname, role, hrole⟩
    · exact List.forall_mem_nil _
  refine (hjustified.and hentries).mono (fun reply next h entry hentry => ?_) (fun _ _ _ => trivial)
  obtain ⟨hstored, hname, role, hrole⟩ := h.2 entry hentry
  rw [logs_of_reached rfl h.1.1] at hstored
  exact .inLog _ mission hmission hstored hname
    (.inr (.inr ⟨key, uid, topic, password, role, rfl, hrole⟩))

private theorem wp_saved (h : LogRead env caller state entry request) :
    wp (do let saved ← storeOp (MissionStore.saveLogEntry entry); return .logEntry saved)
      (fun reply _ => Reads env caller state request reply) (fun _ _ => True) server := by
  simp only [wp_bind, MissionStore.saveLogEntry, wp_storeOp, MissionStore.perform_bind, wp_record]
  exact ⟨fun _ => List.forall_mem_singleton.2 h, fun _ => trivial⟩

private theorem handle_reads (hadmin : caller.admin = false) :
    wp (handle env caller inputs request) (fun reply _ =>
      Reads env caller server.state request reply) (fun _ _ => True)
      server := by
  cases request with
  | get key password => exact getMissionImpl_reads key password
  | put name create allowGroupChange | post name create allowGroupChange allowDupe =>
    exact reads_of_plain (createImpl_plain name create allowGroupChange _)
  | about key about =>
    rw [handle, Caller.existing, wp_bind, wp_reads]
    refine ⟨fun mission htarget => ?_, fun _ _ => trivial⟩
    have hmission : Request.target caller server.state (.about key about) = some mission :=
      toOption_eq_some.2 htarget
    cases hplain : about.plain with
    | true => exact reads_of_plain (handleAbout_plain.mono fun _ h => h.2 hplain)
    | false =>
      cases about with
      | logs => exact logsForMission_reads key hmission
      | subscribe uid topic password => exact subscribeImpl_reads key uid topic password hmission
      | cot => exact reads_of_none (answers_bind fun _ => answers_bind fun _ => answers_pure rfl)
      | _ => cases hplain
  | myInvitations clientUid =>
    exact reads_of_plain (answers_bind fun _ => answers_bind fun _ => answers_pure rfl)
  | allInvitationNames clientUid => exact reads_of_plain (answers_bind fun _ => answers_pure rfl)
  | postLogEntry content creatorUid names =>
    rw [handle, postLogEntry, wp_bind, wp_draw, wp_bind]
    exact wp_trivial.mono (fun _ _ _ => wp_saved (.posted creatorUid)) (fun _ _ h => h)
  | putLogEntry id content creatorUid names =>
    rw [handle, putLogEntry, wp_bind]
    refine wp_trivial.mono (fun _ _ _ => ?_) (fun _ _ h => h)
    rw [wp_bind, wp_get, wp_bind, wp_ensure]
    exact ⟨fun _ => wp_saved (.put id creatorUid), fun _ => trivial⟩
  | getLogEntry id =>
    simp only [handle, getLogEntry, wp_bind, wp_orThrow]
    refine ⟨fun entry hentry => wp_logChecked.mono (fun _ _ h => ?_) (fun _ _ _ => trivial),
      fun _ => trivial⟩
    exact List.forall_mem_singleton.2 (.byId id hentry h.2)
  | deleteLogEntry id =>
    refine reads_of_plain (?_ : Answers _ (deleteLogEntry env caller id))
    exact answers_bind fun _ => answers_bind fun _ => answers_bind fun _ => answers_bind fun _ =>
      answers_pure rfl
  | allLogs =>
    simp only [handle, allLogs, wp_bind, wp_ensure, hadmin]
    exact ⟨fun h => Bool.noConfusion h, fun _ => trivial⟩

/-- In a response to anyone but the administrator, a log entry is what the caller has just saved, an
entry asked for by its id and checked against its missions, or one of the log of a mission that the
caller may read. -/
theorem log_content_confined {username : String} {headers : Headers}
    (hok : handle env (env.caller server username headers) inputs request server = .ok reply next)
    (hadmin : env.isAdmin username = false) (hentry : entry ∈ reply.entries) :
    LogRead env (env.caller server username headers) server.state entry request :=
  (handle_reads hadmin).of_ok hok entry hentry

theorem log_content_confined_owner :
    ∃ server entry, run (step sample) {} withEntry = some server ∧ entry.content = "seen" ∧
      LogRead sample (sample.caller server "alice" {}) server.state entry (.getLogEntry "uuu") := by
  have hread : ∃ server, run (step sample) {} withEntry = some server ∧
      ∃ entry next, handle sample (sample.caller server "alice" {}) { now := 2 }
        (.getLogEntry "uuu") server = .ok (.logEntry entry) next ∧ entry.content = "seen" :=
          ⟨_, rfl, _, _, rfl, by decide +kernel⟩
  obtain ⟨server, hrun, entry, next, hok, hcontent⟩ := hread
  exact ⟨server, entry, hrun, hcontent, log_content_confined hok (by decide +kernel)
    (List.mem_singleton.2 rfl)⟩

def apart : GroupStore :=
  { state := [.created "Blue" none 0, .created "Red" none 0, .memberSet "alice" "Blue" (some .both),
      .memberSet "eve" "Red" (some .both)].foldl Groups.applyEvent Groups.freshState }

def sameName : List Action :=
  .regroup apart :: withEntry ++ [.request "eve" {} { now := 2 } (.put "Ops" {} false)]

/-- Someone without a role on the only mission, the one an entry names, reads the entry.  And
someone who cannot see the mission of an entry reads it in the log of a mission of that name in
another group. -/
theorem log_content_read_without_role :
    (∃ server, run (step sample) {} withEntry = some server ∧ sample.isAdmin "eve" = false ∧
      (∀ mission ∈ server.state.missions.values,
        sample.roleFor server.state mission (sample.caller server "eve" {}) = none) ∧
      ∃ entry next, handle sample (sample.caller server "eve" {})
      { now := 2 } (.getLogEntry "uuu") server =
          .ok (.logEntry entry) next ∧ entry.content = "seen" ∧ entry.missionNames = ["Ops"]) ∧
    ∃ before server, run (step sample) {} (.regroup apart :: withEntry) = some before ∧
      run (step sample) {} sameName = some server ∧ sample.isAdmin "eve" = false ∧
      (∀ mission ∈ before.state.missions.values, (sample.caller server "eve" {}).visible mission =
        false) ∧
      ∃ entries next, handle sample (sample.caller server "eve" {}) { now := 3 }
          (.about (.name "Ops") .logs) server = .ok (.logEntries entries) next ∧
        ∃ entry ∈ entries, entry.content = "seen" ∧ before.state.logs["uuu"]? = some entry := by
  refine ⟨⟨_, rfl, ?_, ?_, _, _, rfl, ?_⟩, _, _, rfl, rfl, ?_, ?_, _, _, rfl, ?_⟩
  · decide +kernel
  · decide +kernel
  · decide +kernel
  · decide +kernel
  · decide +kernel
  · decide +kernel

end MicroTak.Missions
