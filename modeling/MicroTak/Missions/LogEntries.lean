import MicroTak.Missions.Runs

/-!
# The log entries of missions

A log entry names missions, and a request on it is checked against the missions of these names that
the caller sees: a role on one of them has to hold the permission, no role is no obstacle.  Besides
the two requests on one entry, a copy of a mission adds its name to the entries of the mission.
-/

namespace MicroTak.Missions

open Std Handler Groups Transition Relation Journal.Op MissionStore State

variable {env : Env} {caller : Caller} {inputs : Inputs} {request : Request}
  {start server next : Server}
variable {id : String} {entry : LogEntryRecord}

variable {state : State} {name : String} {permission : Permission}

theorem State.mem_logEntriesFor :
    entry ∈ state.logEntriesFor name ↔ (∃ id : String, state.logs[id]? = some entry) ∧
    name ∈ entry.missionNames := by
  rw [logEntriesFor, List.mem_mergeSort, List.mem_filter, List.mem_map, decide_eq_true_eq]
  refine and_congr_left fun _ => ⟨?_, ?_⟩
  · rintro ⟨⟨id, found⟩, hfound, rfl⟩
    exact ⟨id, TreeMap.mem_toList_iff_getElem?_eq_some.1 hfound⟩
  · rintro ⟨id, hid⟩
    exact ⟨(id, entry), TreeMap.mem_toList_iff_getElem?_eq_some.2 hid, rfl⟩

/-! ### Which events touch the log -/

def Event.editsLog : Event → Bool
  | .logEntrySaved _ | .logEntryDeleted _ => true
  | _ => false

theorem logs_apply {event : Event} (hevent : event.editsLog = false) (state : State) :
    (state.apply event).logs = state.logs := by
  cases event with
  | deleted | contentAdded | contentRemoved =>
    obtain ⟨changes, nextChangeId, hnote⟩ := noteChange_eq _ _
    rw [apply, hnote]
    rfl
  | subscriptionRoleSet | unsubscribed =>
    rw [apply]
    split <;> rfl
  | logEntrySaved | logEntryDeleted => cases hevent
  | _ => rfl

def State.LogsKeyed (state : State) : Prop := ∀ id (entry : LogEntryRecord),
    state.logs[id]? = some entry → entry.id = id

theorem State.LogsKeyed.apply (h : state.LogsKeyed) (event : Event) :
    (state.apply event).LogsKeyed := by
  by_cases hevent : event.editsLog = true
  · intro id entry hentry
    cases event with
    | logEntrySaved saved =>
      rcases Dict.of_insert hentry with ⟨hid, rfl⟩ | ⟨-, hentry⟩
      · exact hid
      · exact h id entry hentry
    | logEntryDeleted deleted => exact h id entry (Dict.of_erase hentry).2
    | _ => cases hevent
  · rw [State.LogsKeyed, logs_apply (Bool.not_eq_true _ ▸ hevent)]
    exact h

/-- An effect of a request on the store is an event, one on the log only where the request has to do
with it. -/
theorem Effect.applies (h : Effect env caller request start server next) :
    next.state = server.state ∨
      ∃ event, next.state = server.state.apply event ∧
      (event.editsLog = true → request.editsLogs = true) := by
  have hother : ∀ event : Event, event.editsLog = false → event.editsLog = true →
      request.editsLogs = true := by
    intro event hfalse htrue
    rw [hfalse] at htrue
    cases htrue
  cases h with
  | draw | pass | spare | connect | disconnect | relay => exact .inl rfl
  | edit event disk hedit =>
    refine .inr ⟨event, rfl, fun hevent => ?_⟩
    cases event with
    | logEntrySaved | logEntryDeleted => exact hedit.2
    | _ => cases hevent
  | create mission changeId => exact .inr ⟨.created mission changeId, rfl, hother _ rfl⟩
  | setPassword mission hash now =>
    exact .inr ⟨.passwordSet mission.guid hash now, rfl, hother _ rfl⟩
  | setDefaultRole mission role now =>
    exact .inr ⟨.defaultRoleSet mission.guid (some role) now, rfl, hother _ rfl⟩
  | subscribe mission sub => exact .inr ⟨.subscribed mission.guid sub, rfl, hother _ rfl⟩
  | raise mission sub role =>
    exact .inr ⟨.subscriptionRoleSet mission.guid sub.id role, rfl, hother _ rfl⟩
  | assign mission clientUid username role id =>
    exact .inr ⟨.subscriptionRoleSet mission.guid id role, rfl, hother _ rfl⟩
  | unsubscribe mission id => exact .inr ⟨.unsubscribed mission.guid id, rfl, hother _ rfl⟩
  | invite mission invitation => exact .inr ⟨.invited invitation, rfl, hother _ rfl⟩

theorem logs_of_reached (hrequest : request.editsLogs = false)
    (h : Reached env caller request start server) : server.state.logs = start.state.logs := by
  induction h with
  | refl => rfl
  | @tail server next _ heffect ih =>
    obtain hstate | ⟨event, hstate, hlogs⟩ := heffect.applies
    · rw [hstate, ih]
    · have hevent : event.editsLog = false := by
        by_contra hevent
        rw [hlogs (Bool.not_eq_false _ ▸ hevent)] at hrequest
        cases hrequest
      rw [hstate, logs_apply hevent, ih]

private theorem logsKeyed_of_reached (h : Reached env caller request start server)
    (hstart : start.state.LogsKeyed) :
    server.state.LogsKeyed := by
  induction h with
  | refl => exact hstart
  | @tail server next _ heffect ih =>
    obtain hstate | ⟨event, hstate, -⟩ := heffect.applies
    · rwa [hstate]
    · rw [hstate]
      exact ih.apply event

theorem logsKeyed_step {action : Action} (h : server.state.LogsKeyed)
    (hstep : step env server action = some next) :
    next.state.LogsKeyed := by
  cases step_outcome hstep with
  | request username headers inputs request tokens last hreached =>
    show last.state.LogsKeyed
    exact logsKeyed_of_reached hreached h
  | stream username clientUid names guids eventUid now _ hstreamed =>
    clear hstep
    induction hstreamed with
    | refl => exact h
    | tail _ hlast ih =>
      cases hlast with
      | pass => exact ih
      | edit event => exact ih.apply event
  | deliver => exact h
  | outside _ _ hstate => rwa [hstate]

/-! ### The requests on one entry -/

/-- What the missions of an entry ask of the caller: each name is that of a mission the caller sees,
on which it holds the permission or has no role. -/
def LogChecked (env : Env) (caller : Caller) (state : State) (permission : Permission)
    (names : List String) : Prop :=
  ∀ name ∈ names, ∃ mission, state.byName name caller.visible = some mission ∧
    (env.roleFor state mission caller).all (·.has permission) = true

private theorem wp_checkLogMission : wp (checkLogMission env caller permission name)
      (fun _ next => next.state = server.state ∧ ∃ mission,
        server.state.byName name caller.visible = some mission ∧
        (env.roleFor server.state mission caller).all (·.has permission) = true)
      (fun _ next => next.state = server.state) server := by
  simp only [checkLogMission, wp_bind, wp_get, wp_orThrow]
  refine ⟨fun mission hmission => ?_, fun _ => trivial⟩
  split
  · next role hrole =>
    rw [wp_check]
    exact ⟨fun hhas => ⟨rfl, mission, hmission, hrole ▸ hhas⟩, fun _ => rfl⟩
  · next hrole =>
    refine ⟨rfl, mission, hmission, ?_⟩
    rw [hrole]
    rfl

theorem wp_logChecked {names : List String} : wp (checkLogMissions env caller names permission)
      (fun _ next => next.state = server.state ∧
        LogChecked env caller server.state permission names)
      (fun _ next => next.state = server.state) server := by
  induction names generalizing server with
  | nil => exact ⟨rfl, List.forall_mem_nil _⟩
  | cons name rest ih =>
    show wp (checkLogMission env caller permission name >>= fun _ =>
      checkLogMissions env caller rest permission) _ _ server
    rw [wp_bind]
    refine wp_checkLogMission.mono (fun _ middle hmiddle => ?_) (fun _ _ h => h)
    refine ih.mono (fun _ next hnext => ⟨hnext.1.trans hmiddle.1, ?_⟩) (fun _ _ h =>
      h.trans hmiddle.1)
    rw [hmiddle.1] at hnext
    exact List.forall_mem_cons.2 ⟨hmiddle.2, hnext.2⟩

/-- How a request may change a stored entry.  Of a package nothing is said. -/
inductive LogChange (env : Env) (caller : Caller) (state : State) (id : String)
    (entry : LogEntryRecord) : Request → Option LogEntryRecord → Prop where
  | delete (hchecked : LogChecked env caller state .write entry.missionNames) :
      LogChange env caller state id entry (.deleteLogEntry id) none
  | put (content creatorUid : String) (names : List String) (now : Int)
      (hchecked : LogChecked env caller state .write names) :
      LogChange env caller state id entry (.putLogEntry id content creatorUid names)
        (some { id, content, creatorUid, missionNames := names, serverTimeMs := now })
  | copy (key : Key) (copy : CopyRequest) (mission : MissionRecord) (copyName : String) (now : Int)
      (htarget : caller.target state key = .ok mission)
      (hread : (env.roleFor state mission caller).any (·.has .read) = true)
        (hname : mission.name ∈ entry.missionNames) :
      LogChange env caller state id entry (.about key (.copy copy))
        (some { entry with missionNames := entry.missionNames ++ [copyName], serverTimeMs := now })
  | package (key : Key) (creatorUid : String) (items : List PackageItem)
    (found : Option LogEntryRecord) :
      LogChange env caller state id entry (.about key (.package creatorUid items)) found

/-- The entry is what it was, or changed in one of these ways. -/
def LogKept (env : Env) (caller : Caller) (state : State) (id : String) (entry : LogEntryRecord)
    (request : Request) (next : Server) : Prop :=
  next.state.logs[id]? = some entry ∨
    LogChange env caller state id entry request next.state.logs[id]?

section Kept

variable (hentry : server.state.logs[id]? = some entry)

include hentry

theorem logKept_of_logs (h : next.state.logs = server.state.logs) :
    LogKept env caller server.state id entry request next :=
  .inl (by rw [h, hentry])

theorem deleteLogEntry_kept (other : String) :
    wp (deleteLogEntry env caller other) (fun _ =>
      LogKept env caller server.state id entry (.deleteLogEntry other)) (fun _ =>
      LogKept env caller server.state id entry (.deleteLogEntry other)) server := by
  simp only [deleteLogEntry, wp_bind, wp_orThrow]
  refine ⟨fun stored hstored => ?_, fun _ => .inl hentry⟩
  refine wp_logChecked.mono (fun _ next hnext => ?_) (fun _ _ hnext =>
    logKept_of_logs hentry (congrArg logs hnext))
  refine wp_storeOp_record (fun disk => ?_) fun _ => logKept_of_logs hentry (congrArg logs hnext.1)
  show (next.state.logs.erase other)[id]? = _ ∨
    LogChange _ _ _ _ _ _ (next.state.logs.erase other)[id]?
  rw [hnext.1]
  by_cases hother : other = id
  · subst hother
    cases hstored.symm.trans hentry
    rw [Dict.getElem?_erase_self]
    exact .inr (.delete hnext.2)
  · rw [Dict.getElem?_erase_of_ne hother]
    exact .inl hentry

theorem wp_saveLogEntry_kept {saved : LogEntryRecord} (hnext : next.state = server.state)
    (hsaved : saved.id = id → LogChange env caller server.state id entry request (some saved)) :
    wp (do let saved ← storeOp (saveLogEntry saved); return Reply.logEntry saved)
      (fun _ => LogKept env caller server.state id entry request) (fun _ =>
        LogKept env caller server.state id entry request) next := by
  simp only [wp_bind, saveLogEntry, wp_storeOp, perform_bind, wp_record]
  refine ⟨fun _ => ?_, fun _ => logKept_of_logs hentry (congrArg logs hnext)⟩
  show (next.state.logs.insert saved.id saved)[id]? = _ ∨
    LogChange _ _ _ _ _ _ (next.state.logs.insert saved.id saved)[id]?
  rw [hnext]
  by_cases hid : saved.id = id
  · subst hid
    rw [Dict.getElem?_insert_self]
    exact .inr (hsaved rfl)
  · rw [Dict.getElem?_insert_of_ne hid]
    exact .inl hentry

end Kept

/-! ### A copy of a mission -/

theorem logs_edit (logs : TreeMap String LogEntryRecord) :
    EditStable (fun event => event.editsLog = false) fun server => server.state.logs = logs :=
  fun server _ _ hevent h => (logs_apply hevent server.state).trans h

section Copies

variable {mission copy : MissionRecord}

theorem keeps_copyContainers_logs {logs : TreeMap String LogEntryRecord} {creator : String} :
    Keeps (fun next => next.state.logs = logs)
    (copyContainers env inputs mission copy creator) := by
  have hstable := logs_edit logs
  refine Keeps.bind (keeps_edit hstable rfl) fun _ => keeps_get.bind fun server =>
    Keeps.bind ?_ fun _ => ?_
  · refine keeps_forM fun layer _ => Keeps.bind ?_ fun _ => keeps_pure
    exact keeps_saveNewMapLayer hstable (fun _ h => h) fun _ _ _ _ _ _ _ => rfl
  refine keeps_get.bind fun server => Keeps.bind (keeps_forM fun record _ => ?_) fun _ =>
    keeps_addContents hstable fun _ _ => rfl
  refine Keeps.bind (keeps_storeOp hstable ?_) fun _ => keeps_pure
  refine only_existing.bind fun _ => only_get.bind fun state => ?_
  exact Only.bind (only_put (show Event.editsLog (.data _) = false from rfl)) fun _ =>
    only_get.bind fun _ => trivial

/-- An entry of the copied mission has got one more name, and a new time. -/
def Copied (entry : LogEntryRecord) (name : String) (now : Int) (found : Option LogEntryRecord) :
    Prop :=
  name ∈ entry.missionNames ∧ ∃ copyName,
    found = some { entry with
      missionNames := entry.missionNames ++ [copyName], serverTimeMs := now }

private theorem wp_copyLogEntries (hkeyed : server.state.LogsKeyed)
    (hentry : server.state.logs[id]? = some entry) : wp (copyLogEntries inputs mission copy)
      (fun _ next => next.state.logs[id]? = some entry ∨
        Copied entry mission.name inputs.now next.state.logs[id]?)
      (fun _ next => next.state.logs[id]? = some entry ∨
        Copied entry mission.name inputs.now next.state.logs[id]?) server := by
  refine wp_forM (fun next : Server => next.state.logs[id]? = some entry ∨
    Copied entry mission.name inputs.now next.state.logs[id]?) ?_ (.inl hentry)
  intro old hold next hnext
  simp only [wp_bind, saveLogEntry, wp_storeOp, perform_bind, wp_record]
  refine ⟨fun _ => ?_, fun _ => hnext⟩
  show (next.state.logs.insert _ _)[id]? = _ ∨
    Copied entry mission.name inputs.now (next.state.logs.insert _ _)[id]?
  rw [Dict.getElem?_insert]
  split
  · next hid =>
    -- An entry of the list is the one stored under its id.
    obtain ⟨⟨key, hstored⟩, hnames⟩ := mem_logEntriesFor.1 hold
    obtain rfl : key = id := (hkeyed key old hstored).symm.trans hid
    obtain rfl : entry = old := Option.some.inj (hentry.symm.trans hstored)
    exact .inr ⟨hnames, copy.name, rfl⟩
  · exact hnext

theorem wp_copyMission_logs {copy : CopyRequest} {key : Key}
    (htarget : caller.target server.state key = .ok mission) (hkeyed : server.state.LogsKeyed)
    (hentry : server.state.logs[id]? = some entry) :
    wp (copyMission env caller inputs mission copy) (fun _ =>
      LogKept env caller server.state id entry (.about key (.copy copy))) (fun _ =>
      LogKept env caller server.state id entry (.about key (.copy copy))) server := by
  simp only [copyMission, require, wp_bind, wp_check, wp_orThrow, wp_ensure]
  refine ⟨fun hread =>
    ⟨fun creator _ => ⟨fun copyName _ => ⟨fun _ => ⟨fun _ => ?_, fun _ => ?_⟩, fun _ => ?_⟩,
      fun _ => ?_⟩, fun _ => ?_⟩, fun _ => ?_⟩
  · have hnoted : (server.note caller.username mission.guid .read).state.logs = server.state.logs :=
      rfl
    refine ((keeps_createOwned (logs_edit server.state.logs) (fun _ h => h) (fun _ _ => rfl)
      (fun _ _ => rfl) fun _ _ _ => rfl).run hnoted).mono (fun owned made hmade => ?_) fun _ _ h =>
        logKept_of_logs hentry h
    rw [wp_notify]
    have hlogs : Server.state { made with notifier := made.notifier.connect owned.1.guid creator } =
      made.state := rfl
    refine (keeps_copyContainers_logs.run (hlogs ▸ hmade)).mono (fun _ filled hfilled => ?_)
      fun _ _ h => logKept_of_logs hentry h
    have hcopied : ∀ next : Server, next.state.logs[id]? = some entry ∨
        Copied entry mission.name inputs.now next.state.logs[id]? →
          LogKept env caller server.state id entry (.about key (.copy copy)) next := by
      rintro next (hkept | ⟨hname, copyName, hcopied⟩)
      · exact .inl hkept
      · rw [LogKept, hcopied]
        exact .inr (.copy key copy mission copyName inputs.now htarget hread hname)
    refine (wp_copyLogEntries ?_ ?_).mono (fun _ => hcopied) fun _ => hcopied
    · rw [State.LogsKeyed, hfilled]
      exact hkeyed
    · rw [hfilled, hentry]
  all_goals exact .inl hentry

end Copies

/-! ### Changes of an entry -/

theorem logs_streamed (username clientUid eventUid : String) (now : Int)
    (targets : List MissionRecord) (server : Server) :
    (targets.foldl (routeTo username clientUid eventUid now) server).state.logs =
    server.state.logs := by
  induction targets generalizing server with
  | nil => rfl
  | cons mission rest ih =>
    refine (ih _).trans ?_
    rw [routeTo]
    split
    · rfl
    · split
      · have hnoted : (server.note username mission.guid .write).state.logs = server.state.logs :=
          rfl
        exact ((keeps_addContent (logs_edit server.state.logs) fun _ => rfl).run hnoted).after
      · rfl

private theorem logKept_of_handle (hkeyed : server.state.LogsKeyed)
    (hentry : server.state.logs[id]? = some entry) (hid : env.randomUuid server.drawn ≠ id) :
    wp (handle env caller inputs request) (fun _ =>
      LogKept env caller server.state id entry request) (fun _ =>
      LogKept env caller server.state id entry request) server := by
  by_cases hlogs : request.editsLogs = true
  · cases request with
    | postLogEntry content creatorUid names =>
      rw [handle, postLogEntry, wp_bind, wp_draw, wp_bind]
      refine wp_logChecked.mono (fun _ next hnext => ?_) (fun _ _ hnext =>
        logKept_of_logs hentry (congrArg logs hnext))
      exact wp_saveLogEntry_kept hentry hnext.1 fun heq => absurd heq hid
    | putLogEntry other content creatorUid names =>
      rw [handle, putLogEntry, wp_bind]
      refine wp_logChecked.mono (fun _ next hnext => ?_) (fun _ _ hnext =>
        logKept_of_logs hentry (congrArg logs hnext))
      rw [wp_bind, wp_get, wp_bind, wp_ensure]
      refine ⟨fun _ => wp_saveLogEntry_kept hentry hnext.1 ?_, fun _ =>
        logKept_of_logs hentry (congrArg logs hnext.1)⟩
      rintro rfl
      exact .put content creatorUid names inputs.now hnext.2
    | deleteLogEntry other => exact deleteLogEntry_kept hentry other
    | about key about =>
      cases about with
      | package creatorUid items =>
        exact wp_trivial.mono (fun _ _ _ => .inr (.package key creatorUid items _)) fun _ _ _ =>
          .inr (.package key creatorUid items _)
      | copy copy =>
        rw [handle, Caller.existing, wp_bind, wp_reads]
        exact ⟨fun mission htarget => wp_copyMission_logs htarget hkeyed hentry,
          fun _ _ => .inl hentry⟩
      | _ => cases hlogs
    | _ => cases hlogs
  · rw [Bool.not_eq_true] at hlogs
    exact handle_justified.mono (fun _ _ h => logKept_of_logs hentry (logs_of_reached hlogs h.1))
      fun _ _ h => logKept_of_logs hentry (logs_of_reached hlogs h)

/-- An entry is changed by a request on it, checked against the missions it names or will name, by a
copy of one of its missions for a caller who may read that, or by a package. -/
theorem log_entry_changes_checked {actions : List Action} {action : Action}
    (hrun : run (step env) {} actions = some server) (hstep : step env server action = some next)
    (hentry : server.state.logs[id]? = some entry) (hid : env.randomUuid server.drawn ≠ id)
    (hchanged : next.state.logs[id]? ≠ some entry) :
    ∃ username headers inputs request, action = .request username headers inputs request ∧
      LogChange env (env.caller server username headers) server.state id entry request
      next.state.logs[id]? := by
  have hother : next.state.logs ≠ server.state.logs := by
    intro hsame
    rw [hsame] at hchanged
    exact hchanged hentry
  cases action with
  | request username headers inputs request =>
    cases hstep
    rw [respond_state] at hchanged ⊢
    refine ⟨username, headers, inputs, request, rfl, ?_⟩
    have hkeyed := run_preserves (fun server => server.state.LogsKeyed) hrun
      (fun _ _ h => by simp at h) fun _ _ _ => logsKeyed_step
    exact ((logKept_of_handle hkeyed hentry hid).after).resolve_left hchanged
  | stream username clientUid names guids eventUid now =>
    cases hstep
    exact absurd (logs_streamed username clientUid eventUid now _ server) hother
  | deliver username notice =>
    rw [step] at hstep
    split at hstep
    · cases hstep
      exact absurd rfl hother
    · cases hstep
  | _ =>
    cases hstep
    exact absurd rfl hother

def withEntry : List Action :=
  [.request "alice" {} {} (.put "Ops" { inviteOnly := true } false),
    .request "alice" {} { now := 1 } (.postLogEntry "seen" "phone" ["Ops"])]

theorem log_entry_changes_checked_owner :
    ∃ server entry, run (step Env.sample) {} withEntry = some server ∧
    server.state.logs["uuu"]? = some entry ∧
      LogChange Env.sample (Env.sample.caller server "alice" {}) server.state "uuu" entry
      (.deleteLogEntry "uuu") none := by
  have hrun : ∃ server, run (step Env.sample) {} withEntry = some server ∧
      ∃ entry, server.state.logs["uuu"]? = some entry ∧ Env.sample.randomUuid server.drawn ≠ "uuu" ∧
        (respond Env.sample server "alice" {} { now := 2 }
          (.deleteLogEntry "uuu")).state.logs["uuu"]? = none := by
    decide +kernel
  obtain ⟨server, hrun, entry, hentry, hid, hnone⟩ := hrun
  have hchanged :
      (respond Env.sample server "alice" {} { now := 2 }
        (.deleteLogEntry "uuu")).state.logs["uuu"]? ≠ some entry := by
    rw [hnone]
    exact Option.some_ne_none entry ∘ Eq.symm
  obtain ⟨username, headers, inputs, request, haction, hchange⟩ := log_entry_changes_checked hrun
    (show step Env.sample server (.request "alice" {} { now := 2 } (.deleteLogEntry "uuu")) =
      some _ from rfl) hentry hid hchanged
  cases haction
  rw [hnone] at hchange
  exact ⟨server, entry, hrun, hentry, hchange⟩

/-- Someone without a role on the only mission, the one an entry names, deletes the entry. -/
theorem log_entry_deleted_without_role :
    ∃ server, run (step Env.sample) {} withEntry = some server ∧
      (∃ entry, server.state.logs["uuu"]? = some entry ∧ entry.missionNames = ["Ops"]) ∧
      Env.sample.isAdmin "eve" = false ∧
      (∀ mission ∈ server.state.missions.values,
        Env.sample.roleFor server.state mission (Env.sample.caller server "eve" {}) = none) ∧
      (respond Env.sample server "eve" {} { now := 2 } (.deleteLogEntry "uuu")).state.logs["uuu"]? =
      none := by
  refine ⟨_, rfl, ?_⟩
  decide +kernel

end MicroTak.Missions
