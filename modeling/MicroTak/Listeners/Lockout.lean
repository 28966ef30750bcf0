import MicroTak.Listeners.Host

/-!
# A blocked identity

A block makes the registry refuse the identity, and the streams and the API ask it.  Of the
enrollment port only the password path of `signClient/v2` does, some steps before it enrolls; the
profiles, the tool files and the OAuth login never ask.  What every listener keeps to over every run
is stated for the steps at which a block does not overtake a request, and no credentials of a
blocked name are presented to those endpoints.
-/

namespace MicroTak.Listeners

open Std Registry Enrollment Transition Lines DeviceRegistry RegistryState Option
open Transport.Revocation (System Call TlsSession Phase Target)

/-! ### What is given -/

/-- The session goes on only if its check passes. -/
def awaitsCheck : Phase → Bool
  | .handshaken | .rechecking _ => true
  | .allowed | .subscribed _ | .waiting _ => false

/-- The certificate that a request enrolls with this step, or is answered with. -/
def handsOut : (before after : Stage) → Option Signed
  | .grants signed _, _ => some signed
  | before, after => before.enrolls after

/-- The answer is more than a status. -/
def isGift : Answer → Bool
  | .status _ => false
  | .accessToken _ | .profile _ | .toolFile _ => true

/-- A request past the check of its block: its certificate is about to be enrolled, or is. -/
def pastBlock (commonName : String) : Stage → Bool
  | .rotates signed _ | .grants signed _ | .clearsToken signed | .deletesFile signed =>
    signed.commonName = commonName
  | _ => false

namespace Host

variable (env : Env) (pki : Pki) (host : Host)

/-- The step to `next` gives something to the identity: a stream that passes its check, a connection
or a request that the API lets in, an answer of the API, a certificate, or an answer to a login. -/
def gives (next : Host) (commonName : String) : HostAction → Bool
  | .desk (.move peer _) =>
      match host.desk.sessions[peer]?, next.desk.sessions[peer]? with
      | some session, some _ => session.commonName = commonName && awaitsCheck session.phase
      | _, _ => false
  | .api id .check =>
      match host.api[id]?, next.api[id]? with
      | some conn, some _ => conn.commonName = commonName
      | _, _ => false
  | .api id .request =>
      match host.api[id]?, next.api[id]? with
      | some conn, some after => conn.commonName = commonName && conn.handling < after.handling
      | _, _ => false
  | .api id .respond => (host.api[id]?).any (·.commonName = commonName)
  | .port (.enroll (.advance id _)) =>
      match host.port.server.stageOf id, next.port.server.stageOf id with
      | some before, some after => (handsOut before after).any (·.commonName = commonName)
      | _, _ => false
  | .port (.proceed id _) =>
      match host.port.logins[id]?, next.port.logins[id]? with
      | some (_, .serves username), some (_, .answered answer) =>
        username = commonName && isGift answer
      | _, _ => false
  | _ => false

/-! ### The condition on a step -/

/-- Nothing that was let in for the identity is still being answered. -/
def idleFor (commonName : String) : Bool :=
  (host.port.server.running.all fun running =>
    running.requests.toList.all fun (_, _, stage) => !pastBlock commonName stage) &&
  (host.port.logins.toList.all fun (_, _, stage) => stage ≠ .serves commonName) &&
  host.api.toList.all fun (_, conn) => conn.commonName ≠ commonName || conn.handling = 0

/-- The credentials a login presents are good, and its name is blocked. -/
def admitsBlocked : LoginStage → Bool
  | .verifies username password =>
      host.port.server.registry.state.isRevoked username &&
        host.port.server.users.authenticate env.argon2 username password
  | .looksUpInvite username secret =>
      host.port.server.registry.state.isRevoked username &&
        (host.port.server.tokens.tokens[secret]?).any fun t => !t.revoked && t.usedByCommonName =
          some username
  | _ => false

/-- The condition on a step: an identity is blocked while nothing of it is being answered, no signal
is for a session between its check and its subscription, and no login is with the credentials of a
blocked name. -/
def orderly : HostAction → Bool
  | .desk (.advance id appended now) =>
      decide (System.OutsideWindow pki host.office (.advance id appended now)) &&
        match host.desk.calls[id]? with
        | some (.revoke commonName) => host.idleFor commonName
        | _ => true
  | .port (.proceed id _) =>
    (host.port.logins[id]?).all fun (_, stage) => !host.admitsBlocked env stage
  | _ => true

end Host

/-! ### Blocks and sessions -/

/-- A session of a blocked identity is past its check only if a call is on record that has blocked
it. -/
def Accounted (system : System) : Prop :=
  ∀ commonName, system.registry.state.isRevoked commonName = true →
    (∃ id, (id, Target.identity commonName) ∈ system.inForce) ∨
      ∀ (peer : Transport.SocketAddr) session, system.sessions[peer]? = some session →
        session.commonName = commonName → session.phase = .handshaken

variable {registry : RegistryState} {event : RegistryEvent} {commonName name : String}
  {before after : DeviceRegistry}
variable {appended : Bool} {now : Int} {id : Nat} {session : TlsSession}
  {peer : Transport.SocketAddr}
variable {action : Transport.Revocation.Action} {p : RegistryEvent → Prop}

theorem isRevoked_of_quiet (h : (applyEvent registry event).isRevoked commonName = true) :
    event = .revoked commonName ∨ registry.isRevoked commonName = true ∧
    event ≠ .unblocked commonName := by
  cases event with
  | enrolled name certPem atUnix clientUid =>
    rw [isRevoked_enrolled] at h
    exact .inr ⟨h, by simp⟩
  | revoked name =>
    simp only [applyEvent, isRevoked_setRevoked] at h
    split at h
    · next hname => exact .inl (hname ▸ rfl)
    · exact .inr ⟨h, by simp⟩
  | unblocked name =>
    simp only [applyEvent, isRevoked_setRevoked, Bool.and_false] at h
    split at h
    · cases h
    · next hname => exact .inr ⟨h, fun heq => hname (RegistryEvent.unblocked.inj heq)⟩
  | certRevoked fingerprint atUnix =>
    simp only [applyEvent] at h
    split at h <;> exact .inr ⟨h, by simp⟩
  | uidBound name uid | certDeleted id => exact .inr ⟨h, by simp⟩

theorem isRevoked_of_changes (hchanges : DeviceRegistry.Changes p before after)
    (h : after.state.isRevoked commonName = true) :
    p (.revoked commonName) ∨ before.state.isRevoked commonName = true := by
  rcases hchanges with rfl | ⟨event, hp, hrecord⟩
  · exact .inr h
  · obtain ⟨-, rfl⟩ := record_eq_ok.1 hrecord
    rcases isRevoked_of_quiet h with rfl | ⟨hbefore, -⟩
    · exact .inl hp
    · exact .inr hbefore

theorem isRevoked_of_noBlock (hchanges : DeviceRegistry.Changes p before after)
    (hp : ∀ name, ¬ p (.revoked name)) (h : after.state.isRevoked commonName = true) :
    before.state.isRevoked commonName = true :=
  (isRevoked_of_changes hchanges h).resolve_left (hp commonName)

section Desk

variable {pki : Pki} {system next : System}

theorem blocks_of_callStep {call : Call} (h : System.CallStep pki system id appended now call next)
    (hblocked : next.registry.state.isRevoked commonName = true) : next.sessions = system.sessions ∧
      (call = .revoke commonName ∧ (id, .identity commonName) ∈ next.inForce ∨
        system.registry.state.isRevoked commonName = true ∧
          ∀ other, (other, Target.identity commonName) ∈ system.inForce →
          (other, .identity commonName) ∈ next.inForce) := by
  cases h with
  | revoked hok =>
    refine ⟨rfl, ?_⟩
    rcases isRevoked_of_changes (changes_revoke hok rfl) hblocked with heq | hbefore
    · cases heq
      exact .inl ⟨rfl, List.mem_cons_self⟩
    · exact .inr ⟨hbefore, fun _ => List.mem_cons_of_mem _⟩
  | certRevoked hok =>
    have hchanges := changes_revokeCert (p := fun event => ∃ fp, event = .certRevoked fp now) hok
      fun fp => ⟨fp, rfl⟩
    exact ⟨rfl, .inr ⟨isRevoked_of_noBlock hchanges (by simp) hblocked, fun _ =>
      List.mem_cons_of_mem _⟩⟩
  | @unblocked name registry hok =>
    have hrecord := (unblock_eq_ok.1 hok).2
    obtain ⟨-, rfl⟩ := record_eq_ok.1 hrecord
    obtain ⟨hbefore, hother⟩ := (isRevoked_of_quiet hblocked).resolve_left RegistryEvent.noConfusion
    refine ⟨rfl, .inr ⟨hbefore, fun other hmem => List.mem_filter.2 ⟨hmem, ?_⟩⟩⟩
    have hname : commonName ≠ name := fun heq => hother (heq ▸ rfl)
    simpa using hname
  | _ => exact ⟨rfl, .inr ⟨hblocked, fun _ h => h⟩⟩

theorem open_of_awaitsCheck {generation : Nat}
    {move : Transport.Revocation.Move} {phase : Phase} (hawaits : awaitsCheck session.phase = true)
    (h : session.next pki registry generation move = some (some phase)) :
    registry.isRevoked session.commonName = false := by
  by_contra hblocked
  have hrefused : registry.access pki session.commonName session.cert ≠ .allowed :=
    fun hallowed => hblocked (access_eq_allowed_iff.1 hallowed).1
  cases hphase : session.phase with
  | handshaken | rechecking seen => cases move <;> simp [TlsSession.next, hphase, hrefused] at h
  | allowed | subscribed seen | waiting seen =>
    rw [hphase] at hawaits
    cases hawaits

theorem accounted_start (registry : DeviceRegistry) (users : Users.UserStore) :
    Accounted (System.start registry users) :=
  fun _ _ => .inr fun _ _ h => by simp [System.start] at h

theorem accounted_step (h : Accounted system) (hstep : system.step pki action = some next) :
    Accounted next := by
  intro commonName hblocked
  cases System.step_cases hstep with
  | connected =>
    refine (h commonName hblocked).imp_right fun hearly other current hcurrent hname => ?_
    rcases Dict.of_insert hcurrent with ⟨-, rfl⟩ | ⟨-, hcurrent⟩
    · rfl
    · exact hearly other current hcurrent hname
  | left =>
    refine (h commonName hblocked).imp_right fun hearly other current hcurrent => ?_
    exact hearly other current (Dict.of_erase hcurrent).2
  | @moved peer session move phase hsession hnext =>
    refine (h commonName hblocked).imp_right fun hearly other current hcurrent hname => ?_
    rcases Dict.of_insert hcurrent with ⟨-, rfl⟩ | ⟨-, hcurrent⟩
    · have hphase := hearly peer session hsession hname
      have hopen := open_of_awaitsCheck (by rw [hphase]; rfl) hnext
      rw [show session.commonName = commonName from hname, hblocked] at hopen
      cases hopen
    · exact hearly other current hcurrent hname
  | called => exact h commonName hblocked
  | @advanced id _ _ _ _ hcall hstep =>
    obtain ⟨hsessions, hnew | ⟨hbefore, hforce⟩⟩ := blocks_of_callStep hstep hblocked
    · exact .inl ⟨id, hnew.2⟩
    · refine (h commonName hbefore).imp (fun hmem => ?_) fun hearly => hsessions ▸ hearly
      obtain ⟨other, hother⟩ := hmem
      exact ⟨other, hforce other hother⟩
  | enrolled hok =>
    exact h commonName (isRevoked_of_noBlock (changes_record hok rfl) (by simp) hblocked)
  | certDeleted hok =>
    exact h commonName (isRevoked_of_noBlock (changes_deleteCert hok rfl) (by simp) hblocked)

theorem blocked_by_call (hstep : system.step pki action = some next)
    (hblocked : next.registry.state.isRevoked commonName = true) :
    system.registry.state.isRevoked commonName = true ∨
      ∃ id appended now, action = .advance id appended now ∧
      system.calls[id]? = some (.revoke commonName) := by
  cases System.step_cases hstep with
  | connected | left | moved | called => exact .inl hblocked
  | @advanced id appended now _ _ hcall hstep =>
    obtain ⟨-, ⟨rfl, -⟩ | ⟨hbefore, -⟩⟩ := blocks_of_callStep hstep hblocked
    · exact .inr ⟨id, appended, now, rfl, hcall⟩
    · exact .inl hbefore
  | enrolled hok => exact .inl (isRevoked_of_noBlock (changes_record hok rfl) (by simp) hblocked)
  | certDeleted hok =>
    exact .inl (isRevoked_of_noBlock (changes_deleteCert hok rfl) (by simp) hblocked)

end Desk

/-! ### Requests of a blocked identity -/

theorem find_ne_none_of_isRevoked (h : registry.isRevoked commonName = true) :
    registry.find commonName ≠ none := by
  obtain ⟨device, hdevice, -⟩ := isRevoked_eq_true_iff.1 h
  rw [find, hdevice]
  exact some_ne_none device

section Requests

variable {env : Env} {server : Server} {request : SignRequest} {input : Input}
  {stage stage' : Stage} {registry : DeviceRegistry} {tokens : EnrollmentTokenStore}
  {groups : Groups.GroupStore}

variable (htake : Take env server id request input stage registry tokens groups stage')

include htake

theorem isRevoked_take :
    registry.state.isRevoked commonName = server.registry.state.isRevoked commonName := by
  cases htake with
  | goes | inviteConsumed | notEnrolled | granted => rfl
  | rotated | adminEnrolled | enrolledNew => exact isRevoked_enrolled ..

theorem holds_take {target : Target} (h : target.Holds server.registry.state) :
    target.Holds registry.state := by
  cases htake with
  | goes | inviteConsumed | notEnrolled | granted => exact h
  | rotated | adminEnrolled | enrolledNew => exact h.applyEvent (by simp)

/-- A request that is not past the check of its block does not get past it, nor to a certificate. -/
theorem refused_take (hblocked : server.registry.state.isRevoked commonName = true)
    (hbefore : pastBlock commonName stage = false) :
    pastBlock commonName stage' = false ∧ (handsOut stage stage').any (·.commonName = commonName) =
    false := by
  have hnew {name : String} (hname : server.registry.state.find name = none) :
      decide (name = commonName) = false := by
    refine decide_eq_false ?_
    rintro rfl
    exact find_ne_none_of_isRevoked hblocked hname
  cases htake with
  | goes hgoes =>
    cases hgoes with
    | notBlocked hopen =>
      refine ⟨decide_eq_false ?_, rfl⟩
      rintro rfl
      rw [hblocked] at hopen
      cases hopen
    | tokenCleared | fileDeleted => exact ⟨hbefore, rfl⟩
    | refused hstage => cases stage <;> first | exact ⟨rfl, rfl⟩ | cases hstage
    | noPassword =>
      unfold Server.withoutPassword
      split <;> exact ⟨rfl, rfl⟩
    | _ => exact ⟨rfl, rfl⟩
  | rotated => exact ⟨hbefore, hbefore⟩
  | granted => exact ⟨rfl, hbefore⟩
  | adminEnrolled hfind | enrolledNew hfind => exact ⟨hnew hfind, hnew hfind⟩
  | inviteConsumed | notEnrolled => exact ⟨rfl, rfl⟩

end Requests

namespace Host

variable {env : Env} {pki : Pki} {host next : Host}

structure Idle (host : Host) (commonName : String) : Prop where
  stages : ∀ id request stage, host.At id request stage → pastBlock commonName stage = false
  logins : ∀ (id : Nat) request, host.port.logins[id]? ≠ some (request, .serves commonName)
  api : ∀ (id : Nat) conn, host.api[id]? = some conn → conn.commonName = commonName →
    conn.handling = 0

theorem idle_of_idleFor (h : host.idleFor commonName = true) : host.Idle commonName := by
  simp only [idleFor, Bool.and_eq_true] at h
  obtain ⟨⟨hstages, hlogins⟩, hapi⟩ := h
  refine ⟨fun id request stage hat => ?_, fun id request hserves => ?_, fun id conn hconn hname =>
    ?_⟩
  · obtain ⟨running, hrunning, hfound⟩ := hat
    rw [hrunning, all_some, List.all_eq_true] at hstages
    have hstage := hstages (id, request, stage) (TreeMap.mem_toList_iff_getElem?_eq_some.2 hfound)
    simpa using hstage
  · have hstage := List.all_eq_true.1 hlogins (id, request, .serves commonName)
      (TreeMap.mem_toList_iff_getElem?_eq_some.2 hserves)
    simp at hstage
  · have hhandling :=
      List.all_eq_true.1 hapi (id, conn) (TreeMap.mem_toList_iff_getElem?_eq_some.2 hconn)
    simpa [hname] using hhandling

/-- The credentials that a login presents are good. -/
def Proves (env : Env) (host : Host) (username : String) : LoginStage → Prop
  | .verifies name password =>
    name = username ∧ host.port.server.users.authenticate env.argon2 username password = true
  | .looksUpInvite name secret =>
      name = username ∧
        (host.port.server.tokens.tokens[secret]?).any (fun t => !t.revoked && t.usedByCommonName =
          some username) = true
  | _ => False

variable {move : ApiMove} {request : LoginRequest} {username : String} {conn : ApiConn}

private theorem proves_of_proceed {port : Port} {running : Running} {input : Input}
    {stage : LoginStage} (h : host.port.proceed env running id request input stage = some port) :
    ∃ after, port.logins = host.port.logins.insert id (request, after) ∧
      ∀ name, after = .serves name → Proves env host name stage := by
  cases stage with
  | limits | chooses | serves =>
    cases h
    refine ⟨_, rfl, fun name hname => ?_⟩
    (repeat' split at hname) <;> cases hname
  | verifies name password | looksUpInvite name secret =>
    simp only [Port.proceed] at h
    split at h
    · next hgood =>
      cases h
      refine ⟨_, rfl, fun name' hname => ?_⟩
      simp_all [Proves]
    · cases h
      exact ⟨_, rfl, fun _ hname => by cases hname⟩
  | answered answer => cases h

private theorem serves_of_proceed {input : Input}
    (h : host.stepPort env (.proceed id input) = some next) {other : Nat}
    (hserves : next.port.logins[other]? = some (request, .serves username)) :
    host.port.logins[other]? = some (request, .serves username) ∨
      other = id ∧ ∃ stage, host.port.logins[id]? = some (request, stage) ∧
      Proves env host username stage := by
  obtain ⟨port, hport, rfl⟩ := map_eq_some_iff.1 h
  simp only [Port.step] at hport
  split at hport
  · next running login stage hrunning hlogin =>
    obtain ⟨after, hlogins, hproves⟩ := proves_of_proceed hport
    rw [hlogins] at hserves
    obtain ⟨rfl, hafter⟩ | ⟨-, hbefore⟩ := Dict.of_insert hserves
    · obtain ⟨rfl, rfl⟩ := Prod.mk.inj hafter
      exact .inr ⟨rfl, stage, hlogin, hproves username rfl⟩
    · exact .inl hbefore
  · cases hport

/-- A login is let in by its own step, with good credentials. -/
theorem serves_of_stepPort {action : PortAction} (h : host.stepPort env action = some next)
    (hserves : next.port.logins[id]? = some (request, .serves username)) :
    host.port.logins[id]? = some (request, .serves username) ∨
      ∃ input stage, action = .proceed id input ∧ host.port.logins[id]? = some (request, stage) ∧
        Proves env host username stage := by
  cases action with
  | enroll action =>
    left
    cases action with
    | crash =>
      cases h
      simp at hserves
    | admin call =>
      simp only [stepPort] at h
      split at h
      · cases h
      · obtain ⟨port, hport, rfl⟩ := map_eq_some_iff.1 h
        obtain ⟨server, -, rfl⟩ := map_eq_some_iff.1 hport
        exact hserves
    | boot | receive | advance | drop =>
      obtain ⟨port, hport, rfl⟩ := map_eq_some_iff.1 h
      obtain ⟨server, -, rfl⟩ := map_eq_some_iff.1 hport
      exact hserves
  | login other login =>
    left
    obtain ⟨port, hport, rfl⟩ := map_eq_some_iff.1 h
    simp only [Port.step] at hport
    split at hport
    · cases hport
      obtain ⟨-, hlimits⟩ | ⟨-, hbefore⟩ := Dict.of_insert hserves
      · cases hlimits
      · exact hbefore
    · cases hport
  | proceed other input =>
    rcases serves_of_proceed h hserves with hbefore | ⟨rfl, stage, hstage, hproves⟩
    · exact .inl hbefore
    · exact .inr ⟨input, stage, rfl, hstage, hproves⟩
  | leave other =>
    cases h
    exact .inl (Dict.of_erase hserves).2
  | finish check =>
    left
    obtain ⟨port, hport, rfl⟩ := map_eq_some_iff.1 h
    simp only [Port.step] at hport
    split at hport
    · cases hport
      exact hserves
    · cases hport
  | tick elapsed =>
    cases h
    exact .inl hserves

/-! ### Runs -/

structure LockInv (pki : Pki) (host : Host) : Prop where
  sound : host.Sound
  watch : System.WatchInv pki host.office
  accounted : Accounted host.office
  idle : ∀ commonName, host.port.server.registry.state.isRevoked commonName = true →
    host.Idle commonName

theorem lockInv_start : LockInv pki {} where
  sound := sound_start
  watch := System.watchInv_start {} {}
  accounted := accounted_start {} {}
  idle commonName h := by simp [isRevoked] at h

section

variable (h : LockInv pki host)

include h

/-- The desk stands, and the registry behind it keeps what it has revoked and blocks nobody. -/
theorem LockInv.same_desk (hdesk : next.desk = host.desk)
    (hholds : ∀ target : Target, target.Holds host.port.server.registry.state →
      target.Holds next.port.server.registry.state)
    (hblocked : ∀ commonName, next.port.server.registry.state.isRevoked commonName = true →
      host.port.server.registry.state.isRevoked commonName = true) :
    System.WatchInv pki next.office ∧ Accounted next.office := by
  have hoffice : next.office = { host.office with
      registry := next.port.server.registry, users := next.port.server.users } := by
    rw [office, hdesk]
    rfl
  rw [hoffice]
  refine ⟨⟨fun entry hentry => hholds _ (h.watch.holds entry hentry), h.watch.owned,
    h.watch.seen_le, h.watch.informed⟩, ?_⟩
  exact fun commonName hrevoked => h.accounted commonName (hblocked commonName hrevoked)

private theorem LockInv.takes {request : SignRequest} {stage stage' : Stage} (hsound : next.Sound)
    (htakes : Takes env host next id request stage stage') : LockInv pki next := by
  obtain ⟨input, htake⟩ := htakes.take
  have hblocked : ∀ commonName, next.port.server.registry.state.isRevoked commonName = true →
      host.port.server.registry.state.isRevoked commonName = true := fun _ hrevoked =>
        isRevoked_take htake ▸ hrevoked
  have hdesk : next.desk = host.desk := by rw [htakes.next_eq]
  have hapi : next.api = host.api := by rw [htakes.next_eq]
  obtain ⟨hwatch, haccounted⟩ :=
    h.same_desk hdesk (fun _ hholds => holds_take htake hholds) hblocked
  refine ⟨hsound, hwatch, haccounted, fun commonName hrevoked => ?_⟩
  have hidle := h.idle commonName (hblocked commonName hrevoked)
  refine ⟨fun other request' current hcurrent => ?_, htakes.logins ▸ hidle.logins, hapi ▸ hidle.api⟩
  rcases htakes.moved other request' current hcurrent with ⟨-, -, rfl⟩ | hbefore
  · exact (refused_take htake (hblocked commonName hrevoked)
      (hidle.stages id request stage htakes.before)).1
  · exact hidle.stages other request' current hbefore

theorem LockInv.port {action : PortAction} (horderly : host.orderly env pki (.port action) = true)
    (hsound : next.Sound) (hstep : host.stepPort env action = some next) : LockInv pki next := by
  cases effect_of_stepPort h.sound.registry h.sound.users hstep with
  | takes htakes => exact h.takes hsound htakes
  | rests hmoved hregistry husers hnext =>
    rcases hnext with hnext | ⟨hnext, hlogins⟩
    · have hdesk : next.desk = host.desk := by rw [hnext]
      have hapi : next.api = host.api := by rw [hnext]
      obtain ⟨hwatch, haccounted⟩ :=
        h.same_desk hdesk (fun _ hholds => hregistry ▸ hholds) fun _ hrevoked =>
          hregistry ▸ hrevoked
      refine ⟨hsound, hwatch, haccounted, fun commonName hrevoked => ?_⟩
      rw [hregistry] at hrevoked
      have hidle := h.idle commonName hrevoked
      refine ⟨fun id request stage hat => ?_, fun id request hserves => ?_, hapi ▸ hidle.api⟩
      · rcases hmoved id request stage hat with rfl | hbefore
        · rfl
        · exact hidle.stages id request stage hbefore
      · rcases serves_of_stepPort hstep hserves with hbefore | ⟨input, stage, rfl, hstage, hproves⟩
        · exact hidle.logins id request hbefore
        · -- The credentials of a blocked name were good.
          simp only [orderly, hstage, all_some] at horderly
          cases stage with
          | verifies name password =>
            obtain ⟨rfl, hgood⟩ := hproves
            simp [admitsBlocked, hrevoked, hgood] at horderly
          | looksUpInvite name secret =>
            obtain ⟨rfl, hgood⟩ := hproves
            simp only [admitsBlocked, hrevoked, hgood] at horderly
            cases horderly
          | limits | chooses | serves | answered => exact hproves
    · have hempty :
          next.office = System.start next.port.server.registry next.port.server.users := by
        rw [hnext]
        rfl
      have hapi : next.api = ∅ := by rw [hnext]
      refine ⟨hsound, hempty ▸ System.watchInv_start _ _, hempty ▸ accounted_start _ _,
        fun commonName hrevoked => ?_⟩
      rw [hregistry] at hrevoked
      refine ⟨fun id request stage hat => ?_, fun id request hserves => ?_, fun id conn hconn => ?_⟩
      · rcases hmoved id request stage hat with rfl | hbefore
        · rfl
        · exact (h.idle commonName hrevoked).stages id request stage hbefore
      · simp [hlogins] at hserves
      · simp [hapi] at hconn

omit h in
theorem Idle.desk (h : host.Idle commonName) (heffect : DeskEffect pki host next action) :
    next.Idle commonName := by
  refine ⟨fun id request stage hat => ?_, heffect.logins ▸ h.logins, heffect.api ▸ h.api⟩
  obtain ⟨running, hrunning, hfound⟩ := hat
  exact h.stages id request stage ⟨running, heffect.running ▸ hrunning, hfound⟩

omit h in
private theorem outsideWindow_of_orderly (h : host.orderly env pki (.desk action) = true) :
    System.OutsideWindow pki host.office action := by
  cases action with
  | advance id appended now => exact of_decide_eq_true (Bool.and_eq_true_iff.1 h).1
  | connect | move | call | enroll | deleteCert => trivial

theorem LockInv.desk (horderly : host.orderly env pki (.desk action) = true) (hsound : next.Sound)
    (hstep : host.stepDesk pki action = some next) : LockInv pki next := by
  have heffect := effect_of_stepDesk hstep
  refine ⟨hsound, h.watch.step (outsideWindow_of_orderly horderly) heffect.office,
    accounted_step h.accounted heffect.office, fun commonName hrevoked => ?_⟩
  rcases blocked_by_call heffect.office hrevoked with hbefore | ⟨id, appended, now, rfl, hcall⟩
  · exact (h.idle commonName hbefore).desk heffect
  · have hcall : host.desk.calls[id]? = some (.revoke commonName) := hcall
    simp only [orderly, hcall, Bool.and_eq_true] at horderly
    exact (idle_of_idleFor horderly.2).desk heffect

omit h in
theorem conn_next_eq_some {after : ApiConn} (h : conn.next pki registry move = some (some after)) :
    after.commonName = conn.commonName ∧ (registry.access pki conn.commonName conn.cert = .allowed ∨
      move ≠ .check ∧ after.handling ≤ conn.handling ∧ (move = .respond → conn.handling ≠ 0)) := by
  cases move with
  | check =>
    simp only [ApiConn.next] at h
    split at h
    · cases h
    · split at h
      · next hallowed =>
        cases Option.some.inj h
        exact ⟨rfl, .inl hallowed⟩
      · cases h
  | request =>
    simp only [ApiConn.next] at h
    split at h
    · cases h
    · split at h
      · next hallowed =>
        cases Option.some.inj h
        exact ⟨rfl, .inl hallowed⟩
      · cases Option.some.inj h
        exact ⟨rfl, .inr ⟨by simp, le_rfl, by simp⟩⟩
  | respond =>
    simp only [ApiConn.next] at h
    split at h
    · cases h
    · next hbusy =>
      cases Option.some.inj h
      exact ⟨rfl, .inr ⟨by simp, Nat.sub_le _ _, fun _ => hbusy⟩⟩
  | close => cases h

omit h in
theorem handling_next {after : ApiConn} (hblocked : registry.isRevoked conn.commonName = true)
    (h : conn.next pki registry move = some (some after)) :
    move ≠ .check ∧ after.handling ≤ conn.handling ∧ (move = .respond → conn.handling ≠ 0) := by
  refine (conn_next_eq_some h).2.resolve_left fun hallowed => ?_
  rw [(access_eq_allowed_iff.1 hallowed).1] at hblocked
  cases hblocked

theorem LockInv.ofApi {api : TreeMap Nat ApiConn} (hsound : Sound { host with api })
    (hapi : ∀ (id : Nat) conn, api[id]? = some conn →
      host.port.server.registry.state.isRevoked conn.commonName = true → conn.handling = 0 ∨
      host.api[id]? = some conn) : LockInv pki { host with api } := by
  refine ⟨hsound, h.watch, h.accounted, fun commonName hrevoked => ?_⟩
  have hidle := h.idle commonName hrevoked
  refine ⟨hidle.stages, hidle.logins, fun id conn hconn hname => ?_⟩
  rcases hapi id conn hconn (hname ▸ hrevoked) with hnone | hbefore
  · exact hnone
  · exact hidle.api id conn hbefore hname

theorem LockInv.api (hsound : next.Sound) (hstep : host.stepApi pki id move = some next) :
    LockInv pki next := by
  obtain ⟨conn, hconn, ⟨-, rfl⟩ | ⟨after, hafter, rfl⟩⟩ := stepApi_eq_some hstep
  · exact h.ofApi hsound fun _ _ hcurrent _ => .inr (Dict.of_erase hcurrent).2
  · refine h.ofApi hsound fun other current hcurrent hrevoked => ?_
    rcases Dict.of_insert hcurrent with ⟨-, rfl⟩ | ⟨-, hbefore⟩
    · rw [(conn_next_eq_some hafter).1] at hrevoked
      have hle := (handling_next hrevoked hafter).2.1
      rw [(h.idle _ hrevoked).api id conn hconn rfl] at hle
      exact .inl (Nat.le_zero.1 hle)
    · exact .inr hbefore

private theorem LockInv.connect {cert : Der} (hsound : next.Sound)
    (hstep : host.step env pki (.connect id name cert) = some next) : LockInv pki next := by
  simp only [Host.step] at hstep
  split at hstep
  · cases hstep
    refine h.ofApi hsound fun other current hcurrent _ => ?_
    rcases Dict.of_insert hcurrent with ⟨-, rfl⟩ | ⟨-, hbefore⟩
    · exact .inl rfl
    · exact .inr hbefore
  · cases hstep

theorem LockInv.step {action : HostAction} (horderly : host.orderly env pki action = true)
    (hstep : host.step env pki action = some next) : LockInv pki next := by
  have hsound := h.sound.step hstep
  cases action with
  | port action => exact h.port horderly hsound hstep
  | desk action =>
    simp only [Host.step] at hstep
    split at hstep
    · exact h.desk horderly hsound hstep
    · cases hstep
  | connect id name cert => exact h.connect hsound hstep
  | api id move => exact h.api hsound hstep

end

/-! ### What a blocked identity gets -/

section

variable (hblocked : host.port.server.registry.state.isRevoked commonName = true)

include hblocked

theorem stream_refused {move : Transport.Revocation.Move}
    (hstep : host.stepDesk pki (.move peer move) = some next) :
    host.gives next commonName (.desk (.move peer move)) = false := by
  obtain ⟨desk, hoffice, rfl⟩ := map_eq_some_iff.1 hstep
  cases System.step_cases hoffice with
  | @left _ session _ hsession hnext =>
    have hsession : host.desk.sessions[peer]? = some session := hsession
    have hgone : (host.office.sessions.erase peer)[peer]? = none := Dict.getElem?_erase_self ..
    simp [gives, settle]
  | @moved _ session _ phase hsession hnext =>
    have hsession : host.desk.sessions[peer]? = some session := hsession
    have hthere : (host.office.sessions.insert peer { session with phase })[peer]? =
        some { session with phase } :=
      Dict.getElem?_insert_self ..
    simp only [gives, settle, hsession, hthere, Bool.and_eq_false_iff, decide_eq_false_iff_not]
    by_cases hname : session.commonName = commonName
    · right
      by_contra hawaits
      have hopen := open_of_awaitsCheck (Bool.not_eq_false _ ▸ hawaits) hnext
      rw [hname] at hopen
      cases hopen.symm.trans hblocked
    · exact .inl hname

private theorem LockInv.answer (h : LockInv pki host)
    (hstep : host.stepApi pki id move = some next) :
    host.gives next commonName (.api id move) = false := by
  obtain ⟨conn, hconn, ⟨hends, rfl⟩ | ⟨after, hafter, rfl⟩⟩ := stepApi_eq_some hstep
  · have hgone : (host.api.erase id)[id]? = none := Dict.getElem?_erase_self ..
    cases move with
    | check | request => simp only [gives, hconn, hgone]
    | respond =>
      simp only [ApiConn.next] at hends
      split at hends <;> cases hends
    | close => rfl
  · have hthere : (host.api.insert id after)[id]? = some after := Dict.getElem?_insert_self ..
    by_cases hname : conn.commonName = commonName
    · subst hname
      obtain ⟨hcheck, hle, hrespond⟩ := handling_next hblocked hafter
      cases move with
      | check => exact absurd rfl hcheck
      | request =>
        simp only [gives, hconn, hthere, decide_true, Bool.true_and, decide_eq_false_iff_not]
        exact Nat.not_lt.2 hle
      | respond => exact absurd ((h.idle _ hblocked).api id conn hconn rfl) (hrespond rfl)
      | close => rfl
    · cases move with
      | check => simpa [gives, hconn] using hname
      | request => simp only [gives, hconn, hthere, hname, decide_false, Bool.false_and]
      | respond => simpa [gives, hconn] using hname
      | close => rfl

theorem LockInv.gives_nothing {action : HostAction} (h : LockInv pki host)
    (hstep : host.step env pki action = some next) : host.gives next commonName action = false := by
  have hidle := h.idle commonName hblocked
  cases action with
  | port action =>
    cases action with
    | enroll action =>
      cases action with
      | advance id input =>
        obtain ⟨request, stage, stage', htakes⟩ := takes_of_advance hstep
        obtain ⟨_, htake⟩ := htakes.take
        simp only [gives, htakes.before.stageOf, htakes.after.stageOf]
        exact (refused_take htake hblocked (hidle.stages id request stage htakes.before)).2
      | boot | crash | receive | drop | admin => rfl
    | proceed id input =>
      simp only [gives]
      split
      · next request username _ answer hserves _ =>
        have hother : username ≠ commonName := by
          rintro rfl
          exact hidle.logins id request hserves
        simp [hother]
      · rfl
    | login | leave | finish | tick => rfl
  | desk action =>
    simp only [Host.step] at hstep
    split at hstep
    · cases action with
      | move peer move => exact stream_refused hblocked hstep
      | connect | call | advance | enroll | deleteCert => rfl
    · cases hstep
  | connect => rfl
  | api id move => exact h.answer hblocked hstep

/-- The identity is blocked by calls that are on record, none of which has signalled so far. -/
structure SignalPending (host : Host) (commonName : String) : Prop where
  blocked : ∃ id, (id, Target.identity commonName) ∈ host.desk.inForce
  pending : ∀ id, (id, Target.identity commonName) ∈ host.desk.inForce →
    host.desk.calls[id]? = some (.signalling (some (.identity commonName)))

/-- A session of a blocked identity is told once a call that blocks it has signalled. -/
theorem LockInv.told (h : LockInv pki host)
    (hsession : host.desk.sessions[peer]? = some session)
    (hname : session.commonName = commonName) : session.phase.Informed host.desk.generation ∨
    host.SignalPending commonName := by
  by_cases hinformed : session.phase.Informed host.desk.generation
  · exact .inl hinformed
  · refine .inr ⟨(h.accounted commonName hblocked).resolve_right fun hearly =>
      ?_, fun id hforce => ?_⟩
    · rw [hearly peer session hsession hname] at hinformed
      exact hinformed trivial
    · obtain ⟨call, hcall, hrevoked⟩ := h.watch.owned (id, .identity commonName) hforce
      rcases hrevoked with rfl | hsignalled
      · exact hcall
      · exact absurd (h.watch.informed peer session hsession (id, .identity commonName) hforce hname
          call hcall hsignalled) hinformed

end

/-- In every run whose steps are orderly, no step gives a blocked identity anything, and each of its
sessions that runs is told to check its access again as soon as a call that blocks it has
signalled. -/
theorem blocked_identity_gets_nothing (env : Env) (pki : Pki) {actions : List HostAction}
    {host : Host} (hrun : run (step env pki) {} actions = some host)
    (horderly : Along (step env pki) (fun host action => host.orderly env pki action =
      true) {} actions)
    (commonName : String) (hblocked : host.port.server.registry.state.isRevoked commonName = true) :
    (∀ action next, host.step env pki action = some next →
      host.gives next commonName action = false) ∧ ∀ (peer : Transport.SocketAddr) session,
      host.desk.sessions[peer]? = some session → session.commonName = commonName →
        session.phase.Informed host.desk.generation ∨ host.SignalPending commonName := by
  have hinv : LockInv pki host :=
    run_invariant (LockInv pki) hrun horderly lockInv_start fun _ _ _ h horderly hstep =>
      h.step horderly hstep
  exact ⟨fun _ _ hstep => hinv.gives_nothing hblocked hstep, fun _ _ hsession hname =>
    hinv.told hblocked hsession hname⟩

end Host

namespace Blocked

open Sample

def enrolled : List HostAction := minted ++ enroll 0 9

def block : List HostAction :=
  .desk (.call 0 (.revoke "jz")) :: List.replicate 3 (.desk (.advance 0 true 0))

/-- A request for a tool file with the password of the account, up to its answer. -/
def login : List HostAction :=
  .port (.login 0
    { ipKey := "ip:10.0.0.1", endpoint := .toolFile "ATAK",
      authorization := some "Basic jz:pw" }) :: List.replicate 3 (.port (.proceed 0 {}))

end Blocked

open Blocked Sample in
/-- The call has returned, and the blocked name is served a tool file; or it gets a new certificate,
for a request that had passed its check when the block came. -/
theorem blocked_identity_is_served :
    (∃ host, run (Host.step env .sample) {} (enrolled ++ block ++ login) = some host ∧
      host.port.server.registry.state.isRevoked "jz" = true ∧ host.desk.calls[0]? = some .returned ∧
      ∃ next, host.step env .sample (.port (.proceed 0 {})) = some next ∧
        host.gives next "jz" (.port (.proceed 0 {})) = true) ∧
    (∃ host, run (Host.step env .sample) {} (enrolled ++ enroll 1 7 ++ block) = some host ∧
      host.port.server.registry.state.isRevoked "jz" = true ∧ host.desk.calls[0]? = some .returned ∧
      ∃ next, host.step env .sample (.port (.enroll (.advance 1 {}))) = some next ∧
        host.gives next "jz" (.port (.enroll (.advance 1 {}))) = true) := by
  decide +kernel

open Blocked Sample in
theorem blocked_identity_refused :
    ∃ host, run (Host.step env .sample) {}
    (enrolled ++ block ++ [.desk (.connect "10.0.0.2:5000" "jz" [])]) = some host ∧
      host.port.server.registry.state.isRevoked "jz" = true ∧
      ∃ next, host.step env .sample (.desk (.move "10.0.0.2:5000" .check)) = some next ∧
        host.gives next "jz" (.desk (.move "10.0.0.2:5000" .check)) = false := by
  refine exists_end_and (fun host =>
    ∃ next, host.step env .sample (.desk (.move "10.0.0.2:5000" .check)) = some next ∧ True) (by
      decide +kernel) fun host hrun hblocked hend => ?_
  obtain ⟨next, hstep, -⟩ := hend
  have hnothing :=
    Host.blocked_identity_gets_nothing env .sample hrun (by decide +kernel) "jz" hblocked
  exact ⟨next, hstep, hnothing.1 _ _ hstep⟩

end MicroTak.Listeners
