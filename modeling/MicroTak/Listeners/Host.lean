import MicroTak.Enrollment.Port
import MicroTak.Enrollment.Roll
import MicroTak.Transport.RevocationWatch

/-!
# The listeners of one server

The enrollment port, the Marti API and the TLS streams of one server stand on one registry and one
store of accounts.  Their requests run side by side with the calls of an administrator, which take
one lock after the other.  Beside the server the model keeps which certificates were enrolled with
the password of an account, and for which accounts `revoke_user` has returned.
-/

namespace MicroTak.Listeners

open Std Registry Users Enrollment Transition Server DeviceRegistry Option
open Transport.Revocation (System Call TlsSession Phase Target)

/-- A connection to the Marti API; `handling` counts its requests that were let in and are not
answered yet. -/
structure ApiConn where
  commonName : String
  cert : Der
  admitted : Bool := false
  handling : Nat := 0
  deriving DecidableEq

inductive ApiMove where
  /-- The access check after the handshake. -/
  | check
  /-- A request, with the access check of the middleware. -/
  | request
  | respond
  | close
  deriving DecidableEq

/-- Where a step takes a connection: `none` if it cannot be taken, `some none` if the connection
ends. -/
def ApiConn.next (pki : Pki) (registry : RegistryState) (conn : ApiConn) :
    ApiMove → Option (Option ApiConn)
  | .check =>
      if conn.admitted then none
      else if registry.access pki conn.commonName conn.cert =
        .allowed then some (some { conn with admitted := true })
      else some none
  | .request =>
      if !conn.admitted then none
      else if registry.access pki conn.commonName conn.cert = .allowed then
        some (some { conn with handling := conn.handling + 1 })
      else some (some conn)
  | .respond =>
    if conn.handling = 0 then none else some (some { conn with handling := conn.handling - 1 })
  | .close => some none

/-- `desk` has the streams and the calls of the administrator; its registry and accounts are those
of `port`, see `office`. -/
structure Host where
  port : Port := {}
  desk : System := {}
  api : TreeMap Nat ApiConn := ∅
  /-- What each running call was made as. -/
  asked : TreeMap Nat Transport.Revocation.Request := ∅
  /-- The certificates enrolled with the password of the account of their name. -/
  onPassword : List Signed := []
  /-- The accounts that `revoke_user` has returned for. -/
  closed : List String := []

inductive HostAction where
  | port (action : PortAction)
  | desk (action : Transport.Revocation.Action)
  | connect (id : Nat) (commonName : String) (cert : Der)
  | api (id : Nat) (move : ApiMove)

/-- The calls that go through the desk, in steps. -/
def inSteps : AdminCall → Bool
  | .revoke _ | .revokeCert _ _ | .unblock _ | .deleteCert _ | .revokeUser _ => true
  | .mintUser .. | .mintToken .. | .revokeToken _ | .changeGroups _ => false

/-- The certificate that a request enrolls with a password in this step. -/
def rotation : (before after : Stage) → List Signed
  | .rotates signed _, .grants _ _ => [signed]
  | _, _ => []

namespace Host

variable (env : Env) (pki : Pki) (host : Host)

/-- The desk, around the stores. -/
def office : System :=
  { host.desk with registry := host.port.server.registry, users := host.port.server.users }

/-- The desk and the stores after a step of the desk. -/
def settle (next : System) : Host :=
  { host with
    desk := next
    port := { host.port with
      server := { host.port.server with registry := next.registry, users := next.users } } }

/-- The certificate that the request has enrolled with a password in its step to `port`. -/
def rotated (id : Nat) (port : Port) : List Signed :=
  match host.port.server.stageOf id, port.server.stageOf id with
  | some before, some after => rotation before after
  | _, _ => []

/-- The account that the step of a call to `next` has revoked for good. -/
def returned (id : Nat) (next : System) : List String :=
  match host.asked[id]?, next.calls[id]? with
  | some (.revokeUser username), some .returned => [username]
  | _, _ => []

def stepPort : PortAction → Option Host
  | .enroll .crash =>
      (host.port.step env (.enroll .crash)).map fun port =>
        { host with port, desk := {}, api := ∅, asked := ∅ }
  | .enroll (.admin call) =>
      if inSteps call then none else (host.port.step env (.enroll (.admin call))).map
        ({ host with port := · })
  | .enroll (.advance id input) =>
      (host.port.step env (.enroll (.advance id input))).map fun port =>
        { host with port, onPassword := host.onPassword ++ host.rotated id port }
  | action => (host.port.step env action).map ({ host with port := · })

def stepDesk : Transport.Revocation.Action → Option Host
  -- Certificates are enrolled through the port.
  | .enroll .. => none
  | .call id request =>
      (host.office.step pki (.call id request)).map fun next =>
        { host.settle next with asked := host.asked.insert id request }
  | .advance id appended now =>
      (host.office.step pki (.advance id appended now)).map fun next =>
        { host.settle next with closed := host.closed ++ host.returned id next }
  | action => (host.office.step pki action).map host.settle

def stepApi (id : Nat) (move : ApiMove) : Option Host :=
  match host.api[id]? with
  | none => none
  | some conn =>
      match conn.next pki host.port.server.registry.state move with
      | none => none
      | some none => some { host with api := host.api.erase id }
      | some (some conn) => some { host with api := host.api.insert id conn }

def step : HostAction → Option Host
  | .port action => host.stepPort env action
  | .desk action => if host.port.server.running.isSome then host.stepDesk pki action else none
  | .connect id commonName cert =>
      if host.port.server.running.isSome && (host.api[id]?).isNone then
        some { host with api := host.api.insert id { commonName, cert } }
      else none
  | .api id move => host.stepApi pki id move

end Host

/-! ### What a step of the port does -/

def Host.At (host : Host) (id : Nat) (request : SignRequest) (stage : Stage) : Prop :=
  ∃ running, host.port.server.At running id request stage

/-- Revoked accounts stay so, and what the log says goes on to be what the store has. -/
structure Later (before after : UserStore) : Prop where
  faithful : before.Faithful → after.Faithful
  revoked : ∀ name, before.Revoked name → after.Revoked name

variable {id : Nat} {request : SignRequest} {stage : Stage} {input : Input}
  {before after : DeviceRegistry} {now : Int} {pki : Pki} {system next : System}
  {action : Transport.Revocation.Action}

theorem Host.At.stageOf {host : Host} (h : host.At id request stage) :
    host.port.server.stageOf id = some stage := by
  obtain ⟨running, hat⟩ := h
  exact hat.stageOf

theorem later_refl (users : UserStore) : Later users users :=
  ⟨fun h => h, fun _ h => h⟩

structure Takes (env : Env) (host next : Host) (id : Nat) (request : SignRequest)
    (stage stage' : Stage) : Prop where
  before : host.At id request stage
  after : next.At id request stage'
  moved : ∀ other request' current, next.At other request' current →
    other = id ∧ request' = request ∧ current = stage' ∨ host.At other request' current
  take : ∃ input, Take env host.port.server id request input stage next.port.server.registry
    next.port.server.tokens next.port.server.groups stage'
  users : next.port.server.users = host.port.server.users
  logins : next.port.logins = host.port.logins
  next_eq : next =
    { host with port := next.port, onPassword := host.onPassword ++ rotation stage stage' }

/-- A step of the port, as far as the requests for certificates, the registry and the accounts
go. -/
inductive PortEffect (env : Env) (host next : Host) : Prop where
  | takes {id : Nat} {request : SignRequest} {stage stage' : Stage}
    (htakes : Takes env host next id request stage stage')
  /-- Requests come and go; a crash ends everything that runs. -/
  | rests (hmoved : ∀ id request stage, next.At id request stage → stage = .received ∨
    host.At id request stage)
      (hregistry : next.port.server.registry = host.port.server.registry)
      (husers : Later host.port.server.users next.port.server.users)
      (hnext : next = { host with port := next.port } ∨
        next = { host with port := next.port, desk := {}, api := ∅, asked := ∅ } ∧
          next.port.logins = ∅)

namespace Host

variable {env : Env} {host next : Host}

/-- The port and nothing else has changed, and behind it neither a request nor the stores. -/
theorem effect_of_same {port : Port}
    (hrunning : ∀ running' id request stage, port.server.At running' id request stage →
      stage = .received ∨ host.At id request stage) (hregistry :
      port.server.registry = host.port.server.registry)
    (husers : Later host.port.server.users port.server.users) :
    PortEffect env host { host with port } :=
  .rests (fun id request stage hat => by
    obtain ⟨running', hat⟩ := hat
    exact hrunning running' id request stage hat) hregistry husers (.inl rfl)

theorem takes_of_advance (h : host.stepPort env (.enroll (.advance id input)) = some next) :
    ∃ request stage stage', Takes env host next id request stage stage' := by
  obtain ⟨port, hport, rfl⟩ := map_eq_some_iff.1 h
  obtain ⟨server, hserver, rfl⟩ := map_eq_some_iff.1 hport
  obtain ⟨running, request, stage, running', stage', hat, hat', hrequests, husers, htake⟩ :=
    took_of_step hserver
  have hrotated : host.rotated id { host.port with server } = rotation stage stage' := by
    simp [rotated, hat.stageOf, hat'.stageOf]
  rw [hrotated]
  refine ⟨request, stage, stage', ⟨running, hat⟩, ⟨running', hat'⟩,
    fun other request' current hcurrent => ?_, ⟨_, htake⟩, husers, rfl, rfl⟩
  obtain ⟨_, hcurrent⟩ := hcurrent
  rcases hcurrent.of_insert hat.1 hat'.1 hrequests with hself | ⟨-, hbefore⟩
  · exact .inl hself
  · exact .inr ⟨running, hbefore⟩

theorem effect_boot {random : String} (hregistry : host.port.server.registry.Faithful)
    (husers : host.port.server.users.Faithful)
    (h : host.stepPort env (.enroll (.boot random)) = some next) : PortEffect env host next := by
  obtain ⟨port, hport, rfl⟩ := map_eq_some_iff.1 h
  obtain ⟨server, hserver, rfl⟩ := map_eq_some_iff.1 hport
  obtain ⟨-, rfl⟩ := step_boot hserver
  refine effect_of_same (fun running' id request stage hat => ?_) hregistry.loadOrCreate_log ?_
  · obtain rfl := Option.some.inj hat.1
    have hnone := hat.2
    simp at hnone
  · show Later host.port.server.users (.loadOrCreate host.port.server.users.log)
    rw [husers.loadOrCreate_log]
    exact later_refl _

theorem effect_receive (h : host.stepPort env (.enroll (.receive id request)) = some next) :
    PortEffect env host next := by
  obtain ⟨port, hport, rfl⟩ := map_eq_some_iff.1 h
  obtain ⟨server, hserver, rfl⟩ := map_eq_some_iff.1 hport
  obtain ⟨running, hrunning, -, rfl⟩ := step_receive hserver
  refine effect_of_same (fun running' other request' stage hat => ?_) rfl (later_refl _)
  rcases hat.of_insert hrunning rfl rfl with ⟨-, -, rfl⟩ | ⟨-, hbefore⟩
  · exact .inl rfl
  · exact .inr ⟨running, hbefore⟩

theorem effect_drop (h : host.stepPort env (.enroll (.drop id)) = some next) :
    PortEffect env host next := by
  obtain ⟨port, hport, rfl⟩ := map_eq_some_iff.1 h
  obtain ⟨server, hserver, rfl⟩ := map_eq_some_iff.1 hport
  obtain ⟨running, hrunning, rfl⟩ := step_drop hserver
  refine effect_of_same (fun running' other request' stage hat => ?_) rfl (later_refl _)
  exact .inr ⟨running, (hat.of_erase hrunning rfl rfl).2⟩

theorem effect_admin {call : AdminCall}
    (h : host.stepPort env (.enroll (.admin call)) = some next) : PortEffect env host next := by
  simp only [stepPort] at h
  split at h
  · cases h
  · next hwhole =>
    obtain ⟨port, hport, rfl⟩ := map_eq_some_iff.1 h
    obtain ⟨server, hserver, rfl⟩ := map_eq_some_iff.1 hport
    have hserver : host.port.server.admin env call = some server := hserver
    have hrunning : server.running = host.port.server.running := admin_running hserver
    have hstores : server.registry = host.port.server.registry ∧
        Later host.port.server.users server.users := by
      cases call with
      | mintUser =>
        obtain ⟨users, husers, rfl⟩ := ok_of_toOption_map hserver
        exact ⟨rfl, fun hfaithful => hfaithful.mint husers, fun name hname => hname.mint husers⟩
      | changeGroups =>
        cases hserver
        exact ⟨rfl, later_refl _⟩
      | mintToken | revokeToken =>
        simp only [admin] at hserver
        obtain ⟨_, -, rfl⟩ := ok_of_toOption_map hserver
        exact ⟨rfl, later_refl _⟩
      | _ => exact absurd rfl hwhole
    exact effect_of_same (fun running' id request stage hat =>
      .inr ⟨running', hrunning ▸ hat.1, hat.2⟩) hstores.1 hstores.2

private theorem effect_proceed (h : host.stepPort env (.proceed id input) = some next) :
    PortEffect env host next := by
  obtain ⟨port, hport, rfl⟩ := map_eq_some_iff.1 h
  simp only [Port.step] at hport
  split at hport
  · next running login stage hrunning hlogin =>
    have hgoto : ∀ stage',
        PortEffect env host { host with port := host.port.goto id login stage' } := fun stage' =>
      effect_of_same (fun running' other request stage'' hat => .inr ⟨running', hat⟩) rfl
        (later_refl _)
    have hrefuse : ∀ keys,
        PortEffect env host { host with port := host.port.refuse running id login keys } :=
          fun keys =>
      effect_of_same (fun running' other request stage'' hat => by
        obtain rfl := Option.some.inj hat.1
        exact .inr ⟨running, hrunning, hat.2⟩) rfl (later_refl _)
    cases stage with
    | limits | chooses | serves =>
      cases hport
      exact hgoto _
    | verifies | looksUpInvite =>
      simp only [Port.proceed] at hport
      split at hport
      · cases hport
        exact hgoto _
      · cases hport
        exact hrefuse _
    | answered => cases hport
  · cases hport

theorem effect_of_stepPort {action : PortAction} (hregistry : host.port.server.registry.Faithful)
    (husers : host.port.server.users.Faithful) (h : host.stepPort env action = some next) :
    PortEffect env host next := by
  have hsame : ∀ running' id request stage, host.port.server.At running' id request stage →
      stage = .received ∨ host.At id request stage := fun running' _ _ _ hat => .inr ⟨running', hat⟩
  cases action with
  | enroll action =>
    cases action with
    | boot random => exact effect_boot hregistry husers h
    | crash =>
      cases h
      refine .rests (fun id request stage hat => ?_) rfl (later_refl _) (.inr ⟨rfl, rfl⟩)
      obtain ⟨running, hrunning, -⟩ := hat
      cases hrunning
    | receive id request => exact effect_receive h
    | advance id input =>
      obtain ⟨request, stage, stage', htakes⟩ := takes_of_advance h
      exact .takes htakes
    | drop id => exact effect_drop h
    | admin call => exact effect_admin h
  | login id request | finish check =>
    obtain ⟨port, hport, rfl⟩ := map_eq_some_iff.1 h
    simp only [Port.step] at hport
    split at hport
    · cases hport
      exact effect_of_same hsame rfl (later_refl _)
    · cases hport
  | proceed id input => exact effect_proceed h
  | leave id | tick elapsed =>
    cases h
    exact effect_of_same hsame rfl (later_refl _)

end Host

/-! ### What a step of the desk does -/

theorem quiet_of_step (h : system.step pki action = some next)
    (hquiet : ∀ commonName certPem now clientUid, action ≠ .enroll commonName certPem now clientUid)
    : QuietChange system.registry next.registry ∧ Later system.users next.users := by
  cases System.step_cases h with
  | connected | left | moved | called => exact ⟨.inl rfl, later_refl _⟩
  | advanced hcall hstep =>
    cases hstep with
    | revoked hok => exact ⟨changes_revoke hok fun _ => rfl, later_refl _⟩
    | certRevoked hok => exact ⟨changes_revokeCert hok fun _ _ => rfl, later_refl _⟩
    | unblocked hok => exact ⟨changes_unblock hok fun _ => rfl, later_refl _⟩
    | accountRevoked hok =>
      exact ⟨.inl rfl, fun hfaithful => hfaithful.revoke hok, (UserStore.revoked_of_revoke hok).2⟩
    | _ => exact ⟨.inl rfl, later_refl _⟩
  | enrolled => exact absurd rfl (hquiet _ _ _ _)
  | certDeleted hok => exact ⟨changes_deleteCert hok fun _ => rfl, later_refl _⟩

namespace Host

variable {env : Env} {host next : Host}

/-- A step of the desk leaves the requests of the other listeners alone, enrolls nobody and gives no
account back. -/
structure DeskEffect (pki : Pki) (host next : Host) (action : Transport.Revocation.Action) :
    Prop where
  office : host.office.step pki action = some next.office
  running : next.port.server.running = host.port.server.running
  logins : next.port.logins = host.port.logins
  api : next.api = host.api
  onPassword : next.onPassword = host.onPassword
  stores : QuietChange host.port.server.registry next.port.server.registry ∧
    Later host.port.server.users next.port.server.users

theorem effect_of_stepDesk (h : host.stepDesk pki action = some next) :
    DeskEffect pki host next action := by
  cases action with
  | enroll => cases h
  | connect | move | call | advance | deleteCert =>
    obtain ⟨desk, hdesk, rfl⟩ := map_eq_some_iff.1 h
    exact ⟨hdesk, rfl, rfl, rfl, rfl, quiet_of_step hdesk (by simp)⟩

structure Sound (host : Host) : Prop where
  registry : host.port.server.registry.Faithful
  users : host.port.server.users.Faithful

theorem sound_start : Sound {} := ⟨rfl, rfl⟩

theorem faithful_of_quietChange (h : before.Faithful) (hquiet : QuietChange before after) :
    after.Faithful := by
  rcases hquiet with rfl | ⟨event, -, hrecord⟩
  · exact h
  · exact h.record hrecord

inductive Effect (env : Env) (pki : Pki) (host next : Host) : HostAction → Prop where
  | port {action : PortAction} (heffect : PortEffect env host next) :
    Effect env pki host next (.port action)
  | desk {action : Transport.Revocation.Action} (hstep : host.stepDesk pki action = some next)
      (heffect : DeskEffect pki host next action) : Effect env pki host next (.desk action)
  | api {action : HostAction} (api : TreeMap Nat ApiConn) (hnext : next = { host with api }) :
    Effect env pki host next action

theorem stepApi_eq_some {id : Nat} {move : ApiMove} (h : host.stepApi pki id move = some next) :
    ∃ conn, host.api[id]? = some conn ∧
      (conn.next pki host.port.server.registry.state move = some none ∧
        next = { host with api := host.api.erase id } ∨ ∃ after,
        conn.next pki host.port.server.registry.state move = some (some after) ∧
          next = { host with api := host.api.insert id after }) := by
  unfold stepApi at h
  split at h
  · cases h
  · next conn hconn =>
    refine ⟨conn, hconn, ?_⟩
    split at h
    · cases h
    · next hends => exact .inl ⟨hends, (Option.some.inj h).symm⟩
    · next after hafter => exact .inr ⟨after, hafter, (Option.some.inj h).symm⟩

theorem Sound.effect {action : HostAction} (h : host.Sound)
    (hstep : host.step env pki action = some next) : Effect env pki host next action := by
  cases action with
  | port action => exact .port (effect_of_stepPort h.registry h.users hstep)
  | desk action =>
    simp only [Host.step] at hstep
    split at hstep
    · exact .desk hstep (effect_of_stepDesk hstep)
    · cases hstep
  | connect id commonName cert =>
    simp only [Host.step] at hstep
    split at hstep
    · cases hstep
      exact .api _ rfl
    · cases hstep
  | api id move =>
    obtain ⟨conn, -, ⟨-, rfl⟩ | ⟨after, -, rfl⟩⟩ := stepApi_eq_some hstep
    · exact .api _ rfl
    · exact .api _ rfl

theorem Sound.step {action : HostAction} (h : host.Sound)
    (hstep : host.step env pki action = some next) : next.Sound := by
  cases h.effect hstep with
  | port heffect =>
    cases heffect with
    | takes htakes =>
      obtain ⟨input, htake⟩ := htakes.take
      refine ⟨?_, htakes.users ▸ h.users⟩
      generalize next.port.server.registry = registry at htake ⊢
      generalize next.port.server.tokens = tokens at htake
      generalize next.port.server.groups = groups at htake
      cases htake with
      | goes | inviteConsumed | notEnrolled | granted => exact h.registry
      | rotated | adminEnrolled | enrolledNew => exact h.registry.record (record_eq_ok.2 ⟨rfl, rfl⟩)
    | rests hmoved hregistry husers hnext => exact ⟨hregistry ▸ h.registry, husers.faithful h.users⟩
  | desk hdesk heffect =>
    exact ⟨faithful_of_quietChange h.registry heffect.stores.1, heffect.stores.2.faithful h.users⟩
  | api api hnext =>
    subst hnext
    exact ⟨h.registry, h.users⟩

end Host

namespace Sample

/-- Every certificate request is for `jz`. -/
def env : Env :=
  { Env.signing fun serial _ => .ok ("jz", if serial = 0 then "A-CERT" else "B-CERT") with
    toolFile := fun _ _ => .ok [] }

def minted : List HostAction :=
  [.port (.enroll (.boot "0")), .port (.enroll (.admin (.mintUser "s" "jz" "pw" [] 0)))]

/-- The first steps of a request with the password of the account. -/
def enroll (id steps : Nat) : List HostAction :=
  .port (.enroll (.receive id
      { ipKey := "ip:10.0.0.1", authorization := some "Basic jz:pw", body := Lines.utf8 "CSR" })) ::
    List.replicate steps (.port (.enroll (.advance id {})))

end Sample

end MicroTak.Listeners
