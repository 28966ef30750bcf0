import MicroTak.Transport.Revocation

/-!
# Revocations that reach their sessions

A session that was checked before a revocation and subscribed after its signal is never told.  Away
from that window no notification is lost: a session in its loop that a returned call has revoked has
a notification it has not taken note of, or is about to check its access again.
-/

namespace MicroTak.Transport.Revocation

open Std Registry Users Transition DeviceRegistry RegistryState

/-! ### What is revoked -/

variable {commonName : String}

namespace Target

def Holds (registry : RegistryState) : Target → Prop
  | .identity commonName => registry.isRevoked commonName = true
  | .certificate fingerprint => (registry.revokedCerts[fingerprint]?).isSome = true

def Hits (pki : Pki) (session : TlsSession) : Target → Prop
  | .identity commonName => session.commonName = commonName
  | .certificate fingerprint => pki.fingerprintSha256ColonHexDer session.cert = fingerprint

instance (pki : Pki) (session : TlsSession) : ∀ target, Decidable (Hits pki session target)
  | .identity commonName => inferInstanceAs (Decidable (session.commonName = commonName))
  | .certificate fingerprint =>
    inferInstanceAs (Decidable (pki.fingerprintSha256ColonHexDer session.cert = fingerprint))

variable {pki : Pki} {registry : RegistryState} {session : TlsSession} {target : Target}

theorem Holds.refused (h : target.Holds registry) (hhits : target.Hits pki session) :
    registry.access pki session.commonName session.cert ≠ .allowed := by
  intro haccess
  obtain ⟨hopen, hcert⟩ := access_eq_allowed_iff.1 haccess
  cases target with
  | identity commonName =>
    obtain rfl : session.commonName = commonName := hhits
    simp only [Holds, hopen, Bool.false_eq_true] at h
  | certificate fingerprint =>
    obtain rfl : pki.fingerprintSha256ColonHexDer session.cert = fingerprint := hhits
    simp only [Holds, hcert, Option.isSome_none, Bool.false_eq_true] at h

theorem Holds.applyEvent {event : RegistryEvent} (h : target.Holds registry)
    (hlift : ∀ commonName, event = .unblocked commonName → target ≠ .identity commonName) :
    target.Holds (applyEvent registry event) := by
  cases target with
  | identity commonName =>
    obtain ⟨device, hdevice, hrevoked⟩ := isRevoked_eq_true_iff.1 h
    apply isRevoked_eq_true_iff.2
    cases event with
    | enrolled name certPem atUnix clientUid =>
      simp only [Registry.applyEvent, Dict.getElem?_insert]
      by_cases hname : name = commonName
      · subst hname
        exact ⟨_, if_pos rfl, by simp [hdevice, hrevoked]⟩
      · exact ⟨device, by rw [if_neg hname, hdevice], hrevoked⟩
    | revoked name =>
      simp only [Registry.applyEvent, setRevoked_devices]
      by_cases hname : name = commonName
      · exact ⟨{ device with revoked := true }, by rw [if_pos hname, hdevice]; rfl, rfl⟩
      · exact ⟨device, by rw [if_neg hname, hdevice], hrevoked⟩
    | unblocked name =>
      have hname : name ≠ commonName := fun hname => hlift name rfl (hname ▸ rfl)
      simp only [Registry.applyEvent, setRevoked_devices, if_neg hname]
      exact ⟨device, hdevice, hrevoked⟩
    | certRevoked fingerprint atUnix =>
      refine ⟨device, ?_, hrevoked⟩
      simp only [Registry.applyEvent]
      split <;> exact hdevice
    | uidBound name uid | certDeleted id => exact ⟨device, hdevice, hrevoked⟩
  | certificate fingerprint =>
    cases event with
    | certRevoked other atUnix =>
      simp only [Holds, Registry.applyEvent]
      split
      · exact h
      · by_cases hother : other = fingerprint
        · simp [hother]
        · rw [Dict.getElem?_insert_of_ne hother]
          exact h
    | revoked name | unblocked name => simpa [Holds, Registry.applyEvent] using h
    | enrolled name certPem atUnix clientUid => exact h
    | uidBound name uid => exact h
    | certDeleted id => exact h

variable {before after : DeviceRegistry} {appended : Bool}

theorem Holds.changes {p : RegistryEvent → Prop} (h : target.Holds before.state)
    (hchanges : DeviceRegistry.Changes p before after)
    (hlift : ∀ commonName, p (.unblocked commonName) → target ≠ .identity commonName) :
    target.Holds after.state := by
  rcases hchanges with rfl | ⟨event, hp, hrecord⟩
  · exact h
  · obtain ⟨-, rfl⟩ := record_eq_ok.1 hrecord
    exact h.applyEvent fun commonName hevent => hlift commonName (hevent ▸ hp)

theorem holds_of_revoke (h : before.commit appended (revoke commonName) = .ok after) :
    (identity commonName).Holds after.state := by
  obtain ⟨hfound, hrecord⟩ := revoke_eq_ok.1 h
  obtain ⟨-, rfl⟩ := record_eq_ok.1 hrecord
  obtain ⟨device, hdevice⟩ := Option.isSome_iff_exists.1 hfound
  rw [find] at hdevice
  exact isRevoked_eq_true_iff.2
    ⟨{ device with revoked := true }, by simp [Registry.applyEvent, hdevice], rfl⟩

theorem holds_of_revokeCert {fingerprint : String} {now : Int}
    (h : before.commit appended (revokeCert fingerprint now) = .ok after) :
    (certificate ((normalizeFingerprint fingerprint).getD fingerprint)).Holds after.state := by
  obtain ⟨fp, hfp, hcases⟩ := revokeCert_eq_ok h
  rw [hfp]
  rcases hcases with ⟨hthere, rfl⟩ | ⟨hfresh, hrecord⟩
  · exact hthere
  · obtain ⟨-, rfl⟩ := record_eq_ok.1 hrecord
    simp [Holds, Registry.applyEvent, hfresh]

end Target

/-! ### What a session has been told -/

def Call.hasSignalled : Call → Bool
  | .signalled _ | .returned => true
  | _ => false

def Call.toSignal : Call → Option Target
  | .signalling target => target
  | _ => none

/-- The call has revoked the target, and is signalling it or has done so. -/
def Call.HasRevoked (target : Target) (call : Call) : Prop :=
  call = .signalling (some target) ∨ call.hasSignalled = true

/-- The counter value a session has taken note of. -/
def Phase.seen? : Phase → Option Nat
  | .subscribed seen | .waiting seen | .rechecking seen => some seen
  | .handshaken | .allowed => none

/-- A session in this phase will still check its access after a signal at this counter value. -/
def Phase.Informed (generation : Nat) : Phase → Prop
  | .handshaken | .rechecking _ => True
  | .allowed => False
  | .subscribed seen | .waiting seen => seen < generation

namespace System

variable {pki : Pki} {system next : System}

/-! ### What a step can do -/

section Steps

variable (pki : Pki) (system : System) (id : Nat) (appended : Bool) (now : Int)

inductive CallStep : Call → System → Prop where
  | revoked {commonName : String} {registry : DeviceRegistry}
    (hok : system.registry.commit appended (revoke commonName) = .ok registry) :
      CallStep (.revoke commonName) (system.revokes id registry (.identity commonName))
  | certRevoked {fingerprint : String} {registry : DeviceRegistry}
      (hok : system.registry.commit appended (revokeCert fingerprint now) = .ok registry) :
      CallStep (.revokeCert fingerprint)
        (system.revokes id registry
          (.certificate ((normalizeFingerprint fingerprint).getD fingerprint)))
  | unblocked {commonName : String} {registry : DeviceRegistry}
    (hok : system.registry.commit appended (unblock commonName) = .ok registry) :
      CallStep (.unblock commonName) (system.unblocks id registry commonName)
  | accountRevoked {username : String} {users : UserStore}
    (hok : system.users.revoke appended username = .ok users) :
      CallStep (.revokeUser username) { system.setCall id (.revokeDevice username) with users }
  | deviceFound {username : String} (hfound : (system.registry.state.find username).isSome = true) :
      CallStep (.revokeDevice username) (system.setCall id (.revokeCurrentCert username))
  | noDevice {username : String} (hnone : system.registry.state.find username = none) :
      CallStep (.revokeDevice username) (system.setCall id .returned)
  | certFound {commonName fingerprint : String}
    (hfound : (system.registry.state.find commonName).bind (fun device =>
      pki.fingerprintSha256ColonHex device.certPem) = some fingerprint) :
      CallStep (.revokeCurrentCert commonName) (system.setCall id (.revokeCert fingerprint))
  | failed {call : Call} (hnone : ∀ target, ¬ call.HasRevoked target) :
    CallStep call (system.setCall id .failed)
  | signals (target : Option Target) : CallStep (.signalling target) (system.signals id target)
  | returns (target : Option Target) : CallStep (.signalled target) (system.setCall id .returned)

inductive Step : Action → System → Prop where
  | connected {peer : SocketAddr} {commonName : String} {cert : Der}
    (hnew : system.sessions[peer]? = none) :
      Step (.connect peer commonName cert) { system with
        sessions := system.sessions.insert peer { commonName, cert } }
  | left {peer : SocketAddr} {session : TlsSession} {move : Move}
    (hsession : system.sessions[peer]? = some session)
      (hnext : session.next pki system.registry.state system.generation move = some none) :
      Step (.move peer move) { system with sessions := system.sessions.erase peer }
  | moved {peer : SocketAddr} {session : TlsSession} {move : Move} {phase : Phase}
    (hsession : system.sessions[peer]? = some session)
      (hnext : session.next pki system.registry.state system.generation move = some (some phase)) :
      Step (.move peer move) { system with
        sessions := system.sessions.insert peer { session with phase } }
  | called {id : Nat} {request : Request} (hnew : system.calls[id]? = none) :
      Step (.call id request) (system.setCall id request.begin)
  | advanced {id : Nat} {appended : Bool} {now : Int} {call : Call} {next : System}
    (hcall : system.calls[id]? = some call)
      (hstep : CallStep pki system id appended now call next) : Step (.advance id appended now) next
  | enrolled {commonName certPem : String} {now : Int} {clientUid : Option String}
    {registry : DeviceRegistry}
      (hok : system.registry.commit true (enrollWithClientUid commonName certPem now clientUid) =
        .ok registry) :
      Step (.enroll commonName certPem now clientUid) { system with registry }
  | certDeleted {certId : Int} {registry : DeviceRegistry}
    (hok : system.registry.commit true (deleteCert certId) = .ok registry) :
      Step (.deleteCert certId) { system with registry }

variable {pki system id appended now}

private theorem callStep_of_advance {call : Call}
    (h : system.advance pki id appended now call = some next) :
    CallStep pki system id appended now call next := by
  cases call with
  | revoke | revokeCert | unblock | revokeUser | revokeDevice | revokeCurrentCert =>
    simp only [advance] at h
    split at h
    all_goals cases h
    all_goals first
      | exact .failed (by simp [Call.HasRevoked, Call.hasSignalled])
      | exact .noDevice (Option.not_isSome_iff_eq_none.1 ‹_›)
      | constructor; assumption
  | signalling target =>
    cases h
    exact .signals target
  | signalled target =>
    cases h
    exact .returns target
  | returned | failed => cases h

theorem step_cases {action : Action} (h : system.step pki action = some next) :
    Step pki system action next := by
  cases action with
  | connect | call | enroll | deleteCert =>
    simp only [step] at h
    split at h
    all_goals cases h
    all_goals constructor; assumption
  | move peer move =>
    simp only [step, System.move] at h
    split at h
    · cases h
    · next session hsession =>
      split at h
      all_goals cases h
      · exact .left hsession ‹_›
      · exact .moved hsession ‹_›
  | advance id appended now =>
    simp only [step] at h
    split at h
    · next call hcall => exact .advanced hcall (callStep_of_advance h)
    · cases h

theorem callStep_of_step (h : system.step pki (.advance id appended now) = some next) :
    ∃ call, system.calls[id]? = some call ∧ CallStep pki system id appended now call next := by
  cases step_cases h with
  | advanced hcall hstep => exact ⟨_, hcall, hstep⟩

end Steps

/-- A session in its loop that a returned call has revoked, with no notification pending. -/
def Missed (pki : Pki) (system : System) : Prop :=
  ∃ (peer : SocketAddr) (session : TlsSession) (id : Nat) (target : Target),
    system.sessions[peer]? = some session ∧ session.phase = .waiting system.generation ∧
    (id, target) ∈ system.inForce ∧ target.Hits pki session ∧ system.calls[id]? = some .returned

/-- The condition on a step: a signal is not for a session between its access check and its
subscription. -/
def OutsideWindow (pki : Pki) (system : System) : Action → Prop
  | .advance id _ _ =>
      ∀ target ∈ (system.calls[id]?).bind Call.toSignal, ∀ entry ∈ system.sessions.toList,
        entry.2.phase = .allowed → ¬ target.Hits pki entry.2
  | _ => True

instance (pki : Pki) (system : System) : ∀ action, Decidable (OutsideWindow pki system action)
  | .advance id _ _ =>
      inferInstanceAs (Decidable (∀ target ∈ (system.calls[id]?).bind Call.toSignal,
        ∀ entry ∈ system.sessions.toList, entry.2.phase = .allowed → ¬ target.Hits pki entry.2))
  | .connect _ _ _ | .move _ _ | .call _ _ | .enroll _ _ _ _ | .deleteCert _ => isTrue trivial

structure WatchInv (pki : Pki) (system : System) : Prop where
  holds : ∀ entry ∈ system.inForce, entry.2.Holds system.registry.state
  owned : ∀ entry ∈ system.inForce, ∃ call, system.calls[entry.1]? = some call ∧
    call.HasRevoked entry.2
  seen_le : ∀ (peer : SocketAddr) (session : TlsSession), system.sessions[peer]? = some session →
    ∀ seen ∈ session.phase.seen?, seen ≤ system.generation
  informed : ∀ (peer : SocketAddr) (session : TlsSession), system.sessions[peer]? = some session →
    ∀ entry ∈ system.inForce, entry.2.Hits pki session →
      ∀ call, system.calls[entry.1]? = some call → call.hasSignalled = true →
        session.phase.Informed system.generation

theorem watchInv_start (registry : DeviceRegistry) (users : UserStore) :
    WatchInv pki (start registry users) where
  holds entry h := by cases h
  owned entry h := by cases h
  seen_le peer session h := by simp [start] at h
  informed peer session h := by simp [start] at h

theorem WatchInv.not_missed (h : WatchInv pki system) : ¬ Missed pki system := by
  rintro ⟨peer, session, id, target, hsession, hphase, hforce, hhits, hcall⟩
  have hinformed := h.informed peer session hsession (id, target) hforce hhits .returned hcall rfl
  rw [hphase] at hinformed
  exact Nat.lt_irrefl _ hinformed

variable {id : Nat} {call : Call} {session : TlsSession} {peer : SocketAddr}
  {registry : DeviceRegistry}

/-- A call that has not revoked anything owns nothing that is in force. -/
theorem WatchInv.unowned (h : WatchInv pki system) (hcall : system.calls[id]? = some call)
    (hnone : ∀ target, ¬ call.HasRevoked target) : ∀ entry ∈ system.inForce, entry.1 ≠ id := by
  rintro entry hentry rfl
  obtain ⟨owner, howner, hrevoked⟩ := h.owned entry hentry
  rw [hcall] at howner
  cases howner
  exact hnone entry.2 hrevoked

/-! ### Steps of the sessions -/

theorem next_eq_some {registry : RegistryState} {generation : Nat} {move : Move} {phase : Phase}
    (h : session.next pki registry generation move = some (some phase)) :
    (phase = .allowed ∧ registry.access pki session.commonName session.cert = .allowed) ∨
    (session.phase = .allowed ∧ phase = .subscribed generation) ∨
    (∃ seen, session.phase = .subscribed seen ∧ phase = .waiting seen) ∨
    phase = .rechecking generation ∨ ∃ seen, session.phase = .rechecking seen ∧
    phase = .waiting seen ∧
      registry.access pki session.commonName session.cert = .allowed := by
  cases move with
  | check | recheck =>
    by_cases haccess : registry.access pki session.commonName session.cert = .allowed
    · cases hphase : session.phase <;> simp_all [TlsSession.next]
    · cases hphase : session.phase <;> simp_all [TlsSession.next]
  | subscribe | enterLoop | wake | leave =>
    cases hphase : session.phase <;> simp_all [TlsSession.next]

section

variable (h : WatchInv pki system)

include h

theorem WatchInv.setSession (hseen : ∀ seen ∈ session.phase.seen?, seen ≤ system.generation)
    (hinformed : ∀ entry ∈ system.inForce, entry.2.Hits pki session →
      ∀ call, system.calls[entry.1]? = some call → call.hasSignalled = true →
        session.phase.Informed system.generation) :
    WatchInv pki { system with sessions := system.sessions.insert peer session } where
  __ := h
  seen_le p s hs := by
    rcases Dict.of_insert hs with ⟨-, rfl⟩ | ⟨-, hs⟩
    · exact hseen
    · exact h.seen_le p s hs
  informed p s hs := by
    rcases Dict.of_insert hs with ⟨-, rfl⟩ | ⟨-, hs⟩
    · exact hinformed
    · exact h.informed p s hs

/-- A session whose access has just been granted is under nothing that is in force. -/
theorem WatchInv.not_hit
    (haccess : system.registry.state.access pki session.commonName session.cert = .allowed)
    {entry : Nat × Target} (hentry : entry ∈ system.inForce) : ¬ entry.2.Hits pki session :=
  fun hhits => (h.holds entry hentry).refused hhits haccess

/-- A granted check leaves nothing in force; a subscription had nothing signalled to miss. -/
theorem WatchInv.move {move : Move} {phase : Phase}
    (hsession : system.sessions[peer]? = some session)
    (hnext : session.next pki system.registry.state system.generation move = some (some phase)) :
    WatchInv pki
    { system with sessions := system.sessions.insert peer { session with phase } } := by
  have hseen := h.seen_le peer session hsession
  have hinformed := h.informed peer session hsession
  rcases next_eq_some hnext with ⟨rfl, haccess⟩ | ⟨hphase, rfl⟩ | ⟨seen, hphase, rfl⟩ | rfl | ⟨seen,
    hphase, rfl, haccess⟩
  · refine h.setSession (by simp [Phase.seen?]) ?_
    exact fun entry hentry hhits => absurd hhits (h.not_hit haccess hentry)
  · refine h.setSession (by simp [Phase.seen?]) fun entry hentry hhits call hcall hsignalled => ?_
    have hnever := hinformed entry hentry hhits call hcall hsignalled
    rw [hphase] at hnever
    exact hnever.elim
  · rw [hphase] at hseen hinformed
    exact h.setSession hseen hinformed
  · exact h.setSession (by simp [Phase.seen?]) fun _ _ _ _ _ _ => trivial
  · rw [hphase] at hseen
    exact h.setSession hseen fun entry hentry hhits => absurd hhits (h.not_hit haccess hentry)

/-! ### Steps of the calls -/

theorem WatchInv.setCall (howned : ∀ entry ∈ system.inForce, entry.1 = id → call.HasRevoked entry.2)
    (hsignalled : call.hasSignalled = true → ∀ entry ∈ system.inForce, entry.1 = id →
      ∃ before, system.calls[id]? = some before ∧ before.hasSignalled = true) :
    WatchInv pki (system.setCall id call) where
  __ := h
  owned entry hentry := by
    by_cases hid : id = entry.1
    · exact ⟨call, by simp [System.setCall, hid], howned entry hentry hid.symm⟩
    · obtain ⟨owner, howner, hrevoked⟩ := h.owned entry hentry
      exact ⟨owner, by simp [System.setCall, hid, howner], hrevoked⟩
  informed peer session hsession entry hentry hhits current hcurrent hcurrentSignalled := by
    simp only [System.setCall, Dict.getElem?_insert] at hcurrent
    by_cases hid : id = entry.1
    · rw [if_pos hid, Option.some.injEq] at hcurrent
      subst hcurrent
      obtain ⟨before, hbefore, hdone⟩ := hsignalled hcurrentSignalled entry hentry hid.symm
      exact h.informed peer session hsession entry hentry hhits before (hid ▸ hbefore) hdone
    · rw [if_neg hid] at hcurrent
      exact h.informed peer session hsession entry hentry hhits current hcurrent hcurrentSignalled

section

variable (hfree : ∀ entry ∈ system.inForce, entry.1 ≠ id)

include hfree

theorem WatchInv.setCall_of_unowned : WatchInv pki (system.setCall id call) :=
  h.setCall (fun entry hentry hid => absurd hid (hfree entry hentry))
    fun _ entry hentry hid => absurd hid (hfree entry hentry)

theorem WatchInv.revokes {target : Target} (htarget : target.Holds registry.state)
    (hkeep : ∀ held : Target, held.Holds system.registry.state → held.Holds registry.state) :
    WatchInv pki (system.revokes id registry target) := by
  have hset : WatchInv pki (system.setCall id (.signalling (some target))) :=
    h.setCall_of_unowned hfree
  refine ⟨fun entry hentry => ?_, fun entry hentry => ?_, h.seen_le,
    fun peer session hsession entry hentry => ?_⟩
  · rcases List.mem_cons.1 hentry with rfl | hold
    · exact htarget
    · exact hkeep _ (h.holds entry hold)
  · rcases List.mem_cons.1 hentry with rfl | hold
    · exact ⟨_, Dict.getElem?_insert_self .., .inl rfl⟩
    · exact hset.owned entry hold
  · rcases List.mem_cons.1 hentry with rfl | hold
    · -- The new revocation is not signalled yet.
      intro _ call hcall hsignalled
      rw [System.revokes, Dict.getElem?_insert_self] at hcall
      cases hcall
      cases hsignalled
    · exact hset.informed peer session hsession entry hold

theorem WatchInv.unblocks
    (hkeep : ∀ held : Target, held.Holds system.registry.state → held ≠ .identity commonName →
      held.Holds registry.state) :
    WatchInv pki (system.unblocks id registry commonName) := by
  have hset : WatchInv pki (system.setCall id (.signalling none)) := h.setCall_of_unowned hfree
  have hmem : ∀ entry ∈ (system.unblocks id registry commonName).inForce,
      entry ∈ system.inForce ∧ entry.2 ≠ .identity commonName := by
    intro entry hentry
    simpa [System.unblocks] using hentry
  refine ⟨fun entry hentry => ?_, fun entry hentry => ?_, h.seen_le,
    fun peer session hsession entry hentry => ?_⟩
  · exact hkeep _ (h.holds entry (hmem entry hentry).1) (hmem entry hentry).2
  · exact hset.owned entry (hmem entry hentry).1
  · exact hset.informed peer session hsession entry (hmem entry hentry).1

end

/-- A signal is news to every session that watches; one between its check and its subscription is
outside what the signal is about. -/
theorem WatchInv.signals {target : Option Target}
    (hcall : system.calls[id]? = some (.signalling target))
    (houtside : ∀ signalled ∈ target, ∀ (peer : SocketAddr) (session : TlsSession),
      system.sessions[peer]? = some session → session.phase = .allowed →
      ¬ signalled.Hits pki session) :
    WatchInv pki (system.signals id target) := by
  refine ⟨h.holds, fun entry hentry => ?_, fun peer session hsession seen hseen => ?_,
    fun peer session hsession entry hentry hhits call hentryCall hsignalled => ?_⟩
  · by_cases hid : id = entry.1
    · exact ⟨.signalled target, by simp [System.signals, hid], .inr rfl⟩
    · obtain ⟨owner, howner, hrevoked⟩ := h.owned entry hentry
      exact ⟨owner, by simp [System.signals, hid, howner], hrevoked⟩
  · have hle := h.seen_le peer session hsession seen hseen
    show seen ≤ system.generation + 1
    omega
  · have hle := h.seen_le peer session hsession
    cases hphase : session.phase with
    | handshaken => trivial
    | rechecking seen => trivial
    | subscribed seen | waiting seen => exact Nat.lt_succ_of_le (hle seen (by rw [hphase]; rfl))
    | allowed =>
      by_cases hid : id = entry.1
      · obtain ⟨owner, howner, hrevoked⟩ := h.owned entry hentry
        rw [← hid, hcall] at howner
        cases howner
        rcases hrevoked with htarget | hdone
        · exact houtside entry.2 (Call.signalling.inj htarget) peer session hsession hphase hhits
        · cases hdone
      · simp only [System.signals, Dict.getElem?_insert, if_neg hid] at hentryCall
        have hnever :=
          h.informed peer session hsession entry hentry hhits call hentryCall hsignalled
        rw [hphase] at hnever
        exact hnever

private theorem WatchInv.advance {appended : Bool} {now : Int}
    (hcall : system.calls[id]? = some call)
    (houtside : OutsideWindow pki system (.advance id appended now))
    (hstep : CallStep pki system id appended now call next) : WatchInv pki next := by
  have hfree := h.unowned hcall
  cases hstep with
  | revoked hok =>
    refine h.revokes (hfree (by simp [Call.HasRevoked, Call.hasSignalled]))
      (Target.holds_of_revoke hok) fun held hheld => ?_
    exact hheld.changes (changes_revoke hok rfl) (by simp)
  | certRevoked hok =>
    refine h.revokes (hfree (by simp [Call.HasRevoked, Call.hasSignalled]))
      (Target.holds_of_revokeCert hok) fun held hheld => ?_
    exact hheld.changes
      (changes_revokeCert (p := fun event => ∃ fp, event = .certRevoked fp now) hok fun fp =>
      ⟨fp, rfl⟩) (by simp)
  | unblocked hok =>
    refine h.unblocks (hfree (by simp [Call.HasRevoked, Call.hasSignalled]))
      fun held hheld hother => ?_
    refine hheld.changes (changes_unblock hok rfl) fun name hname => ?_
    cases hname
    exact hother
  | @accountRevoked username users hok =>
    have hset : WatchInv pki (system.setCall id (.revokeDevice username)) :=
      h.setCall_of_unowned (hfree (by simp [Call.HasRevoked, Call.hasSignalled]))
    exact ⟨hset.holds, hset.owned, hset.seen_le, hset.informed⟩
  | deviceFound | noDevice | certFound =>
    exact h.setCall_of_unowned (hfree (by simp [Call.HasRevoked, Call.hasSignalled]))
  | failed hnone => exact h.setCall_of_unowned (hfree hnone)
  | signals target =>
    refine h.signals hcall fun signalled hsignalled peer session hsession => ?_
    have hentry := TreeMap.mem_toList_iff_getElem?_eq_some.2 hsession
    refine houtside signalled ?_ (peer, session) hentry
    rw [hcall]
    exact hsignalled
  | returns target =>
    exact h.setCall (fun _ _ _ => .inr rfl) fun _ _ _ _ => ⟨.signalled target, hcall, rfl⟩

theorem WatchInv.step {action : Action} (houtside : OutsideWindow pki system action)
    (hstep : system.step pki action = some next) : WatchInv pki next := by
  have hregistry : ∀ {p : RegistryEvent → Prop} {registry : DeviceRegistry},
      DeviceRegistry.Changes p system.registry registry → (∀ name, ¬ p (.unblocked name)) →
        WatchInv pki { system with registry } := fun hchanges hlift =>
    ⟨fun entry hentry => (h.holds entry hentry).changes hchanges fun name hname =>
      absurd hname (hlift name), h.owned, h.seen_le, h.informed⟩
  cases step_cases hstep with
  | connected => exact h.setSession (by simp [Phase.seen?]) fun _ _ _ _ _ _ => trivial
  | left =>
    exact ⟨h.holds, h.owned, fun p s hs => h.seen_le p s (Dict.of_erase hs).2, fun p s hs =>
      h.informed p s (Dict.of_erase hs).2⟩
  | moved hsession hnext => exact h.move hsession hnext
  | called hnew =>
    refine h.setCall_of_unowned ?_
    rintro entry hentry rfl
    obtain ⟨owner, howner, -⟩ := h.owned entry hentry
    rw [hnew] at howner
    cases howner
  | advanced hcall hstep => exact h.advance hcall houtside hstep
  | enrolled hok => exact hregistry (changes_record hok rfl) (by simp)
  | certDeleted hok => exact hregistry (changes_deleteCert hok rfl) (by simp)

end

/-- In a run whose signals all come outside that window, no session in its loop that a returned call
has revoked is left without a notification. -/
theorem no_revocation_missed (pki : Pki) (registry : DeviceRegistry) (users : UserStore)
    {actions : List Action} (hrun : run (step pki) (start registry users) actions = some system)
    (houtside : Along (step pki) (OutsideWindow pki) (start registry users) actions) :
    ¬ Missed pki system := by
  have hinv : WatchInv pki system :=
    run_invariant (WatchInv pki) hrun houtside (watchInv_start registry users)
      fun _ _ _ hs hcond hstep => hs.step hcond hstep
  exact hinv.not_missed

end System

/-! ### Two orders of the same steps -/

namespace Window

def registry : DeviceRegistry := .loadOrCreate [.enrolled "alpha" "CERT-A" 0 none]

def cert : Der := (Pki.sample.certPemToDer "CERT-A").getD []

def block : List Action :=
  [.call 0 (.revoke "alpha"), .advance 0 true 0, .advance 0 true 0, .advance 0 true 0]

/-- The call runs while the session is between its check and its subscription. -/
def between : System :=
  (run (System.step Pki.sample) (.start registry {})
    ([.connect "a" "alpha" cert, .move "a" .check] ++ block ++
      [.move "a" .subscribe, .move "a" .enterLoop])).get (by decide)

def afterEntering : List Action :=
  [.connect "a" "alpha" cert, .move "a" .check, .move "a" .subscribe, .move "a" .enterLoop] ++ block

def notified : System :=
  (run (System.step Pki.sample) (.start registry {}) afterEntering).get (by decide)

end Window

open Window in
/-- A session checked before its identity is blocked and subscribed after the signal stays in its
loop, although the registry refuses it and the call has returned. -/
theorem revocation_missed_between_check_and_subscription :
    run (System.step Pki.sample) (.start registry {})
    ([.connect "a" "alpha" cert, .move "a" .check] ++ block ++
      [.move "a" .subscribe, .move "a" .enterLoop]) = some between ∧
    between.registry.state.access Pki.sample "alpha" cert = .blocked ∧
    System.Missed Pki.sample between := by
  refine ⟨(Option.some_get
    _).symm, by decide, "a", ⟨"alpha", cert, .waiting 1⟩, 0, .identity "alpha", ?_⟩
  exact ⟨by decide, by decide, by decide, rfl, by decide⟩

open Window in
theorem revocation_pending_after_entering :
    notified.registry.state.access Pki.sample "alpha" cert = .blocked ∧
    notified.calls[0]? = some .returned ∧
      ¬ System.Missed Pki.sample notified := by
  have hrun : run (System.step Pki.sample) (.start registry {}) afterEntering = some notified :=
    (Option.some_get _).symm
  exact ⟨by decide, by decide, System.no_revocation_missed Pki.sample registry {} hrun (by decide)⟩

end MicroTak.Transport.Revocation
