import Mathlib.Data.List.Induction
import MicroTak.Lib.Dict
import MicroTak.Lib.Journal
import MicroTak.Registry.Fingerprint

/-!
# The device registry

Enrolled devices by certificate common name, every certificate issued to them with the `clientUid`
it was enrolled for, and the revoked fingerprints.  The event log is the source of truth: a live
mutation appends one event and applies it, and a restart applies the same events again.  The
functions that change the registry are written against that log.
-/

namespace MicroTak.Registry

open Std Journal Op

structure DeviceRecord where
  commonName : String
  certPem : String
  enrolledAtUnix : Int
  revoked : Bool
  deriving DecidableEq

/-- One issued certificate; ids are assigned in log order. -/
structure CertRecord where
  id : Int
  commonName : String
  certPem : String
  clientUid : Option String
  issuedAtUnix : Int
  deriving DecidableEq

structure RegistryState where
  devices : TreeMap String DeviceRecord := ∅
  revokedCerts : TreeMap String Int := ∅
  certificates : List CertRecord := []
  nextCertId : Int := 0

inductive RegistryEvent where
  | enrolled (commonName certPem : String) (atUnix : Int) (clientUid : Option String)
  | revoked (commonName : String)
  | uidBound (commonName uid : String)
  | certRevoked (fingerprint : String) (atUnix : Int)
  | certDeleted (id : Int)
  | unblocked (commonName : String)
  deriving DecidableEq

def RegistryEvent.enrolls (commonName : String) : RegistryEvent → Bool
  | .enrolled name _ _ _ => name = commonName
  | _ => false

inductive RegistryError where
  | notFound (commonName : String)
  | alreadyEnrolled (commonName : String)
  | invalidFingerprint (fingerprint : String)
  | noCertificate (commonName : String)
  | eventLog
  deriving DecidableEq

inductive Access where
  | allowed
  | blocked
  | certRevoked
  deriving DecidableEq

/-- `devices.get_mut(common_name)` followed by an assignment to `revoked`. -/
def RegistryState.setRevoked (state : RegistryState) (commonName : String) (revoked : Bool) :
    RegistryState :=
  match state.devices[commonName]? with
  | some device =>
    { state with devices := state.devices.insert commonName { device with revoked := revoked } }
  | none => state

/-- The reducer, used for live mutations and for the replay on startup alike. -/
def applyEvent (state : RegistryState) : RegistryEvent → RegistryState
  | .enrolled commonName certPem atUnix clientUid =>
      let id := state.nextCertId + 1
      -- Re-enrolling must not clear a block.
      let wasRevoked := (state.devices[commonName]?.map (·.revoked)).getD false
      { state with
        nextCertId := id
        certificates := state.certificates ++
          [{ id, commonName, certPem, clientUid, issuedAtUnix := atUnix }]
        devices := state.devices.insert commonName
          { commonName, certPem, enrolledAtUnix := atUnix, revoked := wasRevoked } }
  | .revoked commonName => state.setRevoked commonName true
  | .uidBound _ _ => state
  | .certRevoked fingerprint atUnix =>
      match state.revokedCerts[fingerprint]? with
      | some _ => state
      | none => { state with revokedCerts := state.revokedCerts.insert fingerprint atUnix }
  | .certDeleted id => { state with certificates := state.certificates.filter (·.id ≠ id) }
  | .unblocked commonName => state.setRevoked commonName false

variable {event : RegistryEvent} {row : CertRecord}

namespace RegistryState

variable (pki : Pki) (state : RegistryState)

def find (commonName : String) : Option DeviceRecord :=
  state.devices[commonName]?

def isRevoked (commonName : String) : Bool :=
  (state.devices[commonName]?.map (·.revoked)).getD false

/-- The certificate as enrolled: `none` if it is not on record, else the `clientUid` it was enrolled
for.  The newest matching row wins. -/
def enrolledClientUid (certDer : Der) : Option (Option String) :=
  let fingerprint := pki.fingerprintSha256ColonHexDer certDer
  (state.certificates.reverse.find? fun c =>
    pki.fingerprintSha256ColonHex c.certPem = some fingerprint).map (·.clientUid)

/-- The identity whose certificate was enrolled for `uid`, unless that is `mine` or the identity is
blocked. -/
def otherOwnerOfEnrolledUid (uid : String) (mine : Option String) : Option String :=
  if mine = some uid then none
  else (state.certificates.find? fun c =>
    c.clientUid = some uid && !state.isRevoked c.commonName).map (·.commonName)

/-- Whether `commonName` presenting this certificate may connect or call the API. -/
def access (commonName : String) (certDer : Der) : Access :=
  if state.isRevoked commonName then .blocked
  else if (state.revokedCerts[pki.fingerprintSha256ColonHexDer certDer]?).isSome then .certRevoked
  else .allowed

variable {state}

variable {commonName : String}

theorem isRevoked_eq_true_iff :
    state.isRevoked commonName = true ↔ ∃ device, state.devices[commonName]? = some device ∧
    device.revoked = true := by
  unfold isRevoked
  cases state.devices[commonName]? <;> simp

theorem access_eq_allowed_iff {pki : Pki} {certDer : Der} :
    state.access pki commonName certDer = .allowed ↔
      state.isRevoked commonName = false ∧
      state.revokedCerts[pki.fingerprintSha256ColonHexDer certDer]? = none := by
  unfold access
  split
  · simp_all
  · split <;> simp_all

@[simp] theorem setRevoked_devices (commonName other : String) (revoked : Bool) :
    (state.setRevoked commonName revoked).devices[other]? =
      if commonName = other then state.devices[other]?.map ({ · with revoked := revoked })
      else state.devices[other]? := by
  unfold setRevoked
  split
  · by_cases h : commonName = other <;> simp_all
  · by_cases h : commonName = other <;> simp_all

@[simp] theorem setRevoked_revokedCerts (commonName : String) (revoked : Bool) :
    (state.setRevoked commonName revoked).revokedCerts = state.revokedCerts := by
  unfold setRevoked
  split <;> rfl

@[simp] theorem isRevoked_setRevoked (commonName other : String) (revoked : Bool) :
    (state.setRevoked commonName revoked).isRevoked other =
      if commonName = other then (state.find other).isSome && revoked
      else state.isRevoked other := by
  unfold isRevoked find
  rw [setRevoked_devices]
  split <;> cases state.devices[other]? <;> simp

theorem isRevoked_enrolled (commonName certPem other : String) (atUnix : Int)
    (clientUid : Option String) :
    (applyEvent state (.enrolled commonName certPem atUnix clientUid)).isRevoked other =
    state.isRevoked other := by
  by_cases hother : commonName = other
  · simp [applyEvent, isRevoked, hother]
  · simp [applyEvent, isRevoked, hother]

theorem certPem_applyEvent (h : event.enrolls commonName = false) :
    ((applyEvent state event).find commonName).map (·.certPem) = (state.find commonName).map
    (·.certPem) := by
  cases event with
  | enrolled name certPem atUnix clientUid =>
    have hname : name ≠ commonName := by simpa [RegistryEvent.enrolls] using h
    simp [applyEvent, find, hname]
  | revoked name | unblocked name =>
    simp only [applyEvent, find, setRevoked_devices]
    split <;> cases state.devices[commonName]? <;> rfl
  | certRevoked fingerprint atUnix =>
    simp only [applyEvent]
    split <;> rfl
  | uidBound name uid => rfl
  | certDeleted id => rfl

theorem mem_certificates_applyEvent (h : row ∈ (applyEvent state event).certificates) :
    row ∈ state.certificates ∨
    event = .enrolled row.commonName row.certPem row.issuedAtUnix row.clientUid := by
  cases event with
  | enrolled name certPem atUnix clientUid =>
    rcases List.mem_append.1 h with hold | hnew
    · exact .inl hold
    · obtain rfl := List.mem_singleton.1 hnew
      exact .inr rfl
  | revoked name | unblocked name =>
    simp only [applyEvent, setRevoked] at h
    split at h <;> exact .inl h
  | certRevoked fingerprint atUnix =>
    simp only [applyEvent] at h
    split at h <;> exact .inl h
  | uidBound name uid => exact .inl h
  | certDeleted id => exact .inl (List.mem_of_mem_filter h)

end RegistryState

/-! ### The registry with its log -/

abbrev RegistryOp := Journal.Op RegistryState RegistryEvent RegistryError Unit

/-- The registry behind its lock: the materialised state and the log it was replayed from. -/
structure DeviceRegistry where
  state : RegistryState := {}
  log : List RegistryEvent := []

namespace DeviceRegistry

def enrollWithClientUid (commonName certPem : String) (nowUnix : Int) (clientUid : Option String) :
    RegistryOp :=
  put (.enrolled commonName certPem nowUnix clientUid)

def enrollNewWithClientUid (commonName certPem : String) (nowUnix : Int)
    (clientUid : Option String) : RegistryOp := do
  let state ← get
  ensure ((state.find commonName).isNone = true) (.alreadyEnrolled commonName)
  put (.enrolled commonName certPem nowUnix clientUid)

/-- The part of `revoke` under the lock; the signal follows once it is released. -/
def revoke (commonName : String) : RegistryOp := do
  let state ← get
  ensure ((state.find commonName).isSome = true) (.notFound commonName)
  put (.revoked commonName)

/-- The part of `revoke_cert` under the lock. -/
def revokeCert (fingerprint : String) (atUnix : Int) : RegistryOp := do
  let fp ← orRefuse (normalizeFingerprint fingerprint) (.invalidFingerprint fingerprint)
  let state ← get
  putIf ((state.revokedCerts[fp]?).isNone = true) (.certRevoked fp atUnix)

/-- The part of `unblock` under the lock. -/
def unblock (commonName : String) : RegistryOp := do
  let state ← get
  ensure ((state.find commonName).isSome = true) (.notFound commonName)
  put (.unblocked commonName)

def deleteCert (id : Int) : RegistryOp := do
  let state ← get
  putIf (state.certificates.any (·.id = id) = true) (.certDeleted id)

def deleteCerts : List Int → RegistryOp
  | [] => pure ()
  | id :: ids => do
      deleteCert id
      deleteCerts ids

theorem only_deleteCerts (ids : List Int) : (deleteCerts ids).Only fun event =>
    ∃ id, event = .certDeleted id := by
  induction ids with
  | nil => trivial
  | cons id ids ih => exact (only_get.bind fun _ => only_putIf ⟨id, rfl⟩).bind fun _ => ih

/-- What `open_and_replay` builds from the log on startup. -/
def loadOrCreate (log : List RegistryEvent) : DeviceRegistry :=
  { state := log.foldl applyEvent {}, log }

variable (registry : DeviceRegistry) (appended : Bool)

/-- The registry after an operation whose append returns; one that fails leaves the registry, and no
record in the log. -/
def commit (op : RegistryOp) : Except RegistryError DeviceRegistry :=
  let result := op.run applyEvent (if appended then none else some 0) registry.state
  match result.answer with
  | .done _ => .ok { state := result.state, log := registry.log ++ result.recorded }
  | .refused error => .error error
  | .failed _ => .error .eventLog

abbrev record (event : RegistryEvent) : Except RegistryError DeviceRegistry :=
  registry.commit appended (put event)

def currentCert (commonName : String) : Option String :=
  (registry.state.find commonName).map (·.certPem)

variable {registry appended}

variable {next : DeviceRegistry}

theorem record_eq_ok : registry.record appended event = .ok next ↔
      appended = true ∧
      next = { state := applyEvent registry.state event, log := registry.log ++ [event] } := by
  cases appended <;> simp [record, commit, run_put, eq_comm]

section Calls

variable {commonName fingerprint certPem : String} {atUnix id : Int} {clientUid : Option String}

theorem enrollNew_eq_ok :
    registry.commit appended (enrollNewWithClientUid commonName certPem atUnix clientUid) =
    .ok next ↔ registry.state.find commonName = none ∧
      registry.record appended (.enrolled commonName certPem atUnix clientUid) = .ok next := by
  cases hfound : registry.state.find commonName <;> simp [commit, enrollNewWithClientUid, hfound]

theorem revoke_eq_ok : registry.commit appended (revoke commonName) = .ok next ↔
    (registry.state.find commonName).isSome = true ∧
    registry.record appended (.revoked commonName) = .ok next := by
  cases hfound : registry.state.find commonName <;> simp [commit, revoke, hfound]

theorem unblock_eq_ok : registry.commit appended (unblock commonName) = .ok next ↔
    (registry.state.find commonName).isSome = true ∧
    registry.record appended (.unblocked commonName) = .ok next := by
  cases hfound : registry.state.find commonName <;> simp [commit, unblock, hfound]

theorem revokeCert_eq_ok (h : registry.commit appended (revokeCert fingerprint atUnix) = .ok next) :
    ∃ fp, normalizeFingerprint fingerprint = some fp ∧
      ((registry.state.revokedCerts[fp]?).isSome = true ∧ next = registry ∨
        registry.state.revokedCerts[fp]? = none ∧
        registry.record appended (.certRevoked fp atUnix) = .ok next) := by
  unfold commit revokeCert at h
  rw [run_orRefuse_bind] at h
  cases hfp : normalizeFingerprint fingerprint with
  | none => simp [hfp] at h
  | some fp =>
    refine ⟨fp, rfl, ?_⟩
    rw [hfp] at h
    simp only [run_get_bind, putIf, Option.isNone_iff_eq_none] at h
    by_cases hnew : registry.state.revokedCerts[fp]? = none
    · rw [if_pos hnew] at h
      exact .inr ⟨hnew, h⟩
    · rw [if_neg hnew] at h
      exact .inl ⟨Option.isSome_iff_ne_none.2 hnew, by simpa [run] using h.symm⟩

theorem deleteCert_eq_ok (h : registry.commit appended (deleteCert id) = .ok next) :
    next = registry ∨ registry.record appended (.certDeleted id) = .ok next := by
  unfold commit deleteCert at h
  rw [run_get_bind, putIf] at h
  by_cases hlisted : registry.state.certificates.any (·.id = id) = true
  · rw [if_pos hlisted] at h
    exact .inr h
  · rw [if_neg hlisted] at h
    exact .inl (by simpa [run] using h.symm)

/-- What a call leaves: the registry as it was, or with one such event more. -/
def Changes (p : RegistryEvent → Prop) (before after : DeviceRegistry) : Prop :=
  after = before ∨ ∃ event, p event ∧ before.record true event = .ok after

variable {p : RegistryEvent → Prop}

theorem changes_record (h : registry.record appended event = .ok next) (hp : p event) :
    Changes p registry next := by
  obtain ⟨rfl, -⟩ := record_eq_ok.1 h
  exact .inr ⟨event, hp, h⟩

theorem changes_revoke (h : registry.commit appended (revoke commonName) = .ok next)
    (hp : p (.revoked commonName)) : Changes p registry next :=
  changes_record (revoke_eq_ok.1 h).2 hp

theorem changes_unblock (h : registry.commit appended (unblock commonName) = .ok next)
    (hp : p (.unblocked commonName)) : Changes p registry next :=
  changes_record (unblock_eq_ok.1 h).2 hp

theorem changes_revokeCert (h : registry.commit appended (revokeCert fingerprint atUnix) = .ok next)
    (hp : ∀ fp, p (.certRevoked fp atUnix)) : Changes p registry next := by
  obtain ⟨fp, -, ⟨-, hsame⟩ | ⟨-, hrecord⟩⟩ := revokeCert_eq_ok h
  · exact .inl hsame
  · exact changes_record hrecord (hp fp)

theorem changes_deleteCert (h : registry.commit appended (deleteCert id) = .ok next)
    (hp : p (.certDeleted id)) : Changes p registry next := by
  rcases deleteCert_eq_ok h with hsame | hrecord
  · exact .inl hsame
  · exact changes_record hrecord hp

end Calls

/-- The materialised state is what a replay of the log would build. -/
def Faithful (registry : DeviceRegistry) : Prop :=
  registry.state = registry.log.foldl applyEvent {}

theorem Faithful.record (h : registry.Faithful)
    (hrecord : registry.record appended event = .ok next) : next.Faithful := by
  obtain ⟨-, rfl⟩ := record_eq_ok.1 hrecord
  simp only [Faithful, List.foldl_append, List.foldl_cons, List.foldl_nil]
  rw [← h]

theorem Faithful.enrolled_of_mem (h : registry.Faithful)
    (hrow : row ∈ registry.state.certificates) :
    .enrolled row.commonName row.certPem row.issuedAtUnix row.clientUid ∈ registry.log := by
  rw [h] at hrow
  obtain ⟨state, log⟩ := registry
  clear h
  induction log using List.reverseRecOn with
  | nil => cases hrow
  | append_singleton log event ih =>
    rw [List.foldl_append] at hrow
    rcases RegistryState.mem_certificates_applyEvent hrow with hold | hnew
    · exact List.mem_append_left _ (ih hold)
    · exact List.mem_append_right _ (List.mem_singleton.2 hnew.symm)

theorem Faithful.loadOrCreate_log (h : registry.Faithful) :
    loadOrCreate registry.log = registry := by
  unfold loadOrCreate
  rw [← h]

end DeviceRegistry

end MicroTak.Registry
