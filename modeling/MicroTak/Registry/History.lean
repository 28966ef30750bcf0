import MicroTak.Lib.History
import MicroTak.Lib.Kept
import MicroTak.Registry.State

/-!
# The registry and its history

What the registry answers about a certificate is a fact about the calls that have succeeded: a block
is the last of the blocks and unblocks of an enrolled name, and a revoked certificate was revoked at
some time.  Ids of certificates are given out once.  An append that fails and leaves its record all
the same breaks both: after a restart a call that failed is in force, and the ids are others.
-/

namespace MicroTak.Registry

open Std History Journal DeviceRegistry RegistryState List

inductive RegistryCall where
  | enroll (commonName certPem : String) (nowUnix : Int) (clientUid : Option String)
  | enrollNew (commonName certPem : String) (nowUnix : Int) (clientUid : Option String)
  | revoke (commonName : String)
  | revokeCert (fingerprint : String) (atUnix : Int)
  | unblock (commonName : String)
  | deleteCerts (ids : List Int)

namespace RegistryCall

def op : RegistryCall → RegistryOp
  | .enroll commonName certPem nowUnix clientUid =>
    enrollWithClientUid commonName certPem nowUnix clientUid
  | .enrollNew commonName certPem nowUnix clientUid =>
    enrollNewWithClientUid commonName certPem nowUnix clientUid
  | .revoke commonName => DeviceRegistry.revoke commonName
  | .revokeCert fingerprint atUnix => DeviceRegistry.revokeCert fingerprint atUnix
  | .unblock commonName => DeviceRegistry.unblock commonName
  | .deleteCerts ids => DeviceRegistry.deleteCerts ids

def enrolls (commonName : String) : RegistryCall → Bool
  | .enroll name .. | .enrollNew name .. => name = commonName
  | _ => false

def blocks (commonName : String) : RegistryCall → Option Bool
  | .revoke name => if name = commonName then some true else none
  | .unblock name => if name = commonName then some false else none
  | _ => none

def revoked : RegistryCall → Option String
  | .revokeCert fingerprint .. => normalizeFingerprint fingerprint
  | _ => none

end RegistryCall

def lastBlock (commonName : String) (done : List RegistryCall) : Option Bool :=
  (done.filterMap (·.blocks commonName)).getLast?

/-- The name is enrolled, and its last block or unblock is a block. -/
def BlockedBy (done : List RegistryCall) (commonName : String) : Prop :=
  done.any (·.enrolls commonName) = true ∧ lastBlock commonName done = some true

variable {commonName fingerprint : String} {done : List RegistryCall} {c : RegistryCall}
variable {event : RegistryEvent} {state next : RegistryState} {disk : Option Nat}

theorem lastBlock_concat : lastBlock commonName (done ++ [c]) = (c.blocks commonName).or
    (lastBlock commonName done) := by
  cases hblocks : c.blocks commonName <;> simp [lastBlock, hblocks]

/-! ### What the calls do to the state -/

namespace RegistryState

@[simp] theorem isSome_find_setRevoked (commonName other : String) (revoked : Bool) :
    ((state.setRevoked commonName revoked).find other).isSome = (state.find other).isSome := by
  unfold find
  rw [setRevoked_devices]
  split <;> cases state.devices[other]? <;> rfl

@[simp] theorem setRevoked_certificates (commonName : String) (revoked : Bool) :
    (state.setRevoked commonName revoked).certificates = state.certificates ∧
      (state.setRevoked commonName revoked).nextCertId = state.nextCertId := by
  unfold setRevoked
  split <;> exact ⟨rfl, rfl⟩

theorem isSome_find_enrolled (commonName certPem other : String) (atUnix : Int)
    (clientUid : Option String) :
    ((applyEvent state (.enrolled commonName certPem atUnix clientUid)).find other).isSome =
      (decide (commonName = other) || (state.find other).isSome) := by
  by_cases hother : commonName = other
  · simp [applyEvent, find, hother]
  · simp [applyEvent, find, hother]

theorem isSome_revokedCerts_applyEvent (fingerprint other : String) (atUnix : Int) :
    ((applyEvent state (.certRevoked fingerprint atUnix)).revokedCerts[other]?).isSome =
      (decide (fingerprint = other) || (state.revokedCerts[other]?).isSome) := by
  simp only [applyEvent]
  split
  · next found hfound =>
    by_cases hother : fingerprint = other
    · simp [← hother, hfound]
    · simp [hother]
  · by_cases hother : fingerprint = other
    · simp [hother]
    · simp [hother]

end RegistryState

structure Accounts (state : RegistryState) (done : List RegistryCall) : Prop where
  enrolled : ∀ commonName, (state.find commonName).isSome = done.any (·.enrolls commonName)
  blocked : ∀ commonName, state.isRevoked commonName = true ↔ lastBlock commonName done = some true
  revoked : ∀ fingerprint, (state.revokedCerts[fingerprint]?).isSome =
    done.any (·.revoked = some fingerprint)
  /-- No id is above the last one given out. -/
  bounded : ∀ cert ∈ state.certificates, cert.id ≤ state.nextCertId
  distinct : (state.certificates.map (·.id)).Nodup

theorem accounts_nil : Accounts {} [] where
  enrolled := fun commonName => by simp [find]
  blocked := fun commonName => by simp [isRevoked, lastBlock]
  revoked := fun fingerprint => by simp
  bounded := nofun
  distinct := nodup_nil

/-- What a call leaves accounts for the calls so far, and for the call itself where it succeeds. -/
def Credits (result : Result RegistryState RegistryEvent RegistryError Unit)
    (done : List RegistryCall) (c : RegistryCall) : Prop :=
  Accounts result.state (if result.answer.isDone then done ++ [c] else done)

section Steps

variable (h : Accounts state done)

include h

theorem Accounts.put (hdone : Accounts (applyEvent state event) (done ++ [c])) :
    Credits ((Op.put event).run applyEvent disk state) done c := by
  rw [Op.run_put]
  split
  · exact h
  · exact hdone

theorem Accounts.concat_of_idle (henrolls : ∀ name, c.enrolls name = false)
    (hblocks : ∀ name, c.blocks name = none) (hrevoked : c.revoked = none) :
    Accounts state (done ++ [c]) where
  __ := h
  enrolled := fun name => by simp [h.enrolled, henrolls]
  blocked := fun name => by rw [h.blocked, lastBlock_concat, hblocks, Option.none_or]
  revoked := fun fingerprint => by simp [h.revoked, hrevoked]

theorem Accounts.enrolled_step {certPem : String} {nowUnix : Int} {clientUid : Option String}
    (henrolls : ∀ name, c.enrolls name = decide (commonName = name))
    (hblocks : ∀ name, c.blocks name = none) (hrevoked : c.revoked = none) :
    Accounts (applyEvent state (.enrolled commonName certPem nowUnix clientUid)) (done ++ [c]) := by
  refine ⟨fun name => ?_, fun name => ?_, fun fingerprint => ?_, fun cert hcert => ?_, ?_⟩
  · rw [isSome_find_enrolled, h.enrolled, Bool.or_comm]
    simp [henrolls]
  · rw [isRevoked_enrolled, h.blocked, lastBlock_concat, hblocks, Option.none_or]
  · rw [any_append, ← h.revoked]
    simp [hrevoked, applyEvent]
  · rcases mem_append.1 hcert with hold | hnew
    · exact (h.bounded cert hold).trans (Int.le_add_one le_rfl)
    · rw [mem_singleton.1 hnew]
      exact le_rfl
  · show ((state.certificates ++ [_]).map CertRecord.id).Nodup
    rw [map_append]
    refine nodup_append.2 ⟨h.distinct, pairwise_singleton _ _, fun id hid other hother => ?_⟩
    obtain ⟨cert, hcert, rfl⟩ := mem_map.1 hid
    rw [mem_singleton.1 hother]
    have hle := h.bounded cert hcert
    show cert.id ≠ state.nextCertId + 1
    omega

theorem Accounts.setRevoked_step {revoked : Bool} (hknown : (state.find commonName).isSome = true)
    (henrolls : ∀ name, c.enrolls name = false)
    (hblocks : ∀ name, c.blocks name = if commonName = name then some revoked else none)
    (hrevoked : c.revoked = none) :
    Accounts (state.setRevoked commonName revoked) (done ++ [c]) := by
  obtain ⟨hcerts, hnext⟩ := state.setRevoked_certificates commonName revoked
  refine ⟨fun name => ?_, fun name => ?_, fun fingerprint => ?_, ?_, ?_⟩
  · rw [isSome_find_setRevoked, h.enrolled]
    simp [henrolls]
  · rw [lastBlock_concat, hblocks]
    by_cases hname : commonName = name
    · subst hname
      simp [hknown]
    · simp [hname, h.blocked]
  · rw [any_append, ← h.revoked]
    simp [hrevoked]
  · rw [hcerts, hnext]
    exact h.bounded
  · rw [hcerts]
    exact h.distinct

private theorem Accounts.certRevoked_step {atUnix : Int} (henrolls : ∀ name, c.enrolls name = false)
    (hblocks : ∀ name, c.blocks name = none) (hrevoked : c.revoked = some fingerprint) :
    Accounts (applyEvent state (.certRevoked fingerprint atUnix)) (done ++ [c]) := by
  obtain ⟨hdevices, hcerts, hnext⟩ :
      (applyEvent state (.certRevoked fingerprint atUnix)).devices = state.devices ∧
        (applyEvent state (.certRevoked fingerprint atUnix)).certificates = state.certificates ∧
        (applyEvent state (.certRevoked fingerprint atUnix)).nextCertId = state.nextCertId := by
    simp only [applyEvent]
    split <;> exact ⟨rfl, rfl, rfl⟩
  refine ⟨fun name => ?_, fun name => ?_, fun other => ?_, ?_, ?_⟩
  · rw [find, hdevices, any_append, ← h.enrolled]
    simp [henrolls, find]
  · rw [isRevoked, hdevices, lastBlock_concat, hblocks]
    exact h.blocked name
  · rw [isSome_revokedCerts_applyEvent, h.revoked, Bool.or_comm]
    simp [hrevoked]
  · rw [hcerts, hnext]
    exact h.bounded
  · rw [hcerts]
    exact h.distinct

/-- A certificate that is revoked already is revoked again without a record. -/
theorem Accounts.revokeCert {atUnix : Int} :
    Credits ((DeviceRegistry.revokeCert fingerprint atUnix).run applyEvent disk state) done
      (.revokeCert fingerprint atUnix) := by
  rw [DeviceRegistry.revokeCert, Op.run_orRefuse_bind]
  cases hfp : normalizeFingerprint fingerprint with
  | none => exact h
  | some fp =>
    simp only [Op.run_get_bind, Op.putIf]
    have hdone : Accounts (applyEvent state (.certRevoked fp atUnix))
        (done ++ [.revokeCert fingerprint atUnix]) :=
      h.certRevoked_step (fun _ => rfl) (fun _ => rfl) hfp
    split
    · exact h.put hdone
    · next hthere =>
      obtain ⟨revokedAt, hrevokedAt⟩ :=
        Option.ne_none_iff_exists'.1 (mt Option.isNone_iff_eq_none.2 hthere)
      have hsame : applyEvent state (.certRevoked fp atUnix) = state := by
        simp [applyEvent, hrevokedAt]
      rw [hsame] at hdone
      exact hdone

/-- Rows go, everything else stays; also when an append fails on the way. -/
theorem Accounts.deleteCerts (ids : List Int) (disk : Option Nat) :
    Accounts ((DeviceRegistry.deleteCerts ids).run applyEvent disk state).state done := by
  refine (DeviceRegistry.only_deleteCerts ids).run (Accounts · done) (fun state event hevent h =>
    ?_) h
  obtain ⟨id, rfl⟩ := hevent
  exact ⟨h.enrolled, h.blocked, h.revoked, fun cert hcert =>
    h.bounded cert (mem_of_mem_filter hcert), h.distinct.sublist (filter_sublist.map _)⟩

theorem accounts_call (c : RegistryCall) (disk : Option Nat) :
    Credits (c.op.run applyEvent disk state) done c := by
  cases c with
  | enroll commonName certPem nowUnix clientUid =>
    exact h.put (h.enrolled_step (fun _ => rfl) (fun _ => rfl) rfl)
  | enrollNew commonName certPem nowUnix clientUid =>
    rw [RegistryCall.op, enrollNewWithClientUid, Op.run_get_bind, Op.run_ensure_bind]
    split
    · exact h.put (h.enrolled_step (fun _ => rfl) (fun _ => rfl) rfl)
    · exact h
  | revoke commonName =>
    rw [RegistryCall.op, DeviceRegistry.revoke, Op.run_get_bind, Op.run_ensure_bind]
    split
    · next hknown => exact h.put (h.setRevoked_step hknown (fun _ => rfl) (fun _ => rfl) rfl)
    · exact h
  | revokeCert fingerprint atUnix => exact h.revokeCert
  | unblock commonName =>
    rw [RegistryCall.op, DeviceRegistry.unblock, Op.run_get_bind, Op.run_ensure_bind]
    split
    · next hknown => exact h.put (h.setRevoked_step hknown (fun _ => rfl) (fun _ => rfl) rfl)
    · exact h
  | deleteCerts ids =>
    have hthinned := h.deleteCerts ids disk
    unfold Credits
    split
    · exact hthinned.concat_of_idle (fun _ => rfl) (fun _ => rfl) rfl
    · exact hthinned

end Steps

/-! ### Runs with restarts -/

/-- Whether a call or a restart succeeds, and what it leaves in memory and on disk. -/
def take (store : Kept RegistryState RegistryEvent) (turn : Turn RegistryCall) :
    Bool × Kept RegistryState RegistryEvent :=
  store.take applyEvent {} RegistryCall.op turn

/-- The calls among the turns that succeeded. -/
def calls (trace : Trace (Kept RegistryState RegistryEvent) (Turn RegistryCall)) :
    List RegistryCall :=
  trace.done.filterMap Turn.made

variable {store : Kept RegistryState RegistryEvent} {turns : List (Turn RegistryCall)}
  {turn : Turn RegistryCall}

theorem faithful_take (h : store.Faithful applyEvent {}) (hleft : turn.left = false) :
    (take store turn).2.Faithful applyEvent {} :=
  h.step hleft rfl

theorem take_restart (h : store.Faithful applyEvent {}) : take store .restart = (true, store) := by
  unfold take Kept.take
  rw [← h]

theorem accounts_take (h : store.Faithful applyEvent {}) (haccounts : Accounts store.state done)
    (turn : Turn RegistryCall) :
    Accounts (take store turn).2.state (if (take store turn).1 then done ++ turn.made.toList
      else done) := by
  cases turn with
  | call c disk left => exact accounts_call haccounts c disk
  | restart =>
    rw [take_restart h]
    simpa [Turn.made] using haccounts

/-- The invariant of the runs: the log replays to the state, and the state accounts for the
calls. -/
def Inv (store : Kept RegistryState RegistryEvent) (done : List (Turn RegistryCall)) : Prop :=
  store.Faithful applyEvent {} ∧ Accounts store.state (done.filterMap Turn.made)

theorem inv_play (hleft : ∀ turn ∈ turns, turn.left = false) :
    Inv (play take ⟨{}, []⟩ turns).state (play take ⟨{}, []⟩ turns).done := by
  have hinit : Inv ⟨{}, []⟩ [] := ⟨rfl, accounts_nil⟩
  refine play_invariant Inv hinit turns (fun store done turn hturn h hok => ?_)
    (fun store done turn hturn h hfailed => ?_)
  · have haccounts := accounts_take h.1 h.2 turn
    rw [if_pos hok] at haccounts
    refine ⟨faithful_take h.1 (hleft turn hturn), ?_⟩
    rw [filterMap_append]
    cases turn <;> exact haccounts
  · have haccounts := accounts_take h.1 h.2 turn
    rw [hfailed] at haccounts
    exact ⟨faithful_take h.1 (hleft turn hturn), haccounts⟩

/-! ### Certificate ids over time -/

/-- A row that is on record later was there before, or has an id above every id given out before. -/
structure Grows (before after : RegistryState) : Prop where
  nextCertId : before.nextCertId ≤ after.nextCertId
  fresh : ∀ cert ∈ after.certificates, cert ∈ before.certificates ∨ before.nextCertId < cert.id

theorem Grows.refl (state : RegistryState) : Grows state state :=
  ⟨le_rfl, fun _ => .inl⟩

theorem Grows.trans {a b c : RegistryState} (hab : Grows a b) (hbc : Grows b c) : Grows a c where
  nextCertId := hab.nextCertId.trans hbc.nextCertId
  fresh := fun cert hcert => by
    rcases hbc.fresh cert hcert with hmid | hnew
    · exact hab.fresh cert hmid
    · exact .inr (hab.nextCertId.trans_lt hnew)

private theorem grows_applyEvent (state : RegistryState) (event : RegistryEvent) :
    Grows state (applyEvent state event) := by
  refine ⟨?_, fun cert hcert => ?_⟩
  · cases event with
    | enrolled => exact Int.le_add_one le_rfl
    | revoked | unblocked => exact (setRevoked_certificates _ _).2.ge
    | certRevoked =>
      simp only [applyEvent]
      split <;> exact le_rfl
    | uidBound | certDeleted => exact le_rfl
  · cases event with
    | enrolled commonName certPem atUnix clientUid =>
      rcases mem_append.1 hcert with hold | hnew
      · exact .inl hold
      · rw [mem_singleton.1 hnew]
        exact .inr (Int.lt_add_one_of_le le_rfl)
    | revoked | unblocked | certRevoked | uidBound | certDeleted =>
      exact .inl ((mem_certificates_applyEvent hcert).resolve_right RegistryEvent.noConfusion)

private theorem grows_take (h : store.Faithful applyEvent {}) (turn : Turn RegistryCall) :
    Grows store.state (take store turn).2.state := by
  cases turn with
  | call c disk left =>
    exact (Op.only_true c.op).run (Grows store.state) (fun state event _ h =>
      h.trans (grows_applyEvent state event)) (.refl _)
  | restart =>
    rw [take_restart h]
    exact .refl _

theorem grows_play {before after : List (Turn RegistryCall)}
    (hleft : ∀ turn ∈ before ++ after, turn.left = false) :
    Grows (play take ⟨{}, []⟩ before).state.state
    (play take ⟨{}, []⟩ (before ++ after)).state.state := by
  have hbefore := (inv_play fun turn hturn => hleft turn (mem_append_left after hturn)).1
  refine (play_append_related
    (fun (a b : Kept RegistryState RegistryEvent) =>
      a.Faithful applyEvent {} → b.Faithful applyEvent {} ∧ Grows a.state b.state)
    (fun store h => ⟨h, .refl _⟩) (fun hab hbc h => ?_) before after (fun store turn hturn h =>
      ?_) hbefore).2
  · have hmid := hab h
    have hlast := hbc hmid.1
    exact ⟨hlast.1, hmid.2.trans hlast.2⟩
  · exact ⟨faithful_take h (hleft turn (mem_append_right before hturn)), grows_take h turn⟩

private theorem Accounts.isRevoked_iff (h : Accounts state done) :
    state.isRevoked commonName = true ↔ BlockedBy done commonName := by
  refine ⟨fun hrevoked => ⟨?_, (h.blocked commonName).1 hrevoked⟩, fun hblocked =>
    (h.blocked commonName).2 hblocked.2⟩
  obtain ⟨device, hdevice, -⟩ := isRevoked_eq_true_iff.1 hrevoked
  rw [← h.enrolled, find, hdevice]
  rfl

/-- The registry is exact about its history, as long as no append that fails leaves its record.
Blocked is whoever enrolled and was last blocked, revoked is every fingerprint that was ever
revoked, and everyone else is allowed; no two certificates have one id, at no two times; and a
restart changes nothing. -/
theorem access_history_exact (pki : Pki) (turns : List (Turn RegistryCall))
    (hleft : ∀ turn ∈ turns, turn.left = false) : let trace := play take ⟨{}, []⟩ turns
    (∀ commonName der,
      let revoked := ∃ c ∈ calls trace, c.revoked = some (pki.fingerprintSha256ColonHexDer der)
      (trace.state.state.access pki commonName der = .blocked ↔
        BlockedBy (calls trace) commonName) ∧
      (trace.state.state.access pki commonName der = .certRevoked ↔
        ¬ BlockedBy (calls trace) commonName ∧ revoked) ∧
      (trace.state.state.access pki commonName der = .allowed ↔
        ¬ BlockedBy (calls trace) commonName ∧ ¬ revoked)) ∧
    (trace.state.state.certificates.map (·.id)).Nodup ∧
    (∀ before mid after, turns = before ++ mid ++ after →
      ∀ old ∈ (play take ⟨{}, []⟩ before).state.state.certificates,
        (∀ cert ∈ (play take ⟨{}, []⟩ (before ++ mid)).state.state.certificates, cert.id ≠ old.id) →
          ∀ new ∈ trace.state.state.certificates, new.id ≠ old.id) ∧
    take trace.state .restart = (true, trace.state) := by
  intro trace
  obtain ⟨hfaithful, haccounts⟩ := inv_play hleft
  refine ⟨fun commonName der => ?_, haccounts.distinct, ?_, take_restart hfaithful⟩
  · have hblocked : trace.state.state.isRevoked commonName = true ↔
        BlockedBy (calls trace) commonName :=
      haccounts.isRevoked_iff
    have hrevoked : (trace.state.state.revokedCerts[pki.fingerprintSha256ColonHexDer der]?).isSome =
        true ↔ ∃ c ∈ calls trace, c.revoked = some (pki.fingerprintSha256ColonHexDer der) := by
      rw [haccounts.revoked, any_eq_true]
      simp only [decide_eq_true_eq]
      rfl
    rw [access]
    split
    · simp_all
    · split <;> simp_all
  · rintro before mid after rfl old hold hgone new hnew
    have hmid : ∀ turn ∈ before ++ mid, turn.left = false := fun turn hturn =>
      hleft turn (mem_append_left _ hturn)
    rcases (grows_play hleft).fresh new hnew with hkept | hfresh
    · exact hgone new hkept
    · have hle :=
        (inv_play fun turn hturn => hmid turn (mem_append_left _ hturn)).2.bounded old hold
      have hnext := (grows_play hmid).nextCertId
      omega

def reissued : List (Turn RegistryCall) :=
  [.call (.enroll "alpha" "A1" 0 none), .call (.revoke "alpha"),
    .call (.enroll "alpha" "A2" 1 none), .call (.enrollNew "bravo" "B" 2 none) (some 0),
      .call (.deleteCerts [1, 7]), .restart,
    .call (.enrollNew "bravo" "B" 3 none)]

theorem access_history_exact_reissued :
    (play take ⟨{}, []⟩ reissued).state.state.certificates.map (fun cert =>
      (cert.id, cert.commonName)) =
        [(2, "alpha"), (3, "bravo")] ∧
      (∀ der, (play take ⟨{}, []⟩ reissued).state.state.access .sample "alpha" der = .blocked ↔
        BlockedBy (calls (play take ⟨{}, []⟩ reissued)) "alpha") ∧
      BlockedBy (calls (play take ⟨{}, []⟩ reissued)) "alpha" ∧
      ∀ new ∈ (play take ⟨{}, []⟩ reissued).state.state.certificates, new.id ≠ 1 := by
  have hexact := access_history_exact .sample reissued (by decide)
  have hold : ⟨1, "alpha", "A1", none, 0⟩ ∈
      (play take ⟨{}, []⟩ (reissued.take 1)).state.state.certificates := by
    decide +kernel
  have hgone :
      ∀ cert ∈ (play take ⟨{}, []⟩
        (reissued.take 1 ++ (reissued.take 5).drop 1)).state.state.certificates, cert.id ≠ 1 := by
    decide +kernel
  exact ⟨by decide +kernel, fun der => (hexact.1 "alpha" der).1,
    ⟨by decide +kernel, by decide +kernel⟩,
    hexact.2.2.1 (reissued.take 1) ((reissued.take 5).drop 1) (reissued.drop 5) rfl _ hold hgone⟩

/-- An enrollment that failed is there after a restart, and the certificate after it has another id.
A block that failed is in force after a restart. -/
theorem left_record_comes_into_force :
    (let turns : List (Turn RegistryCall) :=
      [.call (.enroll "alpha" "A" 0 none) (some 0) true, .call (.enroll "bravo" "B" 1 none)]
     (play take ⟨{}, []⟩ turns).state.state.certificates.map (fun cert =>
       (cert.id, cert.commonName)) = [(1, "bravo")] ∧
      (play take ⟨{}, []⟩ (turns ++ [.restart])).state.state.certificates.map
        (fun cert => (cert.id, cert.commonName)) = [(1, "alpha"), (2, "bravo")]) ∧
    let turns : List (Turn RegistryCall) :=
      [.call (.enroll "alpha" "A" 0 none), .call (.revoke "alpha") (some 0) true, .restart]
    ¬ BlockedBy (calls (play take ⟨{}, []⟩ turns)) "alpha" ∧
      ∀ der, (play take ⟨{}, []⟩ turns).state.state.access .sample "alpha" der = .blocked := by
  refine ⟨by decide +kernel, fun hblocked => absurd hblocked.2 (by decide +kernel), fun der => ?_⟩
  have hrevoked :
      (play take ⟨{}, []⟩ [.call (.enroll "alpha" "A" 0 none),
        .call (.revoke "alpha") (some 0) true, .restart]).state.state.isRevoked "alpha" =
          true := by decide +kernel
  rw [access, if_pos hrevoked]

end MicroTak.Registry
