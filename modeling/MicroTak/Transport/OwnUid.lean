import MicroTak.Transport.Session

/-!
# Speaking under one's own uid

An event speaks under its uid and under its producers.  The impersonation rule asks of each of them
whether a certificate of an identity that is not blocked was enrolled for it, and lets pass only
what the connection's own certificate was enrolled for.  It compares uids and not identities, so a
device whose certificate was renewed without its uid, or for another one, is taken for a stranger to
its former uid.
-/

namespace MicroTak.Transport

open Cot Registry DeviceRegistry

/-- The uids an event speaks under. -/
def claimedUids (event : Event) : List String := event.uid :: event.producerUids

section

variable {mine : Option String} {registry : RegistryState} {uid : String}

/-- A uid has no other owner when it is one's own, or when every identity enrolled for it is
blocked. -/
theorem otherOwnerOfEnrolledUid_eq_none_iff : registry.otherOwnerOfEnrolledUid uid mine = none ↔
    mine = some uid ∨
        ∀ row ∈ registry.certificates, row.clientUid = some uid →
        registry.isRevoked row.commonName = true := by
  unfold RegistryState.otherOwnerOfEnrolledUid
  split
  · next hmine => simp [hmine]
  · next hmine => simp [hmine]

private theorem foreignProducer_eq_none_iff {uids : List String} :
    foreignProducer registry mine uids = none ↔ ∀ uid ∈ uids,
    registry.otherOwnerOfEnrolledUid uid mine = none := by
  induction uids with
  | nil => simp [foreignProducer]
  | cons uid rest ih =>
    rw [foreignProducer]
    split
    · next owner howner => simp [howner]
    · next hnone => rw [ih, List.forall_mem_cons, and_iff_right hnone]

theorem impersonates_iff {event : Event} : Impersonates registry mine event ↔
      ∃ uid ∈ claimedUids event, (registry.otherOwnerOfEnrolledUid uid mine).isSome = true := by
  have hrelay : impersonation registry mine event = .relay ↔
      foreignProducer registry mine (claimedUids event) = none := by
    rw [impersonation, claimedUids, foreignProducer]
    cases registry.otherOwnerOfEnrolledUid event.uid mine with
    | some owner => simp
    | none =>
      cases foreignProducer registry mine event.producerUids with
      | some found => simp
      | none => simp
  rw [Impersonates, ne_eq, hrelay, foreignProducer_eq_none_iff]
  simp [← Option.ne_none_iff_isSome]

/-- Nothing said under `uid` is dropped for that uid: what is dropped speaks under another one that
has another owner. -/
def Unsilenced (registry : RegistryState) (session : Session) (uid : String) : Prop :=
  ∀ event, uid ∈ claimedUids event → Impersonates registry session.identity.mine event →
    ∃ other ∈ claimedUids event, other ≠ uid ∧
      (registry.otherOwnerOfEnrolledUid other session.identity.mine).isSome = true

/-- An event is dropped for a uid exactly when that uid has another owner: an event that speaks
under nothing else is the test. -/
theorem unsilenced_iff {session : Session} :
    Unsilenced registry session uid ↔ registry.otherOwnerOfEnrolledUid uid session.identity.mine =
    none := by
  constructor
  · intro h
    by_contra howned
    have hplain : claimedUids { uid, cotType := "a-f-G" } = [uid] := rfl
    have himpersonates :
        Impersonates registry session.identity.mine { uid, cotType := "a-f-G" } := by
      rw [impersonates_iff, hplain]
      exact ⟨uid, by simp, Option.ne_none_iff_isSome.1 howned⟩
    obtain ⟨other, hother, hne, -⟩ := h _ (by rw [hplain]; simp) himpersonates
    rw [hplain, List.mem_singleton] at hother
    exact hne hother
  · intro hnone event _ himpersonates
    obtain ⟨other, hother, howned⟩ := impersonates_iff.1 himpersonates
    refine ⟨other, hother, ?_, howned⟩
    rintro rfl
    rw [hnone] at howned
    cases howned

/-- **One's own uid**: a TLS connection opened at one point of the registry's history with a
certificate that is still allowed, while every certificate on record for `uid` is of the
connection's own identity. Nothing it says under `uid` is dropped for that uid exactly when its
certificate was on record as enrolled for `uid`, or no certificate on record is. -/
theorem own_uid_unsilenced_iff (pki : Pki) (opening later : List RegistryEvent)
    (listener : Listener) (peer : SocketAddr) (cn : String) (cert : Der) (uid : String)
    (howner : ∀ row ∈ (loadOrCreate (opening ++ later)).state.certificates,
      row.clientUid = some uid → row.commonName = cn)
    (hallowed : (loadOrCreate (opening ++ later)).state.access pki cn cert = .allowed) :
    Unsilenced (loadOrCreate (opening ++ later)).state
        (Session.openTls pki (loadOrCreate opening).state listener peer cn cert) uid ↔
      (loadOrCreate opening).state.enrolledClientUid pki cert = some (some uid) ∨
        ∀ row ∈ (loadOrCreate (opening ++ later)).state.certificates, row.clientUid ≠ some uid := by
  set registry := (loadOrCreate (opening ++ later)).state
  set enrolled := (loadOrCreate opening).state.enrolledClientUid pki cert with henrolled
  have hmine :
      (Session.openTls pki (loadOrCreate opening).state listener peer cn cert).identity.mine =
      enrolled.join := rfl
  rw [unsilenced_iff, otherOwnerOfEnrolledUid_eq_none_iff, hmine, Option.join_eq_some_iff]
  -- The identity itself is not blocked, so its rows count against it.
  have hopen : registry.isRevoked cn = false := (RegistryState.access_eq_allowed_iff.1 hallowed).1
  refine or_congr_right (forall₂_congr fun row hrow => ?_)
  constructor
  · intro hblocked huid
    have hrevoked := hblocked huid
    rw [howner row hrow huid, hopen] at hrevoked
    cases hrevoked
  · intro hnot huid
    exact absurd huid hnot

end

namespace Renewed

/-- A device enrolls for its uid, and renews its certificate without naming it. -/
def history : List RegistryEvent :=
  [.enrolled "alpha" "CERT-A" 0 (some "ANDROID-1"), .enrolled "alpha" "CERT-B" 1 none]

def registry : RegistryState := (DeviceRegistry.loadOrCreate history).state

def session (certPem : String) : Session :=
  Session.openTls Pki.sample registry {} "10.0.0.1:5000" "alpha"
    ((Pki.sample.certPemToDer certPem).getD [])

def report : Event :=
  { uid := "ANDROID-1", cotType := "a-f-G-U-C" }

end Renewed

open Renewed in
/-- The renewed certificate is allowed and every certificate for the uid is of this one identity,
and yet the device's own report is dropped. -/
theorem renewed_certificate_silences_own_uid :
    (∀ row ∈ registry.certificates, row.clientUid = some "ANDROID-1" → row.commonName = "alpha") ∧
      registry.access Pki.sample "alpha" ((Pki.sample.certPemToDer "CERT-B").getD []) = .allowed ∧
      claimedUids report = ["ANDROID-1"] ∧
      Impersonates registry (session "CERT-B").identity.mine report ∧
      ¬ Unsilenced registry (session "CERT-B") "ANDROID-1" := by
  refine ⟨by decide, by decide, rfl, by decide, ?_⟩
  rw [unsilenced_iff]
  decide

open Renewed in
theorem first_certificate_unsilenced : Unsilenced registry (session "CERT-A") "ANDROID-1" :=
  (own_uid_unsilenced_iff Pki.sample history [] {} "10.0.0.1:5000" "alpha"
    ((Pki.sample.certPemToDer "CERT-A").getD []) "ANDROID-1" (by decide) (by decide)).2
      (.inl (by decide))

end MicroTak.Transport
