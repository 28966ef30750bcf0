import MicroTak.Lib.History
import MicroTak.Enrollment.Credentials

/-!
# Invite tokens are single-use

Every call of the token store holds its lock from the first check to the last change, so calls of
concurrent requests come one after the other.  A restart replays the log.
-/

namespace MicroTak.Enrollment

open Std Groups History List EnrollmentTokenStore

/-- A call of the store, with whether the event log takes its record. -/
inductive TokenCall where
  | mint (random : String) (expiresInSecs : Option Int) (note commonName : Option String)
    (groups : List GroupGrant)
      (nowUnix : Int) (appended : Bool)
  | consume (token commonName : String) (nowUnix : Int) (appended : Bool)
  | revoke (token : String) (appended : Bool)
  | restart

namespace TokenCall

def minted : TokenCall → Option String
  | .mint random .. => some random
  | _ => none

def consumes (token : String) : TokenCall → Bool
  | .consume value .. => value = token
  | _ => false

def revokes (token : String) : TokenCall → Bool
  | .revoke value _ => value = token
  | _ => false

def spends (token : String) (c : TokenCall) : Bool :=
  c.consumes token || c.revokes token

end TokenCall

namespace EnrollmentTokenStore

def call (store : EnrollmentTokenStore) : TokenCall → Bool × EnrollmentTokenStore
  | .mint random expiresInSecs note commonName groups nowUnix appended =>
      ofExcept (store.mintWith appended random expiresInSecs note commonName groups nowUnix) store
  | .consume token commonName nowUnix appended =>
      ofExcept (store.validateAndConsume appended token commonName nowUnix) store
  | .revoke token appended => ofExcept (store.revoke appended token) store
  | .restart => (true, .loadOrCreate store.log)

variable {store next : EnrollmentTokenStore} {appended : Bool}

/-! ### What each call does to the tokens -/

variable {token : String} {event : TokenEvent} {nowUnix : Int} {bound : Option String}
  {c : TokenCall} {f : EnrollmentToken → EnrollmentToken}

theorem getElem?_modifyToken {tokens : TreeMap String EnrollmentToken} {other : String} :
    (modifyToken tokens token f)[other]? = if token = other then tokens[other]?.map f
    else tokens[other]? := by
  unfold modifyToken
  split
  · next t ht =>
    rw [Dict.getElem?_insert]
    split
    · next h => rw [← h, ht, Option.map_some]
    · rfl
  · next hnone =>
    split
    · next h => rw [← h, hnone, Option.map_none]
    · rfl

theorem record_eq_ok : store.record appended event = .ok next ↔
      appended = true ∧
      next = { tokens := applyTokenEvent store.tokens event, log := store.log ++ [event] } := by
  unfold record
  cases appended <;> simp [eq_comm]

theorem isUsableAt_eq_ok {token : EnrollmentToken} : token.isUsableAt nowUnix = .ok () ↔
      token.revoked = false ∧ token.used = false ∧ ∀ expiresAt ∈ token.expiresAtUnix,
      nowUnix < expiresAt := by
  unfold EnrollmentToken.isUsableAt
  cases token.revoked with
  | true => simp
  | false =>
    cases token.used with
    | true => simp
    | false =>
      cases token.expiresAtUnix with
      | none => simp
      | some expiresAt => by_cases hexpired : expiresAt ≤ nowUnix <;> simp_all

theorem validateAndConsume_eq_ok {commonName : String} :
    store.validateAndConsume appended token commonName nowUnix = .ok next ↔
      ∃ existing, store.tokens[token]? = some existing ∧ existing.isUsableAt nowUnix = .ok () ∧
        (∀ bound ∈ existing.commonName, bound = commonName) ∧
        store.record appended (.consumed token commonName nowUnix) = .ok next := by
  unfold validateAndConsume
  cases hexisting : store.tokens[token]? with
  | none => simp
  | some existing =>
    cases husable : existing.isUsableAt nowUnix with
    | error error => simp [husable, bind, Except.bind]
    | ok =>
      cases hbound : existing.commonName with
      | none => simp [husable, hbound, bind, Except.bind]
      | some bound =>
        by_cases hname : bound = commonName
        · simp [husable, hbound, hname, bind, Except.bind]
        · simp [husable, hbound, hname, bind, Except.bind]

/-- The materialised tokens are what a replay of the log would build. -/
def Faithful (store : EnrollmentTokenStore) : Prop :=
  store.tokens = store.log.foldl applyTokenEvent ∅

theorem Faithful.record (h : store.Faithful) (hrecord : store.record appended event = .ok next) :
    next.Faithful := by
  obtain ⟨-, rfl⟩ := record_eq_ok.1 hrecord
  rw [Faithful, foldl_append, ← h]
  rfl

theorem Faithful.loadOrCreate (h : store.Faithful) : loadOrCreate store.log = store := by
  unfold EnrollmentTokenStore.loadOrCreate
  rw [← h]

/-! ### The store and its history -/

/-- One of the calls minted the token, to expire then and bound to that name. -/
def MintedAs (done : List TokenCall) (token : String) (expiresAt : Option Int)
    (bound : Option String) : Prop :=
  ∃ expiresInSecs note groups mintedAt appended,
    .mint token expiresInSecs note bound groups mintedAt appended ∈ done ∧
      expiresAt = expiresInSecs.map (mintedAt + ·)

theorem MintedAs.append {done : List TokenCall} {expiresAt : Option Int}
    (h : MintedAs done token expiresAt bound) (c : TokenCall) :
    MintedAs (done ++ [c]) token expiresAt bound := by
  obtain ⟨expiresInSecs, note, groups, mintedAt, appended, hmem, hexpires⟩ := h
  exact ⟨expiresInSecs, note, groups, mintedAt, appended, mem_append_left _ hmem, hexpires⟩

/-- What the tokens say about the calls that have succeeded, and these about each other. -/
structure Accounts (store : EnrollmentTokenStore) (done : List TokenCall) : Prop where
  faithful : store.Faithful
  minted : ∀ token record, store.tokens[token]? = some record →
    MintedAs done token record.expiresAtUnix record.commonName
  /-- Only what was minted is consumed or revoked. -/
  known : ∀ c ∈ done, ∀ token, c.spends token = true → ∃ expiresAt bound,
    MintedAs done token expiresAt bound
  unused : ∀ token record, store.tokens[token]? = some record → record.used = false →
    record.revoked = false → ∀ c ∈ done, c.spends token = false
  once : done.Pairwise fun a b => ∀ token, a.spends token = true → b.consumes token = false
  lawful : ∀ token commonName nowUnix appended, .consume token commonName nowUnix appended ∈ done →
    ∃ expiresAt bound, MintedAs done token expiresAt bound ∧
      (∀ instant ∈ expiresAt, nowUnix < instant) ∧ ∀ name ∈ bound, name = commonName

theorem accounts_nil : Accounts {} [] where
  faithful := rfl
  minted := by simp
  known := nofun
  unused := by simp
  once := .nil
  lawful := nofun

variable {done : List TokenCall} {commonName : String}

section

variable (h : Accounts store done)

include h

theorem Accounts.append (hfaithful : next.Faithful)
    (hminted : ∀ token record, next.tokens[token]? = some record →
      MintedAs (done ++ [c]) token record.expiresAtUnix record.commonName)
    (hunused : ∀ token record, next.tokens[token]? = some record → record.used = false →
      record.revoked = false → c.spends token = false ∧ ∀ c ∈ done, c.spends token = false)
    (hspends : ∀ token, c.spends token = true → (store.tokens[token]?).isSome = true)
    (honce : ∀ token, c.consumes token = true → ∀ a ∈ done, a.spends token = false)
    (hlawful : ∀ token commonName nowUnix appended, c = .consume token commonName nowUnix appended →
      ∃ expiresAt bound, MintedAs done token expiresAt bound ∧
      (∀ instant ∈ expiresAt, nowUnix < instant) ∧
        ∀ name ∈ bound, name = commonName) : Accounts next (done ++ [c]) where
  faithful := hfaithful
  minted := hminted
  known := by
    intro a ha token hend
    rcases mem_append.1 ha with ha | ha
    · obtain ⟨expiresAt, bound, hminted⟩ := h.known a ha token hend
      exact ⟨expiresAt, bound, hminted.append c⟩
    · rw [mem_singleton.1 ha] at hend
      obtain ⟨record, hrecord⟩ := Option.isSome_iff_exists.1 (hspends token hend)
      exact ⟨_, _, (h.minted token record hrecord).append c⟩
  unused := by
    intro token record hrecord hused hrevoked a ha
    obtain ⟨hc, hdone⟩ := hunused token record hrecord hused hrevoked
    rcases mem_append.1 ha with ha | ha
    · exact hdone a ha
    · rw [mem_singleton.1 ha]
      exact hc
  once := by
    refine pairwise_append.2 ⟨h.once, pairwise_singleton _ _, fun a ha b hb token hend => ?_⟩
    rw [mem_singleton.1 hb]
    by_contra hconsumes
    rw [honce token (by simpa using hconsumes) a ha] at hend
    cases hend
  lawful := by
    intro token commonName nowUnix appended hmem
    obtain ⟨expiresAt, bound, hminted, hrest⟩ :=
      (mem_append.1 hmem).elim (h.lawful token commonName nowUnix appended) fun hlast =>
        hlawful token commonName nowUnix appended (mem_singleton.1 hlast).symm
    exact ⟨expiresAt, bound, hminted.append c, hrest⟩

theorem Accounts.mint {random : String} {expiresInSecs : Option Int} {note : Option String}
    {groups : List GroupGrant} (hfresh : random ∉ done.filterMap TokenCall.minted)
    (hmint : store.mintWith appended random expiresInSecs note bound groups nowUnix = .ok next) :
    Accounts next (done ++ [.mint random expiresInSecs note bound groups nowUnix appended]) := by
  have htokens : ∀ token, next.tokens[token]? = if random = token then some
      { token := random, createdAtUnix := nowUnix, expiresAtUnix := expiresInSecs.map (nowUnix + ·),
        note, commonName := bound,
        groups, used := false, usedByCommonName := none, usedAtUnix := none, revoked := false }
      else store.tokens[token]? := by
    intro token
    obtain ⟨-, rfl⟩ := record_eq_ok.1 hmint
    exact Dict.getElem?_insert ..
  refine h.append (h.faithful.record hmint) (fun token record hrecord => ?_)
    (fun token record hrecord hused hrevoked => ?_) nofun nofun nofun
  · rw [htokens] at hrecord
    split at hrecord
    · next hrandom =>
      subst hrandom
      cases hrecord
      exact ⟨_, _, _, _, _, mem_append_right _ mem_cons_self, rfl⟩
    · exact (h.minted token record hrecord).append _
  · refine ⟨rfl, ?_⟩
    rw [htokens] at hrecord
    split at hrecord
    · next hrandom =>
      subst hrandom
      intro c hc
      by_contra hspends
      obtain ⟨_, _, _, _, _, _, _, hmem, -⟩ := h.known c hc random (by simpa using hspends)
      exact hfresh (mem_filterMap.2 ⟨_, hmem, rfl⟩)
    · exact h.unused token record hrecord hused hrevoked

theorem Accounts.minted_modifyToken (hname : ∀ record, (f record).commonName = record.commonName)
    (hexpires : ∀ record, (f record).expiresAtUnix = record.expiresAtUnix) (other : String)
    (record : EnrollmentToken)
    (hrecord : (modifyToken store.tokens token f)[other]? = some record) :
    MintedAs (done ++ [c]) other record.expiresAtUnix record.commonName := by
  rw [getElem?_modifyToken] at hrecord
  split at hrecord
  · obtain ⟨old, hold, rfl⟩ := Option.map_eq_some_iff.1 hrecord
    rw [hname, hexpires]
    exact (h.minted other old hold).append c
  · exact (h.minted other record hrecord).append c

theorem Accounts.unused_modifyToken
    (hmark : ∀ record, (f record).used = true ∨ (f record).revoked = true)
    (hspends : ∀ other, TokenCall.spends other c = true → token = other) (other : String)
    (record : EnrollmentToken) (hrecord : (modifyToken store.tokens token f)[other]? = some record)
    (hused : record.used = false) (hrevoked : record.revoked = false) : c.spends other = false ∧
    ∀ c ∈ done, c.spends other = false := by
  rw [getElem?_modifyToken] at hrecord
  split at hrecord
  · obtain ⟨old, -, rfl⟩ := Option.map_eq_some_iff.1 hrecord
    rcases hmark old with hmark | hmark
    · rw [hmark] at hused
      cases hused
    · rw [hmark] at hrevoked
      cases hrevoked
  · next hother =>
    exact ⟨Bool.eq_false_iff.2 fun hspent => hother (hspends other hspent),
      h.unused other record hrecord hused hrevoked⟩

theorem Accounts.consume
    (hconsume : store.validateAndConsume appended token commonName nowUnix = .ok next) :
    Accounts next (done ++ [.consume token commonName nowUnix appended]) := by
  obtain ⟨existing, hexisting, husable, hbound, hrecord⟩ := validateAndConsume_eq_ok.1 hconsume
  obtain ⟨hrevoked, hused, hexpires⟩ := isUsableAt_eq_ok.1 husable
  have hfaithful := h.faithful.record hrecord
  obtain ⟨-, rfl⟩ := record_eq_ok.1 hrecord
  have hspends : ∀ other, TokenCall.spends other (.consume token commonName nowUnix appended) =
      true → token = other := by
    intro other hother
    simpa [TokenCall.spends, TokenCall.consumes, TokenCall.revokes] using hother
  refine h.append hfaithful (h.minted_modifyToken (fun _ => rfl) fun _ => rfl)
    (h.unused_modifyToken (fun _ => .inl rfl) hspends) (fun other hother => ?_)
      (fun other hother => ?_) ?_
  · rw [← hspends other hother, hexisting]
    rfl
  · obtain rfl : token = other := by simpa [TokenCall.consumes] using hother
    exact h.unused token existing hexisting hused hrevoked
  · rintro _ _ _ _ ⟨⟩
    exact ⟨_, _, h.minted token existing hexisting, hexpires, hbound⟩

theorem Accounts.revoke (hrevoke : store.revoke appended token = .ok next) :
    Accounts next (done ++ [.revoke token appended]) := by
  unfold EnrollmentTokenStore.revoke at hrevoke
  split at hrevoke
  · next hknown =>
    have hfaithful := h.faithful.record hrevoke
    obtain ⟨-, rfl⟩ := record_eq_ok.1 hrevoke
    have hspends : ∀ other, TokenCall.spends other (.revoke token appended) = true →
        token = other := by
      intro other hother
      simpa [TokenCall.spends, TokenCall.consumes, TokenCall.revokes] using hother
    refine h.append hfaithful (h.minted_modifyToken (fun _ => rfl) fun _ => rfl)
      (h.unused_modifyToken (fun _ => .inr rfl) hspends) (fun other hother => ?_) nofun nofun
    rw [← hspends other hother]
    exact hknown
  · cases hrevoke

theorem Accounts.restart : Accounts (loadOrCreate store.log) (done ++ [.restart]) := by
  rw [h.faithful.loadOrCreate]
  exact h.append h.faithful (fun token record hrecord => (h.minted token record hrecord).append _)
    (fun token record hrecord hused hrevoked => ⟨rfl, h.unused token record hrecord hused hrevoked⟩)
      nofun nofun nofun

end

theorem call_failed (h : (store.call c).1 = false) : (store.call c).2 = store := by
  cases c with
  | restart => cases h
  | mint | consume | revoke => exact ofExcept_error h

private theorem Accounts.call (h : Accounts store done)
    (hdistinct : ((done ++ [c]).filterMap TokenCall.minted).Nodup) (hok : (store.call c).1 = true) :
    Accounts (store.call c).2 (done ++ [c]) := by
  cases c with
  | mint random =>
    refine h.mint (fun hmem => ?_) (ofExcept_ok hok)
    rw [filterMap_append] at hdistinct
    exact (nodup_append.1 hdistinct).2.2 random hmem random mem_cons_self rfl
  | consume => exact h.consume (ofExcept_ok hok)
  | revoke => exact h.revoke (ofExcept_ok hok)
  | restart => exact h.restart

/-- Whatever calls come in whatever order, with restarts in between: no call consumes a token after
one that consumed or revoked it, and each one does so before the token expires and for the name it
is bound to. -/
theorem token_single_use (calls : List TokenCall)
    (hdistinct : ((play call {} calls).done.filterMap TokenCall.minted).Nodup) :
    ((play call {} calls).done.Pairwise fun a b =>
      ∀ token, a.consumes token = true ∨ a.revokes token = true → b.consumes token = false) ∧
    ∀ token commonName nowUnix appended,
      .consume token commonName nowUnix appended ∈ (play call {} calls).done →
        ∃ expiresAt bound, MintedAs (play call {} calls).done token expiresAt bound ∧
          (∀ instant ∈ expiresAt, nowUnix < instant) ∧ ∀ name ∈ bound, name = commonName := by
  have haccounts : Accounts (play call {} calls).state (play call {} calls).done := by
    refine play_invariant (fun store done => (done.filterMap TokenCall.minted).Nodup →
      Accounts store done) (fun _ => accounts_nil) calls (fun store done c _ h hok hdistinct => ?_)
      (fun store done c _ h hfailed hdistinct => ?_) hdistinct
    · have hbefore : (done.filterMap TokenCall.minted).Nodup := by
        rw [filterMap_append] at hdistinct
        exact (nodup_append.1 hdistinct).1
      exact (h hbefore).call hdistinct hok
    · rw [call_failed hfailed]
      exact h hdistinct
  refine ⟨haccounts.once.imp fun h token hspends => h token ?_, haccounts.lawful⟩
  exact Bool.or_eq_true_iff.2 hspends

theorem token_single_use_bound :
    ∃ done, (play call {}
        [.mint "t" (some 60) none (some "alice") [] 0 true, .consume "t" "bob" 1 true,
          .consume "t" "alice" 2 true, .restart, .consume "t" "alice" 3 true]).done = done ∧
      done.map (fun c => (c.minted, c.consumes "t")) =
      [(some "t", false), (none, true), (none, false)] ∧ done.Pairwise fun a b => ∀ token,
      a.consumes token = true ∨ a.revokes token = true → b.consumes token = false :=
  ⟨_, rfl, by decide +kernel, (token_single_use _ (by decide +kernel)).1⟩

end EnrollmentTokenStore

end MicroTak.Enrollment
