import MicroTak.Lib.Machine
import MicroTak.Enrollment.InviteTokens

/-!
# When an invite token expires

The administrator posts the lifetime of a token, any signed 64-bit number of seconds.  It is added
to the clock when the token is minted, and the sum is compared with the clock when the token is
used.
-/

namespace MicroTak.Enrollment

open Std Groups Machine

/-- The body of a request to mint; an empty one asks for the defaults. -/
structure MintTokenRequest where
  expiresInSecs : Option Int := none
  note : Option String := none
  commonName : Option String := none
  grants : List GroupGrant := []

inductive MintRefusal where
  | forbidden
  | adminIdentity
  | unknownGroup (missing : String)
  | token (error : EnrollmentTokenError)
  deriving DecidableEq

/-- `none` is a panic: the end of the lifetime is a sum in 64 bits. -/
def mintToken (build : Build) (adminCommonName : Option String) (groups : Groups.State)
    (store : EnrollmentTokenStore) (appended : Bool) (identity random : String)
    (request : MintTokenRequest) (nowUnix : Int) :
    Option (Except MintRefusal EnrollmentTokenStore) :=
  if adminCommonName ≠ some identity then some (.error .forbidden)
  else if request.commonName.isSome ∧ request.commonName = adminCommonName then some
    (.error .adminIdentity)
  else match groups.firstMissing request.grants with
    | some missing => some (.error (.unknownGroup missing))
    | none =>
        let expiresAt := match request.expiresInSecs with
          | some secs => (build.result i64 (nowUnix + secs)).map some
          | none => some none
        expiresAt.map fun expiresAt =>
          (store.record appended
            (.minted random nowUnix expiresAt request.note request.commonName
              request.grants)).mapError .token

/-- A request of the administrator, for groups there are, mints a token that can be used until
`secs` seconds from now exactly if that instant is a signed 64-bit number. -/
theorem invite_expiry_iff {groups : Groups.State} {identity : String} {request : MintTokenRequest}
    {secs : Int} (hname : request.commonName ≠ some identity)
    (hgroups : groups.firstMissing request.grants = none)
    (hsecs : request.expiresInSecs = some secs) (store : EnrollmentTokenStore) (random : String)
    (nowUnix : Int) :
    (∀ build, ∃ next token,
      mintToken build (some identity) groups store true identity random request nowUnix =
      some (.ok next) ∧ next.tokens[random]? = some token ∧ ∀ t, Fits i64 t →
      (token.isUsableAt t = .ok () ↔ t < nowUnix + secs)) ↔ Fits i64 (nowUnix + secs) := by
  simp only [mintToken, ne_eq, hname, and_false, hgroups, hsecs]
  constructor
  · intro h
    by_contra hnot
    obtain ⟨next, token, hminted, -⟩ := h .checked
    rw [Build.result_checked hnot] at hminted
    cases hminted
  · intro hfits build
    rw [build.result_of_fits hfits]
    refine ⟨_, _, rfl, TreeMap.getElem?_insert_self, fun t _ => ?_⟩
    simp [EnrollmentTokenStore.isUsableAt_eq_ok]

theorem invite_expiry_day : ∃ next token,
    mintToken .wrapping (some "admin") freshState {} true "admin" "t"
    { expiresInSecs := some 86400 } 0 = some (.ok next) ∧
      next.tokens["t"]? = some token ∧ ∀ t, Fits i64 t →
      (token.isUsableAt t = .ok () ↔ t < 0 + 86400) :=
  (invite_expiry_iff (by simp) (by decide +kernel) rfl {} "t" 0).2 (by decide) .wrapping

/-- The greatest lifetime panics, or makes a token that has expired. -/
theorem invite_expiry_overflow :
    mintToken .checked (some "admin") freshState {} true "admin" "t"
    { expiresInSecs := some (2 ^ 63 - 1) } 1 = none ∧
      ∃ next token,
      mintToken .wrapping (some "admin") freshState {} true "admin" "t"
      { expiresInSecs := some (2 ^ 63 - 1) } 1 =
        some (.ok next) ∧ next.tokens["t"]? = some token ∧ token.isUsableAt 1 = .error .expired ∧
        (1 : Int) < 1 + (2 ^ 63 - 1) :=
  ⟨by decide +kernel, _, _, rfl, rfl, by decide +kernel, by decide⟩

end MicroTak.Enrollment
