import MicroTak.Lib.Lines
import MicroTak.Groups.Store

/-!
# Credentials of enrollment

The one-time bootstrap token that alone enrolls the administrator's device, the invite tokens an
administrator mints, and the limiter that counts failed attempts.
-/

namespace MicroTak.Enrollment

open Std Groups Lines

/-! ### The bootstrap token -/

/-- A comparison without an early exit. -/
def constantTimeEq (a b : Bytes) : Bool :=
  if a.length ≠ b.length then false
  else (a.zip b).foldl (fun acc (x, y) => acc ||| (x ^^^ y)) 0 == 0

private theorem foldl_or_xor_eq_zero {a b : Bytes} {acc : UInt8} (hlength : a.length = b.length) :
    (a.zip b).foldl (fun acc (x, y) => acc ||| (x ^^^ y)) acc = 0 ↔ acc = 0 ∧ a = b := by
  induction a generalizing b acc with
  | nil =>
    obtain rfl : b = [] := List.length_eq_zero_iff.1 hlength.symm
    simp
  | cons x rest ih =>
    cases b with
    | nil => simp at hlength
    | cons y others =>
      have hrest : rest.length = others.length := by simpa using hlength
      rw [List.zip_cons_cons, List.foldl_cons, ih hrest, UInt8.or_eq_zero_iff,
        UInt8.xor_eq_zero_iff, List.cons.injEq]
      tauto

theorem constantTimeEq_iff {a b : Bytes} : constantTimeEq a b = true ↔ a = b := by
  unfold constantTimeEq
  by_cases hlength : a.length = b.length
  · simp [hlength, foldl_or_xor_eq_zero hlength]
  · rw [if_pos hlength]
    constructor
    · intro h
      cases h
    · intro h
      exact absurd (congrArg List.length h) hlength

def isAsciiHexdigit (b : UInt8) : Bool :=
  (0x30 ≤ b && b ≤ 0x39) || (0x41 ≤ b && b ≤ 0x46) || (0x61 ≤ b && b ≤ 0x66)

def isWellFormed (token : String) : Bool :=
  (utf8 token).length = 64 && (utf8 token).all isAsciiHexdigit

/-- The token file: absent, or with these contents. -/
abbrev TokenFile := Option String

/-- What `load_or_create` leaves in memory and on disk; `random` is the token it draws if it needs
one. -/
def loadOrCreateToken (file : TokenFile) (adminAlreadyEnrolled : Bool) (random : String) :
    Option String × TokenFile :=
  if adminAlreadyEnrolled then (none, none)
  else
    let fresh := (some random, some (random ++ "\n"))
    match file with
    | none => fresh
    | some contents =>
        let token := Text.trim contents
        if isWellFormed token then (some token, file) else fresh

/-! ### Invite tokens -/

structure EnrollmentToken where
  token : String
  createdAtUnix : Int
  expiresAtUnix : Option Int
  note : Option String
  commonName : Option String
  groups : List GroupGrant
  used : Bool
  usedByCommonName : Option String
  usedAtUnix : Option Int
  revoked : Bool

inductive EnrollmentTokenError where
  | notFound
  | alreadyUsed
  | revoked
  | expired
  | wrongIdentity (bound requested : String)
  | eventLog
  deriving DecidableEq

def EnrollmentTokenError.message : EnrollmentTokenError → String
  | .notFound => "unknown enrollment token"
  | .alreadyUsed => "enrollment token has already been used"
  | .revoked => "enrollment token has been revoked"
  | .expired => "enrollment token has expired"
  | .wrongIdentity bound requested =>
    "enrollment token is for '" ++ bound ++ "', not '" ++ requested ++ "'"
  | .eventLog => "event log error"

def EnrollmentToken.isUsableAt (token : EnrollmentToken) (nowUnix : Int) :
    Except EnrollmentTokenError Unit :=
  if token.revoked then .error .revoked
  else if token.used then .error .alreadyUsed
  else if token.expiresAtUnix.any fun expiresAt => expiresAt ≤ nowUnix then .error .expired
  else .ok ()

inductive TokenEvent where
  | minted (token : String) (createdAtUnix : Int) (expiresAtUnix : Option Int)
    (note commonName : Option String)
      (groups : List GroupGrant)
  | consumed (token commonName : String) (atUnix : Int)
  | revoked (token : String)

/-- `tokens.get_mut(token)` followed by assignments. -/
def modifyToken (tokens : TreeMap String EnrollmentToken) (token : String)
    (f : EnrollmentToken → EnrollmentToken) : TreeMap String EnrollmentToken :=
  match tokens[token]? with
  | some t => tokens.insert token (f t)
  | none => tokens

def applyTokenEvent (tokens : TreeMap String EnrollmentToken) :
    TokenEvent → TreeMap String EnrollmentToken
  | .minted token createdAtUnix expiresAtUnix note commonName groups =>
      tokens.insert token
        { token, createdAtUnix, expiresAtUnix, note, commonName, groups
          used := false, usedByCommonName := none, usedAtUnix := none, revoked := false }
  | .consumed token commonName atUnix =>
      modifyToken tokens token
        ({ · with used := true, usedByCommonName := some commonName, usedAtUnix := some atUnix })
  | .revoked token => modifyToken tokens token ({ · with revoked := true })

structure EnrollmentTokenStore where
  tokens : TreeMap String EnrollmentToken := ∅
  log : List TokenEvent := []

namespace EnrollmentTokenStore

variable (store : EnrollmentTokenStore) (appended : Bool)

def record (event : TokenEvent) : Except EnrollmentTokenError EnrollmentTokenStore :=
  if appended then .ok { tokens := applyTokenEvent store.tokens event, log := store.log ++ [event] }
  else .error .eventLog

def loadOrCreate (log : List TokenEvent) : EnrollmentTokenStore :=
  { tokens := log.foldl applyTokenEvent ∅, log }

/-- `random` is the value drawn for the new token. -/
def mintWith (random : String) (expiresInSecs : Option Int) (note commonName : Option String)
    (groups : List GroupGrant) (nowUnix : Int) : Except EnrollmentTokenError EnrollmentTokenStore :=
  store.record appended
    (.minted random nowUnix (expiresInSecs.map (nowUnix + ·)) note commonName groups)

def validateAndConsume (token commonName : String) (nowUnix : Int) :
    Except EnrollmentTokenError EnrollmentTokenStore :=
  match store.tokens[token]? with
  | none => .error .notFound
  | some existing => do
      existing.isUsableAt nowUnix
      match existing.commonName with
      | some bound => if bound ≠ commonName then throw (.wrongIdentity bound commonName)
      | none => pure ()
      store.record appended (.consumed token commonName nowUnix)

def revoke (token : String) : Except EnrollmentTokenError EnrollmentTokenStore :=
  if (store.tokens[token]?).isSome then store.record appended (.revoked token) else .error .notFound

end EnrollmentTokenStore

/-! ### The limiter -/

structure Failures where
  windowStart : Nat
  count : Nat
  deriving DecidableEq

/-- Failed attempts by key; times are milliseconds of a monotonic clock. -/
structure AuthLimiter where
  maxFailures : Nat := 10
  window : Nat := 300000
  maxTrackedKeys : Nat := 10000
  failures : TreeMap String Failures := ∅

namespace AuthLimiter

variable (limiter : AuthLimiter)

def isBlocked (key : String) (now : Nat) : Bool :=
  (limiter.failures[key]?).any fun entry => now - entry.windowStart < limiter.window &&
    limiter.maxFailures ≤ entry.count

def recordFailure (key : String) (now : Nat) : AuthLimiter :=
  let full := (limiter.failures[key]?).isNone && limiter.maxTrackedKeys ≤ limiter.failures.size
  let failures := if full then limiter.failures.filter fun _ entry => now - entry.windowStart <
    limiter.window
    else limiter.failures
  if full && limiter.maxTrackedKeys ≤ failures.size then { limiter with failures }
  else
    let entry := (failures[key]?).getD { windowStart := now, count := 0 }
    let entry := if limiter.window ≤ now - entry.windowStart then { windowStart := now, count := 0 }
      else entry
    { limiter with
      failures := failures.insert key { entry with
        count := min (entry.count + 1) (UInt32.size - 1) } }

end AuthLimiter

def userKey (username : String) : String := "user:" ++ username

end MicroTak.Enrollment
