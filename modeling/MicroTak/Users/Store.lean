import MicroTak.Groups.Store

/-!
# Password accounts

Accounts an administrator mints, each with an Argon2 hash that never changes.  A name is used once:
a revoked account keeps it.
-/

namespace MicroTak.Users

open Std Groups

/-- The password hash library.  Hashing is salted, so it takes the salt drawn for the call. -/
structure Argon2 where
  hash : (salt password : String) → String
  verify : (password hash : String) → Bool

/-- A library for worked examples: the text of the password, behind the salt. -/
def Argon2.sample : Argon2 where
  hash salt password := salt ++ ":" ++ password
  verify password hash := hash == "s:" ++ password

structure UserRecord where
  passwordHash : String
  createdAtUnix : Int
  revoked : Bool
  groups : List GroupGrant

inductive UserEvent where
  | created (username passwordHash : String) (createdAtUnix : Int) (groups : List GroupGrant)
  | revoked (username : String)

inductive UserError where
  | notFound
  | alreadyExists
  | eventLog
  deriving DecidableEq

def applyEvent (users : TreeMap String UserRecord) : UserEvent → TreeMap String UserRecord
  | .created username passwordHash createdAtUnix groups =>
      users.insert username { passwordHash, createdAtUnix, revoked := false, groups }
  | .revoked username =>
      match users[username]? with
      | some record => users.insert username { record with revoked := true }
      | none => users

/-- The store behind its lock, with the log it was replayed from. -/
structure UserStore where
  users : TreeMap String UserRecord := ∅
  log : List UserEvent := []

namespace UserStore

variable (argon2 : Argon2) (store : UserStore) (appended : Bool)

def record (event : UserEvent) : Except UserError UserStore :=
  if appended then .ok { users := applyEvent store.users event, log := store.log ++ [event] }
  else .error .eventLog

def loadOrCreate (log : List UserEvent) : UserStore :=
  { users := log.foldl applyEvent ∅, log }

def mintWithGroups (salt username password : String) (groups : List GroupGrant) (nowUnix : Int) :
    Except UserError UserStore :=
  if (store.users[username]?).isSome then .error .alreadyExists
  else store.record appended (.created username (argon2.hash salt password) nowUnix groups)

def revoke (username : String) : Except UserError UserStore :=
  if (store.users[username]?).isSome then store.record appended (.revoked username)
    else .error .notFound

def groupsOf (username : String) : List GroupGrant :=
  (store.users[username]?.map (·.groups)).getD []

/-- Whether an account, active or revoked, exists under this name. -/
def userExists (username : String) : Bool :=
  (store.users[username]?).isSome

def authenticate (username password : String) : Bool :=
  match store.users[username]? with
  | none => false
  | some record => if record.revoked then false else argon2.verify password record.passwordHash

variable {argon2 store appended} {next : UserStore} {username name : String} {record : UserRecord}

variable {event : UserEvent} {salt password : String} {groups : List GroupGrant} {nowUnix : Int}

theorem record_eq_ok : store.record appended event = .ok next ↔
      appended = true ∧
      next = { users := applyEvent store.users event, log := store.log ++ [event] } := by
  unfold UserStore.record
  cases appended <;> simp [eq_comm]

theorem kept_of_mint
    (h : store.mintWithGroups argon2 appended salt username password groups nowUnix = .ok next)
    (hrecord : store.users[name]? = some record) : next.users[name]? = some record := by
  unfold mintWithGroups at h
  split at h
  · cases h
  · next hfree =>
    obtain ⟨-, rfl⟩ := record_eq_ok.1 h
    have hname : username ≠ name := by
      rintro rfl
      simp [hrecord] at hfree
    simp [applyEvent, hname, hrecord]

theorem kept_of_revoke (h : store.revoke appended username = .ok next)
    (hrecord : store.users[name]? = some record) :
    ∃ revoked, next.users[name]? = some { record with revoked } := by
  unfold revoke at h
  split at h
  · obtain ⟨-, rfl⟩ := record_eq_ok.1 h
    by_cases hname : username = name
    · subst hname
      exact ⟨true, by simp [applyEvent, hrecord]⟩
    · refine ⟨record.revoked, ?_⟩
      simp only [applyEvent]
      split <;> simp [hname, hrecord]
  · cases h

def Revoked (store : UserStore) (name : String) : Prop :=
  ∃ record, store.users[name]? = some record ∧ record.revoked = true

theorem Revoked.authenticate (h : store.Revoked name) :
    store.authenticate argon2 name password = false := by
  obtain ⟨record, hrecord, hrevoked⟩ := h
  simp [UserStore.authenticate, hrecord, hrevoked]

theorem Revoked.mint (h : store.Revoked name)
    (hok : store.mintWithGroups argon2 appended salt username password groups nowUnix = .ok next) :
    next.Revoked name := by
  obtain ⟨record, hrecord, hrevoked⟩ := h
  exact ⟨record, kept_of_mint hok hrecord, hrevoked⟩

theorem revoked_of_revoke (h : store.revoke appended username = .ok next) :
    next.Revoked username ∧ ∀ name, store.Revoked name → next.Revoked name := by
  unfold revoke at h
  split at h
  · next hthere =>
    obtain ⟨record, hrecord⟩ := Option.isSome_iff_exists.1 hthere
    obtain ⟨-, rfl⟩ := record_eq_ok.1 h
    have hself : applyEvent store.users (.revoked username) =
        store.users.insert username { record with revoked := true } := by
      simp [applyEvent, hrecord]
    refine ⟨⟨{ record with revoked := true }, ?_, rfl⟩, fun name hname => ?_⟩
    · rw [hself, Dict.getElem?_insert_self]
    · obtain ⟨found, hfound, hrevoked⟩ := hname
      by_cases hsame : username = name
      · exact ⟨{ record with
          revoked := true }, by rw [hself, hsame, Dict.getElem?_insert_self], rfl⟩
      · exact ⟨found, by rw [hself, Dict.getElem?_insert_of_ne hsame, hfound], hrevoked⟩
  · cases h

/-- The accounts are what a replay of the log would build. -/
def Faithful (store : UserStore) : Prop :=
  store.users = store.log.foldl applyEvent ∅

theorem Faithful.recorded (h : store.Faithful) (hrecord : store.record appended event = .ok next) :
    next.Faithful := by
  obtain ⟨-, rfl⟩ := record_eq_ok.1 hrecord
  simp only [Faithful, List.foldl_append, List.foldl_cons, List.foldl_nil]
  rw [← h]

theorem Faithful.mint (h : store.Faithful)
    (hok : store.mintWithGroups argon2 appended salt username password groups nowUnix = .ok next) :
    next.Faithful := by
  unfold mintWithGroups at hok
  split at hok
  · cases hok
  · exact h.recorded hok

theorem Faithful.revoke (h : store.Faithful) (hok : store.revoke appended username = .ok next) :
    next.Faithful := by
  unfold UserStore.revoke at hok
  split at hok
  · exact h.recorded hok
  · cases hok

theorem Faithful.loadOrCreate_log (h : store.Faithful) : loadOrCreate store.log = store := by
  unfold loadOrCreate
  rw [← h]

end UserStore

end MicroTak.Users
