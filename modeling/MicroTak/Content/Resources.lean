import Mathlib.Data.Finset.Basic
import Mathlib.Data.List.Sort
import MicroTak.Lib.Journal
import MicroTak.Lib.Text

/-!
# Stored files

Enterprise Sync keeps a row of metadata for every file that was uploaded; the bytes are elsewhere,
by their hash, and several rows may share them.  A row is visible in the groups it was uploaded
into.
-/

namespace MicroTak.Content

open Journal

structure ResourceRecord where
  primaryKey : Int
  uid : String
  hash : String
  name : Option String
  downloadPath : Option String
  mimeType : Option String
  keywords : List String
  size : Nat
  submissionTimeMillis : Int
  submissionUser : String
  creatorUid : Option String
  tool : Option String
  expiration : Option Int
  visibleIn : List String
  deriving DecidableEq

/-- What an upload says of its file. -/
structure NewResource where
  uid : String
  name : Option String := none
  downloadPath : Option String := none
  mimeType : Option String := none
  keywords : List String := []
  submissionUser : String := ""
  creatorUid : Option String := none
  tool : Option String := none
  expiration : Option Int := none
  visibleIn : List String := []
  deriving DecidableEq

inductive SyncEvent where
  | inserted (record : ResourceRecord)
  | deleted (primaryKey : Int)
  | keywordsSet (hash : String) (keywords : List String)
  | expirationSet (hash : String) (expiration : Option Int)
  | submitterSet (keys : List Int) (user : String)
  | expirationSetKeys (keys : List Int) (expiration : Option Int)
  | fieldSetKeys (keys : List Int) (field value : String)
  deriving DecidableEq

structure SyncState where
  resources : List ResourceRecord := []
  nextKey : Int := 0
  deriving DecidableEq

/-- What `FieldSetKeys` sets on a row; other fields are ignored. -/
def ResourceRecord.setField (record : ResourceRecord) (field value : String) : ResourceRecord :=
  if field = "tool" then { record with tool := some value }
  else if field = "mimetype" then { record with mimeType := some value }
  else record

variable {record : ResourceRecord} {hash : String}

namespace SyncState

variable (state : SyncState)

/-- A change to the rows that `p` picks. -/
def updateWhere (p : ResourceRecord → Bool) (f : ResourceRecord → ResourceRecord) : SyncState :=
  { state with resources := state.resources.map fun r => if p r then f r else r }

def apply : SyncEvent → SyncState
  | .inserted record =>
      { nextKey := max state.nextKey record.primaryKey, resources := state.resources ++ [record] }
  | .deleted primaryKey =>
    { state with resources := state.resources.filter (·.primaryKey ≠ primaryKey) }
  | .keywordsSet hash keywords => state.updateWhere (·.hash = hash) fun r => { r with keywords }
  | .expirationSet hash expiration =>
    state.updateWhere (·.hash = hash) fun r => { r with expiration }
  | .submitterSet keys user =>
    state.updateWhere (·.primaryKey ∈ keys) fun r => { r with submissionUser := user }
  | .expirationSetKeys keys expiration =>
    state.updateWhere (·.primaryKey ∈ keys) fun r => { r with expiration }
  | .fieldSetKeys keys field value =>
    state.updateWhere (·.primaryKey ∈ keys) (·.setField field value)

/-- Newest first. -/
def all : List ResourceRecord :=
  state.resources.insertionSort fun a b =>
    b.submissionTimeMillis < a.submissionTimeMillis ∨
      b.submissionTimeMillis = a.submissionTimeMillis ∧ b.primaryKey ≤ a.primaryKey

/-- What someone in `groups` sees; the administrator, `none`, sees every row. -/
def visible (groups : Option (Finset String)) : List ResourceRecord :=
  state.all.filter fun r =>
    match groups with
    | none => true
    | some groups => r.visibleIn.any (· ∈ groups)

def byHash (hash : String) (groups : Option (Finset String)) : List ResourceRecord :=
  (state.visible groups).filter (·.hash = Text.toAsciiLowercase hash)

def byUid (uid : String) (groups : Option (Finset String)) : List ResourceRecord :=
  (state.visible groups).filter (·.uid = uid)

/-- A row of any visibility refers to the hash. -/
def hashInUse (hash : String) : Bool :=
  state.resources.any (·.hash = Text.toAsciiLowercase hash)

end SyncState

namespace ResourceStore

abbrev Op (α : Type) := Journal.Op SyncState SyncEvent Empty α

def insert (new : NewResource) (hash : String) (size : Nat) (nowMillis : Int) :
    Op ResourceRecord := do
  let state ← Op.get
  let record : ResourceRecord :=
    { primaryKey := state.nextKey + 1
      uid := new.uid
      hash
      name := new.name
      downloadPath := new.downloadPath
      mimeType := new.mimeType
      keywords := new.keywords
      size
      submissionTimeMillis := nowMillis
      submissionUser := new.submissionUser
      creatorUid := new.creatorUid
      tool := new.tool
      expiration := new.expiration
      visibleIn := new.visibleIn }
  Op.put (.inserted record)
  return record

/-- The part of `delete_keys` under the write lock. -/
def eraseKeys (keys : List Int) : Op Unit :=
  Op.putAll (keys.map .deleted)

def visibleKeys (state : SyncState) (keys : List Int) (groups : Option (Finset String)) :
    List Int :=
  keys.filter fun key => key ∈ (state.visible groups).map (·.primaryKey)

/-- How many of the rows were deleted; those the groups do not see are left. -/
def deleteKeys (keys : List Int) (groups : Option (Finset String)) : Op Nat := do
  let state ← Op.get
  eraseKeys (visibleKeys state keys groups)
  return (visibleKeys state keys groups).length

def keysOfHash (state : SyncState) (hash : String) (groups : Option (Finset String)) : List Int :=
  (state.byHash hash groups).map (·.primaryKey)

def deleteHash (hash : String) (groups : Option (Finset String)) : Op Nat := do
  let state ← Op.get
  deleteKeys (keysOfHash state hash groups) groups

def setKeywords (hash : String) (keywords : List String) : Op Unit :=
  Op.put (.keywordsSet (Text.toAsciiLowercase hash) keywords)

def setExpiration (hash : String) (expiration : Option Int) : Op Unit :=
  Op.put (.expirationSet (Text.toAsciiLowercase hash) expiration)

def setField (keys : List Int) (field value : String) : Op Unit :=
  Op.put (.fieldSetKeys keys field value)

def setSubmissionUser (keys : List Int) (user : String) : Op Unit :=
  Op.put (.submitterSet keys user)

def setExpirationKeys (keys : List Int) (expiration : Option Int) : Op Unit :=
  Op.put (.expirationSetKeys keys expiration)

variable {state : SyncState} {disk : Option Nat}

theorem mem_resources_insert {new : NewResource} {size : Nat} {nowMillis : Int}
    (h : record ∈ ((insert new hash size nowMillis).run SyncState.apply disk state).state.resources)
    : record ∈ state.resources ∨ record.hash = hash := by
  match disk with
  | some 0 => exact .inl h
  | none | some (n + 1) =>
    rcases List.mem_append.1 h with hold | hnew
    · exact .inl hold
    · exact .inr (by rw [List.mem_singleton.1 hnew])

theorem mem_resources_eraseKeys {keys : List Int}
    (h : record ∈ ((eraseKeys keys).run SyncState.apply disk state).state.resources) :
    record ∈ state.resources := by
  have honly : (eraseKeys keys).Only fun event => ∃ key, event = .deleted key := by
    apply Op.only_putAll
    intro event hevent
    obtain ⟨key, -, rfl⟩ := List.mem_map.1 hevent
    exact ⟨key, rfl⟩
  have hsubset : ((eraseKeys keys).run SyncState.apply disk state).state.resources ⊆
      state.resources := by
    apply honly.run (fun later => later.resources ⊆ state.resources)
    · intro later event hevent hlater
      obtain ⟨key, rfl⟩ := hevent
      exact fun row hrow => hlater (List.mem_of_mem_filter hrow)
    · exact List.Subset.refl _
  exact hsubset h

end ResourceStore

end MicroTak.Content
