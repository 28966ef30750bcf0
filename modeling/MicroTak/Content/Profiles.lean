import Mathlib.Data.Finset.Basic
import Mathlib.Data.List.Sort
import MicroTak.Lib.Journal

/-!
# Device profiles

A profile has files and directories; the bytes of its files are in a content store of their own, by
hash, and go when the last file that refers to them does.
-/

namespace MicroTak.Content

open Journal Op

structure Profile where
  id : Int
  name : String
  active : Bool
  applyOnEnrollment : Bool
  applyOnConnect : Bool
  tool : Option String
  groups : Finset String
  allGroups : Bool
  updatedMs : Int
  deriving DecidableEq

structure ProfileFile where
  id : Int
  profileId : Int
  name : String
  hash : String
  deriving DecidableEq

structure ProfileDirectory where
  id : Int
  profileId : Int
  path : String
  deriving DecidableEq

structure ProfileUpdate where
  name : String
  active : Bool
  applyOnEnrollment : Bool
  applyOnConnect : Bool
  tool : Option String
  groups : Finset String
  allGroups : Bool
  deriving DecidableEq

inductive ProfileEvent where
  | created (id : Int) (name : String) (groups : Finset String) (atMs : Int)
  | updated (id : Int) (update : ProfileUpdate) (atMs : Int)
  | deleted (id : Int)
  | fileAdded (id profileId : Int) (name hash : String) (atMs : Int)
  | fileDeleted (id : Int) (atMs : Int)
  | directoryAdded (id profileId : Int) (path : String) (atMs : Int)
  | directoriesCleared (profileId : Int)
  deriving DecidableEq

structure ProfileState where
  profiles : List Profile := []
  files : List ProfileFile := []
  directories : List ProfileDirectory := []
  nextProfileId : Int := 0
  nextFileId : Int := 0
  nextDirectoryId : Int := 0
  deriving DecidableEq

def updateProfile (id : Int) (f : Profile → Profile) : List Profile → List Profile
  | [] => []
  | profile :: rest =>
    if profile.id = id then f profile :: rest else profile :: updateProfile id f rest

namespace ProfileState

variable (state : ProfileState)

def touch (profileId atMs : Int) : ProfileState :=
  { state with
    profiles := updateProfile profileId (fun p => { p with updatedMs := atMs }) state.profiles }

def apply : ProfileEvent → ProfileState
  | .created id name groups atMs =>
      { state with
        nextProfileId := max state.nextProfileId id
        profiles := state.profiles ++
          [{ id, name, active := true, applyOnEnrollment := true, applyOnConnect := false,
             tool := none, groups, allGroups := false, updatedMs := atMs }] }
  | .updated id update atMs =>
      { state with
        profiles := updateProfile id
          (fun p =>
            { id := p.id, name := update.name, active := update.active,
              applyOnEnrollment := update.applyOnEnrollment,
              applyOnConnect := update.applyOnConnect, tool := update.tool, groups := update.groups,
              allGroups := update.allGroups, updatedMs := atMs })
          state.profiles }
  | .deleted id =>
      { state with
        profiles := state.profiles.filter (·.id ≠ id)
        files := state.files.filter (·.profileId ≠ id)
        directories := state.directories.filter (·.profileId ≠ id) }
  | .fileAdded id profileId name hash atMs =>
      touch
        { state with
          nextFileId := max state.nextFileId id
          files := state.files ++ [{ id, profileId, name, hash }] }
        profileId atMs
  | .fileDeleted id atMs =>
      match state.files.find? (·.id = id) with
      | none => state
      | some file =>
        touch { state with files := state.files.eraseP (·.id = id) } file.profileId atMs
  | .directoryAdded id profileId path atMs =>
      touch
        { state with
          nextDirectoryId := max state.nextDirectoryId id
          directories := state.directories ++ [{ id, profileId, path }] }
        profileId atMs
  | .directoriesCleared profileId =>
    { state with directories := state.directories.filter (·.profileId ≠ profileId) }

def hasProfile (id : Int) : Bool := state.profiles.any (·.id = id)

end ProfileState

/-! ### What is handed out -/

inductive Applies where
  | onEnrollment
  | onConnect
  deriving DecidableEq

namespace Profile

variable (profile : Profile)

def reaches (userGroups : Finset String) : Bool :=
  profile.allGroups || profile.groups ∩ userGroups ≠ ∅

def hasTool : Bool := profile.tool.any (· ≠ "")

def applies : Applies → Bool
  | .onEnrollment => profile.applyOnEnrollment
  | .onConnect => profile.applyOnConnect

end Profile

namespace ProfileState

variable (state : ProfileState)

def all : List Profile := state.profiles.insertionSort (·.id ≤ ·.id)

def filesOf (profileId : Int) : List ProfileFile :=
  (state.files.filter (·.profileId = profileId)).insertionSort (·.id ≤ ·.id)

/-- The files of every active profile without a tool, applied then, that reaches these groups. -/
def filesFor (when : Applies) (userGroups : Finset String) (changedSinceMs : Option Int) :
    List ProfileFile :=
  (state.all.filter fun p =>
    p.active && (!p.hasTool && p.applies when) && p.reaches userGroups &&
      changedSinceMs.all (· < p.updatedMs)).flatMap fun p => state.filesOf p.id

end ProfileState

inductive ProfileError where
  | notFound
  deriving DecidableEq

namespace ProfileStore

abbrev Op (α : Type) := Journal.Op ProfileState ProfileEvent ProfileError α

/-- Whether the profile was created; there may be one of that name. -/
def create (name : String) (groups : Finset String) (nowMs : Int) : Op Bool := do
  let state ← get
  if state.profiles.any (·.name = name) then return false
  else do
    put (.created (state.nextProfileId + 1) name groups nowMs)
    return true

/-- A change that is refused for an unknown profile. -/
def recordExisting (id : Int) (event : ProfileEvent) : Op Unit := do
  let state ← get
  ensure (state.hasProfile id = true) .notFound
  put event

def update (id : Int) (update : ProfileUpdate) (nowMs : Int) : Op Unit :=
  recordExisting id (.updated id update nowMs)

/-- The hashes of the files that went with the profile. -/
def delete (id : Int) : Op (List String) := do
  let state ← get
  recordExisting id (.deleted id)
  return (state.files.filter (·.profileId = id)).map (·.hash)

/-- `add_file` once its bytes are stored. -/
def addFile (profileId : Int) (name hash : String) (nowMs : Int) : Op ProfileFile := do
  let state ← get
  recordExisting profileId (.fileAdded (state.nextFileId + 1) profileId name hash nowMs)
  return { id := state.nextFileId + 1, profileId, name, hash }

/-- The hash of the file that is gone. -/
def deleteFile (id nowMs : Int) : Op (List String) := do
  let state ← get
  let file ← orRefuse (state.files.find? (·.id = id)) .notFound
  put (.fileDeleted id nowMs)
  return [file.hash]

/-- The next directory id counts on from the one before. -/
def addDirectories (profileId : Int) (paths : List String) (nowMs : Int) : Op Unit := do
  let state ← get
  ensure (state.hasProfile profileId = true) .notFound
  paths.forM fun path => do
    let now ← get
    put (.directoryAdded (now.nextDirectoryId + 1) profileId path nowMs)

def clearDirectories (profileId : Int) : Op Unit :=
  recordExisting profileId (.directoriesCleared profileId)

/-- Those of the hashes that no file refers to any more. -/
def forgotten (state : ProfileState) (hashes : List String) : List String :=
  hashes.filter fun hash => !state.files.any (·.hash = hash)

variable {state : ProfileState} {disk : Option Nat} {event : ProfileEvent} {file : ProfileFile}

theorem mem_files_apply (h : file ∈ (state.apply event).files) :
    file ∈ state.files ∨ ∃ id profileId name atMs,
    event = .fileAdded id profileId name file.hash atMs := by
  cases event with
  | created id name groups atMs | updated id update atMs | directoryAdded id profileId path atMs
  | directoriesCleared profileId => exact .inl h
  | deleted id => exact .inl (List.mem_of_mem_filter h)
  | fileAdded id profileId name hash atMs =>
    rcases List.mem_append.1 h with hold | hnew
    · exact .inl hold
    · obtain rfl := List.mem_singleton.1 hnew
      exact .inr ⟨id, profileId, name, atMs, rfl⟩
  | fileDeleted id atMs =>
    simp only [ProfileState.apply] at h
    split at h
    · exact .inl h
    · exact .inl (List.mem_of_mem_eraseP h)

/-- An event that adds no file, but for one with this hash. -/
def AddsOnly (hash : Option String) (event : ProfileEvent) : Prop :=
  ∀ id profileId name other atMs, event = .fileAdded id profileId name other atMs →
    hash = some other

theorem mem_files_run {α : Type} {op : Op α} {hash : Option String}
    (honly : op.Only (AddsOnly hash))
    (h : file ∈ (op.run ProfileState.apply disk state).state.files) : file ∈ state.files ∨
    hash = some file.hash := by
  have hkept : ∀ f ∈ (op.run ProfileState.apply disk state).state.files, f ∈ state.files ∨
      hash = some f.hash := by
    apply honly.run (fun later => ∀ f ∈ later.files, f ∈ state.files ∨ hash = some f.hash)
    · intro later event hevent hlater f hf
      rcases mem_files_apply hf with hold | ⟨id, profileId, name, atMs, heq⟩
      · exact hlater f hold
      · exact .inr (hevent id profileId name f.hash atMs heq)
    · exact fun f hf => .inl hf
  exact hkept file h

variable {id : Int} {hashes : List String} {hash : String}

theorem only_recordExisting {p : ProfileEvent → Prop} (h : p event) :
    (recordExisting id event).Only p :=
  only_get.bind fun _ => only_ensure.bind fun _ => only_put h

theorem addFile_only (profileId : Int) (name hash : String) (nowMs : Int) :
    (addFile profileId name hash nowMs).Only (AddsOnly (some hash)) := by
  refine only_get.bind fun now => (only_recordExisting ?_).bind fun _ => trivial
  intro id other name' hash' atMs heq
  cases heq
  rfl

theorem delete_only (id : Int) : (delete id).Only (AddsOnly none) := by
  refine only_get.bind fun now => (only_recordExisting ?_).bind fun _ => trivial
  intro _ _ _ _ _ heq
  cases heq

theorem deleteFile_only (id nowMs : Int) : (deleteFile id nowMs).Only (AddsOnly none) := by
  refine only_get.bind fun now => only_orRefuse.bind fun file => (only_put ?_).bind fun _ => trivial
  intro _ _ _ _ _ heq
  cases heq

theorem create_only (name : String) (groups : Finset String) (nowMs : Int) :
    (create name groups nowMs).Only (AddsOnly none) := by
  refine only_get.bind fun now => ?_
  split
  · trivial
  · refine (only_put ?_).bind fun _ => trivial
    intro _ _ _ _ _ heq
    cases heq

theorem mem_of_delete (h : ((delete id).run ProfileState.apply disk state).answer = .done hashes)
    (hmem : hash ∈ hashes) : ∃ file ∈ state.files, file.profileId = id ∧ file.hash = hash := by
  have hhashes : (state.files.filter (·.profileId = id)).map (·.hash) = hashes := by
    simp only [delete, recordExisting, bind_assoc, run_get_bind, run_ensure_bind] at h
    split at h
    · rw [answer_put_bind] at h
      split at h
      · cases h
      · exact Answer.done.inj h
    · cases h
  rw [← hhashes] at hmem
  obtain ⟨file, hfile, rfl⟩ := List.mem_map.1 hmem
  obtain ⟨hold, hid⟩ := List.mem_filter.1 hfile
  exact ⟨file, hold, of_decide_eq_true hid, rfl⟩

theorem mem_of_deleteFile {nowMs : Int}
    (h : ((deleteFile id nowMs).run ProfileState.apply disk state).answer = .done hashes)
    (hmem : hash ∈ hashes) : ∃ file ∈ state.files, file.id = id ∧ file.hash = hash := by
  simp only [deleteFile, run_get_bind, run_orRefuse_bind] at h
  split at h
  · next file hfind =>
    have hhashes : [file.hash] = hashes := by
      rw [answer_put_bind] at h
      split at h
      · cases h
      · exact Answer.done.inj h
    rw [← hhashes, List.mem_singleton] at hmem
    have hid := List.find?_some hfind
    exact ⟨file, List.mem_of_find?_eq_some hfind, of_decide_eq_true hid, hmem.symm⟩
  · cases h

theorem mem_forgotten : hash ∈ forgotten state hashes ↔ hash ∈ hashes ∧ ∀ file ∈ state.files,
    file.hash ≠ hash := by
  simp [forgotten]

end ProfileStore

end MicroTak.Content
