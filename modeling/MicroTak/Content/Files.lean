import MicroTak.Content.Profiles
import MicroTak.Content.Resources
import MicroTak.Lib.Dict
import MicroTak.Lib.Lines
import MicroTak.Lib.Transition

/-!
# Uploads and deletions side by side

The bytes of a file are stored before its record is written, and removed after the last record that
refers to them is gone.  Storing the bytes, writing the record, deleting records, looking whether
the hash is still in use and removing the bytes are separate steps, and no lock spans two of them:
the model has one action for each, for any number of requests at once.  A request has its temporary
file to itself, so that file is part of the request.
-/

namespace MicroTak.Content

open Std Journal Lines Transition ProfileStore ResourceStore List ProfileState

def isHexDigit (c : Char) : Bool :=
  ('0' ≤ c && c ≤ '9') || ('a' ≤ c && c ≤ 'f') || ('A' ≤ c && c ≤ 'F')

/-- The lower-case form of 64 hexadecimal digits.  No other letter has one of them as its lower
case. -/
@[irreducible]
def validateHash (hash : String) : Option String :=
  let lower := Text.toAsciiLowercase hash
  if lower.toList.length = 64 ∧ lower.toList.all isHexDigit then some lower else none

/-- The files of a content directory, each under the hash of its bytes. -/
structure ContentStore (digest : Bytes → String) where
  files : TreeMap String Bytes := ∅
  named : ∀ (hash : String) (bytes : Bytes), files[hash]? = some bytes → digest bytes = hash := by
    simp

variable {hashes : List String}

namespace ContentStore

variable {digest : Bytes → String} (store : ContentStore digest)

def has (hash : String) : Bool := (store.files[hash]?).isSome

/-- A finished temporary file takes its place. -/
def rename (bytes : Bytes) : ContentStore digest where
  files := store.files.insert (digest bytes) bytes
  named := by
    intro hash found hfound
    rw [Dict.getElem?_insert] at hfound
    split at hfound
    · next heq => rw [← Option.some.inj hfound, heq]
    · exact store.named hash found hfound

def erase (hash : String) : ContentStore digest where
  files := store.files.erase hash
  named := by
    intro other found hfound
    rw [Dict.getElem?_erase] at hfound
    split at hfound
    · cases hfound
    · exact store.named other found hfound

/-- Nothing happens for what is no hash. -/
def remove (hash : String) : ContentStore digest :=
  match validateHash hash with
  | some lower => store.erase lower
  | none => store

variable {store} {hash other : String}

theorem has_rename (bytes : Bytes) :
    (store.rename bytes).has hash = (decide (digest bytes = hash) || store.has hash) := by
  simp only [has, rename]
  by_cases heq : digest bytes = hash <;> simp [heq]

private theorem has_erase :
    (store.erase other).has hash = (decide (other ≠ hash) && store.has hash) := by
  simp only [has, erase]
  by_cases heq : other = hash <;> simp [heq]

theorem has_remove (h : store.has hash = true) (hother : validateHash other ≠ some hash) :
    (store.remove other).has hash = true := by
  unfold remove
  split
  · next lower hlower =>
    have hne : lower ≠ hash := fun heq => hother (heq ▸ hlower)
    simp [has_erase, hne, h]
  · exact h

theorem has_foldl_remove (h : store.has hash = true)
    (hhashes : ∀ other ∈ hashes, validateHash other ≠ some hash) :
    (hashes.foldl remove store).has hash = true := by
  induction hashes generalizing store with
  | nil => exact h
  | cons other rest ih =>
    exact ih (has_remove h (hhashes other mem_cons_self)) fun o ho =>
      hhashes o (mem_cons_of_mem _ ho)

theorem exists_of_has (h : store.has hash = true) : ∃ bytes, store.files[hash]? = some bytes ∧
    digest bytes = hash := by
  obtain ⟨bytes, hbytes⟩ := Option.isSome_iff_exists.1 h
  exact ⟨bytes, hbytes, store.named hash bytes hbytes⟩

end ContentStore

inductive Area where
  | content
  | profileContent
  deriving DecidableEq

structure Contents (digest : Bytes → String) where
  content : ContentStore digest := {}
  profileContent : ContentStore digest := {}
  resources : SyncState := {}
  profiles : ProfileState := {}

namespace Contents

variable {digest : Bytes → String} (contents : Contents digest)

def store : Area → ContentStore digest
  | .content => contents.content
  | .profileContent => contents.profileContent

/-- The hashes that records refer to. -/
def refs : Area → List String
  | .content => contents.resources.resources.map (·.hash)
  | .profileContent => contents.profiles.files.map (·.hash)

def rename (bytes : Bytes) : Area → Contents digest
  | .content => { contents with content := contents.content.rename bytes }
  | .profileContent => { contents with profileContent := contents.profileContent.rename bytes }

end Contents

/-- The handlers that take a file as a stream. -/
inductive Servlet where
  | missionUpload
  /-- It refuses an empty body. -/
  | upload
  deriving DecidableEq

/-- A file of a mission package, or a mission's archive on its way to contacts. -/
structure PackageFile where
  new : NewResource
  bytes : Bytes
  deriving DecidableEq

inductive Purpose where
  | upload (servlet : Servlet) (new : NewResource)
  | package (new : NewResource) (rest : List PackageFile)
  | profile (profileId : Int) (name : String)
  deriving DecidableEq

def Purpose.area : Purpose → Area
  | .upload _ _ | .package _ _ => .content
  | .profile _ _ => .profileContent

inductive Request where
  | receiving (servlet : Servlet) (new : NewResource) (received : Bytes)
  /-- `put` or `put_stream`, about to look whether the file exists. -/
  | putting (purpose : Purpose) (bytes : Bytes)
  | placing (purpose : Purpose) (bytes : Bytes)
  /-- `put_stream` has returned; the length of the file is next. -/
  | measuring (servlet : Servlet) (new : NewResource) (hash : String)
  | inserting (new : NewResource) (hash : String) (size : Nat) (rest : List PackageFile)
  | addingFile (profileId : Int) (name hash : String)
  | deleteKeys (keys : List Int) (groups : Option (Finset String))
  | deleteHash (hash : String) (groups : Option (Finset String))
  /-- `delete_keys`, about to look which of the keys are visible. -/
  | selecting (hashes : List String) (keys : List Int) (groups : Option (Finset String))
  | erasing (hashes : List String) (keys : List Int)
  /-- The rows are gone; each hash is looked up in turn. -/
  | collecting (hashes : List String)
  /-- The first hash was not in use. -/
  | removing (hash : String) (rest : List String)
  | createProfile (name : String) (groups : Finset String)
  | deleteProfile (id : Int)
  | deleteProfileFile (id : Int)
  deriving DecidableEq

def Request.isNew : Request → Bool
  | .receiving _ _ received => received = []
  | .putting (.package _ _) _ | .putting (.profile _ _) _ => true
  | .deleteKeys _ _ | .deleteHash _ _ => true
  | .createProfile _ _ | .deleteProfile _ | .deleteProfileFile _ => true
  | _ => false

def Purpose.stored (hash : String) (size : Nat) : Purpose → Request
  | .upload servlet new => .measuring servlet new hash
  | .package new rest => .inserting new hash size rest
  | .profile profileId name => .addingFile profileId name hash

def nextFile : List PackageFile → Option Request
  | [] => none
  | file :: rest => some (.putting (.package file.new rest) file.bytes)

namespace Contents

variable {digest : Bytes → String} (contents : Contents digest) (disk : Option Nat) (now : Int)

/-- The hashes are removed from the profile contents unless a file refers to them still.  It happens
under the lock that `add_file` takes for its record. -/
def forget (profiles : ProfileState) (hashes : List String) : Contents digest :=
  { contents with
    profiles
    profileContent :=
      (forgotten profiles hashes).foldl ContentStore.remove contents.profileContent }

/-- A profile operation, and the contents it leaves without a file. -/
def forgetting (op : ProfileStore.Op (List String)) : Contents digest :=
  let result := op.run apply disk contents.profiles
  match result.answer with
  | .done hashes => contents.forget result.state hashes
  | .refused _ | .failed _ => { contents with profiles := result.state }

/-- The next step of a request, and where it then stands; `none` once it has answered. -/
def advance : Request → Contents digest × Option Request
  | .receiving servlet new received => (contents, some (.putting (.upload servlet new) received))
  | .putting purpose bytes =>
      if (contents.store purpose.area).has (digest bytes) then
        (contents, some (purpose.stored (digest bytes) bytes.length))
      else (contents, some (.placing purpose bytes))
  | .placing purpose bytes =>
      (contents.rename bytes purpose.area, some (purpose.stored (digest bytes) bytes.length))
  | .measuring servlet new hash =>
      let size := ((contents.content.files[hash]?).map List.length).getD 0
      if servlet = .upload ∧ size = 0 then (contents, none)
        else (contents, some (.inserting new hash size []))
  | .inserting new hash size rest =>
      let result :=
        (ResourceStore.insert new hash size now).run SyncState.apply disk contents.resources
      match result.answer with
      | .done _ => ({ contents with resources := result.state }, nextFile rest)
      | .refused _ | .failed _ => ({ contents with resources := result.state }, none)
  | .addingFile profileId name hash =>
      let result := (addFile profileId name hash now).run apply disk contents.profiles
      ({ contents with profiles := result.state }, none)
  | .deleteKeys keys groups =>
      let rows := (contents.resources.visible groups).filter (·.primaryKey ∈ keys)
      (contents, some (.selecting (rows.map (·.hash)) keys groups))
  | .deleteHash hash groups =>
      (contents, some
        (.selecting [Text.toAsciiLowercase hash]
          (ResourceStore.keysOfHash contents.resources hash groups) groups))
  | .selecting hashes keys groups =>
      (contents, some (.erasing hashes (ResourceStore.visibleKeys contents.resources keys groups)))
  | .erasing hashes keys =>
      let result := (ResourceStore.eraseKeys keys).run SyncState.apply disk contents.resources
      match result.answer with
      | .done _ => ({ contents with resources := result.state }, some (.collecting hashes))
      | .refused _ | .failed _ => ({ contents with resources := result.state }, none)
  | .collecting [] => (contents, none)
  | .collecting (hash :: rest) =>
      if contents.resources.hashInUse hash then (contents, some (.collecting rest))
      else (contents, some (.removing hash rest))
  | .removing hash rest =>
    ({ contents with content := contents.content.remove hash }, some (.collecting rest))
  | .createProfile name groups =>
      let result := (create name groups now).run apply disk contents.profiles
      ({ contents with profiles := result.state }, none)
  | .deleteProfile id => (contents.forgetting disk (delete id), none)
  | .deleteProfileFile id => (contents.forgetting disk (deleteFile id now), none)

end Contents

structure System (digest : Bytes → String) where
  contents : Contents digest := {}
  requests : TreeMap Nat Request := ∅

inductive Action where
  | arrive (id : Nat) (request : Request)
  | chunk (id : Nat) (bytes : Bytes)
  /-- The next step; `disk` is how many appends the event log takes before one fails. -/
  | advance (id : Nat) (disk : Option Nat) (now : Int)
  /-- The client is gone, or an error of the file system or of another store ends the request. -/
  | drop (id : Nat)

namespace System

variable {digest : Bytes → String} (maxBytes : Nat) (system : System digest)

def proceed (id : Nat) (contents : Contents digest) : Option Request → System digest
  | some request => { contents, requests := system.requests.insert id request }
  | none => { contents, requests := system.requests.erase id }

def step : Action → Option (System digest)
  | .arrive id request =>
      if system.requests[id]? = none ∧
        request.isNew then some (system.proceed id system.contents (some request)) else none
  | .chunk id bytes =>
      match system.requests[id]? with
      | some (.receiving servlet new received) =>
          if maxBytes < received.length + bytes.length then some
            (system.proceed id system.contents none)
          else some (system.proceed id system.contents
            (some (.receiving servlet new (received ++ bytes))))
      | _ => none
  | .advance id disk now =>
      match system.requests[id]? with
      | some request =>
          let (contents, next) := system.contents.advance disk now request
          some (system.proceed id contents next)
      | none => none
  | .drop id =>
      match system.requests[id]? with
      | some _ => some (system.proceed id system.contents none)
      | none => none

end System

/-- Every record has its bytes, under its hash. -/
structure Sound {digest : Bytes → String} (contents : Contents digest) : Prop where
  resources : ∀ record ∈ contents.resources.resources, ∃ bytes,
    contents.content.files[record.hash]? = some bytes ∧ digest bytes = record.hash
  files : ∀ file ∈ contents.profiles.files, ∃ bytes,
    contents.profileContent.files[file.hash]? = some bytes ∧ digest bytes = file.hash

/-! ### Uploads and removals of the same bytes -/

/-- The hash whose bytes a request has stored and whose record it has yet to write. -/
def Request.holds : Request → Option (Area × String)
  | .measuring _ _ hash | .inserting _ hash _ _ => some (.content, hash)
  | .addingFile _ _ hash => some (.profileContent, hash)
  | _ => none

/-- The hash that a request has found unused and whose bytes it is about to remove. -/
def Request.removes : Request → Option String
  | .removing hash _ => validateHash hash
  | _ => none

namespace System

variable {digest : Bytes → String} (system : System digest)

def NoneHolds (area : Area) (hash : String) : Prop :=
  ∀ entry ∈ system.requests.toList, entry.2.holds ≠ some (area, hash)

def NoneRemoves (hash : String) : Prop :=
  ∀ entry ∈ system.requests.toList, entry.2.removes ≠ some hash

instance (area : Area) (hash : String) : Decidable (system.NoneHolds area hash) :=
  inferInstanceAs (Decidable (∀ _ ∈ _, _))

instance (hash : String) : Decidable (system.NoneRemoves hash) :=
  inferInstanceAs (Decidable (∀ _ ∈ _, _))

/-- The next step of this request keeps clear of the others: bytes are found or put in place while
no other request is about to remove them, and a hash is looked up, or the profile contents are
cleared, while no other request has yet to write its record for it. -/
def RequestApart : Request → Prop
  | .putting purpose bytes =>
    (system.contents.store purpose.area).has (digest bytes) → system.NoneRemoves (digest bytes)
  | .placing _ bytes => system.NoneRemoves (digest bytes)
  | .collecting (hash :: _) => system.NoneHolds .content (Text.toAsciiLowercase hash)
  | .deleteProfile id =>
    ∀ file ∈ system.contents.profiles.files, file.profileId = id →
      system.NoneHolds .profileContent file.hash
  | .deleteProfileFile id =>
    ∀ file ∈ system.contents.profiles.files, file.id = id →
      system.NoneHolds .profileContent file.hash
  | _ => True

instance : ∀ request, Decidable (system.RequestApart request)
  | .putting _ _ => inferInstanceAs (Decidable (_ → _))
  | .placing _ bytes => inferInstanceAs (Decidable (system.NoneRemoves (digest bytes)))
  | .collecting (hash :: _) =>
    inferInstanceAs (Decidable (system.NoneHolds .content (Text.toAsciiLowercase hash)))
  | .deleteProfile _ | .deleteProfileFile _ => inferInstanceAs (Decidable (∀ _ ∈ _, _))
  | .receiving _ _ _ | .measuring _ _ _ | .inserting _ _ _ _ | .addingFile _ _ _ | .deleteKeys _ _
  | .deleteHash _ _
  | .selecting _ _ _ | .erasing _ _ | .collecting [] | .removing _ _ | .createProfile _ _ =>
    isTrue trivial

def Apart : Action → Prop
  | .advance id _ _ => ∀ request ∈ system.requests[id]?, system.RequestApart request
  | .arrive _ _ | .chunk _ _ | .drop _ => True

instance : ∀ action, Decidable (system.Apart action)
  | .advance id _ _ => inferInstanceAs (Decidable (∀ _ ∈ system.requests[id]?, _))
  | .arrive _ _ | .chunk _ _ | .drop _ => isTrue trivial

def holding (id : Nat) : Option (Area × String) := (system.requests[id]?).bind Request.holds

def removing (id : Nat) : Option String := (system.requests[id]?).bind Request.removes

variable {system} {area : Area} {hash : String} {id : Nat} {request : Request}

theorem NoneHolds.ne (h : system.NoneHolds area hash) (id : Nat) :
    system.holding id ≠ some (area, hash) := by
  intro hholding
  obtain ⟨request, hid, hholds⟩ := Option.bind_eq_some_iff.1 hholding
  exact h (id, request) (TreeMap.mem_toList_iff_getElem?_eq_some.2 hid) hholds

theorem NoneRemoves.ne (h : system.NoneRemoves hash) (id : Nat) :
    system.removing id ≠ some hash := by
  intro hremoving
  obtain ⟨request, hid, hremoves⟩ := Option.bind_eq_some_iff.1 hremoving
  exact h (id, request) (TreeMap.mem_toList_iff_getElem?_eq_some.2 hid) hremoves

/-- What holds of every reachable state while the steps keep apart. -/
structure Inv (system : System digest) : Prop where
  stored : ∀ area, ∀ hash ∈ system.contents.refs area, (system.contents.store area).has hash = true
  held : ∀ id area hash, system.holding id = some (area, hash) →
    (system.contents.store area).has hash = true
  unused : ∀ id hash, system.removing id = some hash → hash ∉ system.contents.refs .content
  apart : ∀ id other hash, system.removing id = some hash →
    system.holding other ≠ some (.content, hash)

theorem inv_start : Inv ({} : System digest) where
  stored area hash hmem := by cases area <;> cases hmem
  held id area hash hid := by simp [holding] at hid
  unused id hash hid := by simp [removing] at hid
  apart id other hash hid := by simp [removing] at hid

variable {next : Option Request} {profiles : ProfileState} {purpose : Purpose}
  {bytes : Bytes} {size : Nat} {rest : List String} {contents : Contents digest}

theorem requests_proceed {other : Nat} :
    (system.proceed id contents next).requests[other]? = if id =
    other then next else system.requests[other]? := by
  cases next with
  | none => exact Dict.getElem?_erase system.requests id other
  | some request => exact Dict.getElem?_insert _ _ _ _

theorem contents_proceed : (system.proceed id contents next).contents = contents := by
  cases next <;> rfl

theorem holding_proceed (other : Nat) :
    (system.proceed id contents next).holding other = if id = other then next.bind Request.holds
    else system.holding other := by
  rw [holding, requests_proceed]
  split <;> rfl

theorem removing_proceed (other : Nat) :
    (system.proceed id contents next).removing other = if id = other then next.bind Request.removes
    else system.removing other := by
  rw [removing, requests_proceed]
  split <;> rfl

theorem bind_removes_eq_none {entry : Area × String} (h : next.bind Request.holds = some entry) :
    next.bind Request.removes = none := by
  obtain ⟨request, rfl, hholds⟩ := Option.bind_eq_some_iff.1 h
  cases request <;> simp_all [Request.holds, Request.removes]

/-- What a store loses nobody refers to or holds, and records are written for what the request
held. -/
structure Spares (system : System digest) (id : Nat) (contents : Contents digest) : Prop where
  stores : ∀ area hash, (system.contents.store area).has hash = true →
    (contents.store area).has hash = true ∨ hash ∉ contents.refs area ∧ ∀ other,
      system.holding other ≠ some (area, hash)
  refs : ∀ area, ∀ hash ∈ contents.refs area, hash ∈ system.contents.refs area ∨
    system.holding id = some (area, hash)

theorem spares_refl : system.Spares id system.contents := ⟨fun _ _ => .inl, fun _ _ => .inl⟩

/-- What a request comes to hold or to remove is as the invariant asks. -/
structure Takes (system : System digest) (id : Nat) (contents : Contents digest)
    (next : Option Request) : Prop where
  holds : ∀ area hash, next.bind Request.holds = some (area, hash) →
    system.holding id = some (area, hash) ∨ (contents.store area).has hash = true ∧
      (area = .content → system.NoneRemoves hash)
  removes : ∀ hash, next.bind Request.removes = some hash → hash ∉ contents.refs .content ∧
    system.NoneHolds .content hash

theorem takes_nothing (hnext : next.bind Request.holds = none ∧ next.bind Request.removes = none) :
    system.Takes id contents next := by
  constructor <;> simp [hnext]

theorem Inv.proceed (h : Inv system) (id : Nat) (hspares : system.Spares id contents)
    (htakes : system.Takes id contents next) : Inv (system.proceed id contents next) := by
  have hheld : ∀ other area hash, system.holding other = some (area, hash) →
      (contents.store area).has hash = true := by
    intro other area hash hother
    rcases hspares.stores area hash (h.held other area hash hother) with hhas | ⟨-, hfree⟩
    · exact hhas
    · exact absurd hother (hfree other)
  constructor
  · intro area hash hmem
    rw [contents_proceed] at hmem ⊢
    rcases hspares.refs area hash hmem with hold | hholding
    · rcases hspares.stores area hash (h.stored area hash hold) with hhas | ⟨hfree, -⟩
      · exact hhas
      · exact absurd hmem hfree
    · exact hheld id area hash hholding
  · intro other area hash hother
    rw [holding_proceed] at hother
    rw [contents_proceed]
    split at hother
    · rcases htakes.holds area hash hother with hsame | ⟨hhas, -⟩
      · exact hheld id area hash hsame
      · exact hhas
    · exact hheld other area hash hother
  · intro other hash hother
    rw [removing_proceed] at hother
    rw [contents_proceed]
    split at hother
    · exact (htakes.removes hash hother).1
    · intro hmem
      rcases hspares.refs .content hash hmem with hold | hholding
      · exact h.unused other hash hother hold
      · exact h.apart other id hash hother hholding
  · intro other third hash hother hthird
    rw [removing_proceed] at hother
    rw [holding_proceed] at hthird
    split at hother <;> split at hthird
    · rw [bind_removes_eq_none hthird] at hother
      cases hother
    · exact (htakes.removes hash hother).2.ne third hthird
    · rcases htakes.holds .content hash hthird with hsame | ⟨-, hfree⟩
      · exact h.apart other id hash hother hsame
      · exact (hfree rfl).ne other hother
    · exact h.apart other third hash hother hthird

theorem Inv.setResources (h : Inv system) (id : Nat) {resources : SyncState}
    (hnext : next.bind Request.holds = none ∧ next.bind Request.removes = none)
    (hrows : ∀ record ∈ resources.resources, record ∈ system.contents.resources.resources ∨
      system.holding id = some (.content, record.hash)) :
    Inv (system.proceed id { system.contents with resources } next) := by
  refine h.proceed id ⟨?_, ?_⟩ (takes_nothing hnext)
  · intro area hash hhas
    cases area <;> exact .inl hhas
  · intro area hash hmem
    cases area with
    | content =>
      obtain ⟨record, hrecord, rfl⟩ := mem_map.1 hmem
      exact (hrows record hrecord).imp_left mem_map_of_mem
    | profileContent => exact .inl hmem

@[simp] theorem holds_stored (purpose : Purpose) (hash : String) (size : Nat) :
    (purpose.stored hash size).holds = some (purpose.area, hash) := by
  cases purpose <;> rfl

@[simp] theorem removes_stored (purpose : Purpose) (hash : String) (size : Nat) :
    (purpose.stored hash size).removes = none := by
  cases purpose <;> rfl

theorem takes_stored (hhas : (contents.store purpose.area).has hash = true)
    (hfree : system.NoneRemoves hash) :
    system.Takes id contents (some (purpose.stored hash size)) := by
  refine ⟨fun area other hholds => ?_, fun other hremoves => ?_⟩
  · simp only [Option.bind_some, holds_stored] at hholds
    obtain ⟨rfl, rfl⟩ := hholds
    exact .inr ⟨hhas, fun _ => hfree⟩
  · simp at hremoves

theorem Inv.placing (h : Inv system) (id : Nat) (hfree : system.NoneRemoves (digest bytes)) :
    Inv (system.proceed id (system.contents.rename bytes purpose.area)
      (some (purpose.stored (digest bytes) size))) := by
  have hgrows : ∀ place area hash, (system.contents.store area).has hash = true →
      ((system.contents.rename bytes place).store area).has hash = true := by
    intro place area hash hhas
    cases place <;> cases area <;>
      simp only [Contents.rename, Contents.store, ContentStore.has_rename] at hhas ⊢ <;> simp [hhas]
  have hplaced : ∀ place, ((system.contents.rename bytes place).store place).has (digest bytes) =
      true := by
    intro place
    cases place <;> simp [Contents.rename, Contents.store, ContentStore.has_rename]
  have hrefs : ∀ place area, (system.contents.rename bytes place).refs area =
      system.contents.refs area := by
    intro place area
    cases place <;> rfl
  refine h.proceed id ⟨fun area hash hhas => .inl (hgrows _ area hash hhas), ?_⟩
    (takes_stored (hplaced _) hfree)
  intro area hash hmem
  rw [hrefs] at hmem
  exact .inl hmem

private theorem validateHash_eq_some {lower : String} (h : validateHash hash = some lower) :
    Text.toAsciiLowercase hash = lower := by
  simp only [validateHash] at h
  split at h
  · exact Option.some.inj h
  · cases h

variable (h : Inv system)

include h

theorem Inv.collecting (id : Nat) (hunused : system.contents.resources.hashInUse hash = false)
    (hfree : system.NoneHolds .content (Text.toAsciiLowercase hash)) :
    Inv (system.proceed id system.contents (some (.removing hash rest))) := by
  refine h.proceed id spares_refl ⟨?_, ?_⟩
  · intro area other hholds
    cases hholds
  · intro lower hremoves
    obtain rfl := validateHash_eq_some hremoves
    refine ⟨fun hmem => ?_, hfree⟩
    obtain ⟨record, hrecord, heq⟩ := mem_map.1 hmem
    simp [SyncState.hashInUse] at hunused
    exact hunused record hrecord heq

theorem Inv.removing {id : Nat} (hid : system.requests[id]? = some (.removing hash rest)) :
    Inv (system.proceed id { system.contents with content := system.contents.content.remove hash }
      (some (.collecting rest))) := by
  refine h.proceed id ⟨?_, ?_⟩ (takes_nothing ⟨rfl, rfl⟩)
  · intro area other hhas
    cases area with
    | profileContent => exact .inl hhas
    | content =>
      by_cases hsame : validateHash hash = some other
      · have hremoving : system.removing id = some other := by
          rw [System.removing, hid]
          exact hsame
        exact .inr ⟨h.unused id other hremoving, fun third => h.apart id third other hremoving⟩
      · exact .inl (ContentStore.has_remove hhas hsame)
  · intro area other hmem
    exact .inl hmem

theorem Inv.quiet (id : Nat)
    (hnext : next.bind Request.holds = none ∧ next.bind Request.removes = none) :
    Inv (system.proceed id system.contents next) :=
  h.proceed id spares_refl (takes_nothing hnext)

variable (hdigest : ∀ bytes, validateHash (digest bytes) = some (digest bytes))

include hdigest

theorem Inv.forget (id : Nat)
    (hfiles : ∀ file ∈ profiles.files, file ∈ system.contents.profiles.files ∨
      system.holding id = some (.profileContent, file.hash))
    (hhashes : ∀ hash ∈ hashes, hash ∈ system.contents.refs .profileContent ∧
      system.NoneHolds .profileContent hash) :
    Inv (system.proceed id (system.contents.forget profiles hashes) none) := by
  refine h.proceed id ⟨?_, ?_⟩ (takes_nothing ⟨rfl, rfl⟩)
  · intro area hash hhas
    cases area with
    | content => exact .inl hhas
    | profileContent =>
      by_cases hforgotten : hash ∈ forgotten profiles hashes
      · obtain ⟨hmem, hfree⟩ := mem_forgotten.1 hforgotten
        refine .inr ⟨?_, (hhashes hash hmem).2.ne⟩
        intro hrefs
        obtain ⟨file, hfile, heq⟩ := mem_map.1 hrefs
        exact hfree file hfile heq
      · refine .inl (ContentStore.has_foldl_remove hhas fun other hother => ?_)
        -- The hash of a file is a digest, which is its own lower-case form.
        obtain ⟨hmem, -⟩ := mem_forgotten.1 hother
        obtain ⟨bytes, -, hbytes⟩ :=
          ContentStore.exists_of_has (h.stored _ other (hhashes other hmem).1)
        rw [← hbytes, hdigest, hbytes]
        exact fun heq => hforgotten (Option.some.inj heq ▸ hother)
  · intro area hash hmem
    cases area with
    | content => exact .inl hmem
    | profileContent =>
      obtain ⟨file, hfile, rfl⟩ := mem_map.1 hmem
      exact (hfiles file hfile).imp_left mem_map_of_mem

theorem Inv.setProfiles (id : Nat)
    (hfiles : ∀ file ∈ profiles.files, file ∈ system.contents.profiles.files ∨
      system.holding id = some (.profileContent, file.hash)) :
    Inv (system.proceed id { system.contents with profiles } none) := by
  have hnothing : ∀ hash ∈ ([] : List String),
      hash ∈ system.contents.refs .profileContent ∧ system.NoneHolds .profileContent hash := by simp
  exact h.forget hdigest id hfiles hnothing

private theorem Inv.forgetting (id : Nat)
    {disk : Option Nat} {op : ProfileStore.Op (List String)}
    (honly : op.Only (ProfileStore.AddsOnly none))
    (hhashes : ∀ hashes, (op.run apply disk system.contents.profiles).answer = .done hashes →
      ∀ hash ∈ hashes, hash ∈ system.contents.refs .profileContent ∧
      system.NoneHolds .profileContent hash) :
    Inv (system.proceed id (system.contents.forgetting disk op) none) := by
  have hfiles : ∀ file ∈ (op.run apply disk system.contents.profiles).state.files,
      file ∈ system.contents.profiles.files ∨
        system.holding id = some (.profileContent, file.hash) := by
    intro file hfile
    rcases mem_files_run honly hfile with hold | hnone
    · exact .inl hold
    · cases hnone
  unfold Contents.forgetting
  dsimp only
  split
  · next hashes hanswer => exact h.forget hdigest id hfiles (hhashes hashes hanswer)
  · exact h.setProfiles hdigest id hfiles
  · exact h.setProfiles hdigest id hfiles

private theorem Inv.advance (hid : system.requests[id]? = some request)
    (hapart : system.RequestApart request) (disk : Option Nat) (now : Int) :
    Inv (system.proceed id (system.contents.advance disk now request).1
      (system.contents.advance disk now request).2) := by
  have hholding : system.holding id = request.holds := by
    rw [holding, hid, Option.bind_some]
  cases request with
  | receiving servlet new received | deleteKeys keys groups | deleteHash hash groups
  | selecting hashes keys groups =>
    exact h.quiet id ⟨rfl, rfl⟩
  | putting purpose bytes =>
    simp only [Contents.advance]
    split
    · next hhas => exact h.proceed id spares_refl (takes_stored hhas (hapart hhas))
    · exact h.quiet id ⟨rfl, rfl⟩
  | placing purpose bytes => exact h.placing id hapart
  | measuring servlet new hash =>
    simp only [Contents.advance]
    split
    · exact h.quiet id ⟨rfl, rfl⟩
    · refine h.proceed id spares_refl ⟨fun area other hholds =>
        ?_, fun other hremoves => by cases hremoves⟩
      exact .inl (hholding.trans hholds)
  | inserting new hash size rest =>
    have hrows : ∀ record ∈ ((insert new hash size now).run SyncState.apply disk
        system.contents.resources).state.resources, record ∈ system.contents.resources.resources ∨
          system.holding id = some (.content, record.hash) := by
      intro record hrecord
      rcases mem_resources_insert hrecord with hold | rfl
      · exact .inl hold
      · exact .inr hholding
    simp only [Contents.advance]
    split
    · exact h.setResources id (by cases rest <;> exact ⟨rfl, rfl⟩) hrows
    · exact h.setResources id ⟨rfl, rfl⟩ hrows
    · exact h.setResources id ⟨rfl, rfl⟩ hrows
  | addingFile profileId name hash =>
    refine h.setProfiles hdigest id fun file hfile => ?_
    rcases mem_files_run (addFile_only profileId name hash now) hfile with hold | hnew
    · exact .inl hold
    · exact .inr (hholding.trans (by rw [Request.holds, Option.some.inj hnew]))
  | erasing hashes keys =>
    have hrows : ∀ record ∈ ((eraseKeys keys).run SyncState.apply disk
        system.contents.resources).state.resources, record ∈ system.contents.resources.resources ∨
          system.holding id = some (.content, record.hash) :=
      fun record hrecord => .inl (mem_resources_eraseKeys hrecord)
    simp only [Contents.advance]
    split
    · exact h.setResources id ⟨rfl, rfl⟩ hrows
    · exact h.setResources id ⟨rfl, rfl⟩ hrows
    · exact h.setResources id ⟨rfl, rfl⟩ hrows
  | collecting hashes =>
    cases hashes with
    | nil => exact h.quiet id ⟨rfl, rfl⟩
    | cons hash rest =>
      simp only [Contents.advance]
      split
      · exact h.quiet id ⟨rfl, rfl⟩
      · next hunused => exact h.collecting id (Bool.eq_false_iff.2 hunused) hapart
  | removing hash rest => exact h.removing hid
  | createProfile name groups =>
    refine h.setProfiles hdigest id fun file hfile => ?_
    rcases mem_files_run (create_only name groups now) hfile with hold | hnone
    · exact .inl hold
    · cases hnone
  | deleteProfile profileId =>
    refine h.forgetting hdigest id (delete_only profileId) fun hashes hanswer hash hmem => ?_
    obtain ⟨file, hfile, howner, rfl⟩ := mem_of_delete hanswer hmem
    exact ⟨mem_map_of_mem hfile, hapart file hfile howner⟩
  | deleteProfileFile fileId =>
    refine h.forgetting hdigest id (deleteFile_only fileId now) fun hashes hanswer hash hmem => ?_
    obtain ⟨file, hfile, howner, rfl⟩ := mem_of_deleteFile hanswer hmem
    exact ⟨mem_map_of_mem hfile, hapart file hfile howner⟩

theorem Inv.step {maxBytes : Nat}
    {action : Action} {next : System digest} (hapart : system.Apart action)
    (hstep : system.step maxBytes action = some next) :
    Inv next := by
  cases action with
  | arrive id request =>
    simp only [System.step] at hstep
    split at hstep
    · next hnew =>
      cases hstep
      exact h.quiet id (by cases request <;> first | exact ⟨rfl, rfl⟩ | cases hnew.2)
    · cases hstep
  | chunk id bytes =>
    simp only [System.step] at hstep
    split at hstep
    · split at hstep
      · cases hstep
        exact h.quiet id ⟨rfl, rfl⟩
      · cases hstep
        exact h.quiet id ⟨rfl, rfl⟩
    · cases hstep
  | advance id disk now =>
    simp only [System.step] at hstep
    split at hstep
    · next request hid =>
      cases hstep
      exact h.advance hdigest hid (hapart request hid) disk now
    · cases hstep
  | drop id =>
    simp only [System.step] at hstep
    split at hstep
    · cases hstep
      exact h.quiet id ⟨rfl, rfl⟩
    · cases hstep

omit hdigest in
private theorem Inv.sound : Sound system.contents where
  resources record hrecord :=
    ContentStore.exists_of_has (h.stored .content record.hash (mem_map_of_mem hrecord))
  files file hfile :=
    ContentStore.exists_of_has (h.stored .profileContent file.hash (mem_map_of_mem hfile))

end System

/-- In every run whose uploads and removals of the same bytes keep apart, every record has its bytes
in every state, whether or not requests are in progress. -/
theorem contents_sound (digest : Bytes → String)
    (hdigest : ∀ bytes, validateHash (digest bytes) = some (digest bytes)) (maxBytes : Nat)
    {actions : List Action} {system : System digest}
    (hrun : run (System.step maxBytes) {} actions = some system)
    (halong : Along (System.step maxBytes) System.Apart ({} : System digest) actions) :
    Sound system.contents := by
  have hinv : System.Inv system :=
    run_invariant System.Inv hrun halong System.inv_start fun _ _ _ h hapart hstep =>
      h.step hdigest hapart hstep
  exact hinv.sound

namespace Race

/-- A digest for worked examples, which only tells whether there is content. -/
def digest (bytes : Bytes) : String :=
  String.ofList (List.replicate 64 (if bytes = [] then '0' else 'a'))

theorem validateHash_digest (bytes : Bytes) :
    validateHash (digest bytes) = some (digest bytes) := by
  by_cases hempty : bytes = []
  · simp only [hempty]
    decide +kernel
  · simp only [digest, hempty]
    decide +kernel

def advances (id n : Nat) : List Action := List.replicate n (.advance id none 0)

def upload (id n : Nat) : List Action :=
  [.arrive id (.receiving .upload { uid := "file" } []), .chunk id [1]] ++ advances id n

def deletion (id : Nat) : List Action := .arrive id (.deleteHash (digest [1]) none) :: advances id 6

/-- The file is uploaded; while it is uploaded again, the first row is deleted with the bytes that
the second upload has found in place. -/
def actions : List Action := upload 0 5 ++ upload 1 3 ++ deletion 2 ++ advances 1 1

def system : System digest := (run (System.step 10) {} actions).get (by decide +kernel)

end Race

open Race in
theorem dangling_after_concurrent_deletion :
    run (System.step 10) {} actions = some system ∧ system.requests.toList = [] ∧
      system.contents.resources.resources.map (·.hash) = [digest [1]] ∧
      system.contents.content.has (digest [1]) = false ∧ ¬ Sound system.contents := by
  have hrows : system.contents.resources.resources.map (·.hash) = [digest [1]] := by decide +kernel
  have hgone : system.contents.content.has (digest [1]) = false := by decide +kernel
  refine ⟨(Option.some_get _).symm, by decide +kernel, hrows, hgone, fun hsound => ?_⟩
  obtain ⟨record, hrecord, hhash⟩ := mem_map.1 (hrows ▸ mem_singleton_self _)
  obtain ⟨bytes, hbytes, -⟩ := hsound.resources record hrecord
  rw [hhash] at hbytes
  simp [ContentStore.has, hbytes] at hgone

namespace Serial

/-- The second upload is through before the first row is deleted: its row keeps the bytes. -/
def actions : List Action :=
  Race.upload 0 5 ++ Race.upload 1 4 ++ [.arrive 2 (.deleteKeys [1] none)] ++ Race.advances 2 5

def system : System Race.digest := (run (System.step 10) {} actions).get (by decide +kernel)

end Serial

open Serial in
theorem sound_after_separate_deletion : system.contents.resources.resources.map (·.primaryKey) =
    [2] ∧ Sound system.contents :=
  ⟨by decide +kernel,
    contents_sound Race.digest Race.validateHash_digest 10 (Option.some_get _).symm
      (by decide +kernel)⟩

end MicroTak.Content
