import MicroTak.Content.Resources
import MicroTak.Groups.Store

/-!
# The metadata of a file

`MetadataApi` and `FileManagerApi` change the metadata of files by their hash, and list the files a
caller sees.  Tool, type, submitter and the file manager's expiration are set on the rows of the
caller; keywords belong to the hash: they are set on every row of it, and the list gives an entry
the keywords of every row with its hash.
-/

namespace MicroTak.Content

open Journal ResourceStore List Text SyncState

/-! ### The rows of a store -/

inductive StoreCall where
  | insert (new : NewResource) (hash : String) (size : Nat) (nowMillis : Int)
  | deleteKeys (keys : List Int) (groups : Option (Finset String))
  | deleteHash (hash : String) (groups : Option (Finset String))
  | setKeywords (hash : String) (keywords : List String)
  | setExpiration (hash : String) (expiration : Option Int)
  | setField (keys : List Int) (field value : String)
  | setSubmissionUser (keys : List Int) (user : String)
  | setExpirationKeys (keys : List Int) (expiration : Option Int)

def StoreCall.run (disk : Option Nat) (state : SyncState) : StoreCall → SyncState
  | .insert new hash size nowMillis =>
    ((ResourceStore.insert new hash size nowMillis).run apply disk state).state
  | .deleteKeys keys groups => ((ResourceStore.deleteKeys keys groups).run apply disk state).state
  | .deleteHash hash groups => ((ResourceStore.deleteHash hash groups).run apply disk state).state
  | .setKeywords hash keywords =>
    ((ResourceStore.setKeywords hash keywords).run apply disk state).state
  | .setExpiration hash expiration =>
    ((ResourceStore.setExpiration hash expiration).run apply disk state).state
  | .setField keys field value =>
    ((ResourceStore.setField keys field value).run apply disk state).state
  | .setSubmissionUser keys user =>
    ((ResourceStore.setSubmissionUser keys user).run apply disk state).state
  | .setExpirationKeys keys expiration =>
    ((ResourceStore.setExpirationKeys keys expiration).run apply disk state).state

def storeAfter (calls : List (Option Nat × StoreCall)) : SyncState :=
  calls.foldl (fun state call => call.2.run call.1 state) {}

theorem ResourceStore.only_deleteKeys (keys : List Int) (groups : Option (Finset String)) :
    (deleteKeys keys groups).Only fun event => ∀ record, event ≠ .inserted record := by
  refine Op.only_get.bind fun state => Op.Only.bind (Op.only_putAll fun event hevent => ?_) fun _ =>
    trivial
  obtain ⟨key, -, rfl⟩ := mem_map.1 hevent
  exact fun record => by simp

theorem ResourceRecord.primaryKey_setField (record : ResourceRecord) (field value : String) :
    (record.setField field value).primaryKey = record.primaryKey := by
  unfold ResourceRecord.setField
  split
  · rfl
  · split <;> rfl

namespace SyncState

structure Keyed (state : SyncState) : Prop where
  nodup : (state.resources.map (·.primaryKey)).Nodup
  le_nextKey : ∀ record ∈ state.resources, record.primaryKey ≤ state.nextKey

variable {state : SyncState}

private theorem Keyed.updateWhere {p : ResourceRecord → Bool} {f : ResourceRecord → ResourceRecord}
    (h : state.Keyed) (hf : ∀ record, (f record).primaryKey = record.primaryKey) :
    (state.updateWhere p f).Keyed := by
  have hrow : ∀ record, (if p record then f record else record).primaryKey = record.primaryKey := by
    intro record
    split
    · exact hf record
    · rfl
  refine ⟨?_, fun record hrecord => ?_⟩
  · have hkeys : (state.updateWhere p f).resources.map (·.primaryKey) =
        state.resources.map (·.primaryKey) := by
      rw [SyncState.updateWhere, map_map]
      exact map_congr_left fun record _ => hrow record
    rw [hkeys]
    exact h.nodup
  · obtain ⟨before, hbefore, rfl⟩ := mem_map.1 hrecord
    rw [hrow]
    exact h.le_nextKey before hbefore

theorem Keyed.apply {event : SyncEvent} (h : state.Keyed)
    (hnew : ∀ record, event = .inserted record → state.nextKey < record.primaryKey) :
    (state.apply event).Keyed := by
  cases event with
  | inserted record =>
    have hfresh := hnew record rfl
    refine ⟨?_, fun other hother => ?_⟩
    · rw [SyncState.apply, map_append, map_singleton]
      refine h.nodup.append (nodup_singleton _) ?_
      rw [disjoint_singleton]
      intro hmem
      obtain ⟨other, hother, hkey⟩ := mem_map.1 hmem
      have hle := h.le_nextKey other hother
      omega
    · rcases mem_append.1 hother with hold | hlast
      · exact le_max_of_le_left (h.le_nextKey other hold)
      · rw [mem_singleton.1 hlast]
        exact le_max_right _ _
  | deleted key =>
    refine ⟨(filter_sublist.map _).nodup h.nodup, fun other hother => ?_⟩
    exact h.le_nextKey other (mem_of_mem_filter hother)
  | keywordsSet | expirationSet | submitterSet | expirationSetKeys =>
    exact h.updateWhere fun _ => rfl
  | fieldSetKeys keys field value =>
    exact h.updateWhere fun record => ResourceRecord.primaryKey_setField record field value

variable {disk : Option Nat}

private theorem Keyed.run_of_only {α : Type} {op : ResourceStore.Op α} (h : state.Keyed)
    (honly : op.Only fun event => ∀ record, event ≠ .inserted record) :
    (op.run SyncState.apply disk state).state.Keyed :=
  honly.run SyncState.Keyed (fun _ _ hevent hlater => hlater.apply fun record heq =>
    absurd heq (hevent record)) h

private theorem Keyed.call (h : state.Keyed) (call : StoreCall) : (call.run disk state).Keyed := by
  have hset : ∀ event : SyncEvent, (∀ record, event ≠ .inserted record) →
      (((Op.put event : ResourceStore.Op Unit)).run SyncState.apply disk state).state.Keyed :=
    fun event hevent => h.run_of_only ⟨hevent, trivial⟩
  cases call with
  | insert new hash size nowMillis =>
    match disk with
    | some 0 => exact h
    | none | some (n + 1) =>
      show (state.apply (.inserted _)).Keyed
      refine h.apply fun record hrecord => ?_
      rw [← SyncEvent.inserted.inj hrecord]
      exact Int.lt_add_one_of_le le_rfl
  | deleteKeys keys groups => exact h.run_of_only (only_deleteKeys keys groups)
  | deleteHash hash groups => exact h.run_of_only fun later => only_deleteKeys _ groups
  | setKeywords | setExpiration | setField | setSubmissionUser | setExpirationKeys =>
    exact hset _ (by simp)

end SyncState

theorem keyed_storeAfter (calls : List (Option Nat × StoreCall)) : (storeAfter calls).Keyed := by
  induction calls using List.reverseRecOn with
  | nil => exact ⟨nodup_nil, fun _ h => absurd h not_mem_nil⟩
  | append_singleton calls call ih =>
    rw [storeAfter, foldl_append]
    exact ih.call call.2

/-! ### The handlers -/

/-- The configuration, and the parts of the standard library the handlers are built on. -/
structure FileEnv where
  adminCommonName : Option String
  isAlphanumeric : Char → Bool
  toLowercase : String → String
  parseInt : String → Option Int
  cotDate : Int → String
  esapiEncodeForHtml : String → String

/-- What the handlers read beside the rows: the groups, the hashes of the contents of every mission
of a name, and the callsign last reported for a uid. -/
structure Surroundings where
  groups : Groups.State := {}
  missionHashes : String → List String := fun _ => []
  latestCallsign : String → String := fun _ => ""

inductive MetadataRequest where
  | setKeywords (hash : String) (keywords : List String)
  | setMetadata (hash field value : String)
  | setExpiration (hash : String) (expiration : Option Int)
  | putMetadata (hash : String) (pairs : List (String × String))

def param (pairs : List (String × String)) (name : String) : Option String :=
  (pairs.find? (·.1 = name)).map (·.2)

section Handlers

variable (env : FileEnv) (around : Surroundings) (groups : Option (Finset String))
  (state : SyncState)

/-- The groups that the identity looks through; the administrator sees everything. -/
def viewerGroups (identity : String) : Option (Finset String) :=
  if env.adminCommonName = some identity then none else some (around.groups.allGroupNames identity)

/-- The status, and the rows, after the only event of a handler. -/
def respond (disk : Option Nat) (op : ResourceStore.Op Unit) : Nat × SyncState :=
  let result := op.run apply disk state
  match result.answer with
  | .done _ => (200, result.state)
  | .refused _ | .failed _ => (500, result.state)

def setKeywords (disk : Option Nat) (hash : String) (keywords : List String) : Nat × SyncState :=
  if (state.byHash hash groups).isEmpty then (404, state)
  else respond state disk (ResourceStore.setKeywords hash keywords)

def martiSafe (value : String) : Bool :=
  value.toList.length ≤ 255 &&
    value.toList.all fun c =>
      env.isAlphanumeric c || c = '_' || isWhitespace c || c ∈
        ".()!=@#$&^*-+[]\x7b\x7d:,/|\\".toList

def setMetadata (disk : Option Nat) (hash field value : String) : Nat × SyncState :=
  if hash = "" || field = "" || !martiSafe env hash || !martiSafe env field ||
    !martiSafe env value then (400, state)
  else
    let field := env.toLowercase field
    if field ≠ "tool" && field ≠ "mimetype" then (400, state)
    else
      let keys := keysOfHash state hash groups
      if keys.isEmpty then (404, state) else respond state disk (setField keys field value)

def setExpiration (disk : Option Nat) (hash : String) (expiration : Option Int) : Nat × SyncState :=
  if (state.byHash hash groups).isEmpty then (404, state)
  else respond state disk (ResourceStore.setExpiration hash (expiration.filter (0 ≤ ·)))

/-- Repeated or comma-separated values. -/
def keywordsParam (pairs : List (String × String)) : List String :=
  ((pairs.filter (·.1 = "keywords")).flatMap fun pair => split ',' pair.2).filter (· ≠ "")

/-- Each of the three changes has its own fate on disk, and its error is swallowed. -/
def putMetadata (disks : Nat → Option Nat) (hash : String) (pairs : List (String × String)) :
    Nat × SyncState :=
  let hash := toAsciiLowercase hash
  let keys := keysOfHash state hash groups
  let submitted := match (param pairs "user").filter (· ≠ "") with
    | some user => (respond state (disks 0) (setSubmissionUser keys user)).2
    | none => state
  let expiring := match ((param pairs "expiration").filter (· ≠ "")).bind env.parseInt with
    | some expiration =>
        (respond submitted (disks 1) (setExpirationKeys keys ((some expiration).filter (0 ≤ ·)))).2
    | none => submitted
  (200, (respond expiring (disks 2) (ResourceStore.setKeywords hash (keywordsParam pairs))).2)

def handle (disks : Nat → Option Nat) : MetadataRequest → Nat × SyncState
  | .setKeywords hash keywords => setKeywords groups state (disks 0) hash keywords
  | .setMetadata hash field value => setMetadata env groups state (disks 0) hash field value
  | .setExpiration hash expiration => setExpiration groups state (disks 0) hash expiration
  | .putMetadata hash pairs => putMetadata env groups state disks hash pairs

end Handlers

/-! ### The list -/

def sizeLabel (size : Nat) : String :=
  if size < 1024 then toString size ++ "B"
  else if size < 1048576 then toString (size / 1024) ++ "kB"
  else if size < 1073741824 then toString (size / 1048576) ++ "MB"
  else toString (size / 1073741824) ++ "GB"

def trimEndMatches (c : Char) (s : String) : String :=
  String.ofList (s.toList.reverse.dropWhile (· = c)).reverse

def beforeFirst (c : Char) (s : String) : String :=
  String.ofList (s.toList.takeWhile (· ≠ c))

def replaceFirst (c : Char) (by' : Char) (s : String) : String :=
  match s.toList.dropWhile (· ≠ c) with
  | [] => s
  | _ :: rest => String.ofList (s.toList.takeWhile (· ≠ c) ++ by' :: rest)

def padZeros (width n : Nat) : String :=
  let digits := toString n
  String.ofList (List.replicate (width - digits.toList.length) '0') ++ digits

def timestampString (env : FileEnv) (millis : Int) : String :=
  let ms := (millis % 1000).toNat
  let base := beforeFirst '.'
    (replaceFirst 'T' ' ' (trimEndMatches 'Z' (env.cotDate (millis / 1000))))
  base ++ "." ++ if ms = 0 then "0" else trimEndMatches '0' (padZeros 3 ms)

def expirationString (env : FileEnv) (expiration : Option Int) : String :=
  match expiration.filter (0 ≤ ·) with
  | some e => beforeFirst '.' (trimEndMatches 'Z' (env.cotDate e))
  | none => "none"

/-- SQL `LIKE`. -/
def like : (value pattern : List Char) → Bool
  | value, [] => value.isEmpty
  | value, '%' :: pattern => value.tails.any (like · pattern)
  | [], _ :: _ => false
  | c :: value, p :: pattern => (p = '_' || c = p) && like value pattern

structure ResourceEntry where
  name : Option String
  user : String
  creator : String
  size : String
  time : String
  mimeType : Option String
  keywords : String
  expiration : String
  hash : String
  groups : String
  tool : Option String
  deriving DecidableEq

/-- The keywords of every row with the hash, newest row first. -/
def keywordsOf (all : List ResourceRecord) (hash : String) : List String :=
  (all.filter (·.hash = hash)).flatMap (·.keywords)

section List

variable (env : FileEnv) (around : Surroundings) (groups : Option (Finset String))

def resourceEntry (record : ResourceRecord) (all : List ResourceRecord) : ResourceEntry :=
  let keywords := keywordsOf all record.hash
  let names := record.visibleIn.filter fun g => groups.all (g ∈ ·)
  { name := record.name
    user := record.submissionUser
    creator := env.esapiEncodeForHtml (around.latestCallsign record.uid)
    size := sizeLabel record.size
    time := timestampString env record.submissionTimeMillis
    mimeType := record.mimeType
    keywords := ",".intercalate (if keywords.isEmpty then ["none"] else keywords)
    expiration := expirationString env record.expiration
    hash := record.hash
    groups := ",".intercalate (names.dedup.insertionSort (· ≤ ·))
    tool := record.tool }

/-- Files without a name come first. -/
def nameLe : Option String → Option String → Prop
  | none, _ => True
  | some _, none => False
  | some a, some b => a ≤ b

instance : DecidableRel nameLe
  | none, _ => isTrue trivial
  | some _, none => isFalse id
  | some a, some b => inferInstanceAs (Decidable (a ≤ b))

def sortFiles (sort : String) (ascending : Bool) (files : List ResourceRecord) :
    List ResourceRecord :=
  let turn (sorted : List ResourceRecord) := if ascending then sorted else sorted.reverse
  if sort = "name" then turn (files.insertionSort fun a b => nameLe a.name b.name)
  else if sort = "updateTime" then turn (files.insertionSort fun a b => a.submissionTimeMillis ≤
    b.submissionTimeMillis)
  else if sort = "size" then turn (files.insertionSort fun a b => a.size ≤ b.size)
  else files

/-- `saturating_mul` of two 64-bit integers. -/
def saturatingMul (a b : Int) : Int :=
  max (-9223372036854775808) (min 9223372036854775807 (a * b))

def paginate (page limit : Int) (files : List ResourceRecord) : List ResourceRecord :=
  if page ≠ -1 ∧ limit ≠ -1 ∧ limit ≠ 0 then
    let offset := saturatingMul page limit
    if offset < 0 ∨ limit < 0 then [] else (files.drop offset.toNat).take limit.toNat
  else files

def selectFiles (pairs : List (String × String)) (visible : List ResourceRecord) :
    List ResourceRecord :=
  let int key := ((param pairs key).bind env.parseInt).getD (-1)
  let mission := (param pairs "mission").getD ""
  let name := (param pairs "name").getD ""
  let files := visible.insertionSort fun a b => a.primaryKey ≤ b.primaryKey
  let files :=
    if trim mission = "" ∧ param pairs "missionPackage" = some "true" then
      files.filter (·.keywords.any (· = "missionpackage"))
    else if trim mission ≠ "" then files.filter (·.hash ∈ around.missionHashes mission)
    else files
  let files :=
    if trim name ≠ "" then
      files.filter (·.name.any fun n => like n.toList ('%' :: name.toList ++ ['%']))
    else files
  paginate (int "page") (int "limit")
    (sortFiles ((param pairs "sort").getD "") (param pairs "ascending" ≠ some "false") files)

def list (pairs : List (String × String)) (state : SyncState) : List ResourceEntry :=
  (selectFiles env around pairs (state.visible groups)).map fun record =>
    resourceEntry env around groups record state.all

end List

/-! ### What a request changes -/

def seenIn (groups : Finset String) (record : ResourceRecord) : Bool :=
  record.visibleIn.any (· ∈ groups)

/-- The hash whose rows a request changes; the tool and the MIME type are changed by key. -/
def MetadataRequest.hash : MetadataRequest → Option String
  | .setMetadata _ _ _ => none
  | .setKeywords hash _ | .setExpiration hash _ => some (toAsciiLowercase hash)
  | .putMetadata hash _ => some (toAsciiLowercase (toAsciiLowercase hash))

/-- Every row with the hash is seen in the groups. -/
def Unshared (state : SyncState) (groups : Finset String) (hash : String) : Prop :=
  ∀ record ∈ state.resources, record.hash = hash → seenIn groups record = true

variable {record : ResourceRecord} {pairs : List (String × String)}

section Edits

variable {state : SyncState} {disk : Option Nat} {groups : Finset String}
  {f : ResourceRecord → ResourceRecord}

theorem rows_respond (event : SyncEvent) {p : ResourceRecord → Bool}
    (hevent : ∀ state : SyncState, state.apply event = state.updateWhere p f) :
    ∃ g, (respond state disk (Op.put event)).2.resources = state.resources.map g ∧
      ∀ record, g record = record ∨ p record = true ∧ g record = f record := by
  have happly : (state.apply event).resources = state.resources.map fun r => if p r then f r
      else r := by rw [hevent]; rfl
  have hrow : ∀ record, (if p record then f record else record) = record ∨
      p record = true ∧ (if p record then f record else record) = f record := by
    intro record
    by_cases hp : p record = true
    · exact .inr ⟨hp, if_pos hp⟩
    · exact .inl (if_neg hp)
  match disk with
  | some 0 => exact ⟨id, (map_id _).symm, fun _ => .inl rfl⟩
  | none | some (n + 1) => exact ⟨_, happly, hrow⟩

variable {hash : String} {request : MetadataRequest} {g : ResourceRecord → ResourceRecord}

theorem unseen_kept (h : state.Keyed) (hg : ∀ record : ResourceRecord,
      g record = record ∨ decide (record.primaryKey ∈ keysOfHash state hash (some groups)) = true ∧
      g record = f record)
    (hrecord : record ∈ state.resources) (hunseen : seenIn groups record = false) :
    g record = record := by
  rcases hg record with hsame | ⟨hkey, -⟩
  · exact hsame
  · obtain ⟨row, hrow, hsame⟩ := mem_map.1 (of_decide_eq_true hkey)
    have hvisible : row ∈ state.visible (some groups) := mem_of_mem_filter hrow
    have hrow := (mem_insertionSort _).1 (mem_of_mem_filter hvisible)
    obtain rfl := inj_on_of_nodup_map h.nodup hrecord hrow hsame.symm
    cases hunseen.symm.trans (mem_filter.1 hvisible).2

variable {env : FileEnv} {disks : Nat → Option Nat}

/-- The rows after a request, each made of the one before: of those that the caller does not see,
only rows with the hash of the request may have changed. -/
def Confined (state : SyncState) (groups : Finset String) (request : MetadataRequest)
    (after : SyncState) : Prop :=
  List.Forall₂ (fun before after => seenIn groups before = false →
    after = before ∨ before.hash ∈ request.hash) state.resources after.resources

theorem confined_of_map {after : SyncState} (hafter : after.resources = state.resources.map g)
    (hg : ∀ record ∈ state.resources, seenIn groups record = false →
      g record = record ∨ record.hash ∈ request.hash) :
    Confined state groups request after := by
  rw [Confined, hafter, forall₂_map_right_iff]
  exact forall₂_same.2 hg

theorem confined_self : Confined state groups request state :=
  forall₂_same.2 fun _ _ _ => .inl rfl

theorem confined_byHash {event : SyncEvent}
    (hevent : ∀ state : SyncState, state.apply event = state.updateWhere (fun r =>
      r.hash = toAsciiLowercase hash) f) (hhash : request.hash = some (toAsciiLowercase hash)) :
    Confined state groups request
      (if (state.byHash hash (some groups)).isEmpty then (404, state)
        else respond state disk (Op.put event)).2 := by
  split
  · exact confined_self
  · obtain ⟨g, hrows, hg⟩ := rows_respond event hevent
    refine confined_of_map hrows fun record _ _ => (hg record).imp_right fun hnew => ?_
    rw [hhash, of_decide_eq_true hnew.1]
    rfl

theorem confined_setMetadata (h : state.Keyed) {field value : String} :
    Confined state groups (.setMetadata hash field value)
    (setMetadata env (some groups) state disk hash field value).2 := by
  unfold setMetadata
  split
  · exact confined_self
  · dsimp only
    split
    · exact confined_self
    · split
      · exact confined_self
      · obtain ⟨g, hrows, hg⟩ := rows_respond
          (.fieldSetKeys (keysOfHash state hash (some groups)) (env.toLowercase field) value)
            fun _ => rfl
        exact confined_of_map hrows fun record hrecord hunseen =>
          .inl (unseen_kept h hg hrecord hunseen)

/-- The rows are made of those before, and those that the caller does not see are kept. -/
def Own (state : SyncState) (groups : Finset String) (before after : SyncState) : Prop :=
  ∃ g, after.resources = before.resources.map g ∧
    ∀ record ∈ state.resources, seenIn groups record = false → g record = record

theorem own_refl (before : SyncState) : Own state groups before before :=
  ⟨id, (map_id _).symm, fun _ _ _ => rfl⟩

private theorem own_respond (h : state.Keyed) {before : SyncState} (event : SyncEvent)
    (hevent : ∀ later : SyncState, later.apply event =
      later.updateWhere (fun r => r.primaryKey ∈ keysOfHash state hash (some groups)) f) :
    Own state groups before (respond before disk (Op.put event)).2 := by
  obtain ⟨g, hrows, hg⟩ := rows_respond event hevent
  exact ⟨g, hrows, fun record hrecord hunseen => unseen_kept h hg hrecord hunseen⟩

private theorem confined_putMetadata (h : state.Keyed) :
    Confined state groups (.putMetadata hash pairs)
    (putMetadata env (some groups) state disks hash pairs).2 := by
  unfold putMetadata
  extract_lets hash' keys submitted expiring
  -- The first two changes are to the rows of the caller, if they are made at all.
  obtain ⟨g, hg, hkept⟩ : Own state groups state submitted := by
    simp only [submitted]
    split
    · exact own_respond h (.submitterSet keys _) fun _ => rfl
    · exact own_refl state
  obtain ⟨g', hg', hkept'⟩ : Own state groups submitted expiring := by
    simp only [expiring]
    split
    · exact own_respond h (.expirationSetKeys keys _) fun _ => rfl
    · exact own_refl submitted
  obtain ⟨g'', hg'', hkeywords⟩ := rows_respond
    (.keywordsSet (toAsciiLowercase hash') (keywordsParam pairs)) fun _ => rfl
  rw [hg', hg, map_map, map_map] at hg''
  refine confined_of_map hg'' fun record hrecord hunseen => ?_
  rw [Function.comp_apply, Function.comp_apply, hkept record hrecord hunseen,
    hkept' record hrecord hunseen]
  exact (hkeywords record).imp_right fun hnew => congrArg some (of_decide_eq_true hnew.1).symm

theorem confined_handle (h : state.Keyed) (request : MetadataRequest) :
    Confined state groups request (handle env (some groups) state disks request).2 := by
  cases request with
  | setKeywords hash keywords => exact confined_byHash (fun _ => rfl) rfl
  | setMetadata hash field value => exact confined_setMetadata h
  | setExpiration hash expiration => exact confined_byHash (fun _ => rfl) rfl
  | putMetadata hash pairs => exact confined_putMetadata h

theorem unseen_unchanged (h : state.Keyed)
    (hunshared : ∀ hash ∈ request.hash, Unshared state groups hash) :
    List.Forall₂ (fun before after => seenIn groups before = false → after = before)
      state.resources (handle env (some groups) state disks request).2.resources := by
  refine List.Forall₂.imp ?_ ((forall₂_and_left _ _).2 ⟨fun _ => id, confined_handle h request⟩)
  rintro before after ⟨hmem, hmay⟩ hunseen
  refine (hmay hunseen).resolve_right fun hhash => ?_
  rw [hunshared _ hhash before hmem rfl] at hunseen
  cases hunseen

/-- The keywords are replaced whether the caller sees a row of the file or not. -/
private theorem unshared_of_kept (hkept : ∀ pairs, List.Forall₂ (fun before after =>
      seenIn groups before = false → after = before) state.resources
        (handle env (some groups) state (fun _ => none) (.putMetadata hash pairs)).2.resources) :
    Unshared state groups (toAsciiLowercase (toAsciiLowercase hash)) := by
  intro record hrecord hhash
  by_contra hunseen
  have hset : ∀ pairs, param pairs "user" = none → param pairs "expiration" = none →
      record.keywords = keywordsParam pairs := by
    intro pairs huser hexpiration
    have hrows := hkept pairs
    simp only [handle, putMetadata, huser, hexpiration, Option.filter_none, Option.bind_none]
      at hrows
    have hrow := forall₂_same.1 (forall₂_map_right_iff.1 hrows) record hrecord
      (Bool.eq_false_of_not_eq_true hunseen)
    rw [if_pos (decide_eq_true hhash)] at hrow
    exact (congrArg (·.keywords) hrow).symm
  have hnone := hset [] rfl rfl
  rw [hset [("keywords", "x")] (by decide) (by decide)] at hnone
  exact absurd hnone (by decide)

end Edits

/-! ### What the list depends on -/

section Listing

variable {env : FileEnv} {around : Surroundings}

variable {files : List ResourceRecord}

theorem mem_of_mem_ite_filter {c : Prop} [Decidable c] {p : ResourceRecord → Bool}
    (h : record ∈ if c then files.filter p else files) : record ∈ files := by
  split at h
  · exact mem_of_mem_filter h
  · exact h

theorem mem_sortFiles {sort : String} {ascending : Bool}
    (h : record ∈ sortFiles sort ascending files) : record ∈ files := by
  have hturn : ∀ sorted : List ResourceRecord,
      record ∈ (if ascending then sorted else sorted.reverse) → record ∈ sorted := by
    intro sorted hmem
    split at hmem
    · exact hmem
    · exact mem_reverse.1 hmem
  unfold sortFiles at h
  dsimp only at h
  iterate 3
    split at h
    · exact (mem_insertionSort _).1 (hturn _ h)
  exact h

private theorem mem_paginate {page limit : Int} (h : record ∈ paginate page limit files) :
    record ∈ files := by
  unfold paginate at h
  split at h
  · dsimp only at h
    split at h
    · cases h
    · exact mem_of_mem_drop (mem_of_mem_take h)
  · exact h

theorem mem_selectFiles {visible : List ResourceRecord}
    (h : record ∈ selectFiles env around pairs visible) : record ∈ visible := by
  have hnamed := mem_sortFiles (mem_paginate h)
  have hchosen := mem_of_mem_ite_filter hnamed
  split at hchosen
  · exact (mem_insertionSort _).1 (mem_of_mem_filter hchosen)
  · exact (mem_insertionSort _).1 (mem_of_mem_ite_filter hchosen)

end Listing

variable {state : SyncState} {groups : Finset String} {hash keyword : String}

private theorem keywordsOf_of_unshared (h : Unshared state groups hash) :
    keywordsOf state.all hash = keywordsOf (state.visible (some groups)) hash := by
  have hseen : ∀ record ∈ state.all, decide (record.hash = hash) =
      (decide (record.hash = hash) && record.visibleIn.any (· ∈ groups)) := by
    intro record hrecord
    by_cases hhash : record.hash = hash
    · have hvisible : record.visibleIn.any (· ∈ groups) = true :=
        h record ((mem_insertionSort _).1 hrecord) hhash
      simp only [hhash, hvisible, decide_true, Bool.and_self]
    · simp only [hhash, decide_false, Bool.false_and]
  rw [keywordsOf, keywordsOf, visible, filter_filter, filter_congr hseen]

/-- The store with another keyword on the rows that the groups do not see. -/
def SyncState.tagged (state : SyncState) (groups : Finset String) (keyword : String) : SyncState :=
  state.updateWhere (!seenIn groups ·) fun r => { r with keywords := [keyword] }

theorem all_tagged : (state.tagged groups keyword).all =
    state.all.map fun r => if !seenIn groups r then { r with keywords := [keyword] } else r := by
  refine (map_insertionSort _ _ _ _ fun a _ b _ => ?_).symm
  split <;> split <;> rfl

theorem visible_tagged :
    (state.tagged groups keyword).visible (some groups) = state.visible (some groups) := by
  have hseen : ∀ r ∈ state.all, seenIn groups
      (if !seenIn groups r then { r with keywords := [keyword] } else r) = seenIn groups r := by
    intro r _
    split <;> rfl
  rw [visible, all_tagged, filter_map]
  refine (congrArg _ (filter_congr hseen)).trans ((map_congr_left fun r hr => ?_).trans (map_id _))
  simp [(mem_filter.1 hr).2]

private theorem unshared_tagged (h : Unshared state groups hash) :
    Unshared (state.tagged groups keyword) groups hash := by
  intro record hrecord hhash
  obtain ⟨row, hrow, rfl⟩ := mem_map.1 hrecord
  have hseen := h row hrow
  grind [seenIn]

private theorem mem_keywordsOf_tagged (h : ¬ Unshared state groups hash) :
    keyword ∈ keywordsOf (state.tagged groups keyword).all hash := by
  simp only [Unshared, not_forall] at h
  obtain ⟨row, hrow, hhash, hunseen⟩ := h
  rw [all_tagged]
  refine mem_flatMap.2 ⟨{ row with keywords := [keyword] }, mem_filter.2 ⟨mem_map.2 ?_,
    decide_eq_true hhash⟩, mem_singleton.2 rfl⟩
  exact ⟨row, (mem_insertionSort _).2 hrow, if_pos (by simpa using hunseen)⟩

private theorem length_le_intercalate {sep : String} {keywords : List String}
    (h : keyword ∈ keywords) : keyword.length ≤ (sep.intercalate keywords).length := by
  induction keywords with
  | nil => cases h
  | cons first rest ih =>
    cases rest with
    | nil => rw [mem_singleton.1 h, String.intercalate_singleton]
    | cons second rest =>
      rw [String.intercalate_cons_cons, String.length_append, String.length_append]
      rcases mem_cons.1 h with rfl | hlater
      · omega
      · have hle := ih hlater
        omega

private theorem exists_list_tagged {env : FileEnv} {around : Surroundings}
    (hrecord : record ∈ state.visible (some groups))
    (hshared : ¬ Unshared state groups record.hash) :
    ∃ keyword, list env around (some groups) [] (state.tagged groups keyword) ≠
      list env around (some groups) [] state := by
  -- One that is longer than all the list has for the file.
  let shown := (resourceEntry env around (some groups) record state.all).keywords
  refine ⟨shown ++ "x", fun hlist => ?_⟩
  rw [list, list, visible_tagged, map_inj_left] at hlist
  have hentry : _ = shown := congrArg (·.keywords) (hlist record ((mem_insertionSort _).2 hrecord))
  have hmem := @mem_keywordsOf_tagged state groups record.hash (shown ++ "x") hshared
  rw [resourceEntry, if_neg fun hempty => ne_nil_of_mem hmem (List.isEmpty_iff.1 hempty)] at hentry
  have hle := @length_le_intercalate _ "," _ hmem
  dsimp only at hentry
  rw [hentry, String.length_append] at hle
  exact absurd hle (Nat.not_le.2 (Nat.lt_add_of_pos_right (by decide)))

/-- For every store and every caller but the administrator: no request about a hash changes a row
that the caller does not see exactly if the caller sees every row with the hash, and requests for
rows change none; and the list that the caller gets depends on the rows that it sees alone, among
the stores that share no more hashes, exactly if it sees every row with the hash of one of them. -/
theorem metadata_confined_iff (env : FileEnv) (around : Surroundings)
    (calls : List (Option Nat × StoreCall)) (identity : String)
    (hidentity : env.adminCommonName ≠ some identity) :
    let state := storeAfter calls
    let groups := around.groups.allGroupNames identity
    let kept := fun request disks => List.Forall₂ (fun before after =>
      seenIn groups before = false → after = before) state.resources
        (handle env (viewerGroups env around identity) state disks request).2.resources
    (∀ request disks, request.hash = none → kept request disks) ∧
    (∀ hash, (∀ request disks, request.hash = some (toAsciiLowercase hash) → kept request disks) ↔
      Unshared state groups (toAsciiLowercase hash)) ∧
    ((∀ pairs other, other.visible (some groups) = state.visible (some groups) →
        (∀ record ∈ state.visible (some groups),
          Unshared state groups record.hash → Unshared other groups record.hash) →
        list env around (viewerGroups env around identity) pairs other =
          list env around (viewerGroups env around identity) pairs state) ↔
      ∀ record ∈ state.visible (some groups), Unshared state groups record.hash) := by
  intro state groups kept
  have hgroups : viewerGroups env around identity = some groups := if_neg hidentity
  have hkeyed : state.Keyed := keyed_storeAfter calls
  simp only [kept, hgroups]
  refine ⟨fun request disks hnone => unseen_unchanged hkeyed (by simp [hnone]),
    fun hash => ⟨fun hkept => ?_, fun hunshared request disks hhash =>
      unseen_unchanged hkeyed (by simpa [hhash] using hunshared)⟩,
    fun hlist record hrecord => ?_, fun hunshared pairs other hvisible hno => ?_⟩
  · rw [← toAsciiLowercase_idem]
    exact unshared_of_kept fun pairs => hkept _ _ (congrArg some (toAsciiLowercase_idem hash))
  · by_contra hshared
    obtain ⟨keyword, hne⟩ := exists_list_tagged hrecord hshared
    exact hne (hlist [] _ visible_tagged fun _ _ => unshared_tagged)
  -- Of the rows that the caller does not see, an entry depends on their keywords alone.
  · rw [list, hvisible]
    refine map_congr_left fun record hrecord => ?_
    have hstate := hunshared record (mem_selectFiles hrecord)
    rw [resourceEntry, resourceEntry, keywordsOf_of_unshared hstate,
      keywordsOf_of_unshared (hno record (mem_selectFiles hrecord) hstate), hvisible]

namespace SharedHash

def env : FileEnv where
  adminCommonName := some "admin"
  isAlphanumeric := Char.isAlphanum
  toLowercase := toAsciiLowercase
  parseInt _ := none
  cotDate _ := ""
  esapiEncodeForHtml text := text

def around : Surroundings where
  groups := Groups.applyEvent (Groups.applyEvent Groups.freshState (.created "Blue" none 0))
    (.memberSet "jz" "Blue" (some .both))

/-- A file, uploaded into Red with some keywords, and into Blue, or another file there. -/
def calls (keywords : List String) (blue : String) : List (Option Nat × StoreCall) :=
  [(none, .insert { uid := "u", keywords, visibleIn := ["Red"] } "h" 1 0),
    (none, .insert { uid := "v", visibleIn := ["Blue"] } blue 1 0)]

end SharedHash

open SharedHash in
theorem metadata_confined_own_file :
    List.Forall₂ (fun before after => seenIn (around.groups.allGroupNames "jz") before = false →
      after = before) (storeAfter (calls ["k"] "b")).resources
      (handle env (viewerGroups env around "jz") (storeAfter (calls ["k"] "b")) (fun _ => none)
        (.setKeywords "b" ["x"])).2.resources :=
  ((metadata_confined_iff env around (calls ["k"] "b") "jz" (by decide)).2.1 "b").2
    (show ∀ record ∈ (storeAfter (calls ["k"] "b")).resources, record.hash = _ → _ from by
      decide +kernel) (.setKeywords "b" ["x"]) (fun _ => none) rfl

open SharedHash in
/-- A member of Blue that sees no row of a file is told so, and replaces the keywords of its row of
Red all the same by the other route.  If the file is in Blue too, it changes keywords and expiration
of the row of Red by each route, and its list of files shows the keywords of that row. -/
theorem keywords_cross_groups : let groups := around.groups.allGroupNames "jz"
    let answer := fun blue =>
      handle env (viewerGroups env around "jz") (storeAfter (calls ["k"] blue)) fun _ => none
    (∃ row ∈ (storeAfter (calls ["k"] "b")).resources, seenIn groups row = false ∧
      (answer "b" (.setKeywords "h" ["x"])).1 = 404 ∧
        (answer "b" (.setExpiration "h" (some 9))).1 = 404 ∧
          (answer "b" (.setMetadata "h" "tool" "t")).1 = 404 ∧
      (answer "b" (.putMetadata "h" [("keywords", "x")])).1 = 200 ∧
        { row with
          keywords := ["x"] } ∈ (answer "b" (.putMetadata "h" [("keywords", "x")])).2.resources) ∧
    (∃ row ∈ (storeAfter (calls ["k"] "h")).resources, seenIn groups row = false ∧
      row ∉ (answer "h" (.setKeywords "h" ["x"])).2.resources ∧
      row ∉ (answer "h" (.setExpiration "h" (some 9))).2.resources ∧
      row ∉ (answer "h" (.putMetadata "h" [])).2.resources) ∧
    (storeAfter (calls [] "h")).visible (some groups) = (storeAfter (calls ["k"] "h")).visible
      (some groups) ∧
    list env around (viewerGroups env around "jz") [] (storeAfter (calls [] "h")) ≠
      list env around (viewerGroups env around "jz") [] (storeAfter (calls ["k"] "h")) := by
  decide +kernel

end MicroTak.Content
