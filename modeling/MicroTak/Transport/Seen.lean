import MicroTak.Lib.Dict
import MicroTak.Lib.Transition

/-!
# The last-seen file

When each identity was last connected, kept in memory and written out after every change: the whole
map goes to a temporary file beside `client-seen.json`, which is then renamed over it.  A change
holds the lock of the records alone.  Writing out holds it shared, so the records stand still
meanwhile, but several calls may write at the same time, all of them to one temporary file.  A write
or rename that fails, after which the file stays as it was, is left out.
-/

namespace MicroTak.Transport

open Std Transition List

/-! ### The records -/

inductive TransportKind where
  | tls
  | tcp
  deriving DecidableEq

structure SeenRecord where
  commonName : String
  uid : Option String := none
  transport : TransportKind
  lastSeenUnix : Int
  connected : Bool
  deriving DecidableEq

abbrev SeenRecords := TreeMap String SeenRecord

inductive SeenCall where
  | markConnected (commonName : String) (uid : Option String) (transport : TransportKind)
    (now : Int)
  | markDisconnected (commonName : String) (now : Int)
  | setUid (commonName uid : String)
  deriving DecidableEq

/-- The records after a call, and whether they are to be written out. -/
def SeenCall.change (records : SeenRecords) : SeenCall → SeenRecords × Bool
  | .markConnected commonName uid transport now =>
      let record := (records[commonName]?).getD
        { commonName, uid, transport, lastSeenUnix := now, connected := true }
      (records.insert commonName
        { record with
          transport, lastSeenUnix := now, connected := true, uid := uid.or record.uid }, true)
  | .markDisconnected commonName now =>
      match records[commonName]? with
      | some record =>
        (records.insert commonName { record with connected := false, lastSeenUnix := now }, true)
      | none => (records, false)
  | .setUid commonName uid =>
      match records[commonName]? with
      | some record =>
          if record.uid ≠ some uid then (records.insert commonName { record with uid := some uid },
            true)
          else (records, false)
      | none => (records, false)

/-! ### The disk -/

abbrev Bytes := List UInt8

/-- Files by number, and which of them the two names stand for. -/
structure SeenDisk where
  files : List Bytes := []
  tmp : Option Nat := none
  seen : Option Nat := none

namespace SeenDisk

variable (disk : SeenDisk)

/-- What `client-seen.json` holds, unless it is absent. -/
def content : Option Bytes := disk.seen.map fun file => disk.files.getD file []

/-- Opening the temporary file for writing: it is cut to nothing if it is there, else made. -/
def openTmp : SeenDisk × Nat :=
  match disk.tmp with
  | some file => ({ disk with files := disk.files.set file [] }, file)
  | none =>
    ({ disk with files := disk.files ++ [[]], tmp := some disk.files.length }, disk.files.length)

def write (file offset : Nat) (bytes : Bytes) : SeenDisk :=
  let old := disk.files.getD file []
  { disk with
    files := disk.files.set file (old.take offset ++ bytes ++ old.drop (offset + bytes.length)) }

/-- The temporary file takes the name `client-seen.json`; without one nothing happens. -/
def rename : SeenDisk :=
  match disk.tmp with
  | some file => { disk with tmp := none, seen := some file }
  | none => disk

end SeenDisk

/-! ### Calls in progress -/

inductive SeenPhase where
  | called (call : SeenCall)
  /-- The records are changed and have to be written out. -/
  | changed
  /-- The records are locked for reading, and this is their text. -/
  | locked (json : Bytes)
  /-- The first so many bytes of the text are written to a file. -/
  | writing (json : Bytes) (file written : Nat)
  | returned
  deriving DecidableEq

namespace SeenPhase

def reads : SeenPhase → Bool
  | .locked _ | .writing .. => true
  | _ => false

def writes : SeenPhase → Bool
  | .writing .. => true
  | _ => false

def pending : SeenPhase → Bool
  | .changed | .locked _ | .writing .. => true
  | _ => false

end SeenPhase

/-- The store with its calls, and the records as they have been, the latest first. -/
structure Seen where
  records : SeenRecords := ∅
  disk : SeenDisk := {}
  calls : List SeenPhase := []
  history : List SeenRecords := [∅]

inductive SeenAction where
  | call (call : SeenCall)
  /-- The next step of a call; a write puts out so many bytes more. -/
  | advance (index count : Nat)
  deriving DecidableEq

section Step

variable (encode : SeenRecords → Bytes)

def Seen.advance (store : Seen) (index count : Nat) : SeenPhase → Option Seen
  | .called call =>
      -- The lock is had alone once nobody reads.
      if store.calls.any (·.reads) then none
      else
        let (records, changed) := call.change store.records
        some { store with
          records
          calls := store.calls.set index (if changed then .changed else .returned)
          history := records :: store.history }
  | .changed => some { store with calls := store.calls.set index (.locked (encode store.records)) }
  | .locked json =>
      let (disk, file) := store.disk.openTmp
      some { store with disk, calls := store.calls.set index (.writing json file 0) }
  | .writing json file written =>
      if written < json.length then
        let chunk := (json.drop written).take count
        some { store with
          disk := store.disk.write file written chunk
          calls := store.calls.set index (.writing json file (written + chunk.length)) }
      else some { store with disk := store.disk.rename, calls := store.calls.set index .returned }
  | .returned => none

def Seen.step (store : Seen) : SeenAction → Option Seen
  | .call call => some { store with calls := store.calls ++ [.called call] }
  | .advance index count => (store.calls[index]?).bind (store.advance encode index count)

end Step

/-! ### When calls write one after the other -/

/-- No call opens the temporary file while another one writes to it. -/
def Seen.alone (store : Seen) : SeenAction → Bool
  | .call _ => true
  | .advance index _ =>
      match store.calls[index]? with
      | some (.locked _) => store.calls.all (!·.writes)
      | _ => true

variable {encode : SeenRecords → Bytes} {start store next : Seen}

/-- The last-seen file is absent, or holds the records as they have been at some time. -/
def Seen.Whole (encode : SeenRecords → Bytes) (store : Seen) : Prop :=
  ∀ content, store.disk.content = some content → ∃ records ∈ store.history, content = encode records

/-- The two names stand for two files that are there. -/
structure SeenDisk.Apart (disk : SeenDisk) : Prop where
  tmp : ∀ file, disk.tmp = some file → file < disk.files.length ∧ disk.seen ≠ some file
  seen : ∀ file, disk.seen = some file → file < disk.files.length

/-- A store whose file is as its last run left it, before the first call. -/
structure Seen.Idle (encode : SeenRecords → Bytes) (store : Seen) : Prop where
  calls : store.calls = []
  whole : store.Whole encode
  apart : store.disk.Apart
  current : store.records ∈ store.history

/-- What holds of the phase of one call: a text is that of the records, and what is written of it
stands in the temporary file. -/
def SeenPhase.Sound (encode : SeenRecords → Bytes) (records : SeenRecords) (disk : SeenDisk) :
    SeenPhase → Prop
  | .locked json => json = encode records
  | .writing json file written =>
      json = encode records ∧ disk.tmp = some file ∧ written ≤ json.length ∧
        disk.files.getD file [] = json.take written
  | _ => True

def OneWriter (calls : List SeenPhase) : Prop :=
  ∀ (i j : Nat) (p q : SeenPhase), calls[i]? = some p → calls[j]? = some q → p.writes = true →
    q.writes = true → i = j

structure Seen.Inv (encode : SeenRecords → Bytes) (start store : Seen) : Prop where
  whole : store.Whole encode
  apart : store.disk.Apart
  current : store.records ∈ store.history
  sound : ∀ phase ∈ store.calls, phase.Sound encode store.records store.disk
  single : OneWriter store.calls
  settled : (∃ phase ∈ store.calls, phase.pending = true) ∨
    store.disk.content = some (encode store.records) ∨ store.records = start.records ∧
      store.disk.content = start.disk.content

theorem Seen.Idle.inv (h : start.Idle encode) : Seen.Inv encode start start where
  __ := h
  sound := by simp [h.calls]
  single := by simp [OneWriter, h.calls]
  settled := .inr (.inr ⟨rfl, rfl⟩)

variable {calls : List SeenPhase} {index file written : Nat} {old new phase : SeenPhase}
  {disk : SeenDisk} {json : Bytes} {call : SeenCall} {records : SeenRecords}

/-- The place of a phase that has been passed is the only one that changes. -/
theorem mem_calls_set (hold : calls[index]? = some old)
    (hmem : phase ∈ calls) (hne : phase ≠ old) : phase ∈ calls.set index new := by
  obtain ⟨i, hi, rfl⟩ := getElem_of_mem hmem
  refine mem_iff_getElem?.2 ⟨i, ?_⟩
  rw [getElem?_set_ne, getElem?_eq_getElem hi]
  rintro rfl
  rw [getElem?_eq_getElem hi] at hold
  exact hne (Option.some.inj hold)

theorem mem_set_self (hold : calls[index]? = some old) : new ∈ calls.set index new :=
  List.mem_set (List.getElem?_eq_some_iff.1 hold).1 new

theorem getElem?_set_cases {i : Nat} {p : SeenPhase}
    (hp : (calls.set index new)[i]? = some p) : i = index ∧ p = new ∨
    i ≠ index ∧ calls[i]? = some p := by
  rw [getElem?_set] at hp
  split at hp
  · next hi =>
    split at hp
    · exact .inl ⟨hi.symm, (Option.some.inj hp).symm⟩
    · cases hp
  · next hi => exact .inr ⟨Ne.symm hi, hp⟩

theorem OneWriter.of_writers {later : List SeenPhase} (h : OneWriter calls)
    (hold : ∀ (i : Nat) (p : SeenPhase),
      later[i]? = some p → p.writes = true → ∃ q, calls[i]? = some q ∧ q.writes = true) :
      OneWriter later := by
  intro i j p q hp hq hpw hqw
  obtain ⟨p', hp', hpw'⟩ := hold i p hp hpw
  obtain ⟨q', hq', hqw'⟩ := hold j q hq hqw
  exact h i j p' q' hp' hq' hpw' hqw'

/-- A call that goes on to a phase without writing, or from writing to writing, adds no writer. -/
theorem OneWriter.set (h : OneWriter calls)
    (hold : calls[index]? = some old) (hnew : new.writes = true → old.writes = true) :
    OneWriter (calls.set index new) := by
  refine h.of_writers fun i p hp hwrites => ?_
  obtain ⟨rfl, rfl⟩ | ⟨-, hkept⟩ := getElem?_set_cases hp
  · exact ⟨old, hold, hnew hwrites⟩
  · exact ⟨p, hkept, hwrites⟩

theorem oneWriter_set_of_none (h : ∀ phase ∈ calls, phase.writes = false) (index : Nat)
    (new : SeenPhase) : OneWriter (calls.set index new) := by
  have hindex : ∀ (i : Nat) (p : SeenPhase), (calls.set index new)[i]? = some p → p.writes = true →
      i = index := by
    intro i p hp hwrites
    obtain ⟨hi, -⟩ | ⟨-, hkept⟩ := getElem?_set_cases hp
    · exact hi
    · rw [h p (mem_of_getElem? hkept)] at hwrites
      cases hwrites
  intro i j p q hp hq hpw hqw
  rw [hindex i p hp hpw, hindex j q hq hqw]

section

variable (h : disk.Apart)

include h

/-- Where the file that is written to and the file that is read are two, writing leaves what is
read. -/
theorem SeenDisk.Apart.content_set (htmp : disk.tmp = some file)
    (bytes : Bytes) : SeenDisk.content
    { disk with files := disk.files.set file bytes } = disk.content := by
  unfold SeenDisk.content
  cases hseen : disk.seen with
  | none => rfl
  | some seen =>
    have hne : file ≠ seen := by
      rintro rfl
      exact (h.tmp file htmp).2 hseen
    simp [getElem?_set_ne hne]

theorem SeenDisk.Apart.set (file : Nat) (bytes : Bytes) :
    SeenDisk.Apart { disk with files := disk.files.set file bytes } where
  tmp other hother := by
    rw [length_set]
    exact h.tmp other hother
  seen other hother := by
    rw [length_set]
    exact h.seen other hother

theorem SeenDisk.openTmp_spec :
    disk.openTmp.1.tmp = some disk.openTmp.2 ∧ disk.openTmp.1.files.getD disk.openTmp.2 [] = [] ∧
      disk.openTmp.1.Apart ∧ disk.openTmp.1.content = disk.content := by
  unfold SeenDisk.openTmp
  split
  · next file htmp =>
    refine ⟨htmp, ?_, h.set file [], h.content_set htmp []⟩
    rw [getD_eq_getElem?_getD, getElem?_set_self (h.tmp file htmp).1]
    rfl
  · next htmp =>
    refine ⟨rfl, ?_, ⟨?_, ?_⟩, ?_⟩
    · rw [getD_eq_getElem?_getD, getElem?_concat_length]
      rfl
    · rintro file hfile
      cases hfile
      refine ⟨by simp, fun hseen => ?_⟩
      exact absurd (h.seen _ hseen) (Nat.lt_irrefl _)
    · intro file hfile
      rw [length_append]
      exact Nat.lt_add_right _ (h.seen file hfile)
    · unfold SeenDisk.content
      cases hseen : disk.seen with
      | none => rfl
      | some seen =>
        simp [getElem?_append_left (h.seen seen hseen)]

theorem SeenDisk.write_spec (htmp : disk.tmp = some file)
    (hwritten : disk.files.getD file [] = json.take written) (hle : written ≤ json.length)
    (count : Nat) : (disk.write file written ((json.drop written).take count)).files.getD file [] =
      json.take (written + ((json.drop written).take count).length) := by
  have hchunk : (json.drop written).take ((json.drop written).take count).length =
      (json.drop written).take count := by
    rw [length_take, take_eq_take_iff, Nat.min_assoc, Nat.min_self]
  have hbefore : (json.take written).take written = json.take written := by
    rw [take_take, Nat.min_self]
  have hbehind : (json.take written).drop (written + ((json.drop written).take count).length) =
      [] := by
    refine drop_eq_nil_of_le ?_
    rw [length_take]
    omega
  rw [SeenDisk.write, hwritten, getD_eq_getElem?_getD, getElem?_set_self (h.tmp file htmp).1,
    Option.getD_some, hbefore, hbehind, append_nil, take_add, hchunk]

theorem SeenDisk.rename_spec (htmp : disk.tmp = some file) :
    disk.rename.Apart ∧ disk.rename.content = some (disk.files.getD file []) := by
  unfold SeenDisk.rename
  rw [htmp]
  refine ⟨⟨fun other hother => ?_, fun other hother => ?_⟩, rfl⟩
  · cases hother
  · cases hother
    exact (h.tmp file htmp).1

end

/-! ### One step -/

theorem SeenCall.change_of_same (h : (call.change records).2 = false) :
    (call.change records).1 = records := by
  cases call with
  | markConnected => cases h
  | markDisconnected commonName now =>
    simp only [SeenCall.change] at h ⊢
    split at h
    · cases h
    · rfl
  | setUid commonName uid =>
    simp only [SeenCall.change] at h ⊢
    split at h
    · split at h
      · cases h
      · next hsame => rw [if_neg hsame]
    · rfl

theorem SeenPhase.sound_of_not_reads (h : phase.reads = false) (records : SeenRecords)
    (disk : SeenDisk) : phase.Sound encode records disk := by
  cases phase with
  | locked | writing => cases h
  | _ => trivial

theorem SeenPhase.Sound.of_not_writes (hsound : phase.Sound encode records disk)
    (h : phase.writes = false) (disk' : SeenDisk) : phase.Sound encode records disk' := by
  cases phase with
  | writing => cases h
  | locked => exact hsound
  | _ => trivial

section

variable (h : Seen.Inv encode start store)

include h

theorem Seen.Inv.called (hphase : store.calls[index]? = some (.called call))
    (hfree : ∀ phase ∈ store.calls, phase.reads = false) : Seen.Inv encode start { store with
      records := (call.change store.records).1
      calls := store.calls.set index (if (call.change store.records).2 then .changed else .returned)
      history := (call.change store.records).1 :: store.history } := by
  refine ⟨fun content hcontent => ?_, h.apart, mem_cons_self, fun phase hmem => ?_, ?_, ?_⟩
  · obtain ⟨records, hmem, heq⟩ := h.whole content hcontent
    exact ⟨records, mem_cons_of_mem _ hmem, heq⟩
  · refine SeenPhase.sound_of_not_reads ?_ _ _
    obtain hmem | rfl := mem_or_eq_of_mem_set hmem
    · exact hfree phase hmem
    · split <;> rfl
  · refine h.single.set hphase fun hwrites => ?_
    split at hwrites <;> cases hwrites
  · cases hchanged : (call.change store.records).2 with
    | true => exact .inl ⟨.changed, mem_set_self hphase, rfl⟩
    | false =>
      rw [SeenCall.change_of_same hchanged]
      refine h.settled.imp_left ?_
      rintro ⟨phase, hmem, hpending⟩
      refine ⟨phase, mem_calls_set hphase hmem ?_, hpending⟩
      rintro rfl
      cases hpending

theorem Seen.Inv.changed (hphase : store.calls[index]? = some .changed) :
    Seen.Inv encode start
    { store with calls := store.calls.set index (.locked (encode store.records)) } := by
  refine ⟨h.whole, h.apart, h.current, fun phase hmem => ?_, ?_, .inl ⟨_, mem_set_self hphase, rfl⟩⟩
  · obtain hmem | rfl := mem_or_eq_of_mem_set hmem
    · exact h.sound phase hmem
    · rfl
  · refine h.single.set hphase fun hwrites => ?_
    cases hwrites

theorem Seen.Inv.locked (hphase : store.calls[index]? = some (.locked json))
    (halone : ∀ phase ∈ store.calls, phase.writes = false) : Seen.Inv encode start { store with
      disk := store.disk.openTmp.1
      calls := store.calls.set index (.writing json store.disk.openTmp.2 0) } := by
  obtain ⟨htmp, hempty, hapart, hcontent⟩ := SeenDisk.openTmp_spec h.apart
  refine ⟨fun content hread => ?_, hapart, h.current, fun phase hmem =>
    ?_, ?_, .inl ⟨_, mem_set_self hphase, rfl⟩⟩
  · exact h.whole content (hcontent ▸ hread)
  · obtain hmem | rfl := mem_or_eq_of_mem_set hmem
    · exact (h.sound phase hmem).of_not_writes (halone phase hmem) _
    · refine ⟨h.sound (.locked json) (mem_of_getElem? hphase), htmp, Nat.zero_le _, ?_⟩
      rw [hempty, take_zero]
  · exact oneWriter_set_of_none halone index _

/-- While one call writes, the disk matters to no other. -/
theorem Seen.Inv.sound_set (hphase : store.calls[index]? = some old) (hwrites : old.writes = true)
    (hnew : new.Sound encode store.records disk) :
    ∀ phase ∈ store.calls.set index new, phase.Sound encode store.records disk := by
  intro phase hmem
  obtain ⟨i, hi⟩ := mem_iff_getElem?.1 hmem
  obtain ⟨-, rfl⟩ | ⟨hne, hkept⟩ := getElem?_set_cases hi
  · exact hnew
  · refine (h.sound phase (mem_of_getElem? hkept)).of_not_writes ?_ _
    by_contra hother
    exact hne (h.single i index phase old hkept hphase (Bool.not_eq_false _ ▸ hother) hwrites)

theorem Seen.Inv.write (hphase : store.calls[index]? = some (.writing json file written))
    (count : Nat) : Seen.Inv encode start { store with
      disk := store.disk.write file written ((json.drop written).take count)
      calls := store.calls.set index
        (.writing json file (written + ((json.drop written).take count).length)) } := by
  obtain ⟨hjson, htmp, hle, hwritten⟩ := h.sound _ (mem_of_getElem? hphase)
  refine ⟨fun content hread => ?_, h.apart.set file _, h.current,
    h.sound_set hphase rfl ⟨hjson, htmp, ?_, ?_⟩, ?_, .inl ⟨_, mem_set_self hphase, rfl⟩⟩
  · rw [SeenDisk.write, h.apart.content_set htmp] at hread
    exact h.whole content hread
  · rw [length_take, length_drop]
    omega
  · exact SeenDisk.write_spec h.apart htmp hwritten hle count
  · exact h.single.set hphase fun _ => rfl

private theorem Seen.Inv.rename (hphase : store.calls[index]? = some (.writing json file written))
    (hall : ¬ written < json.length) : Seen.Inv encode start
    { store with disk := store.disk.rename, calls := store.calls.set index .returned } := by
  obtain ⟨hjson, htmp, hle, hwritten⟩ := h.sound _ (mem_of_getElem? hphase)
  obtain ⟨hapart, hcontent⟩ := SeenDisk.rename_spec h.apart htmp
  have hnow : store.disk.rename.content = some (encode store.records) := by
    rw [hcontent, hwritten, take_of_length_le (Nat.le_of_not_lt hall), hjson]
  refine ⟨fun content hread => ?_, hapart, h.current, h.sound_set hphase rfl trivial, ?_,
    .inr (.inl hnow)⟩
  · rw [hnow] at hread
    exact ⟨store.records, h.current, (Option.some.inj hread).symm⟩
  · refine h.single.set hphase fun hwrites => ?_
    cases hwrites

private theorem Seen.Inv.step {action : SeenAction} (halone : store.alone action = true)
    (hstep : store.step encode action = some next) : Seen.Inv encode start next := by
  cases action with
  | call call =>
    cases hstep
    refine ⟨h.whole, h.apart, h.current, fun phase hmem => ?_, ?_, ?_⟩
    · obtain hmem | hmem := mem_append.1 hmem
      · exact h.sound phase hmem
      · rw [mem_singleton.1 hmem]
        trivial
    · refine h.single.of_writers fun i p hp hwrites => ?_
      rw [getElem?_append] at hp
      split at hp
      · exact ⟨p, hp, hwrites⟩
      · obtain rfl := mem_singleton.1 (mem_of_getElem? hp)
        cases hwrites
    · refine h.settled.imp_left ?_
      rintro ⟨phase, hmem, hpending⟩
      exact ⟨phase, mem_append_left _ hmem, hpending⟩
  | advance index count =>
    obtain ⟨phase, hphase, hadvance⟩ := Option.bind_eq_some_iff.1 hstep
    cases phase with
    | called call =>
      rw [Seen.advance] at hadvance
      split at hadvance
      · cases hadvance
      · next hfree =>
        cases hadvance
        refine h.called hphase fun phase hmem => ?_
        by_contra hreads
        exact hfree (any_eq_true.2 ⟨phase, hmem, Bool.not_eq_false _ ▸ hreads⟩)
    | changed =>
      cases hadvance
      exact h.changed hphase
    | locked json =>
      cases hadvance
      rw [Seen.alone, hphase, all_eq_true] at halone
      exact h.locked hphase fun phase hmem => Bool.not_eq_true' _ ▸ halone phase hmem
    | writing json file written =>
      rw [Seen.advance] at hadvance
      split at hadvance
      · cases hadvance
        exact h.write hphase count
      · next hall =>
        cases hadvance
        exact h.rename hphase hall
    | returned => cases hadvance

end

/-- If no call opens the temporary file while another writes to it, the last-seen file is absent or
whole at every moment, and once all calls have returned it holds the current records, or none of
them has changed anything. -/
theorem seen_file_whole {actions : List SeenAction} (hidle : start.Idle encode)
    (hrun : run (Seen.step encode) start actions = some store)
    (halone : Along (Seen.step encode) (fun store action =>
      store.alone action = true) start actions) :
    store.Whole encode ∧
      ((∀ phase ∈ store.calls, phase = .returned) →
        store.disk.content = some (encode store.records) ∨ store.records = start.records ∧
        store.disk.content = start.disk.content) := by
  have h : Seen.Inv encode start store :=
    run_invariant (Seen.Inv encode start) hrun halone hidle.inv fun _ _ _ h halone hstep =>
      h.step halone hstep
  refine ⟨h.whole, fun hreturned => ?_⟩
  obtain ⟨phase, hmem, hpending⟩ | hsettled := h.settled
  · rw [hreturned phase hmem] at hpending
    cases hpending
  · exact hsettled

/-- Records as text, for worked examples: the common names between braces. -/
def sampleEncode (records : SeenRecords) : Bytes :=
  123 :: (records.toList.flatMap fun (name, _) => name.toList.map (·.val.toUInt8)) ++ [125]

theorem idle_empty (encode : SeenRecords → Bytes) : Seen.Idle encode {} where
  calls := rfl
  whole content hcontent := by cases hcontent
  apart := { tmp := fun _ htmp => (by cases htmp), seen := fun _ hseen => (by cases hseen) }
  current := mem_singleton.2 rfl

def inTurn : List SeenAction :=
  [.call (.markConnected "a" none .tls 1), .call (.markConnected "b" none .tls 2), .advance 0 0,
    .advance 1 0, .advance 0 0, .advance 0 0, .advance 0 2, .advance 0 2, .advance 0 0,
      .advance 1 0, .advance 1 0, .advance 1 4, .advance 1 0]

theorem seen_file_whole_in_turn :
    ∃ store, run (Seen.step sampleEncode) {} inTurn = some store ∧ store.Whole sampleEncode ∧
      store.disk.content = some (sampleEncode store.records) := by
  refine exists_end (fun store => (∀ phase ∈ store.calls, phase = .returned) ∧
    store.disk.content.isSome = true) (by decide +kernel) fun store hrun hend => ?_
  obtain ⟨hreturned, hthere⟩ := hend
  obtain ⟨hwhole, hsettled⟩ := seen_file_whole (idle_empty sampleEncode) hrun (by decide +kernel)
  refine ⟨hwhole, (hsettled hreturned).resolve_right ?_⟩
  rintro ⟨-, habsent⟩
  rw [habsent] at hthere
  cases hthere

/-- The second connection opens the temporary file after the first has filled it, and the first
renames it. -/
def overlapping : List SeenAction :=
  [.call (.markConnected "a" none .tls 1), .call (.markConnected "b" none .tls 2), .advance 0 0,
    .advance 1 0, .advance 0 0, .advance 1 0, .advance 0 0, .advance 0 4, .advance 1 0,
      .advance 0 0]

/-- Then the last-seen file is empty, which the records never were. -/
theorem seen_file_torn :
    ∃ store, run (Seen.step sampleEncode) {} overlapping = some store ∧
    store.disk.content = some [] ∧
      ∀ records ∈ store.history, sampleEncode records ≠ [] := by
  refine ⟨_, rfl, ?_⟩
  decide +kernel

end MicroTak.Transport
