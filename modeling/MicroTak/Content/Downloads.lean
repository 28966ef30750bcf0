import MicroTak.Lib.Machine
import MicroTak.Content.Files

/-!
# Downloads of a part of a file

A download may ask for a part of the file: an offset and a length, each any 64-bit number.
-/

namespace MicroTak.Content

open Std Lines Machine

variable {digest : Bytes → String}

structure ContentQuery where
  hash : Option String := none
  uid : Option String := none
  offset : Option Nat := none
  length : Option Nat := none

structure Download where
  status : Nat
  contentLength : Nat
  body : Bytes
  deriving DecidableEq

inductive ContentReply where
  | badRequest
  | notFound
  | internal
  | file (download : Download)
  deriving DecidableEq

/-- The newest first. -/
def ContentQuery.matched (query : ContentQuery) (state : SyncState)
    (groups : Option (Finset String)) : Option (List ResourceRecord) :=
  match query.hash with
  | some hash => some (state.byHash hash groups)
  | none => query.uid.map (state.byUid · groups)

def ContentStore.openFile (store : ContentStore digest) (hash : String) : Option Bytes :=
  (validateHash hash).bind fun normalized => store.files[normalized]?

/-- What is sent of an open file; `none` is a panic.  The end of the range is a sum in 64 bits. -/
def Download.ofFile (build : Build) (file : Bytes) (offset length : Option Nat) : Option Download :=
  let offset := min (offset.getD 0) file.length
  let send (status len : Nat) : Download := ⟨status, len, (file.drop offset).take len⟩
  match length.filter (0 < ·) with
  | some length => (build.result u64 (offset + length)).map fun stop =>
      if stop < (file.length : Int) then send 206 length else send 200 (file.length - offset)
  | none => some (send 200 (file.length - offset))

def content (build : Build) (state : SyncState) (store : ContentStore digest)
    (groups : Option (Finset String)) (query : ContentQuery) : Option ContentReply :=
  match query.matched state groups with
  | none => some .badRequest
  | some [] => some .notFound
  | some (record :: _) =>
      match store.openFile record.hash with
      | none => some .internal
      | some file => (Download.ofFile build file query.offset query.length).map .file

/-- The bytes from `offset` to `offset + length`, as far as the file has them. -/
def Download.exact (file : Bytes) (offset length : Option Nat) : Download :=
  let stop := ((length.filter (0 < ·)).map (offset.getD 0 + ·)).getD file.length
  let body := (file.take stop).drop (offset.getD 0)
  ⟨if stop < file.length then 206 else 200, body.length, body⟩

variable {file : Bytes} {offset length : Option Nat} {start : Nat}

theorem drop_min_length : file.drop (min start file.length) = file.drop start := by
  rcases Nat.le_total start file.length with h | h
  · rw [Nat.min_eq_left h]
  · rw [Nat.min_eq_right h, List.drop_length, List.drop_eq_nil_of_le h]

private theorem whole_eq_exact {stop : Nat} (h : file.length ≤ stop) :
    (⟨200, file.length - min start file.length,
      (file.drop start).take (file.length - min start file.length)⟩ : Download) =
      ⟨if stop < file.length then 206 else 200, ((file.take stop).drop start).length,
        (file.take stop).drop start⟩ := by
  have hdrop : (file.drop start).length ≤ file.length - min start file.length := by
    rw [List.length_drop]
    omega
  rw [List.take_of_length_le hdrop, List.take_of_length_le h, List.length_drop, if_neg h.not_gt]
  congr 1
  omega

private theorem ofFile_of_fits (h : ∀ l ∈ length, min (offset.getD 0) file.length + l < 2 ^ 64)
    (build : Build) :
    Download.ofFile build file offset length = some (.exact file offset length) := by
  simp only [Download.ofFile, Download.exact, drop_min_length]
  cases hlength : length.filter (0 < ·) with
  | none => exact congrArg some (whole_eq_exact le_rfl)
  | some l =>
    obtain ⟨hl, hpos⟩ := Option.filter_eq_some_iff.1 hlength
    have hfits : Fits u64 (min (offset.getD 0) file.length + l) := by
      have := h l hl
      simp only [Fits, u64]
      omega
    simp only [build.result_of_fits hfits, Option.map_some, Option.getD_some]
    split
    · have hpart : offset.getD 0 + l < file.length := by omega
      rw [List.drop_take, Nat.add_sub_cancel_left, if_pos hpart, List.length_take, List.length_drop,
        Nat.min_eq_left (by omega)]
    · exact congrArg some (whole_eq_exact (by omega))

/-- What is downloaded of a file that is found is the range that was asked for exactly if the end of
the range, counted from the end of the file if it starts past it, is a 64-bit number. -/
theorem content_exact_iff (state : SyncState) (store : ContentStore digest)
    (groups : Option (Finset String)) (query : ContentQuery) {record : ResourceRecord}
    {others : List ResourceRecord} (hmatched : query.matched state groups = some (record :: others))
    (hfile : store.openFile record.hash = some file) (hsize : file.length < 2 ^ 64) :
    (∀ build, content build state store groups query =
      some (.file (.exact file query.offset query.length))) ↔ ∀ length ∈ query.length,
      min (query.offset.getD 0) file.length + length < 2 ^ 64 := by
  simp only [content, hmatched, hfile]
  refine ⟨fun h length hlength => ?_, fun h build => by rw [ofFile_of_fits h]; rfl⟩
  by_contra hover
  have hlength : query.length.filter (0 < ·) = some length := by
    rw [Option.mem_def.1 hlength, Option.filter_some, if_pos (decide_eq_true (by omega))]
  have hnot : ¬ Fits u64 (min (query.offset.getD 0) file.length + length) := by
    simp only [Fits, u64]
    omega
  have hpanic := h .checked
  rw [Download.ofFile, hlength] at hpanic
  simp only [Build.result_checked hnot, Option.map_none, reduceCtorEq] at hpanic

namespace Ranged

def hash : String := String.ofList (List.replicate 64 'f')

def store : ContentStore fun _ => hash := ContentStore.rename {} [10, 20]

def row : ResourceRecord :=
  ⟨0, "u", hash, none, none, none, [], 2, 0, "alice", none, none, none, []⟩

def state : SyncState := { resources := [row] }

def query (offset length : Nat) : ContentQuery :=
  { hash := some hash, offset := some offset, length := some length }

end Ranged

open Ranged in
theorem content_exact_second :
    content .checked state store none (query 1 7) = some (.file ⟨200, 1, [20]⟩) :=
  (content_exact_iff state store none (query 1 7) (show (query 1 7).matched state none =
    some [row] by decide +kernel) (show store.openFile row.hash = some [10, 20] by decide +kernel)
      (by decide)).2 (by decide) .checked

open Ranged in
/-- The whole rest of the file asked for with the greatest length. -/
theorem content_overflow :
    content .checked state store none (query 1 (2 ^ 64 - 1)) = none ∧
      content .wrapping state store none (query 1 (2 ^ 64 - 1)) =
      some (.file ⟨206, 2 ^ 64 - 1, [20]⟩) ∧ Download.exact [10, 20] (some 1) (some (2 ^ 64 - 1)) =
      ⟨200, 1, [20]⟩ := by
  decide +kernel

end MicroTak.Content
