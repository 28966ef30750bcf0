import Mathlib.Data.List.TakeWhile
import Mathlib.Tactic.Common

/-!
# Text operations of a string library

ASCII case folding and trimming, on the characters of a string.  Trimming removes the characters
of the Unicode `White_Space` property, which is a wider set than ASCII blanks.
-/

namespace Text

open List

/-- The Unicode `White_Space` property. -/
def isWhitespace (c : Char) : Bool :=
  let n := c.toNat
  (9 ≤ n && n ≤ 13) || n = 0x20 || n = 0x85 || n = 0xA0 || n = 0x1680 ||
    (0x2000 ≤ n && n ≤ 0x200A) || n = 0x2028 || n = 0x2029 || n = 0x202F || n = 0x205F || n = 0x3000

def trim (s : String) : String :=
  String.ofList (((s.toList.dropWhile isWhitespace).reverse.dropWhile isWhitespace).reverse)

def toAsciiLowercase (s : String) : String :=
  String.ofList (s.toList.map Char.toLower)

theorem toAsciiLowercase_idem (s : String) :
    toAsciiLowercase (toAsciiLowercase s) = toAsciiLowercase s := by
  have htwice : ∀ c : Char, c.toLower.toLower = c.toLower := by
    unfold Char.toLower
    grind
  simp [toAsciiLowercase, Function.comp_def, htwice]

def eqIgnoreAsciiCase (a b : String) : Bool :=
  toAsciiLowercase a = toAsciiLowercase b

def stripPrefix (pre s : String) : Option String :=
  if pre.toList.isPrefixOf s.toList then some (String.ofList (s.toList.drop pre.toList.length))
    else none

theorem stripPrefix_eq_some {pre s rest : String} :
    stripPrefix pre s = some rest ↔ s.toList = pre.toList ++ rest.toList := by
  rw [stripPrefix]
  constructor
  · intro h
    split at h
    · next hextends =>
      obtain ⟨more, hmore⟩ := isPrefixOf_iff_prefix.1 hextends
      cases h
      simp [← hmore]
    · cases h
  · intro h
    simp [h]

def contains (s pattern : String) : Bool :=
  s.toList.tails.any pattern.toList.isPrefixOf

/-- The texts before and after the first occurrence of a character. -/
def splitOnce (c : Char) (s : String) : Option (String × String) :=
  match s.toList.dropWhile (· ≠ c) with
  | [] => none
  | _ :: rest => some (String.ofList (s.toList.takeWhile (· ≠ c)), String.ofList rest)

/-- The texts between the occurrences of a character. -/
def split (c : Char) (s : String) : List String :=
  (s.toList.splitOn c).map String.ofList

@[simp] theorem eqIgnoreAsciiCase_self (a : String) : eqIgnoreAsciiCase a a = true := by
  simp [eqIgnoreAsciiCase]

theorem eqIgnoreAsciiCase_iff {a b : String} : eqIgnoreAsciiCase a b = true ↔
    toAsciiLowercase a = toAsciiLowercase b := by
  simp [eqIgnoreAsciiCase]

theorem trim_eq_empty_iff {s : String} : trim s = "" ↔ ∀ c ∈ s.toList, isWhitespace c = true := by
  have hdrop : ∀ l : List Char, l.dropWhile isWhitespace = [] ↔ ∀ c ∈ l, isWhitespace c = true :=
    fun l => dropWhile_eq_nil_iff
  rw [trim]
  constructor
  · intro h c hc
    have hnil : ((s.toList.dropWhile isWhitespace).reverse.dropWhile isWhitespace) = [] := by
      simpa using h
    have hrest : ∀ d ∈ s.toList.dropWhile isWhitespace, isWhitespace d = true := by
      simpa using (hdrop _).1 hnil
    by_contra hblank
    -- The first character that is not blank survives both passes.
    have hsurvives : s.toList.dropWhile isWhitespace ≠ [] := fun hempty =>
      hblank ((hdrop _).1 hempty c hc)
    have hhead := head_dropWhile_not isWhitespace hsurvives
    rw [hrest _ (head_mem hsurvives)] at hhead
    cases hhead
  · intro h
    rw [(hdrop s.toList).2 h]
    rfl

/-- A piece of a list cut at a separator is part of the list and does not have the separator. -/
theorem of_mem_splitOn {α : Type*} [BEq α] [LawfulBEq α] {sep : α} {l piece : List α}
    (h : piece ∈ l.splitOn sep) : sep ∉ piece ∧ piece ⊆ l := by
  by_cases hsep : sep ∈ l
  · obtain ⟨before, rest, rfl, hbefore⟩ := eq_append_cons_of_mem hsep
    rw [splitOn_append_cons_self, splitOn_eq_singleton hbefore] at h
    rcases mem_cons.1 h with rfl | hrest
    · exact ⟨hbefore, subset_append_left _ _⟩
    · obtain ⟨hnot, hsubset⟩ := of_mem_splitOn hrest
      exact ⟨hnot, fun x hx => mem_append_right _ (mem_cons_of_mem _ (hsubset hx))⟩
  · rw [splitOn_eq_singleton hsep, mem_singleton] at h
    subst h
    exact ⟨hsep, List.Subset.refl _⟩
  termination_by l.length

theorem split_append {c : Char} {a b : String} (ha : c ∉ a.toList) (hb : c ∉ b.toList) (d : String)
    (hd : c ∉ d.toList) :
    split c (a ++ String.singleton c ++ b ++ String.singleton c ++ d) = [a, b, d] := by
  have hjoin : (a ++ String.singleton c ++ b ++ String.singleton c ++ d).toList =
      [c].intercalate [a.toList, b.toList, d.toList] := by simp [List.intercalate]
  rw [split, hjoin, splitOn_intercalate]
  · simp
  · simp [ha, hb, hd]
  · simp

end Text
