import Mathlib.Data.List.Perm.Subperm
import Mathlib.Data.List.Sort
import MicroTak.Lib.Dict

/-!
# Stable sorts and first entries

Insertion sort keeps the order of elements that compare equal, so sorting a list twice orders it by
the second relation and, within ties, by the first.  In a list ordered by a strict relation, the
first element with a property is the one ahead of all the others.
-/

namespace Sorting

open Std List

variable {α κ : Type} {l : List α}

section Stable

variable {r s : α → α → Prop} [DecidableRel r] [Std.Total r] [IsTrans α r]

/-- Ordered by `r`, and by `s` where `r` holds both ways. -/
def Then (r s : α → α → Prop) (a b : α) : Prop := r a b ∧ (r b a → s a b)

theorem pairwise_orderedInsert {a : α} (hl : l.Pairwise (Then r s)) (ha : ∀ b ∈ l, s a b) :
    (l.orderedInsert r a).Pairwise (Then r s) := by
  induction l with
  | nil => simp
  | cons b rest ih =>
    obtain ⟨hb, hrest⟩ := pairwise_cons.1 hl
    by_cases hab : r a b
    · rw [orderedInsert_cons_of_le r rest hab]
      refine pairwise_cons.2 ⟨fun c hc => ⟨?_, fun _ => ha c hc⟩, hl⟩
      rcases mem_cons.1 hc with rfl | hc
      · exact hab
      · exact IsTrans.trans a b c hab (hb c hc).1
    · rw [orderedInsert_of_not_le r rest hab]
      refine pairwise_cons.2 ⟨fun c hc => ?_, ih hrest fun c hc => ha c (mem_cons_of_mem _ hc)⟩
      rcases (mem_orderedInsert r).1 hc with rfl | hc
      · exact ⟨(Std.Total.total c b).resolve_left hab, fun h => absurd h hab⟩
      · exact hb c hc

/-- Sorting by `r` keeps the order of the elements that `r` does not tell apart. -/
theorem pairwise_insertionSort_stable (hl : l.Pairwise s) :
    (l.insertionSort r).Pairwise (Then r s) := by
  induction l with
  | nil => simp
  | cons a rest ih =>
    obtain ⟨ha, hrest⟩ := pairwise_cons.1 hl
    exact pairwise_orderedInsert (ih hrest) fun b hb => ha b ((mem_insertionSort r).1 hb)

end Stable

theorem find?_eq_some_iff_first {ahead : α → α → Prop} (hasymm : ∀ a b, ahead a b → ¬ ahead b a)
    {p : α → Bool} (hl : l.Pairwise ahead) {a : α} :
    l.find? p = some a ↔ a ∈ l ∧ p a = true ∧ ∀ b ∈ l, p b = true → b ≠ a → ahead a b := by
  induction l with
  | nil => simp
  | cons c rest ih =>
    obtain ⟨hc, hrest⟩ := pairwise_cons.1 hl
    by_cases hpc : p c = true
    · rw [find?_cons_of_pos hpc, Option.some.injEq]
      constructor
      · rintro rfl
        exact ⟨mem_cons_self, hpc, fun b hb _ hne => hc b ((mem_cons.1 hb).resolve_left hne)⟩
      · rintro ⟨hmem, -, hfirst⟩
        by_contra hne
        have hlate : a ∈ rest := (mem_cons.1 hmem).resolve_left (Ne.symm hne)
        exact hasymm c a (hc a hlate) (hfirst c mem_cons_self hpc hne)
    · rw [find?_cons_of_neg hpc, ih hrest]
      constructor
      · rintro ⟨hmem, hpa, hfirst⟩
        refine ⟨mem_cons_of_mem _ hmem, hpa, fun b hb hpb hne => ?_⟩
        rcases mem_cons.1 hb with rfl | hb
        · exact absurd hpb hpc
        · exact hfirst b hb hpb hne
      · rintro ⟨hmem, hpa, hfirst⟩
        refine ⟨(mem_cons.1 hmem).resolve_left ?_, hpa, fun b hb => hfirst b (mem_cons_of_mem _ hb)⟩
        rintro rfl
        exact hpc hpa

variable [Ord κ] [TransOrd κ] [LawfulEqOrd κ] [DecidableEq κ]

/-- Each key with the first element that has it. -/
def firsts (key : α → κ) (l : List α) : TreeMap κ α :=
  l.foldl (fun m a => if (m[key a]?).isSome then m else m.insert (key a) a) ∅

theorem getElem?_firsts (key : α → κ) (l : List α) (k : κ) : (firsts key l)[k]? = l.find? fun a =>
    key a = k := by
  have hfold (m : TreeMap κ α) :
      (l.foldl (fun m a => if (m[key a]?).isSome then m else m.insert (key a) a) m)[k]? =
        (m[k]?).or (l.find? fun a => key a = k) := by
    induction l generalizing m with
    | nil => simp
    | cons a rest ih =>
      rw [foldl_cons, ih]
      by_cases hkey : key a = k
      · subst hkey
        cases hfound : m[key a]? <;> simp [hfound]
      · rw [find?_cons_of_neg (by simpa using hkey)]
        split
        · rfl
        · rw [Dict.getElem?_insert_of_ne hkey]
  rw [firsts, hfold]
  simp

theorem subperm_keys_firsts (key : α → κ) (l : List α) :
    ((firsts key l).toList.map Prod.fst).Subperm (l.map key) := by
  refine List.Nodup.subperm (TreeMap.map_fst_toList_eq_keys ▸ TreeMap.nodup_keys) fun k hk => ?_
  obtain ⟨⟨k, a⟩, hentry, rfl⟩ := mem_map.1 hk
  have hfound := getElem?_firsts key l k ▸ TreeMap.mem_toList_iff_getElem?_eq_some.1 hentry
  exact mem_map.2 ⟨a, mem_of_find?_eq_some hfound, by simpa using find?_some hfound⟩

variable {key : α → κ}

theorem nodup_of_length_firsts (h : l.length ≤ (firsts key l).toList.length) :
    (l.map key).Nodup := by
  have hperm := (subperm_keys_firsts key l).perm_of_length_le (by simpa using h)
  exact hperm.nodup_iff.1 (TreeMap.map_fst_toList_eq_keys ▸ TreeMap.nodup_keys)

theorem perm_firsts (h : (l.map key).Nodup) : ((firsts key l).toList.map Prod.snd).Perm l := by
  refine ((h.of_map.subperm fun a ha => ?_).perm_of_length_le ?_).symm
  · refine mem_map.2 ⟨(key a, a), TreeMap.mem_toList_iff_getElem?_eq_some.2 ?_, rfl⟩
    rw [getElem?_firsts]
    cases hfound : l.find? fun b => key b = key a with
    | none => simpa using find?_eq_none.1 hfound a ha
    | some b =>
      rw [inj_on_of_nodup_map h (mem_of_find?_eq_some hfound) ha (by simpa using find?_some hfound)]
  · simpa using (subperm_keys_firsts key l).length_le

omit [DecidableEq κ] in
theorem filter_values_eq {m n : TreeMap κ α} {p q : α → Bool}
    (h : ∀ k : κ, (m[k]?).filter p = (n[k]?).filter q) :
    (m.toList.map Prod.snd).filter p = (n.toList.map Prod.snd).filter q := by
  have hvalues (m : TreeMap κ α) (p : α → Bool) :
      (m.toList.map Prod.snd).filter p = ((m.filter fun _ v => p v).toList).map Prod.snd := by
    rw [TreeMap.toList_filter, filter_map]
    rfl
  rw [hvalues, hvalues]
  refine congrArg (List.map Prod.snd)
    (TreeMap.Equiv.toList_eq (TreeMap.Equiv.of_forall_constGet?_eq fun k => ?_))
  rw [TreeMap.getElem?_filter', TreeMap.getElem?_filter']
  exact h k

end Sorting
