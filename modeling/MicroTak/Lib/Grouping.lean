import Mathlib.Data.List.Induction
import Mathlib.Data.List.Nodup
import Mathlib.Order.MinMax

/-!
# Rows of a list, one for each key

What a loop builds that enters each element of a list into the row of its key, or starts one with
it.
-/

namespace Grouping

open List

variable {α κ : Type} [DecidableEq κ] (key : α → κ) (join : α → α → α)

/-- The rows with one more element, which joins the row of its key if there is one. -/
def enter (rows : List α) (a : α) : List α :=
  match rows with
  | [] => [a]
  | row :: rest => if key row = key a then join row a :: rest else row :: enter rest a

def group (l : List α) : List α := l.foldl (enter key join) []

variable {key join} {l rows : List α} {a row : α}

theorem group_concat : group key join (l ++ [a]) = enter key join (group key join l) a := by
  rw [group, foldl_append]
  rfl

/-- A row after one more element: a new one, the one it joined, or another. -/
theorem mem_enter (hrows : (rows.map key).Nodup) (h : row ∈ enter key join rows a) :
    row = a ∧ key a ∉ rows.map key ∨ (∃ old ∈ rows, key old = key a ∧ row = join old a) ∨
    row ∈ rows ∧ key row ≠ key a := by
  induction rows with
  | nil => exact .inl ⟨mem_singleton.1 h, not_mem_nil⟩
  | cons first rest ih =>
    obtain ⟨hfirst, hrest⟩ := nodup_cons.1 hrows
    rw [enter] at h
    split at h
    · next hkey =>
      rcases mem_cons.1 h with rfl | hmem
      · exact .inr (.inl ⟨first, mem_cons_self, hkey, rfl⟩)
      · refine .inr (.inr ⟨mem_cons_of_mem _ hmem, fun hrow => hfirst ?_⟩)
        rw [hkey, ← hrow]
        exact mem_map_of_mem hmem
    · next hkey =>
      rcases mem_cons.1 h with rfl | hmem
      · exact .inr (.inr ⟨mem_cons_self, hkey⟩)
      · rcases ih hrest hmem with ⟨rfl, hnew⟩ | ⟨old, hold, hjoined⟩ | ⟨hmem, hne⟩
        · exact .inl ⟨rfl, by simpa [Ne.symm hkey] using hnew⟩
        · exact .inr (.inl ⟨old, mem_cons_of_mem _ hold, hjoined⟩)
        · exact .inr (.inr ⟨mem_cons_of_mem _ hmem, hne⟩)

/-- What the elements have and joining keeps, the rows have. -/
theorem group_induction {P : α → Prop} (hl : ∀ a ∈ l, P a) (hP : ∀ row a, P row → P (join row a)) :
    ∀ row ∈ group key join l, P row := by
  have henter (rows : List α) (hrows : ∀ row ∈ rows, P row) (a : α) (ha : P a) :
      ∀ row ∈ enter key join rows a, P row := by
    induction rows with
    | nil => exact forall_mem_singleton.2 ha
    | cons first rest ih =>
      obtain ⟨hfirst, hrest⟩ := forall_mem_cons.1 hrows
      rw [enter]
      split
      · exact forall_mem_cons.2 ⟨hP first a hfirst, hrest⟩
      · exact forall_mem_cons.2 ⟨hfirst, ih hrest⟩
  induction l using List.reverseRecOn with
  | nil => exact fun _ h => by cases h
  | append_singleton l a ih =>
    rw [group_concat]
    exact henter _ (ih fun b hb => hl b (mem_append_left _ hb)) a (hl a (by simp))

variable (hjoin : ∀ row a, key (join row a) = key row)

include hjoin

theorem map_enter : (enter key join rows a).map key = if key a ∈ rows.map key then rows.map key
    else rows.map key ++ [key a] := by
  induction rows with
  | nil => rfl
  | cons row rest ih =>
    rw [enter]
    by_cases hkey : key row = key a
    · simp [hkey, hjoin]
    · simp only [if_neg hkey, map_cons, ih, mem_cons, Ne.symm hkey, false_or]
      split <;> rfl

theorem map_group : ((group key join l).map key).Nodup ∧ ∀ k, k ∈ (group key join l).map key ↔
    k ∈ l.map key := by
  induction l using List.reverseRecOn with
  | nil => simp [group]
  | append_singleton l a ih =>
    rw [group_concat, map_enter hjoin, map_append]
    split
    · next hmem =>
      refine ⟨ih.1, fun k => ?_⟩
      rw [mem_append, ← ih.2, map_singleton, mem_singleton]
      exact ⟨.inl, fun h => h.elim id fun hk => hk ▸ hmem⟩
    · next hnew =>
      refine ⟨List.Nodup.append ih.1 (nodup_singleton _) (by simpa using hnew), fun k => ?_⟩
      rw [mem_append, mem_append, ih.2]
      rfl

/-- Where joining takes the greater of two values, a row has the greatest one of the elements with
its key. -/
theorem greatest_group {β : Type} [LinearOrder β] {f : α → β}
    (hf : ∀ row a, f (join row a) = max (f row) (f a)) (h : row ∈ group key join l) :
    (∃ a ∈ l, key a = key row ∧ f a = f row) ∧ ∀ a ∈ l, key a = key row → f a ≤ f row := by
  induction l using List.reverseRecOn generalizing row with
  | nil => cases h
  | append_singleton l a ih =>
    obtain ⟨hnodup, hkeys⟩ := map_group (l := l) hjoin
    rw [group_concat] at h
    simp only [mem_append, mem_singleton]
    rcases mem_enter hnodup h with ⟨rfl, hnew⟩ | ⟨old, hold, hkey, rfl⟩ | ⟨hmem, hne⟩
    · refine ⟨⟨row, .inr rfl, rfl, rfl⟩, ?_⟩
      rintro b (hb | rfl) hkey
      · exact (hnew ((hkeys _).2 (hkey ▸ mem_map_of_mem hb))).elim
      · exact le_rfl
    · obtain ⟨⟨b, hb, hbkey, hbf⟩, hbound⟩ := ih hold
      rw [hjoin, hf]
      refine ⟨?_, ?_⟩
      · rcases le_total (f old) (f a) with hle | hle
        · exact ⟨a, .inr rfl, hkey.symm, (max_eq_right hle).symm⟩
        · exact ⟨b, .inl hb, hbkey, by rw [hbf, max_eq_left hle]⟩
      · rintro c (hc | rfl) hckey
        · exact (hbound c hc hckey).trans (le_max_left _ _)
        · exact le_max_right _ _
    · obtain ⟨⟨b, hb, hbkey⟩, hbound⟩ := ih hmem
      refine ⟨⟨b, .inl hb, hbkey⟩, ?_⟩
      rintro c (hc | rfl) hckey
      · exact hbound c hc hckey
      · exact (hne hckey.symm).elim

end Grouping
