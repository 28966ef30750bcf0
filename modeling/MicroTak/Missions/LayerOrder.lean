import MicroTak.Lib.ChainOrder
import MicroTak.Missions.Layers

/-!
# The order of a level

`sort_layers` puts the layers of a level in the order of their `after` chain if they form one, and
leaves them as they are if not.
-/

namespace MicroTak.Missions

open Chain List LayerRecord

abbrev IsLevel (layers : List LayerRecord) : Prop := OneChain uid after layers

section Level

variable {layers rest sorted : List LayerRecord} {afters : List (Option String)}
  {uids : List String}

private theorem inChain_of_isLevel (h : IsLevel layers) (hsub : rest ⊆ layers)
    (hafters : (rest.reverse.map (·.after) ++ afters).Nodup)
    (huids : (rest.reverse.map (·.uid) ++ uids).Nodup)
    (hclosed : ∀ after ∈ rest.reverse.map (·.after) ++ afters, ∀ uid, after = some uid →
      uid ∈ rest.reverse.map (·.uid) ++ uids) : inChain layers rest afters uids = some true := by
  induction rest generalizing afters uids with
  | nil =>
    rw [inChain, Option.some.injEq, all_eq_true]
    intro after hafter
    cases after with
    | none => rfl
    | some uid => simpa using hclosed _ hafter uid rfl
  | cons layer rest ih =>
    obtain ⟨hlayer, hrest⟩ := cons_subset.1 hsub
    simp only [reverse_cons, map_append, map_cons, map_nil, append_assoc, cons_append,
      nil_append] at hafters huids hclosed
    have hnew : ¬ (layer.after ∈ afters ∨ layer.uid ∈ uids) := by
      rw [not_or]
      exact ⟨(nodup_cons.1 (nodup_append.1 hafters).2.1).1,
        (nodup_cons.1 (nodup_append.1 huids).2.1).1⟩
    have hcycle : hasCycle layer layers = some false := h.loops_eq hlayer
    rw [inChain, if_neg hnew, hcycle]
    exact ih hrest hafters huids hclosed

theorem inChain_eq_true : inChain layers layers [] [] = some true ↔ IsLevel layers := by
  constructor
  · intro h
    exact (isChain_of_inChain h).oneChain
  · intro h
    refine inChain_of_isLevel h (List.Subset.refl layers) ?_ ?_ ?_
    · simpa using h.afters
    · simpa using h.keys
    · intro after hafter uid huid
      simp only [append_nil, map_reverse, mem_reverse] at hafter ⊢
      obtain ⟨layer, hlayer, rfl⟩ := mem_map.1 hafter
      exact h.closed layer hlayer uid huid

private theorem exists_sorted (h : IsLevel layers) :
    ∃ sorted, sortLayers layers = some sorted ∧ sorted.Perm layers ∧
    InOrder uid after none sorted := by
  have hchain := inChain_eq_true.2 h
  obtain ⟨sorted, hsorted⟩ := (isChain_of_inChain hchain).exists_settle
  refine ⟨sorted, ?_, settle_perm hsorted, (isChain_of_inChain hchain).inOrder hsorted⟩
  rw [sortLayers, hchain]
  exact hsorted

/-- Putting a level in order ends, keeps its layers, orders a chain and leaves anything else
alone. -/
theorem sort_layers_orders_chains (unsorted : List LayerRecord) :
    ∃ sorted, sortLayers unsorted = some sorted ∧ sorted.Perm unsorted ∧
      (IsLevel unsorted → InOrder uid after none sorted) ∧
      (¬ IsLevel unsorted → sorted = unsorted) := by
  by_cases hlevel : IsLevel unsorted
  · obtain ⟨sorted, hsorted, hperm, horder⟩ := exists_sorted hlevel
    exact ⟨sorted, hsorted, hperm, fun _ => horder, fun hnot => absurd hlevel hnot⟩
  · obtain ⟨b, hb⟩ : ∃ b, inChain unsorted unsorted [] [] = some b :=
      exists_inChain (List.Subset.refl unsorted)
    have hfalse : b = false := by
      rw [← Bool.not_eq_true]
      rintro rfl
      exact hlevel (inChain_eq_true.1 hb)
    refine ⟨unsorted, ?_, .refl _, fun h => absurd h hlevel, fun _ => rfl⟩
    rw [sortLayers, hb, hfalse]

end Level

end MicroTak.Missions
