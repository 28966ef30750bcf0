import MicroTak.Lib.Chain
import MicroTak.Lib.Forest
import MicroTak.Missions.Data

/-!
# Layer trees

The layers of a mission are stored in a list; each names its parent and the sibling it comes after.
The trees are built from it on every request, level by level, each level in the order of its `after`
chain, or as it is stored if that is no chain.
-/

namespace MicroTak.Missions

open Std Forest LayerRecord List

/-- Whether going back along `after` from a layer comes to one again. -/
def hasCycle (check : LayerRecord) (layers : List LayerRecord) : Option Bool :=
  Chain.loops uid after layers (layers.length + 1) [check.uid] check

/-- The loop over the layers that finds two with one `after`, a uid that repeats, a cycle or, at the
end, an `after` that is no sibling. -/
def inChain (layers : List LayerRecord) : List LayerRecord → List (Option String) →
    List String → Option Bool
  | [], afters, uids => some (afters.all fun after => after.all (· ∈ uids))
  | layer :: rest, afters, uids =>
      if layer.after ∈ afters ∨ layer.uid ∈ uids then some false
      else
        match hasCycle layer layers with
        | none => none
        | some true => some false
        | some false => inChain layers rest (layer.after :: afters) (layer.uid :: uids)

/-- Nothing stands for a loop that does not end, which `sortLayers_spec` excludes. -/
def sortLayers (unsorted : List LayerRecord) : Option (List LayerRecord) :=
  match inChain unsorted unsorted [] [] with
  | none => none
  | some false => some unsorted
  | some true =>
      Chain.settle (Chain.comesAfter uid after) ((unsorted.length + 1) * (unsorted.length + 1))
        unsorted

def LayerRecord.edge (layer : LayerRecord) : Edge String := (layer.uid, layer.parent)

abbrev LayerTree := Forest.Tree LayerRecord

namespace MissionData

variable (data : MissionData)

/-- The top-level layers with their descendants, if the recursion needs no more than `depth`
levels. -/
def layerTrees (guid : String) (depth : Nat) : Option (List LayerTree) :=
  build edge sortLayers (data.layersOf guid) depth none

/-- One layer with its descendants; no tree for an unknown one. -/
def layerTree (guid uid : String) (depth : Nat) : Option (Option LayerTree) :=
  match data.layer guid uid with
  | none => some none
  | some layer =>
      (build edge sortLayers (data.layersOf guid) depth (some uid)).map fun children =>
        some (.node layer children)

end MissionData

/-! ### The order of a level -/

private theorem exists_hasCycle {layer : LayerRecord} {layers : List LayerRecord}
    (h : layer ∈ layers) : ∃ b, hasCycle layer layers = some b := by
  refine Chain.exists_loops (nodup_singleton _) ?_ (by rw [length_singleton]; omega)
  exact cons_subset.2 ⟨mem_map_of_mem h, nil_subset _⟩

section InChain

variable {layers rest : List LayerRecord} {afters : List (Option String)} {uids : List String}

theorem exists_inChain (hrest : rest ⊆ layers) : ∃ b, inChain layers rest afters uids = some b := by
  induction rest generalizing afters uids with
  | nil => exact ⟨_, rfl⟩
  | cons layer rest ih =>
    obtain ⟨hlayer, hrest⟩ := cons_subset.1 hrest
    rw [inChain]
    split
    · exact ⟨false, rfl⟩
    · obtain ⟨b, hb⟩ := exists_hasCycle hlayer
      rw [hb]
      cases b with
      | true => exact ⟨false, rfl⟩
      | false => exact ih hrest

theorem noCycle_of_inChain (h : inChain layers rest afters uids = some true) :
    ∀ layer ∈ rest, hasCycle layer layers = some false := by
  induction rest generalizing afters uids with
  | nil => exact forall_mem_nil _
  | cons layer rest ih =>
    rw [inChain] at h
    split at h
    · cases h
    · split at h
      · cases h
      · cases h
      · next hcycle => exact forall_mem_cons.2 ⟨hcycle, ih h⟩

private theorem level_of_inChain (h : inChain layers rest afters uids = some true)
    (hafters : afters.Nodup) (huids : uids.Nodup) : (rest.reverse.map (·.after) ++ afters).Nodup ∧
    (rest.reverse.map (·.uid) ++ uids).Nodup ∧
      ∀ after ∈ rest.reverse.map (·.after) ++ afters, ∀ uid, after = some uid →
      uid ∈ rest.reverse.map (·.uid) ++ uids := by
  induction rest generalizing afters uids with
  | nil =>
    rw [inChain, Option.some.injEq, all_eq_true] at h
    refine ⟨hafters, huids, fun after hafter uid huid => ?_⟩
    have hin := h after hafter
    rw [huid] at hin
    simpa using hin
  | cons layer rest ih =>
    rw [inChain] at h
    split at h
    · cases h
    · next hnew =>
      push Not at hnew
      split at h
      · cases h
      · cases h
      · have hrest := ih h (nodup_cons.2 ⟨hnew.1, hafters⟩) (nodup_cons.2 ⟨hnew.2, huids⟩)
        simpa only [reverse_cons, map_append, map_cons, map_nil, append_assoc, cons_append,
          nil_append] using hrest

theorem isChain_of_inChain (h : inChain layers layers [] [] = some true) :
    Chain.IsChain uid after layers := by
  obtain ⟨hafters, huids, hclosed⟩ := level_of_inChain h nodup_nil nodup_nil
  simp only [append_nil, map_reverse, nodup_reverse, mem_reverse] at hafters huids hclosed
  exact {
    keys := huids
    afters := hafters
    closed := fun layer hlayer uid huid => hclosed _ (mem_map_of_mem hlayer) uid huid
    ends := fun layer hlayer => Chain.exists_depth (noCycle_of_inChain h layer hlayer) }

end InChain

/-- Putting a level in order always ends, with the same layers. -/
theorem sortLayers_spec (unsorted : List LayerRecord) :
    ∃ sorted, sortLayers unsorted = some sorted ∧ sorted.Perm unsorted := by
  obtain ⟨b, hb⟩ : ∃ b, inChain unsorted unsorted [] [] = some b :=
    exists_inChain (List.Subset.refl unsorted)
  rw [sortLayers, hb]
  cases b with
  | false => exact ⟨unsorted, rfl, .refl _⟩
  | true =>
    obtain ⟨sorted, hsorted⟩ := (isChain_of_inChain hb).exists_settle
    exact ⟨sorted, hsorted, Chain.settle_perm hsorted⟩

/-! ### The forest of a mission -/

def MissionData.edges (data : MissionData) (guid : String) : List (Edge String) :=
  (data.layersOf guid).map edge

section Trees

variable {data : MissionData} {guid : String}

theorem layerTree_of_forest (h : IsForest (data.edges guid)) (uid : String) {depth : Nat}
    (hdepth : (data.layersOf guid).length < depth) :
    ∃ tree, data.layerTree guid uid depth = some tree := by
  rw [MissionData.layerTree]
  split
  · exact ⟨none, rfl⟩
  · obtain ⟨children, hchildren⟩ := exists_build (p := some uid) sortLayers_spec h nodup_nil
      (nil_subset _) (fun _ _ _ => forall_mem_nil _) hdepth
    exact ⟨some (.node _ children), by rw [hchildren]; rfl⟩

end Trees

section Edges

variable {layers : List LayerRecord} {uid : String}

theorem map_edge_updateParent (hnodup : (layers.map (·.uid)).Nodup) (parent after : Option String) :
    (updateLayer uid (fun l => { l with parent, after }) layers).map edge =
      move (layers.map edge) uid parent := by
  induction layers with
  | nil => rfl
  | cons layer rest ih =>
    obtain ⟨hlayer, hrest⟩ := nodup_cons.1 hnodup
    rw [updateLayer, move, map_cons, map_cons]
    split
    · next huid =>
      have hsame : (rest.map edge).map (fun e => if e.1 = uid then (uid, parent) else e) =
          rest.map edge := by
        rw [map_map]
        refine map_congr_left fun other hother => if_neg fun heq => hlayer ?_
        exact mem_map.2 ⟨other, hother, heq.trans huid.symm⟩
      rw [map_cons, hsame, edge, edge, if_pos huid, huid]
    · next huid =>
      rw [map_cons, ih hrest, edge, if_neg huid]
      rfl

theorem map_edge_filter :
    (layers.filter (·.uid ≠ uid)).map edge = (layers.map edge).filter (·.1 ≠ uid) := by
  rw [filter_map]
  rfl

end Edges

end MicroTak.Missions
