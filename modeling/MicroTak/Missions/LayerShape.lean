import MicroTak.Missions.Rules

/-!
# The shape of a mission's layers

What each operation on layers does to who is under whom: an event at a time, so that it holds at a
failed append too.
-/

namespace MicroTak.Missions

open Std Handler Forest Relation Journal.Op List

variable {env : Env} {inputs : Inputs} {start server next : Server}
variable {mission : MissionRecord} {guid uid : String} {disk : Option Nat}

def Server.edges (server : Server) (guid : String) : List (Edge String) :=
  server.state.data.edges guid

/-- The layers of every mission are a forest. -/
def Forests (server : Server) : Prop := ∀ guid, IsForest (server.edges guid)

theorem layer_isSome_iff {data : MissionData} : (data.layer guid uid).isSome = true ↔
    uid ∈ (data.edges guid).map Prod.fst := by
  rw [MissionData.layer, List.find?_isSome, MissionData.edges, List.map_map, List.mem_map]
  simp only [decide_eq_true_eq]
  rfl

/-! ### What an event does to the layers -/

section Events

theorem edges_applied (event : DataEvent) (other : String) :
    (server.applied (.data event) disk).edges other =
      (event.onLayers other (server.state.data.layersOf other)).map LayerRecord.edge :=
  congrArg (List.map LayerRecord.edge) (MissionData.layersOf_apply _ event other)

theorem edges_layerAfterSet (after : Option String) (other : String) :
    (server.applied (.data (.layerAfterSet guid uid after)) disk).edges other =
    server.edges other := by
  rw [edges_applied, DataEvent.onLayers]
  split
  · exact map_updateLayer fun _ => rfl
  · rfl

theorem edges_layerNamed (name other : String) :
    (server.applied (.data (.layerNamed guid uid name)) disk).edges other = server.edges other := by
  rw [edges_applied, DataEvent.onLayers]
  split
  · exact map_updateLayer fun _ => rfl
  · rfl

theorem edges_layerSaved (layer : LayerRecord) (other : String) :
    (server.applied (.data (.layerSaved guid layer)) disk).edges other =
      if guid = other then server.edges other ++ [layer.edge] else server.edges other := by
  rw [edges_applied, DataEvent.onLayers]
  split
  · exact map_append
  · rfl

theorem edges_layerParentSet (hnodup : ((server.edges guid).map Prod.fst).Nodup)
    (parent : Option String) (other : String) :
    (server.applied (.data (.layerParentSet guid uid parent)) disk).edges other =
      if guid = other then move (server.edges other) uid parent else server.edges other := by
  rw [edges_applied, DataEvent.onLayers]
  split
  · next heq =>
    subst heq
    rw [Server.edges, MissionData.edges, List.map_map] at hnodup
    exact map_edge_updateParent hnodup parent none
  · rfl

theorem edges_layerDeleted (other : String) :
    (server.applied (.data (.layerDeleted guid uid)) disk).edges other =
      if guid = other then (server.edges other).filter (·.1 ≠ uid) else server.edges other := by
  rw [edges_applied, DataEvent.onLayers]
  split
  · exact map_edge_filter
  · rfl

theorem edges_of_layers {event : Event}
    (h : ∀ state : State, (state.apply event).data.layers = state.data.layers) (other : String) :
    (server.applied event disk).edges other = server.edges other := by
  show ((((server.state.apply event).data.layers[other]?).getD []).map LayerRecord.edge) = _
  rw [h]
  rfl

end Events

/-- The layers of one mission have this shape; those of the others are what they were. -/
def Shaped (start : Server) (guid : String) (P : List (Edge String) → Prop)
    (server : Server) : Prop :=
  P (server.edges guid) ∧ ∀ other, other ≠ guid → server.edges other = start.edges other

variable {parent after : Option String} {paths keys : List String} {path creator : String}

section Operations

variable {P Q : List (Edge String) → Prop}

theorem Shaped.mono (h : Shaped start guid P server) (hPQ : ∀ es, P es → Q es) :
    Shaped start guid Q server :=
  ⟨hPQ _ h.1, h.2⟩

theorem Shaped.change (h : Shaped start guid P server) {f : List (Edge String) → List (Edge String)}
    (hnext : ∀ other, next.edges other = if guid = other then f (server.edges other)
      else server.edges other)
    (hf : P (server.edges guid) → Q (f (server.edges guid))) : Shaped start guid Q next := by
  refine ⟨?_, fun other hother => ?_⟩
  · rw [hnext, if_pos rfl]
    exact hf h.1
  · rw [hnext, if_neg (Ne.symm hother)]
    exact h.2 other hother

theorem Shaped.of_edges (h : Shaped start guid P server)
    (hsame : ∀ other, next.edges other = server.edges other) : Shaped start guid P next :=
  h.change (f := id) (fun other => (hsame other).trans (ite_self _).symm) id

theorem Shaped.forests (h : Shaped start guid IsForest server) (hstart : Forests start) :
    Forests server := by
  intro other
  by_cases hother : other = guid
  · rw [hother]
    exact h.1
  · rw [h.2 other hother]
    exact hstart other

/-- Events that leave parents alone. -/
def KeepsEdges (event : Event) : Prop :=
  ∀ (server : Server) (disk : Option Nat) (other : String),
    (server.applied event disk).edges other = server.edges other

theorem shaped_stable : EditStable KeepsEdges (Shaped start guid P) :=
  fun server _ disk hevent h => h.of_edges (hevent server disk)

theorem keeps_fixupAfter {uid : Option String} :
    Keeps (Shaped start guid P) (storeOp (MissionStore.fixupAfter guid uid parent after)) := by
  refine keeps_storeOp shaped_stable (only_get.bind fun state => only_putAll fun event hevent => ?_)
  obtain ⟨layer, -, rfl⟩ := mem_map.1 hevent
  exact fun _ _ other => edges_layerAfterSet _ other

theorem wp_addLayerOp {layer : LayerRecord} (h : Shaped start guid P server)
    (hkeep : ∀ es, P es → Q es) (hadd : ∀ es, P es → Q (es ++ [layer.edge])) :
    wp (storeOp (MissionStore.addLayer guid layer)) (fun _ => Shaped start guid Q) (fun _ =>
      Shaped start guid Q) server := by
  rw [MissionStore.addLayer, storeOp_bind]
  refine Keeps.wp_bind (keeps_storeOp shaped_stable MissionStore.only_existing) h
    (fun _ server h => ?_) fun _ _ h => h.mono hkeep
  rw [storeOp_bind]
  refine keeps_fixupAfter.wp_bind h (fun _ server h => ?_) fun _ _ h => h.mono hkeep
  exact wp_storeOp_record (fun _ => h.change (f := (· ++ [layer.edge])) (edges_layerSaved layer)
    (hadd _)) fun _ => h.mono hkeep

theorem keeps_moveLayerOp (hnodup : ∀ es, P es → (es.map Prod.fst).Nodup)
    (hmove : ∀ es, P es → P (move es uid parent)) :
    Keeps (Shaped start guid P) (storeOp (MissionStore.moveLayer guid uid parent after)) := by
  have hlook : ∀ {α : Type} {op : MissionStore.Op α}, op.Only KeepsEdges →
      Keeps (Shaped start guid P) (storeOp op) :=
    keeps_storeOp shaped_stable
  simp only [MissionStore.moveLayer, storeOp_bind]
  refine (hlook only_get).bind fun state => (hlook only_orRefuse).bind fun layer =>
    keeps_fixupAfter.bind fun _ => ?_
  refine keeps_fixupAfter.bind fun _ => Keeps.bind ⟨fun {server} h => ?_⟩ fun _ =>
    (hlook only_get).bind fun _ => ?_
  · refine wp_storeOp_putIf (fun _ disk => ?_) (fun _ => h) fun _ => h
    exact h.change (edges_layerParentSet (hnodup _ h.1) parent) (hmove _)
  · exact hlook (only_putIf fun _ _ => edges_layerAfterSet after)

theorem wp_deleteLayerOp {es : List (Edge String)} (h : Shaped start guid (· = es) server) :
    wp (storeOp (MissionStore.deleteLayer guid uid)) (fun _ =>
      Shaped start guid (· = es.filter (·.1 ≠ uid))) (fun _ =>
      Shaped start guid (· = es)) server := by
  rw [MissionStore.deleteLayer, storeOp_bind, wp_bind, wp_storeOp_get]
  split
  · next hnone =>
    have hunknown : uid ∉ es.map Prod.fst := by
      rw [← h.1]
      intro hmem
      have hsome := layer_isSome_iff.2 hmem
      rw [hnone] at hsome
      cases hsome
    have hsame : es.filter (·.1 ≠ uid) = es := by
      refine filter_eq_self.2 fun e he => ?_
      rw [decide_eq_true_eq]
      exact fun heq => hunknown (heq ▸ mem_map_of_mem he)
    rw [hsame]
    exact h
  · rw [storeOp_bind]
    refine keeps_fixupAfter.wp_bind h (fun _ server h => ?_) fun _ _ h => h
    exact wp_storeOp_record (fun _ => h.change edges_layerDeleted fun heq =>
      congrArg (List.filter _) heq) fun _ => h

theorem keeps_moveLayer_shaped (hnodup : ∀ es, P es → (es.map Prod.fst).Nodup)
    (hmove : ∀ es, P es → (∀ q, parent = some q → q ∈ es.map Prod.fst) → P (move es uid parent)) :
    Keeps (Shaped start mission.guid P) (moveLayer mission uid parent after) := by
  refine ⟨fun {server} h => ?_⟩
  simp only [moveLayer, wp_bind, wp_orThrow, wp_ensure]
  refine ⟨fun _ _ => ⟨fun hknown => ?_, fun _ => h⟩, fun _ => h⟩
  have hshaped : Shaped start mission.guid (fun es => P es ∧ ∀ q, parent = some q →
      q ∈ es.map Prod.fst) server := by
    refine ⟨⟨h.1, ?_⟩, h.2⟩
    rintro q rfl
    exact layer_isSome_iff.1 hknown
  refine ((keeps_moveLayerOp (fun es hes => hnodup es hes.1) fun es hes =>
    ⟨hmove es hes.1 hes.2, ?_⟩).run hshaped).mono (fun _ _ h => h.mono fun _ => And.left)
      fun _ _ h => h.mono fun _ => And.left
  rw [map_fst_move]
  exact hes.2

theorem wp_addLayer_shaped {uid name : Option String} {layerType : LayerType}
    (h : Shaped start mission.guid P server) (hkeep : ∀ es, P es → Q es)
    (hmove : ∀ u, uid = some u → u ∈ (server.edges mission.guid).map Prod.fst →
      wp (moveLayer mission u parent after) (fun _ => Shaped start mission.guid Q) (fun _ =>
        Shaped start mission.guid Q) server)
    (hadd : ∀ u, uid = some u → ∀ es, P es → u ∉ es.map Prod.fst → Q (es ++ [(u, parent)]))
    (hdraw : uid = none → ∀ es, P es → Q (es ++ [(env.randomUuid server.drawn, parent)])) :
    wp (addLayer env mission uid name layerType parent after) (fun _ => Shaped start mission.guid Q)
      (fun _ => Shaped start mission.guid Q) server := by
  rw [addLayer, wp_bind, wp_get]
  split
  · next found hfound =>
    obtain ⟨u, rfl, hlayer⟩ := Option.bind_eq_some_iff.1 hfound
    have huid := find?_some hlayer
    rw [decide_eq_true_eq] at huid
    rw [wp_bind, huid]
    exact hmove u rfl (layer_isSome_iff.1 (by rw [hlayer]; rfl))
  · next hnone =>
    split
    · next u =>
      have hunknown : u ∉ (server.edges mission.guid).map Prod.fst := by
        intro hmem
        have hsome := layer_isSome_iff.2 hmem
        rw [show server.state.data.layer mission.guid u = none from hnone] at hsome
        cases hsome
      have hshaped : Shaped start mission.guid (fun es => P es ∧ u ∉ es.map Prod.fst) server :=
        ⟨⟨h.1, hunknown⟩, h.2⟩
      rw [wp_bind, wp_pure, wp_bind]
      exact wp_addLayerOp hshaped (fun es hes => hkeep es hes.1) fun es hes =>
        hadd u rfl es hes.1 hes.2
    · rw [wp_bind]
      exact wp_bind.2 (wp_addLayerOp h hkeep (hdraw rfl))

end Operations

/-! ### Layers put under a parent -/

section Clear

variable {es : List (Edge String)} {parents uids : List String} {p key : String}

/-- None of the parents is one of these layers, or below one. -/
def Clear (es : List (Edge String)) (parents uids : List String) : Prop :=
  ∀ p ∈ parents, ∀ u ∈ uids, ¬ Within es p u

theorem Clear.move (h : Clear es parents uids) (huid : uid ∈ uids) (parent : Option String) :
    Clear (move es uid parent) parents uids := by
  have hsame : ∀ y q, y ≠ uid → Parent (Forest.move es uid parent) y q → Parent es y q := by
    intro y q hne hparent
    rcases mem_move.1 hparent with ⟨hold, -⟩ | ⟨-, heq⟩
    · exact hold
    · exact absurd (congrArg Prod.fst heq) hne
  exact fun p hp u hu => not_within_changed hsame (h p hp uid huid) (h p hp u hu)

theorem Clear.add (h : Clear es parents uids) (huid : uid ∈ uids) (parent : Option String) :
    Clear (es ++ [(uid, parent)]) parents uids := by
  have hsame : ∀ y q, y ≠ uid → Parent (es ++ [(uid, parent)]) y q → Parent es y q := by
    intro y q hne hparent
    rcases mem_append.1 hparent with hold | hnew
    · exact hold
    · exact absurd (congrArg Prod.fst (mem_singleton.1 hnew)) hne
  exact fun p hp u hu => not_within_changed hsame (h p hp uid huid) (h p hp u hu)

/-- Layers to be put under a parent that, if it is there, is below none of them. -/
def Movable (parent : Option String) (uids : List String) (es : List (Edge String)) : Prop :=
  IsForest es ∧ ∀ p, parent = some p → p ∈ es.map Prod.fst → Clear es [p] uids

theorem Movable.move (h : Movable parent uids es) (huid : uid ∈ uids)
    (hparent : ∀ q, parent = some q → q ∈ es.map Prod.fst) :
    Movable parent uids (move es uid parent) := by
  refine ⟨h.1.move fun q hq => ⟨hparent q hq, ?_⟩, fun p hp hknown => ?_⟩
  · exact h.2 q hq (hparent q hq) q (mem_singleton.2 rfl) uid huid
  · rw [map_fst_move] at hknown
    exact (h.2 p hp hknown).move huid parent

theorem keeps_moveLayers_shaped {rest : List String} (hrest : rest ⊆ uids) :
    Keeps (Shaped start mission.guid (Movable parent uids))
    (moveLayers mission parent after rest) := by
  induction rest generalizing after with
  | nil => exact keeps_pure
  | cons uid rest ih =>
    obtain ⟨huid, hrest⟩ := cons_subset.1 hrest
    refine Keeps.bind (keeps_moveLayer_shaped (fun es hes => hes.1.nodup) fun es hes => ?_) fun _ =>
      ih hrest
    exact hes.move huid

/-- Layers to be filed under paths that are there and below none of them. -/
structure Fileable (paths keys : List String) (es : List (Edge String)) : Prop where
  forest : IsForest es
  known : ∀ p ∈ paths, p ∈ es.map Prod.fst
  clear : Clear es paths keys

theorem Fileable.move (h : Fileable paths keys es) (hpath : path ∈ paths)
    (hkey : key ∈ keys) : Fileable paths keys (move es key (some path)) where
  forest := by
    refine h.forest.move fun q hq => ?_
    cases hq
    exact ⟨h.known path hpath, h.clear path hpath key hkey⟩
  known := by
    rw [map_fst_move]
    exact h.known
  clear := h.clear.move hkey _

theorem Fileable.add (h : Fileable paths keys es) (hpath : path ∈ paths)
    (hkey : key ∈ keys) (hnew : key ∉ es.map Prod.fst) :
    Fileable paths keys (es ++ [(key, some path)]) where
  forest := by
    refine h.forest.add hnew fun q hq => ?_
    cases hq
    exact h.known path hpath
  known := by
    intro p hp
    rw [map_append]
    exact mem_append_left _ (h.known p hp)
  clear := h.clear.add hkey _

end Clear

theorem keepsEdges_content (content : Content) (creatorUid : String) (atMs : Int) (changeId : Nat)
    (serverMs : Option Int) :
    KeepsEdges (.contentAdded guid content creatorUid atMs changeId serverMs) ∧
      KeepsEdges (.contentRemoved guid content creatorUid atMs changeId serverMs) :=
  ⟨fun _ _ => edges_of_layers fun _ => State.layers_noteChange _, fun _ _ =>
    edges_of_layers fun _ => State.layers_noteChange _⟩

theorem keeps_fileContents_shaped {creatorUid : String} {contents : List Content}
    (hpath : contents ≠ [] → path ∈ paths) (hkeys : ∀ content ∈ contents, content.key ∈ keys) :
    Keeps (Shaped start mission.guid (Fileable paths keys))
    (fileContents env inputs mission creatorUid path after contents) := by
  induction contents generalizing after with
  | nil => exact keeps_pure
  | cons content rest ih =>
    have hpath := hpath (cons_ne_nil _ _)
    obtain ⟨hkey, hrest⟩ := forall_mem_cons.1 hkeys
    refine Keeps.bind (keeps_addContent shaped_stable fun _ => (keepsEdges_content _ _ _ _ _).1)
      fun _ =>
      Keeps.bind ⟨fun h => ?_⟩ fun _ => ih (fun _ => hpath) hrest
    refine wp_addLayer_shaped h (fun _ hes => hes) ?_ ?_ ?_
    · intro u hu _
      cases hu
      exact (keeps_moveLayer_shaped (fun es hes => hes.forest.nodup) fun es hes _ =>
        hes.move hpath hkey).run h
    · intro u hu es hes hnew
      cases hu
      exact hes.add hpath hkey hnew
    · intro hnone
      cases hnone

/-! ### Layers removed with what is below them -/

theorem wp_deleteLayer_shaped {es₁ : List (Edge String)}
    (h : Shaped start mission.guid (fun es => IsForest es ∧ es ⊆ es₁ ∧
      ∀ y, ¬ Parent es y uid) server) :
    wp (storeOp (MissionStore.deleteLayer mission.guid uid))
      (fun _ => Shaped start mission.guid (fun es => IsForest es ∧ es ⊆ es₁ ∧
        uid ∉ es.map Prod.fst))
      (fun _ => Shaped start mission.guid IsForest) server := by
  have hexact : Shaped start mission.guid (· = server.edges mission.guid) server := ⟨rfl, h.2⟩
  obtain ⟨hforest, hsub, hleaf⟩ := h.1
  refine (wp_deleteLayerOp hexact).mono (fun _ next hnext => hnext.mono fun es hes => ?_)
    (fun _ next hnext => hnext.mono fun es hes => hes ▸ hforest)
  rw [hes]
  refine ⟨hforest.remove hleaf, fun e he => hsub (mem_filter.1 he).1, fun hmem => ?_⟩
  obtain ⟨e, he, heq⟩ := mem_map.1 hmem
  have hne := (mem_filter.1 he).2
  rw [decide_eq_true_eq] at hne
  exact hne heq

mutual

theorem wp_removeLayerTree_shaped (tree : LayerTree) (es₁ : List (Edge String)) {server : Server}
    (hcovers : Covers LayerRecord.uid es₁ tree)
    (h : Shaped start mission.guid (fun es => IsForest es ∧ es ⊆ es₁) server) :
    wp (removeLayerTree inputs mission creator tree)
      (fun _ => Shaped start mission.guid (fun es => IsForest es ∧ es ⊆ es₁ ∧
        tree.value.uid ∉ es.map Prod.fst))
      (fun _ => Shaped start mission.guid IsForest) server := by
  cases hcovers with
  | node layer children hchildren hall =>
    rw [removeLayerTree, wp_bind]
    refine (wp_removeLayerTrees_shaped children es₁ hall h).mono (fun _ next hnext => ?_)
      (fun _ _ h => h)
    -- Its children were in the tree, and each of them is gone.
    have hleaf : Shaped start mission.guid (fun es => IsForest es ∧ es ⊆ es₁ ∧
        ∀ y, ¬ Parent es y layer.uid) next := by
      refine hnext.mono fun es hes => ⟨hes.1, hes.2.1, fun y hy => ?_⟩
      obtain ⟨child, hchild, rfl⟩ := hchildren y (hes.2.1 hy)
      exact hes.2.2 child hchild (mem_map_of_mem hy)
    simp only [wp_bind, wp_orThrow]
    refine ⟨fun current _ => ?_, fun _ => hnext.mono fun _ hes => hes.1⟩
    exact (Keeps.run (keeps_forM fun content _ => keeps_removeContent shaped_stable fun _ =>
      (keepsEdges_content _ _ _ _ _).2) hleaf).mono (fun _ last hlast =>
        wp_deleteLayer_shaped hlast) (fun _ _ h => h.mono fun _ hes => hes.1)

theorem wp_removeLayerTrees_shaped (trees : List LayerTree) (es₁ : List (Edge String))
    {server : Server} (hcovers : ∀ tree ∈ trees, Covers LayerRecord.uid es₁ tree)
    (h : Shaped start mission.guid (fun es => IsForest es ∧ es ⊆ es₁) server) :
    wp (removeLayerTrees inputs mission creator trees) (fun _ => Shaped start mission.guid
        (fun es => IsForest es ∧ es ⊆ es₁ ∧ ∀ tree ∈ trees, tree.value.uid ∉ es.map Prod.fst))
      (fun _ => Shaped start mission.guid IsForest) server := by
  cases trees with
  | nil =>
    rw [removeLayerTrees, wp_pure]
    exact h.mono fun es hes => ⟨hes.1, hes.2, forall_mem_nil _⟩
  | cons tree rest =>
    rw [removeLayerTrees, wp_bind]
    refine (wp_removeLayerTree_shaped tree es₁ (hcovers tree mem_cons_self) h).mono
      (fun _ next hnext => ?_) (fun _ _ h => h)
    obtain ⟨hforest, hsub, hgone⟩ := hnext.1
    -- What is left only gets less, so the first tree stays gone.
    refine (wp_removeLayerTrees_shaped rest (next.edges mission.guid)
      (fun other hother => (hcovers other (mem_cons_of_mem _ hother)).mono hsub)
      ⟨⟨hforest, List.Subset.refl _⟩, hnext.2⟩).mono (fun _ last hlast => hlast.mono fun es hes =>
        ?_) (fun _ _ h => h)
    refine ⟨hes.1, fun e he => hsub (hes.2.1 he), forall_mem_cons.2 ⟨fun hmem => hgone ?_, hes.2.2⟩⟩
    exact map_subset _ hes.2.1 hmem

end

end MicroTak.Missions
