import MicroTak.Missions.LayerShape
import MicroTak.Missions.Runs

/-!
# Layers as a forest

A request that puts no layer under itself or under one below it, and under no parent that is not
there, leaves the layers of every mission a forest: their trees are finite and hold each layer once.
-/

namespace MicroTak.Missions

open Std Handler Forest Relation Transition List

variable {env : Env} {caller : Caller} {inputs : Inputs} {request : Request}
  {start server next : Server}
variable {mission : MissionRecord} {guid uid : String} {disk : Option Nat}
  {paths : List (String × List Filed)} {P : List (Edge String) → Prop}

theorem covers_layerTree {data : MissionData} {depth : Nat} {tree : LayerTree}
    (h : data.layerTree guid uid depth = some (some tree)) :
    Covers LayerRecord.uid (data.edges guid) tree := by
  rw [MissionData.layerTree] at h
  split at h
  · cases h
  · next layer hlayer =>
    obtain ⟨children, hchildren, heq⟩ := Option.map_eq_some_iff.1 h
    cases heq
    have huid := find?_some hlayer
    rw [decide_eq_true_eq] at huid
    obtain ⟨hroots, hall⟩ := covers_build sortLayers_spec hchildren
    refine .node layer children (fun y hy => hroots y ?_) hall
    rw [← huid]
    exact hy

/-! ### Requests -/

def filings (inputs : Inputs) (paths : List (String × List Filed)) : List (String × String) :=
  paths.flatMap fun (path, items) => items.flatMap fun item =>
    (knownContent inputs item.hashes item.uids).map fun content => (path, content.key)

theorem mem_filings {path : String × List Filed} {item : Filed} {content : Content}
    (hpath : path ∈ paths) (hitem : item ∈ path.2)
    (hcontent : content ∈ knownContent inputs item.hashes item.uids) :
    (path.1, content.key) ∈ filings inputs paths :=
  mem_flatMap.2 ⟨path, hpath, mem_flatMap.2 ⟨item, hitem, mem_map_of_mem hcontent⟩⟩

/-- No layer goes under itself or one below it.  A new one has a parent that is there, and a random
uid that no layer has. -/
def Placed (env : Env) (inputs : Inputs) (server : Server) (guid : String) : MissionRequest → Prop
  | .createLayer params =>
      match params.uid.filter (· ≠ "") with
      | some uid =>
          if uid ∈ (server.edges guid).map Prod.fst then
            ∀ p, params.parentUid.filter (· ≠ "") = some p → p ∈ (server.edges guid).map Prod.fst →
              ¬ Within (server.edges guid) p uid
          else ∀ p, params.parentUid.filter (· ≠ "") = some p → p ∈ (server.edges guid).map Prod.fst
      | none =>
          env.randomUuid server.drawn ∉ (server.edges guid).map Prod.fst ∧
            ∀ p, params.parentUid.filter (· ≠ "") = some p → p ∈ (server.edges guid).map Prod.fst
  | .setLayerParent uids params =>
      ∀ p, params.parentUid.filter (· ≠ "") = some p → p ∈ (server.edges guid).map Prod.fst →
        ∀ uid ∈ uids, ¬ Within (server.edges guid) p uid
  | .addContents _ _ paths _ =>
      ∀ filing ∈ filings inputs paths, filing.1 ∈ (server.edges guid).map Prod.fst ∧
        ∀ other ∈ filings inputs paths, ¬ Within (server.edges guid) filing.1 other.2
  | _ => True

theorem shaped_of_state (hstate : server.state = start.state) (h : P (start.edges guid)) :
    Shaped start guid P server := by
  have hsame : ∀ other, server.edges other = start.edges other := by
    intro other
    rw [Server.edges, hstate]
    rfl
  exact ⟨hsame guid ▸ h, fun other _ => hsame other⟩

/-- The handler leaves the layers of the mission a forest, and those of the others as they were. -/
def LeavesForest {α : Type} (start : Server) (guid : String) (handler : Api α)
    (server : Server) : Prop :=
  wp handler (fun _ => Shaped start guid IsForest) (fun _ => Shaped start guid IsForest) server

theorem leavesForest_of_keeps {α : Type} {handler : Api α}
    (hkeeps : Keeps (Shaped start guid P) handler) (h : Shaped start guid P server)
    (hforest : ∀ es, P es → IsForest es) : LeavesForest start guid handler server :=
  (hkeeps.run h).mono (fun _ _ h => h.mono hforest) fun _ _ h => h.mono hforest

section Handlers

variable (hstart : Forests start)

include hstart

theorem leavesForest_requireWrite {α : Type} {rest : Api α}
    (hrest : ∀ server, server.state = start.state → server.drawn = start.drawn →
      Shaped start mission.guid IsForest server → LeavesForest start mission.guid rest server) :
    LeavesForest start mission.guid (requireWrite env caller mission >>= fun _ => rest) start := by
  simp only [LeavesForest, requireWrite, require, wp_bind, wp_check]
  exact ⟨fun _ => hrest _ rfl rfl (shaped_of_state rfl (hstart _)), fun _ =>
    shaped_of_state rfl (hstart _)⟩

variable {params : LayerParams} {uids : List String}

theorem createLayerImpl_shaped
    (hplaced : Placed env inputs start mission.guid (.createLayer params)) :
    LeavesForest start mission.guid (createLayerImpl env caller mission params) start := by
  refine leavesForest_requireWrite hstart fun server hstate hdrawn hshaped => ?_
  have hexact : Shaped start mission.guid (· = start.edges mission.guid) server :=
    shaped_of_state hstate rfl
  simp only [LeavesForest, required, wp_bind, wp_orThrow]
  refine ⟨fun name _ =>
    ⟨fun typeName _ => ⟨fun layerType _ => ⟨fun creator _ => ?_, fun _ => hshaped⟩, fun _ =>
      hshaped⟩, fun _ => hshaped⟩, fun _ => hshaped⟩
  rw [Placed] at hplaced
  refine wp_addLayer_shaped hexact (fun es hes => hes ▸ hstart _) ?_ ?_ ?_
  · intro u hu hknown
    rw [hexact.1] at hknown
    rw [hu] at hplaced
    simp only [if_pos hknown] at hplaced
    have hmovable :
        Shaped start mission.guid (Movable (params.parentUid.filter (· ≠ "")) [u]) server := by
      refine shaped_of_state hstate ⟨hstart _, fun p hp hparent q hq v hv => ?_⟩
      rw [mem_singleton.1 hq, mem_singleton.1 hv]
      exact hplaced p hp hparent
    exact leavesForest_of_keeps (keeps_moveLayer_shaped (fun es hes => hes.1.nodup) fun es hes =>
      hes.move (mem_singleton.2 rfl)) hmovable fun _ hes => hes.1
  · intro u hu es hes hnew
    rw [hes] at hnew ⊢
    rw [hu] at hplaced
    simp only [if_neg hnew] at hplaced
    exact (hstart _).add hnew hplaced
  · intro hnone es hes
    rw [hnone] at hplaced
    rw [hes, hdrawn]
    exact (hstart _).add hplaced.1 hplaced.2

theorem renameLayerImpl_shaped (uid : String) (params : LayerParams) :
    LeavesForest start mission.guid (renameLayerImpl env caller mission uid params) start := by
  refine leavesForest_requireWrite hstart fun server hstate _ hshaped => ?_
  simp only [LeavesForest, required, wp_bind, wp_orThrow]
  refine ⟨fun name _ => ⟨fun creator _ => ⟨fun layer _ => ?_, fun _ => hshaped⟩, fun _ => hshaped⟩,
    fun _ => hshaped⟩
  exact wp_storeOp_record (fun disk => hshaped.of_edges (edges_layerNamed name)) fun _ => hshaped

theorem setLayerParentImpl_shaped
    (hplaced : Placed env inputs start mission.guid (.setLayerParent uids params)) :
    LeavesForest start mission.guid (setLayerParentImpl env caller mission uids params) start := by
  refine leavesForest_requireWrite hstart fun server hstate _ hshaped => ?_
  have hmovable :
      Shaped start mission.guid (Movable (params.parentUid.filter (· ≠ "")) uids) server := by
    refine shaped_of_state hstate ⟨hstart _, fun p hp hknown q hq u hu => ?_⟩
    rw [mem_singleton.1 hq]
    exact hplaced p hp hknown u hu
  simp only [LeavesForest, required, wp_bind, wp_orThrow, wp_ensure]
  refine ⟨fun creator _ => ⟨fun _ => ?_, fun _ => hshaped⟩, fun _ => hshaped⟩
  exact leavesForest_of_keeps (keeps_moveLayers_shaped (List.Subset.refl _)) hmovable fun _ hes =>
    hes.1

theorem deleteLayersImpl_shaped (uids : List String) (creatorUid : Option String) :
    LeavesForest start mission.guid (deleteLayersImpl env caller inputs mission uids creatorUid)
    start := by
  refine leavesForest_requireWrite hstart fun server hstate _ hshaped => ?_
  simp only [LeavesForest, required, wp_bind, wp_orThrow, wp_ensure]
  refine ⟨fun creator _ => ⟨fun _ => ?_, fun _ => hshaped⟩, fun _ => hshaped⟩
  refine (wp_forM _ (fun uid _ server h => ?_) hshaped).mono (fun _ _ h => h) fun _ _ h => h
  simp only [deleteLayer, layerTreeOf, wp_bind, wp_orThrow]
  refine ⟨fun found hfound => ?_, fun _ => h⟩
  cases found with
  | none => exact h
  | some tree =>
    have hcovers : Covers LayerRecord.uid (server.edges mission.guid) tree :=
      covers_layerTree hfound
    refine (wp_removeLayerTree_shaped tree _ hcovers (⟨⟨h.1, List.Subset.refl _⟩, h.2⟩ :
      Shaped start mission.guid (fun es => IsForest es ∧ es ⊆ server.edges mission.guid)
        server)).mono
      (fun _ _ hnext => hnext.mono fun _ hes => hes.1) (fun _ _ h => h)

theorem addContentsImpl_shaped {hashes : List String} {creatorUid : String}
    (hplaced : Placed env inputs start mission.guid (.addContents hashes uids paths creatorUid)) :
    LeavesForest start mission.guid
    (addContentsImpl env caller inputs mission hashes uids paths creatorUid) start := by
  have hpaths : ∀ path ∈ (filings inputs paths).map Prod.fst,
      path ∈ (start.edges mission.guid).map Prod.fst ∧ ∀ key ∈ (filings inputs paths).map Prod.snd,
        ¬ Within (start.edges mission.guid) path key := by
    intro path hpath
    obtain ⟨filing, hfiling, rfl⟩ := mem_map.1 hpath
    refine ⟨(hplaced filing hfiling).1, fun key hkey => ?_⟩
    obtain ⟨other, hother, rfl⟩ := mem_map.1 hkey
    exact (hplaced filing hfiling).2 other hother
  have hfileable : Fileable ((filings inputs paths).map Prod.fst)
      ((filings inputs paths).map Prod.snd) (start.edges mission.guid) :=
    ⟨hstart _, fun path hpath => (hpaths path hpath).1, fun path hpath => (hpaths path hpath).2⟩
  have hkeeps :
      Keeps (Shaped start mission.guid
        (Fileable ((filings inputs paths).map Prod.fst) ((filings inputs paths).map Prod.snd)))
          (addContentsImpl env caller inputs mission hashes uids paths creatorUid) := by
    refine keeps_get.bind fun _ => Keeps.bind ⟨fun h => wp_check.2 ⟨fun _ => h, fun _ => h⟩⟩
      fun _ => keeps_ensure.bind fun _ => ?_
    refine (keeps_addContents shaped_stable fun _ _ => (keepsEdges_content _ _ _ _ _).1).bind
      fun _ =>
      Keeps.bind (keeps_forM fun path hpath => keeps_forM fun item hitem => ?_) fun _ =>
        keeps_missionResponse
    refine keeps_fileContents_shaped (fun hne => ?_) fun content hcontent =>
      mem_map.2 ⟨_, mem_filings hpath hitem hcontent, rfl⟩
    obtain ⟨content, hcontent⟩ := exists_mem_of_ne_nil _ hne
    exact mem_map.2 ⟨_, mem_filings hpath hitem hcontent, rfl⟩
  exact leavesForest_of_keeps hkeeps (shaped_of_state rfl hfileable) fun _ hes => hes.forest

end Handlers

theorem edges_of_reached (hrequest : request.editsLayers = false)
    (h : Reached env caller request start server) (guid : String) :
    server.edges guid = start.edges guid := by
  have hrole : ∀ (state : State) other id role,
      (state.apply (.subscriptionRoleSet other id role)).data.layers = state.data.layers := by
    intro state other id role
    simp only [State.apply]
    split <;> rfl
  have hend : ∀ (state : State) other id, (state.apply (.unsubscribed other id)).data.layers =
      state.data.layers := by
    intro state other id
    simp only [State.apply]
    split <;> rfl
  induction h with
  | refl => rfl
  | @tail server next _ heffect ih =>
    refine Eq.trans ?_ ih
    cases heffect with
    | edit event disk hedit =>
      cases event with
      | deleted | contentAdded | contentRemoved =>
        refine edges_of_layers (fun state => ?_) guid
        exact State.layers_noteChange _
      | data change =>
        cases change with
        | missionFeedAdded | missionFeedRemoved | externalDataSet | externalDataChange => rfl
        | mapLayerSaved other layer creatorUid changeId => cases changeId <;> rfl
        | _ => exact absurd (hedit.2.2.symm.trans hrequest) (by decide)
      | _ => first | rfl | cases hedit.1
    | raise mission sub role disk | assign mission clientUid username role id disk =>
      exact edges_of_layers (fun state => hrole state _ _ _) guid
    | unsubscribe mission id disk => exact edges_of_layers (fun state => hend state _ _) guid
    | _ => rfl

variable {about : MissionRequest} {key : Key} {username : String}

theorem handleAbout_forests (hstart : Forests start)
    (hplaced : Placed env inputs start mission.guid about)
    (hlayers : Request.editsLayers (.about key about) = true) :
    wp (handleAbout env caller inputs mission about) (fun _ => Forests) (fun _ =>
      Forests) start := by
  have hshaped :
      LeavesForest start mission.guid (handleAbout env caller inputs mission about) start := by
    cases about with
    | createLayer params => exact createLayerImpl_shaped hstart hplaced
    | renameLayer uid params => exact renameLayerImpl_shaped hstart uid params
    | setLayerParent uids params => exact setLayerParentImpl_shaped hstart hplaced
    | deleteLayers uids creatorUid => exact deleteLayersImpl_shaped hstart uids creatorUid
    | addContents hashes uids paths creatorUid => exact addContentsImpl_shaped hstart hplaced
    | _ => cases hlayers
  exact hshaped.mono (fun _ _ h => h.forests hstart) (fun _ _ h => h.forests hstart)

/-- What keeps the layers a forest: each request on layers, seen from the state before it, is well
placed. -/
def WellPlaced (env : Env) (server : Server) : Action → Prop
  | .request username headers inputs (.about key about) =>
      ∀ mission, (env.caller server username headers).target server.state key = .ok mission →
        Placed env inputs server mission.guid about
  | _ => True

theorem forests_of_edges (h : Forests server)
    (hsame : ∀ guid, next.edges guid = server.edges guid) : Forests next := by
  intro guid
  rw [hsame]
  exact h guid

theorem edges_of_streamed {clientUid : String}
    (h : ReflTransGen (Streamed username clientUid) start server) (guid : String) :
    server.edges guid = start.edges guid := by
  induction h with
  | refl => rfl
  | tail _ hchange ih =>
    refine Eq.trans ?_ ih
    cases hchange with
    | pass => rfl
    | edit event disk hedit hlayers => exact edges_of_layers hlayers guid

private theorem forests_respond (h : Forests server) {headers : Headers}
    (hplaced : WellPlaced env server (.request username headers inputs (.about key about)))
    (hlayers : Request.editsLayers (.about key about) = true) :
    Forests (respond env server username headers inputs (.about key about)) := by
  have hhandle : wp (handle env (env.caller server username headers) inputs (.about key about))
      (fun _ => Forests) (fun _ => Forests) server := by
    rw [handle, wp_bind, Caller.existing, wp_reads]
    exact ⟨fun mission hmission => handleAbout_forests h (hplaced mission hmission) hlayers,
      fun _ _ => h⟩
  rw [wp] at hhandle
  rw [respond]
  split
  · next reply next hok =>
    rw [hok] at hhandle
    exact hhandle
  · next e next herror =>
    rw [herror] at hhandle
    exact hhandle

private theorem Forests.step (h : Forests server) {action : Action}
    (hplaced : WellPlaced env server action) (hstep : Missions.step env server action = some next) :
    Forests next := by
  cases step_outcome hstep with
  | request username headers inputs request tokens next hreached hshows =>
    by_cases hlayers : request.editsLayers = true
    · rw [← Option.some.inj hstep]
      cases request with
      | about key about => exact forests_respond h hplaced hlayers
      | _ => cases hlayers
    · have hnext : Forests next :=
        forests_of_edges h (edges_of_reached (by simpa using hlayers) hreached)
      exact hnext
  | stream username clientUid names guids eventUid now next hstreamed =>
    exact forests_of_edges h (edges_of_streamed hstreamed)
  | deliver username notice hnotice => exact h
  | outside _ _ hstate =>
    refine forests_of_edges h fun guid => ?_
    rw [Server.edges, hstate]
    rfl

theorem layers_stay_forest {actions : List Action}
    (hplaced : Along (step env) (WellPlaced env) {} actions)
    (hrun : run (step env) {} actions = some server) (guid : String) {depth : Nat}
    (hdepth : (server.state.data.layersOf guid).length < depth) :
    (∃ trees, server.state.data.layerTrees guid depth = some trees ∧
      (flattenAll trees).Perm (server.state.data.layersOf guid) ∧
      ((flattenAll trees).map (·.uid)).Nodup) ∧
    ∀ uid, ∃ tree, server.state.data.layerTree guid uid depth = some tree := by
  have hforests : Forests server :=
    run_invariant Forests hrun hplaced (fun _ =>
      ⟨List.nodup_nil, fun _ => 0, fun _ _ hparent => absurd hparent List.not_mem_nil⟩)
        fun _ _ _ h hplaced hstep => h.step hplaced hstep
  have hforest : IsForest (server.state.data.edges guid) := hforests guid
  refine ⟨?_, fun uid => layerTree_of_forest hforest uid hdepth⟩
  obtain ⟨trees, htrees⟩ := exists_build (p := none) sortLayers_spec hforest nodup_nil
    (nil_subset _) (fun _ _ _ => forall_mem_nil _) hdepth
  have hperm := build_perm sortLayers_spec hforest htrees
  refine ⟨trees, htrees, hperm, (hperm.map _).nodup_iff.2 ?_⟩
  have hnodup := hforest.nodup
  rw [MissionData.edges, List.map_map] at hnodup
  exact hnodup

def nested : List Action :=
  [.request "alice" {} {} (.put "Ops" {} false),
    .request "alice" {} { now := 1 } (.about (.name "Ops")
      (.createLayer
        { name := some "A", type := some "GROUP", uid := some "a", creatorUid := some "alice" })),
    .request "alice" {} { now := 2 } (.about (.name "Ops")
      (.createLayer
        { name := some "B", type := some "GROUP", uid := some "b", creatorUid := some "alice" })),
    .request "alice" {} { now := 3 } (.about (.name "Ops")
      (.setLayerParent ["b"] { parentUid := some "a", creatorUid := some "alice" }))]

private theorem wellPlaced_nested : Along (step Env.sample) (WellPlaced Env.sample) {} nested := by
  -- A layer without a parent is well placed wherever it goes.
  have htop : ∀ server inputs name type creator {uid : String}, uid ≠ "" →
      WellPlaced Env.sample server
        (.request "alice" {} inputs
          (.about (.name "Ops")
            (.createLayer { name, type, uid := some uid, creatorUid := creator }))) := by
    intro server inputs name type creator uid huid mission _
    have hgiven : (some uid).filter (· ≠ "") = some uid := by simp [huid]
    simp only [Placed, hgiven]
    split <;> simp
  refine (along_cons rfl).2
    ⟨trivial, (along_cons rfl).2 ⟨htop _ _ _ _ _ (by decide),
      (along_cons rfl).2 ⟨htop _ _ _ _ _ (by decide), (along_cons rfl).2 ⟨?_, trivial⟩⟩⟩⟩
  intro mission hmission p hp _ uid huid
  have hguid : some mission.guid = some "u" := by
    have hfound := congrArg (Option.map MissionRecord.guid) (toOption_eq_some.2 hmission)
    rw [Option.map_some] at hfound
    rw [← hfound]
    decide +kernel
  obtain rfl : "a" = p := Option.some.inj hp
  obtain rfl : uid = "b" := mem_singleton.1 huid
  rw [Option.some.inj hguid, show Server.edges _ "u" = [("a", none), ("b", none)] by decide +kernel]
  intro hwithin
  obtain heq | ⟨q, hq, -⟩ := ReflTransGen.cases_head hwithin
  · exact absurd heq (by decide)
  · simp [Parent] at hq

theorem layers_stay_forest_nested :
    ∃ server, run (step Env.sample) {} nested = some server ∧
      ∃ trees, server.state.data.layerTrees "u" 3 = some trees ∧
        (flattenAll trees).Perm (server.state.data.layersOf "u") :=
  ⟨_, rfl, (layers_stay_forest wellPlaced_nested rfl "u" (by decide +kernel)).1.imp fun _ h =>
    ⟨h.1, h.2.1⟩⟩

def selfParent : List Action :=
  [.request "alice" {} {} (.put "Ops" {} false),
    .request "alice" {} { now := 1 } (.about (.name "Ops")
      (.createLayer
        { name := some "A", type := some "GROUP", uid := some "a", creatorUid := some "alice" })),
    .request "alice" {} { now := 2 } (.about (.name "Ops")
      (.setLayerParent ["a"] { parentUid := some "a", creatorUid := some "alice" }))]

/-- However deep the recursion goes, the tree of the layer is not finished, and the trees of the
mission leave it out. -/
theorem layer_under_itself :
    ∃ server, run (step Env.sample) {} selfParent = some server ∧
      (server.state.data.layersOf "u").map (·.uid) = ["a"] ∧
      (∀ depth, server.state.data.layerTree "u" "a" depth = none) ∧
      server.state.data.layerTrees "u" 1 = some [] := by
  have hbuild : ∀ layer : LayerRecord, layer.parent = some layer.uid → ∀ depth,
      build LayerRecord.edge sortLayers [layer] depth (some layer.uid) = none := by
    intro layer hlayer depth
    induction depth with
    | zero => rfl
    | succ depth ih =>
      obtain ⟨sorted, hsorted, hperm⟩ := sortLayers_spec [layer]
      rw [perm_singleton.1 hperm] at hsorted
      have hlevel : [layer].filter (fun x => x.edge.2 = some layer.uid) = [layer] := by
        simp [LayerRecord.edge, hlayer]
      rw [build, hlevel, hsorted]
      simp [plant, LayerRecord.edge, ih]
  refine ⟨_, rfl, by decide +kernel, fun depth => ?_, rfl⟩
  exact congrArg (Option.map _)
    (hbuild { uid := "a", name := some "A", layerType := .group, parent := some "a", after := none }
      rfl depth)

end MicroTak.Missions
