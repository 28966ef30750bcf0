import MicroTak.Missions.Rules

/-!
# Requests on mission data are justified

After the check on the mission, each handler records events that the request is licensed to make.
-/

namespace MicroTak.Missions

open Std Handler Forest Relation Journal.Op MissionStore

variable {env : Env} {caller : Caller} {inputs : Inputs} {request : Request} {start server : Server}
variable {mission : MissionRecord}

variable {guid uid creator : String} {p : Event → Prop}

theorem allowed_onLayers (hwrite : MayWrite env caller request start guid)
    (hlayers : request.editsLayers = true) {event : Event}
    (hevent : MissionStore.OnLayers guid event) : Allowed env caller request start event := by
  obtain ⟨change, rfl, hlayer, rfl⟩ := hevent
  refine ⟨rfl, ?_⟩
  cases change with
  | layerSaved | layerNamed | layerParentSet | layerAfterSet | layerDeleted =>
    exact ⟨hwrite, hlayers⟩
  | _ => cases hlayer

theorem keeps_draw : Keeps (Reached env caller request start) env.draw :=
  ⟨fun h => h.tail (.draw _)⟩

section Layers

variable {I : Server → Prop} {α : Type} {parent after : Option String}
variable (hop : ∀ {α : Type} {op : MissionStore.Op α},
  op.Only (MissionStore.OnLayers mission.guid) → Keeps I (storeOp op))

include hop

theorem keeps_moveLayer : Keeps I (moveLayer mission uid parent after) :=
  keeps_get.bind fun _ => keeps_orThrow.bind fun _ => keeps_ensure.bind fun _ =>
    hop (only_moveLayer _ _ _)

theorem keeps_moveLayers {uids : List String} : Keeps I (moveLayers mission parent after uids) := by
  induction uids generalizing after with
  | nil => exact keeps_pure
  | cons uid rest ih => exact (keeps_moveLayer hop).bind fun _ => ih

variable (hdraw : Keeps I env.draw)

include hdraw

theorem keeps_addLayer {uid name : Option String} {layerType : LayerType} :
    Keeps I (addLayer env mission uid name layerType parent after) := by
  have hadd := fun layer => hop (only_addLayer layer)
  refine keeps_get.bind fun server => ?_
  split
  · exact (keeps_moveLayer hop).bind fun _ => keeps_get.bind fun _ => keeps_pure
  · split
    · exact keeps_pure.bind fun _ => (hadd _).bind fun _ => keeps_get.bind fun _ => keeps_pure
    · exact hdraw.bind fun _ => (hadd _).bind fun _ => keeps_get.bind fun _ => keeps_pure

theorem keeps_fileContents {path creatorUid : String} {contents : List Content}
    (hadd : ∀ content ∈ contents,
      Keeps I (storeOp (addContent mission.guid content creatorUid inputs.now))) :
    Keeps I (fileContents env inputs mission creatorUid path after contents) := by
  induction contents generalizing after with
  | nil => exact keeps_pure
  | cons content rest ih =>
    obtain ⟨hfirst, hrest⟩ := List.forall_mem_cons.1 hadd
    exact hfirst.bind fun _ => (keeps_addLayer hop hdraw).bind fun _ => ih hrest

end Layers

section Operations

variable (hwrite : MayWrite env caller request start mission.guid) {creatorUid : String}

include hwrite

variable {content : Content} {atMs : Int} {serverMs : Option Int}

theorem keeps_addContentAt : Keeps (Reached env caller request start)
      (storeOp (addContentAt mission.guid content creatorUid atMs serverMs)) :=
  keeps_change reached_edit fun _ => ⟨rfl, hwrite⟩

theorem keeps_removeContentAt : Keeps (Reached env caller request start)
      (storeOp (removeContentAt mission.guid content creatorUid atMs serverMs)) :=
  keeps_change reached_edit fun _ => ⟨rfl, hwrite⟩

variable (hlayers : request.editsLayers = true)

include hlayers

theorem keeps_onLayers {α : Type} {op : MissionStore.Op α}
    (hop : op.Only (MissionStore.OnLayers mission.guid)) :
    Keeps (Reached env caller request start) (storeOp op) :=
  keeps_storeOp reached_edit (hop.mono fun _ => allowed_onLayers hwrite hlayers)

theorem keeps_deleteLayer :
    Keeps (Reached env caller request start) (deleteLayer inputs mission creatorUid uid) := by
  refine (keeps_get.bind fun _ => keeps_orThrow).bind fun tree => ?_
  split
  · exact keeps_pure
  · exact keeps_removeLayerTree (fun _ => keeps_removeContentAt hwrite)
      (fun uid => keeps_onLayers hwrite hlayers (only_deleteLayer uid)) _

end Operations

theorem keeps_saveNewMapLayer {I : Server → Prop} {props : MapLayerProps}
    (hstable : EditStable p I) (hdraw : ∀ server, I server → I server.drew)
    (hedit : ∀ server layer changeId, I server → layer.missionGuid = mission.guid →
      layer.uid = stripDashes (env.randomUuid server.drawn) → layer.props = props →
      p (.data (.mapLayerSaved mission.guid layer creator (some changeId)))) :
    Keeps I (saveNewMapLayer env inputs mission props creator) := by
  refine ⟨fun {server} h => ?_⟩
  refine Keeps.run (Keeps.bind (keeps_storeOp hstable ?_) fun _ => keeps_pure) (hdraw server h)
  refine only_existing.bind fun _ => only_get.bind fun state => ?_
  exact (only_put (hedit server _ _ h rfl rfl rfl)).bind fun _ => only_get.bind fun _ => trivial

/-- The request may save it if it may write to the mission and says that it is a default, if it
is. -/
theorem allowed_newMapLayer {layer : MapLayerRecord} {changeId : Option Nat}
    (hwrite : MayWrite env caller request start layer.missionGuid)
    (hreached : Reached env caller request start server)
    (huid : layer.uid = stripDashes (env.randomUuid server.drawn))
    (hdefault : layer.props.defaultLayer = true → request.savesDefault caller start.state = true) :
    Allowed env caller request start (.data (.mapLayerSaved guid layer creator changeId)) :=
  ⟨rfl, .inr ⟨hwrite, server.drawn, drawn_le_of_reached hreached, huid⟩, hdefault⟩

theorem keeps_saveExternal {I : Server → Prop}
    (hstable : EditStable (Allowed env caller request start) I) {copy : MissionRecord}
    {record : ExternalDataRecord} (hwrite : MayWrite env caller request start copy.guid)
    (hrecord : record.id ∈ request.externalIds ∨ ∃ mission old, request.target caller start.state =
      some mission ∧
        (env.roleFor start.state mission caller).isSome = true ∧ old.missionGuid = mission.guid ∧
        start.state.data.externalData.get? record.id = some old) :
    Keeps I (saveExternal inputs copy record creator) := by
  refine Keeps.bind (keeps_storeOp hstable ?_) fun _ => keeps_pure
  refine only_existing.bind fun _ => only_get.bind fun state => ?_
  exact (only_put ⟨rfl, hwrite, hrecord⟩).bind fun _ => only_get.bind fun _ => trivial

theorem only_externalDataChange {id notes : String} {action : MissionStore.ExternalDataAction}
    {nowMs : Int}
    (h : ∀ change deleted changeId, change.uid = id →
      p (.data (.externalDataChange guid change deleted creator nowMs changeId))) :
      (externalDataChange guid id action notes creator nowMs).Only p := by
  refine only_existing.bind fun _ => only_get.bind fun state => ?_
  split
  · trivial
  · next found hfound =>
    refine (only_put (h _ _ _ ?_)).bind fun _ => only_get.bind fun _ => trivial
    exact state.data.externalData.keyed _ _ hfound

theorem keeps_addMissionFeed {feed : MissionFeedRecord}
    (hwrite : MayWrite env caller request start mission.guid)
    (huid : ∃ k, start.drawn ≤ k ∧ feed.uid = env.randomUuid k) :
    Keeps (Reached env caller request start)
    (storeOp (MissionStore.addMissionFeed mission.guid feed creator inputs.now)) := by
  refine keeps_storeOp reached_edit ?_
  refine only_existing.bind fun _ => only_get.bind fun state => ?_
  split
  · trivial
  · exact (only_put ⟨rfl, hwrite, huid⟩).bind fun _ => only_get.bind fun _ => trivial

theorem keeps_removeMissionFeed (huid : uid ∈ request.feedUids) :
    Keeps (Reached env caller request start)
    (storeOp (MissionStore.removeMissionFeed mission.guid uid creator inputs.now)) := by
  refine keeps_storeOp reached_edit ?_
  refine only_existing.bind fun _ => only_get.bind fun state => ?_
  split
  · trivial
  · exact (only_put ⟨rfl, huid⟩).bind fun _ => only_get.bind fun _ => trivial

end MicroTak.Missions
