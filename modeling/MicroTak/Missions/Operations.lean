import MicroTak.Missions.Store

/-!
# Operations on mission data

Map layers, external data, feeds and layers, each operation written against the log of the store:
what it looks at, what it refuses and which events it records, in order.  Some record several.
-/

namespace MicroTak.Missions

open Std Handler

namespace MissionStore

open Journal.Op

def lastChange : Op (Option ChangeRecord) := do
  let state ← get
  return state.data.changes.getLast?

/-- Nothing is recorded, and no change returned, for a feed uid in use. -/
def addMissionFeed (guid : String) (feed : MissionFeedRecord) (creatorUid : String) (nowMs : Int) :
    Op (Option ChangeRecord) := do
  let _ ← existing guid
  let state ← get
  if (state.data.missionFeeds.get? feed.uid).isSome then return none
  else do
    put (.data (.missionFeedAdded guid { feed with missionGuid := guid } creatorUid
      state.data.nextChangeId nowMs))
    lastChange

/-- The feed with this uid, of whichever mission. -/
def removeMissionFeed (guid uid creatorUid : String) (nowMs : Int) : Op (Option ChangeRecord) := do
  let _ ← existing guid
  let state ← get
  if (state.data.missionFeeds.get? uid).isNone then return none
  else do
    put (.data (.missionFeedRemoved guid uid creatorUid state.data.nextChangeId nowMs))
    lastChange

def addMapLayer (guid : String) (layer : MapLayerRecord) (creatorUid : String) :
    Op (Option ChangeRecord) := do
  let _ ← existing guid
  let state ← get
  put (.data (.mapLayerSaved guid { layer with missionGuid := guid } creatorUid
    (some state.data.nextChangeId)))
  lastChange

def updateMapLayer (layer : MapLayerRecord) : Op Unit :=
  put (.data (.mapLayerSaved layer.missionGuid layer "" none))

/-- A record of this id that another mission holds moves to this one. -/
def setExternalData (guid : String) (record : ExternalDataRecord) (creatorUid : String)
    (nowMs : Int) : Op (Option ChangeRecord) := do
  let _ ← existing guid
  let state ← get
  put (.data (.externalDataSet guid { record with missionGuid := guid } creatorUid nowMs
    state.data.nextChangeId))
  lastChange

inductive ExternalDataAction where
  | delete
  | changed (token : String)
  deriving DecidableEq

/-- No change is returned for an id that no record has. -/
def externalDataChange (guid id : String) (action : ExternalDataAction) (notes creatorUid : String)
    (nowMs : Int) : Op (Option ChangeRecord) := do
  let _ ← existing guid
  let state ← get
  match state.data.externalData.get? id with
  | none => return none
  | some found => do
      let change : ExternalDataChange :=
        { uid := found.id
          name := found.name
          tool := found.tool
          token := match action with
            | .delete => none
            | .changed token => some token
          notes := some notes }
      put (.data (.externalDataChange guid change (action = .delete) creatorUid nowMs
        state.data.nextChangeId))
      lastChange

/-- The siblings under `parent` that come after `after` now come after `uid`. -/
def fixupAfter (guid : String) (uid parent after : Option String) : Op Unit := do
  let state ← get
  let targets := (state.data.layersOf guid).filter fun l => uid ≠ some l.uid ∧ l.parent = parent ∧
    l.after = after
  putAll (targets.map fun l => .data (.layerAfterSet guid l.uid uid))

def addLayer (guid : String) (layer : LayerRecord) : Op Unit := do
  let _ ← existing guid
  fixupAfter guid (some layer.uid) layer.parent layer.after
  put (.data (.layerSaved guid layer))

def renameLayer (guid uid name : String) : Op Unit :=
  put (.data (.layerNamed guid uid name))

/-- Out of its place, and in after `after` under `parent`. -/
def moveLayer (guid uid : String) (parent after : Option String) : Op Unit := do
  let state ← get
  let layer ← orRefuse (state.data.layer guid uid) (.notFound uid)
  fixupAfter guid layer.after layer.parent (some uid)
  fixupAfter guid (some uid) parent after
  putIf (layer.parent ≠ parent ∨ layer.parent = none) (.data (.layerParentSet guid uid parent))
  let state ← get
  -- The place among its siblings is set only under the parent that was asked for.
  putIf ((state.data.layer guid uid).bind (·.parent) = parent)
    (.data (.layerAfterSet guid uid after))

/-- Closes the gap the layer leaves; nothing happens for an unknown one. -/
def deleteLayer (guid uid : String) : Op Unit := do
  let state ← get
  match state.data.layer guid uid with
  | none => return ()
  | some layer => do
      fixupAfter guid layer.after layer.parent (some uid)
      put (.data (.layerDeleted guid uid))

def OnLayers (guid : String) (event : Event) : Prop :=
  ∃ change, event = .data change ∧ change.isLayer = true ∧ change.guid = guid

section OnLayers

variable {guid : String}

theorem only_existing {p : Event → Prop} : (existing guid).Only p :=
  only_get.bind fun _ => only_orRefuse

theorem only_fixupAfter (uid parent after : Option String) :
    (fixupAfter guid uid parent after).Only (OnLayers guid) := by
  refine only_get.bind fun state => only_putAll fun event hevent => ?_
  obtain ⟨layer, -, rfl⟩ := List.mem_map.1 hevent
  exact ⟨_, rfl, rfl, rfl⟩

theorem only_addLayer (layer : LayerRecord) : (addLayer guid layer).Only (OnLayers guid) :=
  only_existing.bind fun _ => (only_fixupAfter _ _ _).bind fun _ => only_put ⟨_, rfl, rfl, rfl⟩

theorem only_renameLayer (uid name : String) : (renameLayer guid uid name).Only (OnLayers guid) :=
  only_put ⟨_, rfl, rfl, rfl⟩

theorem only_moveLayer (uid : String) (parent after : Option String) :
    (moveLayer guid uid parent after).Only (OnLayers guid) := by
  refine only_get.bind fun state => only_orRefuse.bind fun layer => ?_
  refine (only_fixupAfter _ _ _).bind fun _ => (only_fixupAfter _ _ _).bind fun _ => ?_
  exact (only_putIf ⟨_, rfl, rfl, rfl⟩).bind fun _ => only_get.bind fun _ =>
    only_putIf ⟨_, rfl, rfl, rfl⟩

theorem only_deleteLayer (uid : String) : (deleteLayer guid uid).Only (OnLayers guid) := by
  refine only_get.bind fun state => ?_
  split
  · trivial
  · exact (only_fixupAfter _ _ _).bind fun _ => only_put ⟨_, rfl, rfl, rfl⟩

end OnLayers

end MissionStore

end MicroTak.Missions
