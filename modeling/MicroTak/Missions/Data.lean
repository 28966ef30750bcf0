import MicroTak.Lib.Dict

/-!
# What belongs to a mission besides its record

Layers are kept per mission.  Map layers, external data and feeds are kept by their own uid or id
for all missions together, each with the guid of the mission that holds it.  The changes of all
missions are one list under increasing ids.
-/

namespace MicroTak.Missions

open Std Dict

/-- A resource by its hash, or a CoT uid. -/
inductive Content where
  | hash (hash : String)
  | uid (uid : String)
  deriving DecidableEq

def Content.key : Content → String
  | .hash h => h
  | .uid u => u

inductive ChangeType where
  | createMission
  | deleteMission
  | addContent
  | removeContent
  | createDataFeed
  | deleteDataFeed
  deriving DecidableEq

structure ExternalDataChange where
  uid : String
  name : String
  tool : String
  token : Option String
  notes : Option String
  deriving DecidableEq

structure ChangeRecord where
  id : Nat
  changeType : ChangeType
  missionGuid : String
  missionName : String
  content : Option Content := none
  creatorUid : String
  timestampMs : Int
  serverTimeMs : Int
  externalData : Option ExternalDataChange := none
  mapLayerUid : Option String := none
  missionFeedUid : Option String := none
  deriving DecidableEq

inductive LayerType where
  | group
  | uid
  | contents
  | maplayer
  | item
  deriving DecidableEq

structure LayerRecord where
  uid : String
  name : Option String
  layerType : LayerType
  parent : Option String
  /-- The sibling it comes after. -/
  after : Option String
  deriving DecidableEq

/-- The properties of a map layer; those no handler looks at are in `others`. -/
structure MapLayerProps where
  creatorUid : Option String := none
  name : Option String := none
  description : Option String := none
  type : Option String := some "MapTile"
  url : Option String := none
  defaultLayer : Bool := false
  enabled : Bool := false
  others : List (String × String) := []
  deriving DecidableEq

structure MapLayerRecord where
  uid : String
  missionGuid : String
  createTimeMs : Int
  modifiedTimeMs : Int
  props : MapLayerProps
  deriving DecidableEq

structure ExternalDataRecord where
  id : String
  name : String
  tool : String
  urlData : String
  urlDisplay : String
  notes : String
  missionGuid : String
  deriving DecidableEq

structure MissionFeedRecord where
  uid : String
  missionGuid : String
  dataFeedUid : String
  filterPolygon : Option String
  filterCotTypesSerialized : Option String
  filterCallsign : Option String
  deriving DecidableEq

structure MissionData where
  /-- Per mission guid, in the order they were added. -/
  layers : TreeMap String (List LayerRecord) := ∅
  mapLayers : Keyed MapLayerRecord.uid := {}
  externalData : Keyed ExternalDataRecord.id := {}
  missionFeeds : Keyed MissionFeedRecord.uid := {}
  changes : List ChangeRecord := []
  nextChangeId : Nat := 0

inductive DataEvent where
  | missionFeedAdded (guid : String) (feed : MissionFeedRecord) (creatorUid : String)
    (changeId : Nat) (atMs : Int)
  | missionFeedRemoved (guid uid creatorUid : String) (changeId : Nat) (atMs : Int)
  /-- An update records no change. -/
  | mapLayerSaved (guid : String) (layer : MapLayerRecord) (creatorUid : String)
    (changeId : Option Nat)
  | externalDataSet (guid : String) (record : ExternalDataRecord) (creatorUid : String) (atMs : Int)
    (changeId : Nat)
  | externalDataChange (guid : String) (change : ExternalDataChange) (remove : Bool)
    (creatorUid : String) (atMs : Int)
      (changeId : Nat)
  | layerSaved (guid : String) (layer : LayerRecord)
  | layerNamed (guid uid name : String)
  | layerParentSet (guid uid : String) (parent : Option String)
  | layerAfterSet (guid uid : String) (after : Option String)
  | layerDeleted (guid uid : String)
  deriving DecidableEq

def DataEvent.guid : DataEvent → String
  | .missionFeedAdded guid .. | .missionFeedRemoved guid .. | .mapLayerSaved guid ..
  | .externalDataSet guid ..
  | .externalDataChange guid .. | .layerSaved guid _ | .layerNamed guid .. | .layerParentSet guid ..
  | .layerAfterSet guid .. | .layerDeleted guid _ => guid

def DataEvent.isLayer : DataEvent → Bool
  | .layerSaved .. | .layerNamed .. | .layerParentSet .. | .layerAfterSet .. | .layerDeleted .. =>
    true
  | _ => false

def updateLayer (uid : String) (f : LayerRecord → LayerRecord) : List LayerRecord → List LayerRecord
  | [] => []
  | layer :: rest => if layer.uid = uid then f layer :: rest else layer :: updateLayer uid f rest

theorem map_updateLayer {β : Type} {g : LayerRecord → β} {uid : String}
    {f : LayerRecord → LayerRecord} {layers : List LayerRecord}
    (hf : ∀ layer, g (f layer) = g layer) : (updateLayer uid f layers).map g = layers.map g :=
  Dict.map_update rfl (fun _ _ => rfl) hf

def MapLayerRecord.unsetDefault (layer : MapLayerRecord) : MapLayerRecord :=
  { layer with props := { layer.props with defaultLayer := false } }

namespace MissionData

variable (data : MissionData)

def layersOf (guid : String) : List LayerRecord := (data.layers[guid]?).getD []

def layer (guid uid : String) : Option LayerRecord := (data.layersOf guid).find? (·.uid = uid)

def mapLayersOf (guid : String) : List MapLayerRecord :=
  data.mapLayers.values.filter (·.missionGuid = guid)

def externalDataOf (guid : String) : List ExternalDataRecord :=
  data.externalData.values.filter (·.missionGuid = guid)

def missionFeedsOf (guid : String) : List MissionFeedRecord :=
  data.missionFeeds.values.filter (·.missionGuid = guid)

def pushChange (change : ChangeRecord) : MissionData :=
  { data with
    changes := data.changes ++ [change], nextChangeId := max data.nextChangeId (change.id + 1) }

def updateLayers (guid : String) (f : List LayerRecord → List LayerRecord) : MissionData :=
  match data.layers[guid]? with
  | some layers => { data with layers := data.layers.insert guid (f layers) }
  | none => data

/-- A default layer takes the flag from every other one, of any mission. -/
def saveMapLayer (layer : MapLayerRecord) : MissionData :=
  let others :=
    if layer.props.defaultLayer then data.mapLayers.mapValues MapLayerRecord.unsetDefault fun _ =>
      rfl else data.mapLayers
  { data with mapLayers := others.insert layer }

/-- `missionName` is the name of the mission the event is on. -/
def apply (missionName : String) : DataEvent → MissionData
  | .missionFeedAdded guid feed creatorUid changeId atMs =>
      { data with missionFeeds := data.missionFeeds.insert feed }.pushChange
        { id := changeId, changeType := .createDataFeed, missionGuid := guid, missionName,
          creatorUid
          timestampMs := atMs, serverTimeMs := atMs, missionFeedUid := some feed.uid }
  | .missionFeedRemoved guid uid creatorUid changeId atMs =>
      { data with missionFeeds := data.missionFeeds.erase uid }.pushChange
        { id := changeId, changeType := .deleteDataFeed, missionGuid := guid, missionName,
          creatorUid
          timestampMs := atMs, serverTimeMs := atMs, missionFeedUid := some uid }
  | .mapLayerSaved guid layer creatorUid changeId =>
      match changeId with
      | some changeId =>
          (data.saveMapLayer layer).pushChange
            { id := changeId, changeType := .addContent, missionGuid := guid, missionName,
              creatorUid
              timestampMs := layer.modifiedTimeMs, serverTimeMs := layer.modifiedTimeMs,
                mapLayerUid := some layer.uid }
      | none => data.saveMapLayer layer
  | .externalDataSet guid record creatorUid atMs changeId =>
      { data with externalData := data.externalData.insert record }.pushChange
        { id := changeId, changeType := .addContent, missionGuid := guid, missionName, creatorUid
          timestampMs := atMs, serverTimeMs := atMs
          externalData := some
            { uid := record.id, name := record.name, tool := record.tool, token := none,
              notes := some record.notes } }
  | .externalDataChange guid change remove creatorUid atMs changeId =>
      { data with
        externalData := if remove then data.externalData.erase change.uid
          else data.externalData }.pushChange
        { id := changeId, changeType := if remove then .removeContent else .addContent,
          missionGuid := guid, missionName
          creatorUid, timestampMs := atMs, serverTimeMs := atMs, externalData := some change }
  | .layerSaved guid layer =>
    { data with layers := data.layers.insert guid (data.layersOf guid ++ [layer]) }
  | .layerNamed guid uid name =>
    data.updateLayers guid (updateLayer uid fun l => { l with name := some name })
  | .layerParentSet guid uid parent =>
    data.updateLayers guid (updateLayer uid fun l => { l with parent, after := none })
  | .layerAfterSet guid uid after =>
    data.updateLayers guid (updateLayer uid fun l => { l with after })
  | .layerDeleted guid uid => data.updateLayers guid fun layers => layers.filter (·.uid ≠ uid)

end MissionData

def DataEvent.onLayers (guid : String) (event : DataEvent) (layers : List LayerRecord) :
    List LayerRecord :=
  match event with
  | .layerSaved other layer => if other = guid then layers ++ [layer] else layers
  | .layerNamed other uid name =>
    if other = guid then updateLayer uid (fun l => { l with name := some name }) layers else layers
  | .layerParentSet other uid parent =>
      if other = guid then updateLayer uid (fun l => { l with parent, after := none }) layers
        else layers
  | .layerAfterSet other uid after =>
    if other = guid then updateLayer uid (fun l => { l with after }) layers else layers
  | .layerDeleted other uid => if other = guid then layers.filter (·.uid ≠ uid) else layers
  | _ => layers

namespace MissionData

variable {data : MissionData}

theorem layersOf_updateLayers (guid other : String) {f : List LayerRecord → List LayerRecord}
    (hf : f [] = []) : (data.updateLayers guid f).layersOf other = if guid = other then f
    (data.layersOf guid) else data.layersOf other := by
  unfold updateLayers
  split
  · next layers hlayers =>
    simp only [layersOf, Dict.getElem?_insert, hlayers]
    split <;> rfl
  · next hnone =>
    split
    · next heq => rw [← heq, layersOf, hnone, Option.getD_none, hf]
    · rfl

private theorem updateLayers_eq (guid : String) (f : List LayerRecord → List LayerRecord) :
    ∃ layers, data.updateLayers guid f = { data with layers } := by
  unfold updateLayers
  split <;> exact ⟨_, rfl⟩

theorem apply_of_isLayer {event : DataEvent} (h : event.isLayer = true) (missionName : String) :
    ∃ layers, data.apply missionName event = { data with layers } := by
  cases event with
  | layerSaved guid layer => exact ⟨_, rfl⟩
  | layerNamed | layerParentSet | layerAfterSet | layerDeleted => exact updateLayers_eq _ _
  | _ => cases h

theorem layersOf_apply (missionName : String) (event : DataEvent) (guid : String) :
    (data.apply missionName event).layersOf guid = event.onLayers guid (data.layersOf guid) := by
  cases event with
  | missionFeedAdded | missionFeedRemoved | externalDataSet | externalDataChange => rfl
  | mapLayerSaved other layer creatorUid changeId => cases changeId <;> rfl
  | layerSaved other layer =>
    simp only [apply, layersOf, Dict.getElem?_insert, DataEvent.onLayers]
    split
    · next heq =>
      rw [← heq]
      rfl
    · rfl
  | layerNamed other uid name | layerParentSet other uid parent | layerAfterSet other uid after
  | layerDeleted other uid =>
    refine (layersOf_updateLayers other guid rfl).trans ?_
    simp only [DataEvent.onLayers]
    split
    · next heq => rw [heq]
    · rfl

end MissionData

end MicroTak.Missions
