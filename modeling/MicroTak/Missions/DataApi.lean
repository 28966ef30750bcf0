import MicroTak.Missions.Layers
import MicroTak.Missions.Server

/-!
# Requests on the data of a mission

Keywords, map layers, external data, feeds and layers.  Each request needs the write permission on
its mission.  Map layers, external data and feeds are looked up by their own uid or id, without
regard to the mission that holds them.
-/

namespace MicroTak.Missions

open Std Handler Forest MissionStore

section Data

variable (env : Env) (caller : Caller) (inputs : Inputs) (mission : MissionRecord)

def requireWrite : Api Unit := do
  let server ← get
  require caller mission (env.roleFor server.state mission caller) .write

/-- A parameter that some requests refuse to go without, and do not say so. -/
def given {α : Type} (value : Option α) : Api α := orThrow value (.badRequest "")

def required (name : String) (value : Option String) : Api String :=
  orThrow value (.badRequest ("Required request parameter '" ++ name ++ "' is not present"))

def missionResponse : Api Reply := do
  let server ← get
  let updated ← orThrow (server.state.byGuid mission.guid) .internal
  return .mission updated none none false

/-! ### Keywords

A body that is no list of keywords stands as none.  These requests read their query string, for the
announcement, when the keywords are stored; every other one reads it before it changes anything. -/

def readQuery : Api Unit :=
  ensure (inputs.badQuery = none) (.badRequest ("bad query string: " ++ inputs.badQuery.getD ""))

def setKeywordsImpl (keywords : Option (List String)) : Api Reply := do
  requireWrite env caller mission
  let keywords ← orThrow keywords .invalidBody
  storeOp (setKeywords mission.guid keywords.toFinset inputs.now)
  readQuery inputs
  missionResponse mission

def clearKeywordsImpl : Api Reply := do
  requireWrite env caller mission
  storeOp (setKeywords mission.guid ∅ inputs.now)
  readQuery inputs
  missionResponse mission

def removeKeywordImpl (name keyword : String) : Api Reply := do
  requireWrite env caller mission
  ensure (keyword ∈ mission.keywords)
    (.badRequest ("mission '" ++ name ++ "' did not contain keyword " ++ keyword))
  storeOp (setKeywords mission.guid (mission.keywords.erase keyword) inputs.now)
  readQuery inputs
  missionResponse mission

def setContentKeywordsImpl (content : Content) (keywords : Option (List String)) : Api Reply := do
  requireWrite env caller mission
  let keywords ← orThrow keywords .invalidBody
  ensure (keywords ≠ []) (.badRequest "empty keywords array")
  storeOp (setContentKeywords mission.guid content keywords)
  readQuery inputs
  return .ok

def clearContentKeywordsImpl (content : Content) : Api Reply := do
  requireWrite env caller mission
  storeOp (setContentKeywords mission.guid content [])
  readQuery inputs
  return .ok

/-! ### Map layers -/

/-- The body of a request on a map layer; an absent uid is the empty one. -/
structure MapLayerBody where
  uid : String := ""
  props : MapLayerProps
  deriving DecidableEq

/-- What the official table does not take as null. -/
def MapLayerProps.complete (props : MapLayerProps) : Bool :=
  props.name.isSome && props.type.isSome && props.url.isSome

def stripDashes (uuid : String) : String := String.ofList (uuid.toList.filter (· ≠ '-'))

def saveNewMapLayer (props : MapLayerProps) (creator : String) : Api MapLayerRecord := do
  let uuid ← env.draw
  let layer : MapLayerRecord :=
    { uid := stripDashes uuid
      missionGuid := mission.guid
      createTimeMs := inputs.now
      modifiedTimeMs := inputs.now
      props }
  let _ ← storeOp (addMapLayer mission.guid layer creator)
  return layer

def addMapLayerImpl (creatorUid : Option String) (body : Option MapLayerBody) : Api Reply := do
  requireWrite env caller mission
  let creator ← given creatorUid
  let body ← orThrow body .invalidBody
  ensure (body.props.complete = true) .internal
  let layer ← saveNewMapLayer env inputs mission body.props creator
  return .mapLayer layer

/-- What an update sets; the rest of the record stays. -/
def MapLayerProps.updatedBy (props new : MapLayerProps) : MapLayerProps :=
  { props with
    creatorUid := new.creatorUid
    name := new.name
    description := new.description
    type := new.type
    url := new.url
    defaultLayer := new.defaultLayer
    enabled := new.enabled }

/-- The layer is looked up among those of all missions. -/
def updateMapLayerImpl (creatorUid : Option String) (body : Option MapLayerBody) : Api Reply := do
  requireWrite env caller mission
  let _ ← given creatorUid
  let body ← orThrow body .invalidBody
  let server ← get
  let found ← orThrow (server.state.data.mapLayers.get? body.uid) .internal
  let updated : MapLayerRecord := { found with props := found.props.updatedBy body.props }
  ensure (updated.props.complete = true) .internal
  let saved : MapLayerRecord := { updated with modifiedTimeMs := inputs.now }
  storeOp (updateMapLayer saved)
  let server ← get
  return .mapLayer ((server.state.data.mapLayers.get? body.uid).getD saved)

/-! ### External data -/

/-- Absent fields are empty. -/
structure ExternalDataBody where
  uid : String := ""
  name : String := ""
  tool : String := ""
  urlData : String := ""
  urlView : String := ""
  notes : String := ""
  deriving DecidableEq

def saveExternal (record : ExternalDataRecord) (creator : String) : Api Unit := do
  let _ ← storeOp (setExternalData mission.guid record creator inputs.now)

def setExternalImpl (creatorUid : Option String) (body : Option ExternalDataBody) : Api Reply := do
  requireWrite env caller mission
  let creator ← given creatorUid
  let body ← orThrow body .invalidBody
  ensure (body.uid ≠ "") (.badRequest "ExternalMissionData id must be included")
  let record : ExternalDataRecord :=
    { id := body.uid
      name := body.name
      tool := body.tool
      urlData := body.urlData
      urlDisplay := body.urlView
      notes := body.notes
      missionGuid := mission.guid }
  saveExternal inputs mission record creator
  return .externalData record

/-- The record by its id, whichever mission holds it. -/
def externalChangeImpl (id : String) (creatorUid notes : Option String)
    (action : MissionStore.ExternalDataAction) : Api Reply := do
  requireWrite env caller mission
  let creator ← given creatorUid
  let notes ← given notes
  let change ← storeOp (externalDataChange mission.guid id action notes creator inputs.now)
  let _ ← orThrow change (.notFound ("externalMissionDataId " ++ id ++ " not found"))
  return .ok

/-! ### Feeds -/

/-- `cotTypes` is the list of types as it is stored, or nothing if the parameter is no list. -/
structure FeedParams where
  creatorUid : Option String
  dataFeedUid : Option String
  cotTypes : Option String := some "[]"
  filterPolygon : Option String := none
  filterCallsign : Option String := none
  deriving DecidableEq

def addMissionFeed (params : FeedParams) : Api Reply := do
  requireWrite env caller mission
  let creator ← given params.creatorUid
  let dataFeedUid ← given params.dataFeedUid
  let cotTypes ← orThrow params.cotTypes
    (.badRequest "Error parsing parameter filterCotTypesSerialized from the request")
  let uid ← env.draw
  let feed : MissionFeedRecord :=
    { uid
      missionGuid := mission.guid
      dataFeedUid
      filterPolygon := params.filterPolygon
      filterCotTypesSerialized := some cotTypes
      filterCallsign := params.filterCallsign }
  let _ ← storeOp (MissionStore.addMissionFeed mission.guid feed creator inputs.now)
  return .ok

def removeMissionFeed (uid : String) (creatorUid : Option String) : Api Reply := do
  requireWrite env caller mission
  let creator ← given creatorUid
  let _ ← storeOp (MissionStore.removeMissionFeed mission.guid uid creator inputs.now)
  return .ok

end Data

/-! ### Layers -/

def LayerType.parse : String → Option LayerType
  | "GROUP" => some .group
  | "UID" => some .uid
  | "CONTENTS" => some .contents
  | "MAPLAYER" => some .maplayer
  | "ITEM" => some .item
  | _ => none

/-- The content an item of a layer of this type stands for. -/
def LayerType.filed (layerType : LayerType) (uid : String) : Option Content :=
  match layerType with
  | .uid => some (.uid uid)
  | .contents => some (.hash uid)
  | _ => none

structure LayerParams where
  name : Option String := none
  type : Option String := none
  uid : Option String := none
  parentUid : Option String := none
  afterUid : Option String := none
  creatorUid : Option String := none
  deriving DecidableEq

section Layers

variable (env : Env) (caller : Caller) (inputs : Inputs) (mission : MissionRecord)

/-- Refused if the layer, or a parent that is given, does not exist. -/
def moveLayer (uid : String) (parent after : Option String) : Api Unit := do
  let server ← get
  let _ ← orThrow (server.state.data.layer mission.guid uid) (.notFound "")
  ensure (parent.all (fun p => (server.state.data.layer mission.guid p).isSome) = true)
    (.notFound "")
  storeOp (MissionStore.moveLayer mission.guid uid parent after)

/-- A uid in use is moved instead.  The parent of a new layer is stored as given. -/
def addLayer (uid name : Option String) (layerType : LayerType) (parent after : Option String) :
    Api (LayerRecord × Option String) := do
  let server ← get
  match uid.bind (server.state.data.layer mission.guid) with
  | some found => do
      moveLayer mission found.uid parent after
      let server ← get
      return (found, (server.state.data.layer mission.guid (found.parent.getD "")).map (·.uid))
  | none => do
      let uid ← match uid with
        | some uid => pure uid
        | none => env.draw
      let layer : LayerRecord := { uid, name, layerType, parent, after }
      storeOp (MissionStore.addLayer mission.guid layer)
      let server ← get
      return (layer, (parent.bind (server.state.data.layer mission.guid)).map (·.uid))

def createLayerImpl (params : LayerParams) : Api Reply := do
  requireWrite env caller mission
  let name ← required "name" params.name
  let typeName ← required "type" params.type
  let layerType ← orThrow (LayerType.parse typeName)
    (.badRequest ("invalid layer type '" ++ typeName ++ "'"))
  let _ ← required "creatorUid" params.creatorUid
  let (layer, parent) ← addLayer env mission (params.uid.filter (· ≠ "")) (some name) layerType
    (params.parentUid.filter (· ≠ "")) (params.afterUid.filter (· ≠ ""))
  return .layer layer parent

def renameLayerImpl (uid : String) (params : LayerParams) : Api Reply := do
  requireWrite env caller mission
  let name ← required "name" params.name
  let _ ← required "creatorUid" params.creatorUid
  let server ← get
  let _ ← orThrow (server.state.data.layer mission.guid uid) (.notFound "")
  storeOp (renameLayer mission.guid uid name)
  return .ok

/-- Each layer comes after the one before it. -/
def moveLayers (mission : MissionRecord) (parent : Option String) :
    Option String → List String → Api Unit
  | _, [] => pure ()
  | after, uid :: rest => do
      moveLayer mission uid parent after
      moveLayers mission parent (some uid) rest

def setLayerParentImpl (layerUids : List String) (params : LayerParams) : Api Reply := do
  requireWrite env caller mission
  let _ ← required "creatorUid" params.creatorUid
  ensure (layerUids ≠ []) (.badRequest "Required request parameter 'layerUid' is not present")
  moveLayers mission (params.parentUid.filter (· ≠ "")) (params.afterUid.filter (· ≠ "")) layerUids
  return .ok

mutual

/-- Its descendants first, then the content filed in it, then the layer. -/
def removeLayerTree (mission : MissionRecord) (creator : String) : LayerTree → Api Unit
  | .node layer children => do
      removeLayerTrees mission creator children
      let server ← get
      let current ← orThrow (server.state.byGuid mission.guid) .internal
      let items := children.filter fun child => child.value.layerType = .item
      let filed :=
        (items.filterMap fun child => layer.layerType.filed child.value.uid).filter current.has
      filed.forM fun content => storeOp (removeContent mission.guid content creator inputs.now)
      storeOp (deleteLayer mission.guid layer.uid)

def removeLayerTrees (mission : MissionRecord) (creator : String) : List LayerTree → Api Unit
  | [] => pure ()
  | tree :: rest => do
      removeLayerTree mission creator tree
      removeLayerTrees mission creator rest

end

/-- The tree of a layer.  A recursion that goes further down than there are layers never comes
back. -/
def layerTreeOf (uid : String) : Api (Option LayerTree) := do
  let server ← get
  orThrow (server.state.data.layerTree mission.guid uid
    ((server.state.data.layersOf mission.guid).length + 1)) .crashed

/-- An unknown layer is passed over. -/
def deleteLayer (creator uid : String) : Api Unit := do
  match ← layerTreeOf mission uid with
  | none => pure ()
  | some tree => removeLayerTree inputs mission creator tree

def deleteLayersImpl (uids : List String) (creatorUid : Option String) : Api Reply := do
  requireWrite env caller mission
  let creator ← required "creatorUid" creatorUid
  ensure (uids ≠ []) (.badRequest "Required request parameter 'uid' is not present")
  uids.forM (deleteLayer inputs mission creator)
  return .ok

end Layers

end MicroTak.Missions
