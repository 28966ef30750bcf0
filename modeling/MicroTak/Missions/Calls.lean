import MicroTak.Missions.Operations

/-!
# Calls of the mission store

The functions that change the mission store, as the calls it takes one at a time.
-/

namespace MicroTak.Missions

inductive MissionCall where
  | create (new : NewMission) (nowMs : Int)
  | setFields (guid : String) (fields : MissionFields) (nowMs : Int)
  | setPassword (guid : String) (passwordHash : Option String) (nowMs : Int)
  | setDefaultRole (guid : String) (role : Option Role) (nowMs : Int)
  | setGroups (guid : String) (groups : Finset String) (nowMs : Int)
  | setKeywords (guid : String) (keywords : Finset String) (nowMs : Int)
  | setContentKeywords (guid : String) (content : Content) (keywords : List String)
  | delete (guid creatorUid : String) (nowMs : Int)
  | addContentAt (guid : String) (content : Content) (creatorUid : String) (atMs : Int)
    (serverMs : Option Int)
  | removeContentAt (guid : String) (content : Content) (creatorUid : String) (atMs : Int)
    (serverMs : Option Int)
  | addMissionFeed (guid : String) (feed : MissionFeedRecord) (creatorUid : String) (nowMs : Int)
  | removeMissionFeed (guid uid creatorUid : String) (nowMs : Int)
  | addMapLayer (guid : String) (layer : MapLayerRecord) (creatorUid : String)
  | updateMapLayer (layer : MapLayerRecord)
  | setExternalData (guid : String) (record : ExternalDataRecord) (creatorUid : String)
    (nowMs : Int)
  | externalDataChange (guid id : String) (action : MissionStore.ExternalDataAction)
    (notes creatorUid : String) (nowMs : Int)
  | subscribe (guid clientUid username : String) (role : Role) (nowMs : Int) (id : String)
    (makeToken : String → String)
  | setSubscriptionRole (guid clientUid username : String) (role : Role)
  | unsubscribe (guid clientUid username : String)
  | invite (invitation : InvitationRecord)
  | uninvite (guid invitee : String) (kind : InvitationType)
  | addLayer (guid : String) (layer : LayerRecord)
  | renameLayer (guid uid name : String)
  | moveLayer (guid uid : String) (parent after : Option String)
  | deleteLayer (guid uid : String)
  | saveLogEntry (entry : LogEntryRecord)
  | deleteLogEntry (id : String)

/-- A call without its answer. -/
def MissionCall.op : MissionCall → MissionStore.Op Unit
  | .create new nowMs => do let _ ← MissionStore.create new nowMs
  | .setFields guid fields nowMs => MissionStore.setFields guid fields nowMs
  | .setPassword guid passwordHash nowMs => MissionStore.setPassword guid passwordHash nowMs
  | .setDefaultRole guid role nowMs => MissionStore.setDefaultRole guid role nowMs
  | .setGroups guid groups nowMs => MissionStore.setGroups guid groups nowMs
  | .setKeywords guid keywords nowMs => MissionStore.setKeywords guid keywords nowMs
  | .setContentKeywords guid content keywords =>
    MissionStore.setContentKeywords guid content keywords
  | .delete guid creatorUid nowMs => do let _ ← MissionStore.delete guid creatorUid nowMs
  | .addContentAt guid content creatorUid atMs serverMs =>
    MissionStore.addContentAt guid content creatorUid atMs serverMs
  | .removeContentAt guid content creatorUid atMs serverMs =>
    MissionStore.removeContentAt guid content creatorUid atMs serverMs
  | .addMissionFeed guid feed creatorUid nowMs =>
    do let _ ← MissionStore.addMissionFeed guid feed creatorUid nowMs
  | .removeMissionFeed guid uid creatorUid nowMs =>
    do let _ ← MissionStore.removeMissionFeed guid uid creatorUid nowMs
  | .addMapLayer guid layer creatorUid => do let _ ← MissionStore.addMapLayer guid layer creatorUid
  | .updateMapLayer layer => MissionStore.updateMapLayer layer
  | .setExternalData guid external creatorUid nowMs =>
    do let _ ← MissionStore.setExternalData guid external creatorUid nowMs
  | .externalDataChange guid id action notes creatorUid nowMs => do
      let _ ← MissionStore.externalDataChange guid id action notes creatorUid nowMs
  | .subscribe guid clientUid username role nowMs id makeToken => do
      let _ ← MissionStore.subscribe guid clientUid username role nowMs id makeToken
  | .setSubscriptionRole guid clientUid username role =>
    MissionStore.setSubscriptionRole guid clientUid username role
  | .unsubscribe guid clientUid username => MissionStore.unsubscribe guid clientUid username
  | .invite invitation => do let _ ← MissionStore.invite invitation
  | .uninvite guid invitee kind => MissionStore.uninvite guid invitee kind
  | .addLayer guid layer => MissionStore.addLayer guid layer
  | .renameLayer guid uid name => MissionStore.renameLayer guid uid name
  | .moveLayer guid uid parent after => MissionStore.moveLayer guid uid parent after
  | .deleteLayer guid uid => MissionStore.deleteLayer guid uid
  | .saveLogEntry entry => do let _ ← MissionStore.saveLogEntry entry
  | .deleteLogEntry id => MissionStore.deleteLogEntry id

end MicroTak.Missions
