import MicroTak.Missions.DataApi

/-!
# The mission API

The requests on missions, their content, subscriptions, invitations and log, and the one place that
hands a request to its handler.
-/

namespace MicroTak.Missions

open Std Handler Groups Users MissionStore

section Missions

variable (env : Env) (caller : Caller) (inputs : Inputs) (mission : MissionRecord)

def readWindow : Api Window := reads fun _ => inputs.window.mapError .badRequest

def logged (state : State) (mission : MissionRecord) (window : Window) (reply : Reply) : Reply :=
  if inputs.logs then .withLogs reply (state.logEntriesIn mission.name window) else reply

def getMissionImpl (key : Key) (password : String) : Api Reply := do
  let mission ← caller.existing key
  let window ← readWindow inputs
  let server ← get
  if password ≠ "" then do
    ensure (env.passwordMatches mission password = true)
      (.forbidden "Illegal attempt to access mission! Password did not match.")
    let id ← env.draw
    return logged inputs server.state mission window (.mission mission
      (some (env.tokens.create id .access mission.name mission.guid (inputs.now.tdiv 1000))) none
        false)
  else if (env.roleFor server.state mission caller).any (·.has .read) then
    return logged inputs server.state mission window (.mission mission none none false)
  else do
    ensure (2 < caller.apiVersion)
      (.forbidden "Illegal attempt to access mission! Request did not have read access.")
    return .mission mission none none true

structure CreateRequest where
  creatorUid : String := ""
  groups : List String := [anonGroup]
  fields : MissionFields := {}
  tool : String := "public"
  password : Option String := none
  defaultRole : Option Role := none
  expirationGiven : Bool := false
  inviteOnly : Bool := false

def CreateRequest.newFields (request : CreateRequest) : MissionFields :=
  if request.expirationGiven then request.fields else { request.fields with expiration := -1 }

/-- The groups of a mission: `__ANON__` alone means the caller's own, others must exist and be the
caller's. -/
def missionGroups (server : Server) (requested : List String) : Except ApiError (Finset String) :=
  if caller.groups = ∅ ∧ ¬ caller.admin then .error (.forbidden "Missing groups for user!")
  else if requested = [anonGroup] ∧ anonGroup ∉ caller.groups then .ok caller.groups
  else
    let known :=
      (requested.filter fun g => (server.groups.state.groups[g]?).isSome || g = anonGroup).toFinset
    if known = ∅ then .error (.forbidden "Missing groups for mission!")
    else if ¬ caller.admin ∧ ¬ known ⊆ caller.groups then
      .error (.forbidden "Illegal attempt to set groupVector for Mission!")
    else .ok known

def hashPassword (password : Option String) : Option String :=
  (password.filter (· ≠ "")).map (env.argon2.hash inputs.salt)

def subscribeCaller (clientUid : String) (role : Role) : Api SubscriptionRecord := do
  let id ← env.draw
  storeOp (subscribe mission.guid clientUid caller.username role inputs.now id fun id =>
    env.tokens.create id .subscription mission.name mission.guid (inputs.now.tdiv 1000))

def createOwned (new : String → NewMission) (creatorUid : String) :
    Api (MissionRecord × SubscriptionRecord) := do
  let guid ← env.draw
  let mission ← storeOp (create (new guid) inputs.now)
  let owner ← subscribeCaller env caller inputs mission creatorUid .owner
  return (mission, owner)

def updateFields (request : CreateRequest) : Api Unit :=
  whenever (request.newFields ≠ mission.fields) do
    storeOp (setFields mission.guid request.newFields inputs.now)

def updatePassword (request : CreateRequest) (role : Option Role) : Api Unit :=
  whenever (request.password.any (· ≠ "") = true) do
    check caller mission role .setPassword
      (.forbidden "Illegal attempt to update mission password!")
    storeOp (setPassword mission.guid (hashPassword env inputs request.password) inputs.now)

def updateDefaultRole (request : CreateRequest) : Api Unit :=
  whenever (request.defaultRole.isSome ∧ mission.defaultRole ≠ request.defaultRole) do
    let server ← get
    let defaultRole ← orThrow request.defaultRole .internal
    let tokenRole ← orThrow (if caller.admin then some .owner
        else env.roleFromToken server.state mission caller [.subscription])
      (.forbidden "Could not extract role from token to set mission default role!")
    check caller mission (some tokenRole) .setRole
      (.forbidden "Illegal attempt to update default mission role with insufficient permissions!")
    ensure (tokenRole.hasAll defaultRole = true)
      (.forbidden "Illegal attempt to update default mission role beyond current permissions!")
    storeOp (setDefaultRole mission.guid (some defaultRole) inputs.now)

def updateGroups (groups : Finset String) (role : Option Role) : Api Unit :=
  whenever (groups ≠ mission.groups ∧ role.any (·.has .updateGroups)) do
    check caller mission role .updateGroups .internal
    storeOp (setGroups mission.guid groups inputs.now)

def updateExisting (request : CreateRequest) (groups : Finset String)
    (allowGroupChange : Bool) : Api Reply := do
  let server ← get
  let role := env.roleFor server.state mission caller
  ensure (groups ≠ mission.groups → (caller.admin ∨ role = some .owner) ∧ allowGroupChange)
    (.forbidden "Illegal attempt to change Mission groups!")
  check caller mission role .write (.forbidden "Illegal attempt to update mission!")
  updateFields inputs mission request
  updatePassword env caller inputs mission request role
  updateDefaultRole env caller inputs mission request
  updateGroups caller inputs mission groups role
  missionResponse mission

/-- Whether a mission of an existing name may be made. -/
structure Dupe where
  allow : Bool
  inDifferentGroups : Bool

def createImpl (name : String) (request : CreateRequest) (allowGroupChange : Bool) (dupe : Dupe) :
    Api Reply := do
  ensure (Text.trim name ≠ "") (.badRequest "empty 'name' path parameter")
  let groups ← reads fun server => missionGroups caller server request.groups
  let found ← reads fun server => caller.lookup server.state true (.name (Text.trim name))
  match found.filter fun _ => !(dupe.allow && dupe.inDifferentGroups) with
  | some mission => updateExisting env caller inputs mission request groups allowGroupChange
  | none => do
      let (mission, owner) ← createOwned env caller inputs (fun guid =>
        { guid
          name := Text.trim name
          fields := request.fields
          tool := request.tool
          creatorUid := request.creatorUid
          groups
          passwordHash := hashPassword env inputs request.password
          defaultRole := request.defaultRole
          inviteOnly := request.inviteOnly }) request.creatorUid
      -- The creator is a live subscriber too.
      notify (·.connect mission.guid request.creatorUid)
      return .mission mission (some owner.token) (some .owner) false

/-- The `PUT` request: one mission of a name that the caller sees. -/
def createMissionPut (name : String) (request : CreateRequest) (allowGroupChange : Bool) :
    Api Reply :=
  createImpl env caller inputs name request allowGroupChange
    { allow := false, inDifferentGroups := false }

def createMissionPost (name : String) (request : CreateRequest)
    (allowGroupChange allowDupe : Bool) : Api Reply :=
  createImpl env caller inputs name request allowGroupChange
    { allow := allowDupe, inDifferentGroups := true }

def deleteImpl (deepDelete : Bool) (creatorUid : String) : Api Reply := do
  let server ← get
  let role := env.roleFor server.state mission caller
  require caller mission role .write
  whenever (deepDelete = true) do
    check caller mission role .delete
      (.forbidden ("Attempt to deepDelete mission: " ++ mission.name ++
        ", by unauthorized user: " ++ creatorUid))
  let deleted ← storeOp (delete mission.guid creatorUid inputs.now)
  return .mission deleted none none false

/-- Content filed under a path, after a layer of it. -/
structure Filed where
  hashes : List String := []
  uids : List String := []
  after : Option String := none

/-- The content a request adds: hashes that name no file are left out. -/
def knownContent (hashes uids : List String) : List Content :=
  (hashes.filter inputs.knownHash).map .hash ++ uids.map .uid

def addContents (creatorUid : String) (contents : List Content) : Api Unit :=
  contents.forM fun content => storeOp (addContent mission.guid content creatorUid inputs.now)

/-- Each item is added, and filed as a layer under the path, after the one before it. -/
def fileContents (mission : MissionRecord) (creatorUid path : String) :
    Option String → List Content → Api Unit
  | _, [] => pure ()
  | after, content :: rest => do
      storeOp (addContent mission.guid content creatorUid inputs.now)
      let _ ← addLayer env mission (some content.key) none .item (some path) after
      fileContents mission creatorUid path (some content.key) rest

def addContentsImpl (hashes uids : List String) (paths : List (String × List Filed))
    (creatorUid : String) : Api Reply := do
  let server ← get
  require caller mission (env.roleFor server.state mission caller) .write
  ensure (¬ (hashes = [] ∧ uids = [] ∧ paths = []))
    (.badRequest "at least one hash or uid must be provided in request")
  addContents inputs mission creatorUid (knownContent inputs hashes uids)
  paths.forM fun (path, items) =>
    items.forM fun item =>
      fileContents env inputs mission creatorUid path item.after
        (knownContent inputs item.hashes item.uids)
  missionResponse mission

def removeContentImpl (hash uid : Option String) (creatorUid : String) : Api Reply := do
  let server ← get
  require caller mission (env.roleFor server.state mission caller) .write
  ((hash.filter (· ≠ "")).map Content.hash).toList.forM fun content =>
    storeOp (removeContent mission.guid content creatorUid inputs.now)
  ((uid.filter (· ≠ "")).map Content.uid).toList.forM fun content =>
    storeOp (removeContent mission.guid content creatorUid inputs.now)
  missionResponse mission

/-- Endpoints that only read data of a mission, which is not modelled further. -/
inductive Endpoint where
  | changes
  | layers
  | contacts
  deriving DecidableEq

def guardedImpl (_ : Endpoint) : Api Reply := do
  let server ← get
  require caller mission (env.roleFor server.state mission caller) .read
  return .served

def logsForMission : Api Reply := do
  let server ← get
  require caller mission (env.roleFor server.state mission caller) .read
  let window ← readWindow inputs
  return .logEntries (server.state.logEntriesIn mission.name window)

def missionEvents (server : Server) (mission : MissionRecord) : List String :=
  mission.uids.filterMap fun uid => (server.latestCot[uid]?).map (·.xml)

/-- The events of a mission, as one document or as the files of its archive. -/
def cotImpl : Api Reply := do
  let server ← get
  require caller mission (env.roleFor server.state mission caller) .read
  return .events (missionEvents server mission)

/-- What a mission package holds, or its list of changes made offline, each at its own time. -/
inductive PackageItem where
  | cot (uid xml : String) (atMs : Option Int := none)
  | file (hash : String) (atMs : Option Int := none)
  | removed (content : Content) (atMs : Int)
  | logEntry (id : Option String) (content creatorUid : String) (missionNames : List String)
  /-- A log entry with a date that is none. -/
  | unreadableEntry
  | logEntryRemoved (id : String)

def recordLatest (uid xml : String) : Api Unit :=
  modify fun server =>
    { server with latestCot := server.latestCot.insert uid { xml, serverTimeMs := inputs.now } }

/-- Content added now, or offline at a time of its own. -/
def importContent (creatorUid : String) (content : Content) (atMs : Option Int) : Api Unit :=
  storeOp (addContentAt mission.guid content creatorUid (atMs.getD inputs.now)
    (atMs.map fun _ => inputs.now))

def importItem (creatorUid : String) : PackageItem → Api Unit
  | .cot uid xml atMs => do
      recordLatest inputs uid xml
      importContent inputs mission creatorUid (.uid uid) atMs
  | .file hash atMs => importContent inputs mission creatorUid (.hash hash) atMs
  | .removed content atMs =>
      storeOp (removeContentAt mission.guid content creatorUid atMs (some inputs.now))
  | .logEntry id content entryCreator missionNames => do
      let id ← match id with
        | some id => pure id
        | none => env.draw
      let _ ← storeOp (saveLogEntry
        { id
          content
          creatorUid := entryCreator
          missionNames := if mission.name ∈ missionNames then missionNames
            else missionNames ++ [mission.name]
          serverTimeMs := inputs.now })
  | .unreadableEntry => throw .invalidBody
  | .logEntryRemoved id => storeOp (deleteLogEntry id)

def addMissionPackage (creatorUid : String) (items : List PackageItem) : Api Reply := do
  let server ← get
  require caller mission (env.roleFor server.state mission caller) .write
  items.forM (importItem env inputs mission creatorUid)
  return .served

structure CopyRequest where
  creatorUid : Option String
  copyName : Option String
  copyPath : Option String := none
  password : Option String := none
  defaultRole : Option Role := none

/-- The log entries of a mission, filed under its copy as well. -/
def copyLogEntries (mission copy : MissionRecord) : Api Unit := do
  let server ← get
  (server.state.logEntriesFor mission.name).forM fun entry => do
    let _ ← storeOp (saveLogEntry
      { entry with missionNames := entry.missionNames ++ [copy.name], serverTimeMs := inputs.now })

/-- Map layers are copied under new uids; external data moves to the copy. -/
def copyContainers (mission copy : MissionRecord) (creator : String) : Api Unit := do
  storeOp (setKeywords copy.guid mission.keywords inputs.now)
  let server ← get
  (server.state.data.mapLayersOf mission.guid).forM fun layer => do
    let _ ← saveNewMapLayer env inputs copy { layer.props with creatorUid := some creator } creator
  let server ← get
  (server.state.data.externalDataOf mission.guid).forM fun found =>
    saveExternal inputs copy found creator
  addContents inputs copy creator (mission.hashes.map .hash ++ mission.uids.map .uid)

def copyMission (request : CopyRequest) : Api Reply := do
  let server ← get
  require caller mission (env.roleFor server.state mission caller) .read
  let creator ← orThrow request.creatorUid (.badRequest "")
  let copyName ← orThrow (request.copyName.map Text.trim) (.badRequest "")
  ensure (copyName ≠ "") (.badRequest "empty 'copyName' request parameter")
  ensure (server.state.byName copyName (fun _ => true) = none)
    (.badRequest ("mission named " ++ copyName ++ " already exists"))
  let (copy, owner) ← createOwned env caller inputs (fun guid =>
    { guid
      name := copyName
      fields := { mission.fields with path := request.copyPath.getD mission.fields.path }
      tool := mission.tool
      creatorUid := creator
      groups := mission.groups
      passwordHash := hashPassword env inputs request.password
      defaultRole := request.defaultRole
      inviteOnly := mission.inviteOnly }) creator
  notify (·.connect copy.guid creator)
  copyContainers env inputs mission copy creator
  copyLogEntries inputs mission copy
  return .mission copy (some owner.token) (some .owner) false

/-- A token for whoever knows the password; a mission without one asks for nothing. -/
def accessToken (password : String) : Api Reply := do
  ensure (¬ (mission.passwordProtected ∧ ¬ env.passwordMatches mission password))
    (.forbidden "Illegal attempt to access mission! Password did not match.")
  let id ← env.draw
  return .token (env.tokens.create id .access mission.name mission.guid (inputs.now.tdiv 1000))

/-- A new password, the empty one too, or none. -/
def setPasswordImpl (password : Option String) : Api Reply := do
  let server ← get
  require caller mission (env.roleFor server.state mission caller) .setPassword
  storeOp (setPassword mission.guid (password.map (env.argon2.hash inputs.salt)) inputs.now)
  return .ok

def setExpirationImpl (expiration : Option Int) : Api Reply := do
  storeOp (setFields mission.guid { mission.fields with
    expiration := expiration.getD (-1) } inputs.now)
  return .ok

def subscriptionGetImpl (uid : String) : Api Reply := do
  let server ← get
  let sub ← orThrow (server.state.findSubscription mission.guid uid caller.username)
    (.notFound "Mission subscription not found")
  return .subscription sub

def topicUid (uid topic : String) : String := if topic = "" then uid else "topic:" ++ topic

/-- The role a caller may subscribe with: that of the token, the default role for the password or
for an open mission, and that of an invitation by username where one is needed. -/
def subscriptionRole (state : State) (mission : MissionRecord) (password : String) :
    Except ApiError Role :=
  let subRole := env.roleFromToken state mission caller [.invitation, .subscription, .access]
  if mission.passwordProtected then
    if password ≠ "" then
      if env.passwordMatches mission password then .ok (subRole.getD mission.effectiveDefaultRole)
      else .error (.forbidden "Illegal attempt to subscribe to mission! Password did not match.")
    else
      match subRole with
      | some role => .ok role
      | none =>
        .error (.forbidden "Illegal attempt to subscribe to mission! No token role provided.")
  else if password ≠ "" then
    .error (.forbidden "Illegal attempt to subscribe to mission! No password provided.")
  else if mission.inviteOnly ∧ subRole = none then
    match (state.invitationsFor caller.username .userName).find? (·.missionGuid = mission.guid) with
    | some invitation => .ok invitation.role
    | none => .error (.forbidden "Illegal attempt to subscribe to invite only mission!")
  else .ok (subRole.getD mission.effectiveDefaultRole)

/-- From version 3 on, the response holds the mission with its log. -/
def subscribeImpl (uid topic password : String) : Api Reply := do
  let window ← readWindow inputs
  let role ← reads fun server => subscriptionRole env caller server.state mission password
  ensure (¬ (uid = "" ∧ topic = ""))
    (.badRequest "either 'uid' or 'topic' parameter must be specified")
  let sub ← subscribeCaller env caller inputs mission (topicUid uid topic) role
  notify (·.connect mission.guid (topicUid uid topic))
  storeOp (uninvite mission.guid uid .clientUid)
  let server ← get
  return if 3 ≤ caller.apiVersion then .withLogs (.subscription sub)
    (server.state.logEntriesIn mission.name window)
    else .subscription sub

/-- Ends the live routing of whatever client uid is named, and the stored subscription unless
`disconnectOnly`. -/
def unsubscribeImpl (uid topic : String) (disconnectOnly : Bool) : Api Reply := do
  let server ← get
  require caller mission (env.roleFor server.state mission caller) .read
  notify (·.disconnect mission.guid (topicUid uid topic))
  whenever (disconnectOnly = false) do
    storeOp (unsubscribe mission.guid (topicUid uid topic) caller.username)
  return .ok

def invitees (server : Server) (kind : InvitationType) (invitee : String) : Finset String :=
  match kind with
  | .clientUid => {invitee}
  | .callsign =>
      ((server.clients.filterMap (·.uid)).filter fun uid =>
        (server.latestCot[uid]?).any fun event => env.callsign event.xml = some invitee).toFinset
  | .userName => ((server.clients.filter (·.commonName = some invitee)).filterMap (·.uid)).toFinset
  | .group =>
      ((server.clients.filter fun client =>
        client.commonName.any fun cn => invitee ∈ server.groups.state.allGroupNames cn).filterMap
          (·.uid)).toFinset
  | .team => ∅

/-- An invitation with a token, stored and sent to the invitee's connections; a duplicate is not. -/
def inviteRecord (invitee : String) (kind : InvitationType) (role : Role)
    (creatorUid : String) : Api Bool := do
  let id ← env.draw
  let token := env.tokens.create id .invitation mission.name mission.guid (inputs.now.tdiv 1000)
  let stored ← storeOp (invite
    { missionGuid := mission.guid
      missionName := mission.name
      invitee
      invitationType := kind
      creatorUid
      createTimeMs := inputs.now
      token
      role })
  whenever (stored = true) do
    modify fun server =>
      { server with
        notices :=
          { missionGuid := mission.guid, uids := invitees env server kind invitee, token, role } ::
            server.notices }
  return stored

/-- A new role for the subscriptions that are named, or their end. -/
def setRole (clientUid username : String) (role : Option Role) : Api Unit :=
  match role with
  | some role => storeOp (setSubscriptionRole mission.guid clientUid username role)
  | none => do
      notify (·.disconnect mission.guid clientUid)
      storeOp (unsubscribe mission.guid clientUid username)

def cannotAssign (role : Role) : ApiError :=
  .forbidden ("validateRoleAssignment failed! Illegal attempt to assign role " ++ role.name)

structure RoleEntry where
  clientUid : Option String
  username : String := ""
  role : Option Role

/-- Every entry is complete, and its role may be assigned. -/
def parseEntries (mission : MissionRecord) (role : Option Role) :
    List RoleEntry → Except ApiError (List (String × String × Role))
  | [] => .ok []
  | entry :: rest =>
      match entry.clientUid, entry.role with
      | some clientUid, some newRole =>
          if mayAssign mission role newRole then do
            return (clientUid, entry.username, newRole) :: (← parseEntries mission role rest)
          else .error (cannotAssign newRole)
      | _, _ => .error (.badRequest "missing clientUid or role")

/-- The role of who is subscribed, and an invitation for who is not. -/
def inviteOrUpdate (creatorUid : String) : String × String × Role → Api Unit
  | (clientUid, username, role) => do
      let server ← get
      if (server.state.subscriptionsOf mission.guid).any (named clientUid username) then
        setRole mission clientUid username (some role)
      else if username ≠ "" then do
        let _ ← inviteRecord env inputs mission username .userName role creatorUid
      else do
        let _ ← inviteRecord env inputs mission clientUid .clientUid role creatorUid

def setSubscriptionRolesImpl (creatorUid : Option String) (entries : List RoleEntry) :
    Api Reply := do
  let server ← get
  let role := env.roleFor server.state mission caller
  require caller mission role .setRole
  let creator ← orThrow creatorUid (.badRequest "missing creatorUid")
  let parsed ← reads fun _ => parseEntries mission role entries
  parsed.forM (inviteOrUpdate env inputs mission creator)
  return .ok

def subscribersImpl : Api Reply := do
  let server ← get
  require caller mission (env.roleFor server.state mission caller) .read
  return .subscribers ((server.state.subscriptionsOf mission.guid).map (·.clientUid))

def subscriptionRolesImpl : Api Reply := do
  let server ← get
  require caller mission (env.roleFor server.state mission caller) .read
  return .subscriptionRoles ((server.state.subscriptionsOf mission.guid).map fun sub =>
    (sub.clientUid, sub.username, sub.role))

def roleGetImpl : Api Reply := do
  let server ← get
  let role := env.roleFor server.state mission caller
  require caller mission role .read
  return .role role

def roleSetImpl (clientUid username : String) (newRole : Option Role) : Api Reply := do
  let server ← get
  let role := env.roleFor server.state mission caller
  require caller mission role .setRole
  ensure (mission.defaultRole.isSome = true) (.badRequest "")
  ensure (newRole.all (mayAssign mission role) = true) (cannotAssign (newRole.getD Role.default))
  setRole mission clientUid username newRole
  return .ok

/-- The caller's invitations: by the client uid of the request, and by username. -/
def invitationsForCaller (state : State) (clientUid : String) : List InvitationRecord :=
  let byUid := state.invitationsFor clientUid .clientUid
  let byUsername := state.invitationsFor caller.username .userName
  (byUid ++ byUsername.filter (· ∉ byUid)).filter fun i =>
    (state.byGuid i.missionGuid).any caller.visible

def myInvitations (clientUid : Option String) : Api Reply := do
  let server ← get
  let clientUid ← orThrow clientUid (.badRequest "Required parameter 'clientUid' is not present.")
  return .invitations (invitationsForCaller caller server.state clientUid)

def allInvitationNames (clientUid : String) : Api Reply := do
  let server ← get
  return .invitationNames ((invitationsForCaller caller server.state clientUid).map
    (·.missionName)).toFinset

def invitationsImpl : Api Reply := do
  let server ← get
  require caller mission (env.roleFor server.state mission caller) .read
  return .invitations (server.state.invitationsOf mission.guid)

def inviteImpl (kind : InvitationType) (invitee : String) (creatorUid : Option String)
    (role : Option Role) : Api Reply := do
  let server ← get
  let creator ← orThrow creatorUid (.badRequest "Required parameter 'creatorUid' is not present.")
  let inviteRole := role.getD mission.effectiveDefaultRole
  ensure (mayAssign mission (env.roleFor server.state mission caller) inviteRole = true)
    (cannotAssign inviteRole)
  let stored ← inviteRecord env inputs mission invitee kind inviteRole creator
  return if stored then .ok else .internalServerError

def uninviteImpl (kind : InvitationType) (invitee : String) (creatorUid : Option String) :
    Api Reply := do
  let server ← get
  let _ ← orThrow creatorUid (.badRequest "Required parameter 'creatorUid' is not present.")
  if mission.passwordProtected ∧ env.roleFromToken server.state mission caller [.invitation,
    .subscription] = none then
    return .internalServerError
  else do
    storeOp (uninvite mission.guid invitee kind)
    return .ok

/-- The check on each mission a log entry names: one without a role for the caller is skipped, one
with a role that lacks the permission is forbidden. -/
def checkLogMission (permission : Permission) (name : String) : Api Unit := do
  let server ← get
  let mission ← orThrow (server.state.byName name caller.visible)
    (.notFound ("Mission named '" ++ Text.trim name ++ "' not found - not deleted"))
  match env.roleFor server.state mission caller with
  | some role =>
    check caller mission (some role) permission (.forbidden "Illegal attempt to access mission!")
  | none => modify (·.spare caller.username mission.guid permission)

def checkLogMissions (names : List String) (permission : Permission) : Api Unit :=
  names.forM (checkLogMission env caller permission)

def postLogEntry (content creatorUid : String) (missionNames : List String) : Api Reply := do
  let id ← env.draw
  checkLogMissions env caller missionNames .write
  let saved ← storeOp (saveLogEntry
    { id, content, creatorUid, missionNames, serverTimeMs := inputs.now })
  return .logEntry saved

def putLogEntry (id content creatorUid : String) (missionNames : List String) : Api Reply := do
  checkLogMissions env caller missionNames .write
  let server ← get
  ensure ((server.state.logs[id]?).isSome = true) (.badRequest ("Log entry " ++ id ++ " not found"))
  let saved ← storeOp (saveLogEntry
    { id, content, creatorUid, missionNames, serverTimeMs := inputs.now })
  return .logEntry saved

def getLogEntry (id : String) : Api Reply := do
  let server ← get
  let entry ← orThrow server.state.logs[id]? (.notFound ("log entry " ++ id ++ " not found"))
  checkLogMissions env caller entry.missionNames .read
  return .logEntry entry

def deleteLogEntry (id : String) : Api Reply := do
  let server ← get
  let entry ← orThrow server.state.logs[id]? (.notFound ("log entry " ++ id ++ " not found"))
  checkLogMissions env caller entry.missionNames .write
  storeOp (MissionStore.deleteLogEntry id)
  return .ok

def allLogs : Api Reply := do
  ensure (caller.admin = true) .accessDenied
  let server ← get
  return .logEntries server.state.allLogEntries

end Missions

inductive MissionRequest where
  | delete (deepDelete : Bool) (creatorUid : String)
  | addContents (hashes uids : List String) (paths : List (String × List Filed))
    (creatorUid : String)
  | removeContent (hash uid : Option String) (creatorUid : String)
  | guarded (endpoint : Endpoint)
  | logs
  | setKeywords (keywords : Option (List String))
  | clearKeywords
  | removeKeyword (name keyword : String)
  | setContentKeywords (content : Content) (keywords : Option (List String))
  | clearContentKeywords (content : Content)
  | addMapLayer (creatorUid : Option String) (body : Option MapLayerBody)
  | updateMapLayer (creatorUid : Option String) (body : Option MapLayerBody)
  | setExternal (creatorUid : Option String) (body : Option ExternalDataBody)
  | changeExternal (id : String) (creatorUid notes : Option String)
    (action : MissionStore.ExternalDataAction)
  | addFeed (params : FeedParams)
  | removeFeed (uid : String) (creatorUid : Option String)
  | createLayer (params : LayerParams)
  | renameLayer (uid : String) (params : LayerParams)
  | setLayerParent (layerUids : List String) (params : LayerParams)
  | deleteLayers (uids : List String) (creatorUid : Option String)
  | cot
  | package (creatorUid : String) (items : List PackageItem)
  | copy (request : CopyRequest)
  | accessToken (password : String)
  | setPassword (password : Option String)
  | setExpiration (expiration : Option Int)
  | subscription (uid : String)
  | subscribe (uid topic password : String)
  | unsubscribe (uid topic : String) (disconnectOnly : Bool)
  | setSubscriptionRoles (creatorUid : Option String) (entries : List RoleEntry)
  | subscribers
  | subscriptionRoles
  | role
  | setRole (clientUid username : String) (role : Option Role)
  | invitations
  | invite (kind : InvitationType) (invitee : String) (creatorUid : Option String)
    (role : Option Role)
  | uninvite (kind : InvitationType) (invitee : String) (creatorUid : Option String)

inductive Request where
  | get (key : Key) (password : String)
  | put (name : String) (request : CreateRequest) (allowGroupChange : Bool)
  | post (name : String) (request : CreateRequest) (allowGroupChange allowDupe : Bool)
  | about (key : Key) (request : MissionRequest)
  | myInvitations (clientUid : Option String)
  | allInvitationNames (clientUid : String)
  | postLogEntry (content creatorUid : String) (missionNames : List String)
  | putLogEntry (id content creatorUid : String) (missionNames : List String)
  | getLogEntry (id : String)
  | deleteLogEntry (id : String)
  | allLogs

section Dispatch

variable (env : Env) (caller : Caller) (inputs : Inputs)

def handleAbout (mission : MissionRecord) : MissionRequest → Api Reply
  | .delete deepDelete creatorUid => deleteImpl env caller inputs mission deepDelete creatorUid
  | .addContents hashes uids paths creatorUid =>
    addContentsImpl env caller inputs mission hashes uids paths creatorUid
  | .removeContent hash uid creatorUid =>
    removeContentImpl env caller inputs mission hash uid creatorUid
  | .guarded endpoint => guardedImpl env caller mission endpoint
  | .logs => logsForMission env caller inputs mission
  | .setKeywords keywords => setKeywordsImpl env caller inputs mission keywords
  | .clearKeywords => clearKeywordsImpl env caller inputs mission
  | .removeKeyword name keyword => removeKeywordImpl env caller inputs mission name keyword
  | .setContentKeywords content keywords =>
    setContentKeywordsImpl env caller inputs mission content keywords
  | .clearContentKeywords content => clearContentKeywordsImpl env caller inputs mission content
  | .addMapLayer creatorUid body => addMapLayerImpl env caller inputs mission creatorUid body
  | .updateMapLayer creatorUid body => updateMapLayerImpl env caller inputs mission creatorUid body
  | .setExternal creatorUid body => setExternalImpl env caller inputs mission creatorUid body
  | .changeExternal id creatorUid notes action =>
    externalChangeImpl env caller inputs mission id creatorUid notes action
  | .addFeed params => addMissionFeed env caller inputs mission params
  | .removeFeed uid creatorUid => removeMissionFeed env caller inputs mission uid creatorUid
  | .createLayer params => createLayerImpl env caller mission params
  | .renameLayer uid params => renameLayerImpl env caller mission uid params
  | .setLayerParent layerUids params => setLayerParentImpl env caller mission layerUids params
  | .deleteLayers uids creatorUid => deleteLayersImpl env caller inputs mission uids creatorUid
  | .cot => cotImpl env caller mission
  | .package creatorUid items => addMissionPackage env caller inputs mission creatorUid items
  | .copy request => copyMission env caller inputs mission request
  | .accessToken password => Missions.accessToken env inputs mission password
  | .setPassword password => setPasswordImpl env caller inputs mission password
  | .setExpiration expiration => setExpirationImpl inputs mission expiration
  | .subscription uid => subscriptionGetImpl caller mission uid
  | .subscribe uid topic password => subscribeImpl env caller inputs mission uid topic password
  | .unsubscribe uid topic disconnectOnly =>
    unsubscribeImpl env caller mission uid topic disconnectOnly
  | .setSubscriptionRoles creatorUid entries =>
    setSubscriptionRolesImpl env caller inputs mission creatorUid entries
  | .subscribers => subscribersImpl env caller mission
  | .subscriptionRoles => subscriptionRolesImpl env caller mission
  | .role => roleGetImpl env caller mission
  | .setRole clientUid username role => roleSetImpl env caller mission clientUid username role
  | .invitations => invitationsImpl env caller mission
  | .invite kind invitee creatorUid role =>
    inviteImpl env caller inputs mission kind invitee creatorUid role
  | .uninvite kind invitee creatorUid => uninviteImpl env caller mission kind invitee creatorUid

def handle : Request → Api Reply
  | .get key password => getMissionImpl env caller inputs key password
  | .put name request allowGroupChange =>
    createMissionPut env caller inputs name request allowGroupChange
  | .post name request allowGroupChange allowDupe =>
      createMissionPost env caller inputs name request allowGroupChange allowDupe
  | .about key request => do
      let mission ← caller.existing key
      handleAbout env caller inputs mission request
  | .myInvitations clientUid => myInvitations caller clientUid
  | .allInvitationNames clientUid => allInvitationNames caller clientUid
  | .postLogEntry content creatorUid missionNames =>
    postLogEntry env caller inputs content creatorUid missionNames
  | .putLogEntry id content creatorUid missionNames =>
    putLogEntry env caller inputs id content creatorUid missionNames
  | .getLogEntry id => getLogEntry env caller id
  | .deleteLogEntry id => deleteLogEntry env caller id
  | .allLogs => allLogs caller

end Dispatch

end MicroTak.Missions
