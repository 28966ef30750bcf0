import MicroTak.Missions.System

/-!
# What one request does

Every change a request makes is one of a few kinds, each with what the caller had to show for it at
the start of the request.  The tokens of a response are of three kinds as well.  Every statement
about runs of the server follows from these.
-/

namespace MicroTak.Missions

open Std Handler Groups Relation MissionStore

section Rules

variable {α : Type}

variable {server : Server} {store : MissionStore} {E : ApiError → Server → Prop}

@[simp] theorem wp_storeOp {op : MissionStore.Op α} {Q : α → Server → Prop} :
    wp (storeOp op) Q E server ↔
      wp (perform op) (fun a store => Q a { server with store })
        (fun e store => E (.ofMissionError e) { server with store }) server.store := by
  simp only [wp, storeOp]
  cases perform op server.store <;> rfl

@[simp] theorem wp_notify {change : Notifier → Notifier} {Q : Unit → Server → Prop} :
    wp (notify change) Q E server ↔ Q () { server with notifier := change server.notifier } :=
  Iff.rfl

@[simp] theorem wp_draw {env : Env} {Q : String → Server → Prop} :
    wp env.draw Q E server ↔ Q (env.randomUuid server.drawn)
    { server with drawn := server.drawn + 1 } := Iff.rfl

section Perform

variable {E : MissionError → MissionStore → Prop}

@[simp] theorem wp_perform_pure {a : α} {Q : α → MissionStore → Prop} :
    wp (perform (pure a)) Q E store ↔ Q a store := Iff.rfl

@[simp] theorem wp_perform_get {Q : State → MissionStore → Prop} :
    wp (perform Journal.Op.get) Q E store ↔ Q store.state store := Iff.rfl

@[simp] theorem wp_record {event : Event} {Q : Unit → MissionStore → Prop} :
    wp (perform (record event)) Q E store ↔
      (store.disk ≠ some 0 →
        Q () { state := store.state.apply event, disk := store.disk.map Nat.pred }) ∧
        (store.disk = some 0 → E .eventLog store) := by
  obtain ⟨state, disk⟩ := store
  match disk with
  | none | some 0 | some (n + 1) =>
    simp [wp, perform, Journal.Op.put, Journal.Op.run, Journal.Result.push]

@[simp] theorem wp_existing {guid : String} {Q : MissionRecord → MissionStore → Prop} :
    wp (perform (existing guid)) Q E store ↔ (∀ mission, store.state.byGuid guid = some mission →
      Q mission store) ∧
        (store.state.byGuid guid = none → E (.notFound guid) store) := by
  rw [existing, perform_bind, wp_bind, wp_perform_get]
  cases store.state.byGuid guid <;> simp [wp, perform, Journal.Op.orRefuse, Journal.Op.run]

end Perform

@[simp] theorem wp_check {caller : Caller} {mission : MissionRecord} {role : Option Role}
    {permission : Permission} {error : ApiError} {Q : Unit → Server → Prop} :
    wp (check caller mission role permission error) Q E server ↔
      (role.any (·.has permission) = true →
        Q () (server.note caller.username mission.guid permission)) ∧
      (¬ role.any (·.has permission) = true → E error server) := by
  simp [check]

end Rules

/-- The server after an event, whatever its log has left to take. -/
def Server.applied (server : Server) (event : Event) (disk : Option Nat) : Server :=
  { server with store := { state := server.state.apply event, disk } }

def Server.drew (server : Server) : Server := { server with drawn := server.drawn + 1 }

/-- Changes of a mission that give nobody a role or a token. -/
def Event.isEdit : Event → Bool
  | .fieldsSet .. | .groupsSet .. | .keywordsSet .. | .contentKeywordsSet .. | .deleted ..
  | .contentAdded ..
  | .contentRemoved .. | .uninvited .. | .logEntrySaved .. | .logEntryDeleted .. | .data _ => true
  | _ => false

def Request.target (caller : Caller) (state : State) : Request → Option MissionRecord
  | .get key _ | .about key _ => (caller.target state key).toOption
  | .put name .. => (caller.lookup state true (.name (Text.trim name))).toOption.join
  | .post name _ _ allowDupe =>
      if allowDupe then none else (caller.lookup state true (.name (Text.trim name))).toOption.join
  | _ => none

def Request.subscriber : Request → Option String
  | .put _ request _ => some request.creatorUid
  | .post _ request _ _ => some request.creatorUid
  | .about _ (.copy request) => request.creatorUid
  | .about _ (.subscribe uid topic _) => some (topicUid uid topic)
  | _ => none

/-- A request of a reader of the mission to end the live subscription of this client uid. -/
def Request.unsubscribes (env : Env) (caller : Caller) (state : State) (guid clientUid : String) :
    Request → Bool
  | .about key (.unsubscribe uid topic _) =>
      (caller.target state key).toOption.any fun mission =>
        mission.guid = guid && topicUid uid topic = clientUid &&
          (env.roleFor state mission caller).any (·.has .read)
  | _ => false

/-- A request of a role holder to take this client uid its role. -/
def Request.removes (env : Env) (caller : Caller) (state : State) (guid clientUid : String) :
    Request → Bool
  | .about key (.setRole uid _ none) =>
      (caller.target state key).toOption.any fun mission =>
        mission.guid = guid && uid = clientUid && (env.roleFor state mission caller).any
          (·.has .setRole) && mission.defaultRole.isSome
  | _ => false

def RoleEntry.assignment (entry : RoleEntry) : Option (String × String × Role) :=
  match entry.clientUid, entry.role with
  | some clientUid, some role => some (clientUid, entry.username, role)
  | _, _ => none

/-- Whom an assignment invites who is not subscribed. -/
def assignee (assignment : String × String × Role) : InvitationType × String :=
  if assignment.2.1 ≠ "" then (.userName, assignment.2.1) else (.clientUid, assignment.1)

def Request.assignments : Request → List (String × String × Role)
  | .about _ (.setRole clientUid username (some role)) => [(clientUid, username, role)]
  | .about _ (.setSubscriptionRoles _ entries) => entries.filterMap RoleEntry.assignment
  | _ => []

def Request.invitees : Request → List (InvitationType × String)
  | .about _ (.invite kind invitee _ _) => [(kind, invitee)]
  | .about _ (.setSubscriptionRoles _ entries) =>
    (entries.filterMap RoleEntry.assignment).map assignee
  | _ => []

def Request.logMissions (state : State) : Request → List String
  | .postLogEntry _ _ missionNames | .putLogEntry _ _ _ missionNames => missionNames
  | .getLogEntry id | .deleteLogEntry id => ((state.logs[id]?).map (·.missionNames)).getD []
  | _ => []

/-- Whether a request may save or delete log entries. -/
def Request.editsLogs : Request → Bool
  | .postLogEntry .. | .putLogEntry .. | .deleteLogEntry _ | .about _ (.copy _)
  | .about _ (.package ..) => true
  | _ => false

def Request.editsLayers : Request → Bool
  | .about _ (.createLayer _) | .about _ (.renameLayer ..) | .about _ (.setLayerParent ..)
  | .about _ (.deleteLayers ..) | .about _ (.addContents ..) => true
  | _ => false

def Request.mapLayerUids : Request → List String
  | .about _ (.updateMapLayer _ (some body)) => [body.uid]
  | _ => []

def Request.externalIds : Request → List String
  | .about _ (.setExternal _ (some body)) => [body.uid]
  | .about _ (.changeExternal id ..) => [id]
  | _ => []

def Request.feedUids : Request → List String
  | .about _ (.removeFeed uid _) => [uid]
  | _ => []

/-- Whether a request saves a default map layer: its own, or that of the mission it copies. -/
def Request.savesDefault (caller : Caller) (state : State) : Request → Bool
  | .about _ (.addMapLayer _ (some body)) | .about _ (.updateMapLayer _ (some body)) =>
    body.props.defaultLayer
  | .about key (.copy _) =>
      (caller.target state key).toOption.any fun mission =>
        (state.data.mapLayersOf mission.guid).any (·.props.defaultLayer)
  | _ => false

/-- Who the subscriptions of a mission belong to. -/
def subscriptionKeys (state : State) (guid : String) : List (String × String × String) :=
  (state.subscriptionsOf guid).map fun sub => (sub.id, sub.clientUid, sub.username)

section Effect

variable (env : Env) (caller : Caller) (request : Request) (start : Server)

/-- A mission the request itself has made. -/
def Fresh (guid : String) : Prop := ∃ k, start.drawn ≤ k ∧ guid = env.randomUuid k

def HoldsRole (server : Server) (mission : MissionRecord) (role : Role) : Prop :=
  env.roleFor start.state mission caller = some role ∨ caller.admin = true ∧ role = .owner ∨
    env.roleFromToken server.state mission caller [.subscription] = some role

/-- The role a subscription of the caller is made with: its own mission's, or one let in with. -/
def Admitted (mission : MissionRecord) (role : Role) : Prop :=
  Fresh env start mission.guid ∧ role = .owner ∨
    request.target caller start.state = some mission ∧
      ∃ key uid topic password, request = .about key (.subscribe uid topic password) ∧
        subscriptionRole env caller start.state mission password = .ok role

/-- A mission the request may write to: its own with the permission, or a copy that it makes. -/
def MayWrite (guid : String) : Prop :=
  (∃ mission, request.target caller start.state = some mission ∧ mission.guid = guid ∧
    (env.roleFor start.state mission caller).any (·.has .write) = true) ∨ Fresh env start guid

def DataLicensed (event : DataEvent) : Prop :=
  match event with
  | .mapLayerSaved _ layer .. =>
      (layer.uid ∈ request.mapLayerUids ∨ MayWrite env caller request start layer.missionGuid ∧
        ∃ k, start.drawn ≤ k ∧ layer.uid = stripDashes (env.randomUuid k)) ∧
        (layer.props.defaultLayer = true → request.savesDefault caller start.state = true)
  | .externalDataSet _ record .. =>
      MayWrite env caller request start record.missionGuid ∧
        (record.id ∈ request.externalIds ∨
          ∃ mission old, request.target caller start.state = some mission ∧
            (env.roleFor start.state mission caller).isSome = true ∧
              old.missionGuid = mission.guid ∧
            start.state.data.externalData.get? record.id = some old)
  | .externalDataChange _ change .. => change.uid ∈ request.externalIds
  | .missionFeedAdded _ feed .. =>
      MayWrite env caller request start feed.missionGuid ∧ ∃ k, start.drawn ≤ k ∧
        feed.uid = env.randomUuid k
  | .missionFeedRemoved _ uid .. => uid ∈ request.feedUids
  | _ => MayWrite env caller request start event.guid ∧ request.editsLayers = true

def Licensed : Event → Prop
  | .contentAdded guid .. | .contentRemoved guid .. => MayWrite env caller request start guid
  | .data event => DataLicensed env caller request start event
  | .logEntrySaved _ | .logEntryDeleted _ => request.editsLogs = true
  | _ => True

def Allowed (event : Event) : Prop := event.isEdit = true ∧ Licensed env caller request start event

inductive Effect : Server → Server → Prop where
  | draw (server : Server) : Effect server server.drew
  | pass (server : Server) (mission : MissionRecord) (role : Role) (permission : Permission)
      (hmission : start.state.byGuid mission.guid = some mission)
      (hrole : HoldsRole env caller start server mission role) (hhas : role.has permission = true) :
      Effect server (server.note caller.username mission.guid permission)
  | spare (server : Server) (name : String) (mission : MissionRecord) (permission : Permission)
      (hname : name ∈ request.logMissions start.state)
        (hmission : start.state.byName name caller.visible = some mission)
      (hrole : env.roleFor start.state mission caller = none) :
      Effect server (server.spare caller.username mission.guid permission)
  | edit (server : Server) (event : Event) (disk : Option Nat)
    (hedit : Allowed env caller request start event) :
      Effect server (server.applied event disk)
  | connect (server : Server) (guid clientUid : String) (hnamed : request.subscriber =
    some clientUid)
      (hmission : Fresh env start guid ∨ ∃ mission, request.target caller start.state =
        some mission ∧ mission.guid = guid) :
      Effect server { server with notifier := server.notifier.connect guid clientUid }
  | disconnect (server : Server) (guid clientUid : String)
      (hends : request.unsubscribes env caller start.state guid clientUid = true ∨
        request.removes env caller start.state guid clientUid = true) :
      Effect server { server with notifier := server.notifier.disconnect guid clientUid }
  | relay (server : Server) (latestCot : TreeMap String LatestEvent) :
    Effect server { server with latestCot }
  | create (server : Server) (mission : MissionRecord) (changeId : Nat) (disk : Option Nat)
      (hguid : mission.guid = env.randomUuid server.drawn) :
      Effect server (server.drew.applied (.created mission changeId) disk)
  | setPassword (server : Server) (mission : MissionRecord) (hash : Option String) (now : Int)
    (disk : Option Nat)
      (hmission : request.target caller start.state = some mission)
      (hrole : ∃ role, HoldsRole env caller start server mission role ∧
        role.has .setPassword = true) :
      Effect server (server.applied (.passwordSet mission.guid hash now) disk)
  | setDefaultRole (server : Server) (mission : MissionRecord) (role : Role) (now : Int)
    (disk : Option Nat)
      (hmission : request.target caller start.state = some mission)
      (hrole : ∃ current, HoldsRole env caller start server mission current ∧
        current.has .setRole = true ∧ current.hasAll role = true) :
      Effect server (server.applied (.defaultRoleSet mission.guid (some role) now) disk)
  | subscribe (server : Server) (mission : MissionRecord) (sub : SubscriptionRecord) (now : Int)
    (disk : Option Nat)
      (hmission : server.state.byGuid mission.guid = some mission)
      (hid : sub.id = env.randomUuid server.drawn)
      (htoken : sub.token = env.tokens.create sub.id .subscription mission.name mission.guid now)
      (husername : sub.username = caller.username)
      (hadmitted : Admitted env caller request start mission sub.role) :
      Effect server (server.drew.applied (.subscribed mission.guid sub) disk)
  | raise (server : Server) (mission : MissionRecord) (sub : SubscriptionRecord) (role : Role)
    (disk : Option Nat)
      (hsub : server.state.findSubscription mission.guid sub.clientUid caller.username = some sub)
      (hadmitted : Admitted env caller request start mission role) :
      Effect server (server.applied (.subscriptionRoleSet mission.guid sub.id role) disk)
  | assign (server : Server) (mission : MissionRecord) (clientUid username : String) (role : Role)
    (id : String)
      (disk : Option Nat)
      (hmission : request.target caller start.state = some mission)
      (hassign : (clientUid, username, role) ∈ request.assignments)
      (hrole : mayAssign mission (env.roleFor start.state mission caller) role = true)
      (hkeys : subscriptionKeys server.state mission.guid =
        subscriptionKeys start.state mission.guid)
      (hnamed : ∃ sub ∈ start.state.subscriptionsOf mission.guid, sub.id = id ∧
        MissionStore.named clientUid username sub = true) :
      Effect server (server.applied (.subscriptionRoleSet mission.guid id role) disk)
  | unsubscribe (server : Server) (mission : MissionRecord) (id : String) (disk : Option Nat)
      (hmission : request.target caller start.state = some mission) :
      Effect server (server.applied (.unsubscribed mission.guid id) disk)
  | invite (server : Server) (mission : MissionRecord) (invitation : InvitationRecord) (now : Int)
    (disk : Option Nat)
      (hmission : request.target caller start.state = some mission)
      (hguid : invitation.missionGuid = mission.guid) (hname : invitation.missionName =
        mission.name)
      (htoken : invitation.token =
        env.tokens.create (env.randomUuid server.drawn) .invitation mission.name mission.guid now)
      (hinvitee : (invitation.invitationType, invitation.invitee) ∈ request.invitees)
      (hrole : mayAssign mission (env.roleFor start.state mission caller) invitation.role = true) :
      Effect server { server.drew.applied (.invited invitation) disk with
        notices := { missionGuid := mission.guid
                     uids := Missions.invitees env server invitation.invitationType
                       invitation.invitee
                     token := invitation.token
                     role := invitation.role } :: server.notices }

/-- A server some changes of the request after its start. -/
abbrev Reached : Server → Prop := ReflTransGen (Effect env caller request start) start

inductive Shows (server : Server) : String → Prop where
  | own (guid : String) (sub : SubscriptionRecord) (hsub : sub ∈ server.state.subscriptionsOf guid)
      (husername : sub.username = caller.username) : Shows server sub.token
  | access (mission : MissionRecord) (k : Nat) (now : Int)
      (hmission : request.target caller start.state = some mission) (hk : k < server.drawn)
      (hgate : ∃ key password,
        (request = .get key password ∧ env.passwordMatches mission password = true) ∨
          request = .about key (.accessToken password) ∧
            (mission.passwordProtected = true → env.passwordMatches mission password = true)) :
      Shows server (env.tokens.create (env.randomUuid k) .access mission.name mission.guid now)
  | listed (mission : MissionRecord) (invitation : InvitationRecord)
      (hmission : request.target caller start.state = some mission)
      (hrequest : ∃ key, request = .about key .invitations)
      (hrole : ∃ role, env.roleFor start.state mission caller = some role)
        (hstate : server.state = start.state)
      (hinvitation : invitation ∈ start.state.invitationsOf mission.guid) :
        Shows server invitation.token
  | mine (clientUid : String) (invitation : InvitationRecord)
    (hrequest : request = .myInvitations (some clientUid))
      (hstate : server.state = start.state)
      (hinvitation : invitation ∈ invitationsForCaller caller start.state clientUid) :
        Shows server invitation.token

def Justified (handler : Api Reply) : Prop :=
  wp handler
    (fun reply server => Reached env caller request start server ∧
      ∀ token ∈ reply.tokens, Shows env caller request start server token)
    (fun _ => Reached env caller request start) start

end Effect

end MicroTak.Missions
