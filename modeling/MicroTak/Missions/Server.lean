import MicroTak.Missions.Operations
import MicroTak.Missions.Token
import MicroTak.Users.Store

/-!
# The mission server

Who asks, which mission a request is about, and the role of the caller on it: that of the token the
request carries, else the administrator's, else the mission's default role unless a password or an
invitation is needed.  A handler checks the role and then changes the store one record at a time, so
an error keeps what was changed before it.
-/

namespace MicroTak.Missions

open Std Handler Groups Users

inductive ApiError where
  | notFound (message : String)
  | badRequest (message : String)
  | invalidBody
  | forbidden (message : String)
  | internal
  /-- No mission of that name or guid for the caller. -/
  | noMission
  | missionGone
  | accessDenied
  /-- The process ends on a stack overflow; what the store had recorded is there when it is back. -/
  | crashed
  deriving DecidableEq

def ApiError.ofMissionError : MissionError → ApiError
  | .notFound guid => .notFound ("Mission guid '" ++ guid ++ "' not found - not deleted")
  | .eventLog => .internal

/-- The configuration and the libraries: `randomUuid n` is the random id drawn after `n` others, and
`callsign` reads the callsign off the text of an event. -/
structure Env where
  adminCommonName : Option String
  tokens : MissionTokenSigner
  argon2 : Argon2
  randomUuid : Nat → String
  callsign : String → Option String

/-- Random ids are never drawn twice. -/
structure Env.Lawful (env : Env) : Prop where
  tokens : env.tokens.Lawful
  randomUuid_injective : Function.Injective env.randomUuid

structure Connected where
  commonName : Option String
  uid : Option String
  deriving DecidableEq

structure LatestEvent where
  xml : String
  serverTimeMs : Int
  deriving DecidableEq

/-- An invitation sent to live connections by their client uids. -/
structure InviteNotice where
  missionGuid : String
  uids : Finset String
  token : String
  role : Role
  deriving DecidableEq

/-- A permission check that a request of this user passed or was spared. -/
structure Passed where
  username : String
  missionGuid : String
  permission : Permission
  deriving DecidableEq

/-- Client uids, each with the guid of a mission they are told of. -/
structure Notifier where
  live : List (String × String) := []

namespace Notifier

variable (notifier : Notifier)

def connect (guid clientUid : String) : Notifier :=
  { live := if notifier.live.any (· =
      (guid, clientUid)) then notifier.live else notifier.live ++ [(guid, clientUid)] }

def disconnect (guid clientUid : String) : Notifier :=
  { live := notifier.live.filter (· ≠ (guid, clientUid)) }

/-- A client went away: it leaves every mission's live subscribers. -/
def clientDisconnected (clientUid : String) : Notifier :=
  { live := notifier.live.filter (·.2 ≠ clientUid) }

def liveSubscribers (guid : String) : List String :=
  (notifier.live.filter (·.1 = guid)).map Prod.snd

variable {notifier}

variable {guid uid : String} {entry : String × String}

@[simp] theorem mem_liveSubscribers : uid ∈ notifier.liveSubscribers guid ↔
    (guid, uid) ∈ notifier.live := by
  simp [liveSubscribers]

@[simp] theorem mem_connect :
    entry ∈ (notifier.connect guid uid).live ↔ entry = (guid, uid) ∨ entry ∈ notifier.live := by
  unfold connect
  split
  · next hany =>
    have hmem : (guid, uid) ∈ notifier.live := by simpa using hany
    exact ⟨.inr, fun h => h.elim (fun heq => heq ▸ hmem) id⟩
  · rw [List.mem_append, List.mem_singleton, or_comm]

@[simp] theorem mem_disconnect :
    entry ∈ (notifier.disconnect guid uid).live ↔ entry ∈ notifier.live ∧ entry ≠ (guid, uid) := by
  simp [disconnect]

@[simp] theorem mem_clientDisconnected :
    entry ∈ (notifier.clientDisconnected uid).live ↔ entry ∈ notifier.live ∧ entry.2 ≠ uid := by
  simp [clientDisconnected]

end Notifier

/-- The server's state.  The last four fields are what has happened so far: the notices handed to
the relay, the permission checks passed, those spared, and the tokens each user has been shown. -/
structure Server where
  store : MissionStore := {}
  groups : GroupStore := {}
  clients : List Connected := []
  notifier : Notifier := {}
  latestCot : TreeMap String LatestEvent := ∅
  drawn : Nat := 0
  notices : List InviteNotice := []
  passed : List Passed := []
  spared : List Passed := []
  shown : List (String × String) := []

abbrev Server.state (server : Server) : State := server.store.state

abbrev Api (α : Type) := EStateM ApiError Server α

def storeOp {α : Type} (op : MissionStore.Op α) : Api α := fun server =>
  match MissionStore.perform op server.store with
  | .ok a store => .ok a { server with store }
  | .error e store => .error (.ofMissionError e) { server with store }

def notify (change : Notifier → Notifier) : Api Unit :=
  modify fun server => { server with notifier := change server.notifier }

structure Headers where
  missionAuthorization : Option String := none
  authorization : Option String := none
  apiVersion : Option Nat := none

structure Caller where
  username : String
  admin : Bool
  groups : Finset String
  token : Option String
  apiVersion : Nat

inductive Key where
  | name (name : String)
  | guid (guid : String)
  /-- A name, or a guid if no mission of that name is found. -/
  | nameOrGuid (name : String)
  deriving DecidableEq

def uuidParse (s : String) : Bool :=
  let parts := Text.split '-' s
  parts.length = 5 && (parts.zip [8, 4, 4, 4, 12]).all fun (part, length) =>
    part.length = length && part.toList.all fun c =>
      c.isDigit || ('a' ≤ c && c ≤ 'f') || ('A' ≤ c && c ≤ 'F')

namespace Caller

variable (caller : Caller)

def visible (mission : MissionRecord) : Bool :=
  caller.admin || decide (∃ group ∈ mission.groups, group ∈ caller.groups)

/-- Nothing is found, without an error, only where a mission may be created. -/
def lookupName (state : State) (create : Bool) (name : String) :
    Except ApiError (Option MissionRecord) :=
  if Text.trim name = "" then .error (.badRequest "empty 'name' path parameter")
  else
    match state.byName (Text.trim name) caller.visible with
    | some mission => .ok (some mission)
    | none =>
        if create then .ok none
        else if state.isDeletedName (Text.trim name) then .error .missionGone
        else .error .noMission

def lookupGuid (state : State) (guid : String) : Except ApiError (Option MissionRecord) :=
  if ! uuidParse guid then .error (.badRequest "invalid mission UUID")
  else
    match state.byGuid guid with
    | some mission =>
        if mission.deleted then .error .missionGone
        else if caller.visible mission then .ok (some mission)
        else .error .noMission
    | none => .error .noMission

def lookup (state : State) (create : Bool) : Key → Except ApiError (Option MissionRecord)
  | .name name => caller.lookupName state create name
  | .guid guid => caller.lookupGuid state guid
  | .nameOrGuid name =>
      match caller.lookupName state create name with
      | .ok found => .ok found
      | .error byName =>
          match caller.lookupGuid state name with
          | .ok found => .ok found
          | .error _ => .error byName

def target (state : State) (key : Key) : Except ApiError MissionRecord :=
  match caller.lookup state false key with
  | .ok (some mission) => .ok mission
  | .ok none => .error .internal
  | .error e => .error e

def existing (key : Key) : Api MissionRecord := reads fun server => caller.target server.state key

end Caller

namespace Env

variable (env : Env)

def isAdmin (username : String) : Bool := env.adminCommonName = some username

def caller (server : Server) (username : String) (headers : Headers) : Caller where
  username
  admin := env.isAdmin username
  groups := server.groups.state.allGroupNames username
  token := (headers.missionAuthorization.or headers.authorization).bind (Text.stripPrefix "Bearer ")
  apiVersion := headers.apiVersion.getD 2

def draw : Api String := fun server =>
    .ok (env.randomUuid server.drawn) { server with drawn := server.drawn + 1 }

def roleFromToken (state : State) (mission : MissionRecord) (caller : Caller)
    (types : List TokenType) :
    Option Role := do
  let token ← caller.token
  let claims ← env.tokens.decode token
  if claims.tokenType ∉ types ∨ claims.missionName ≠ mission.name then none
  else
    match claims.tokenType with
    | .subscription => (state.subscriptionById mission.guid claims.id).map (·.role)
    | .invitation =>
        ((state.invitationByToken token).filter fun i =>
          Text.eqIgnoreAsciiCase i.missionName mission.name).map (·.role)
    | .access => some mission.effectiveDefaultRole

def roleFor (state : State) (mission : MissionRecord) (caller : Caller) : Option Role :=
  match env.roleFromToken state mission caller [.access, .subscription] with
  | some role => some role
  | none =>
      if caller.admin then some .owner
      else if mission.passwordProtected || mission.inviteOnly then none
      else some mission.effectiveDefaultRole

def passwordMatches (mission : MissionRecord) (password : String) : Bool :=
  mission.passwordHash.any (env.argon2.verify password)

end Env

/-- A role may be assigned by one that covers it, and is not below the default role without a
password. -/
def mayAssign (mission : MissionRecord) (current : Option Role) (assign : Role) : Bool :=
  match current with
  | none => false
  | some current =>
      current.hasAll assign &&
        (mission.passwordProtected || assign.hasAll mission.effectiveDefaultRole)

def Server.note (server : Server) (username missionGuid : String) (permission : Permission) :
    Server :=
  { server with passed := { username, missionGuid, permission } :: server.passed }

def Server.spare (server : Server) (username missionGuid : String) (permission : Permission) :
    Server :=
  { server with spared := { username, missionGuid, permission } :: server.spared }

/-- A permission of the role, noted as used on the mission. -/
def check (caller : Caller) (mission : MissionRecord) (role : Option Role) (permission : Permission)
    (error : ApiError) : Api Unit := do
  ensure (role.any (·.has permission) = true) error
  modify (·.note caller.username mission.guid permission)

def require (caller : Caller) (mission : MissionRecord) (role : Option Role)
    (permission : Permission) : Api Unit :=
  check caller mission role permission .accessDenied

/-- The data of a response, as far as roles, tokens and subscriptions go. -/
inductive Reply where
  | ok
  | internalServerError
  /-- A mission, with a token and its role where the response carries them, or without its
  content. -/
  | mission (mission : MissionRecord) (token : Option String) (ownerRole : Option Role)
    (cleared : Bool)
  | token (token : String)
  | subscription (subscription : SubscriptionRecord)
  /-- Client uid, username and role of each subscription: the list hides the tokens. -/
  | subscriptionRoles (subscriptions : List (String × String × Role))
  | subscribers (uids : List String)
  | role (role : Option Role)
  | invitations (invitations : List InvitationRecord)
  | invitationNames (names : Finset String)
  | logEntry (entry : LogEntryRecord)
  | logEntries (entries : List LogEntryRecord)
  /-- A mission or a subscription, with the log of the mission. -/
  | withLogs (reply : Reply) (entries : List LogEntryRecord)
  | layer (layer : LayerRecord) (parentUid : Option String)
  | mapLayer (layer : MapLayerRecord)
  | externalData (record : ExternalDataRecord)
  | events (xml : List String)
  /-- The data of an endpoint that is not modelled further. -/
  | served

def Reply.tokens : Reply → List String
  | .mission _ shown _ _ => shown.toList
  | .token shown => [shown]
  | .subscription sub => [sub.token]
  | .invitations found => found.map (·.token)
  | .withLogs reply _ => reply.tokens
  | _ => []

def Reply.entries : Reply → List LogEntryRecord
  | .logEntry entry => [entry]
  | .logEntries found => found
  | .withLogs reply found => reply.entries ++ found
  | _ => []

/-- What a request takes from outside the store: the clock, the salt of a password hash, which
hashes name a stored file, and of its parameters the window of a log, or what is wrong with it,
whether a mission is asked for with its log, and what is wrong with the query string. -/
structure Inputs where
  now : Int := 0
  salt : String := "s"
  knownHash : String → Bool := fun _ => true
  window : Except String Window := .ok {}
  logs : Bool := false
  badQuery : Option String := none

end MicroTak.Missions
