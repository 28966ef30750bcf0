import MicroTak.Missions.Live
import MicroTak.Missions.Runs
import MicroTak.Transport.RelayInvariant

/-!
# The relay with the mission server

The connections around the hub, and the mission server with its notifier behind them: events that
are addressed to missions are routed to the live subscribers, a connection that closes takes its
client uid out of every mission, and a change of a mission is announced to the client uids that are
live subscribers at that moment.  The mission server asks the group store and the list of connected
clients as they are.
-/

namespace MicroTak.Network

open Std Handler Transition Missions

/-- The mission side of the relay, with the time. -/
structure Side where
  server : Missions.Server := {}
  now : Int := 0

/-- The configuration and the libraries of both sides; `changeXml` is the notice of the latest
content change of a mission. -/
structure Env where
  missions : Missions.Env
  pki : Registry.Pki
  wire : Transport.Wire
  changeXml : Missions.Server → Missions.MissionRecord → String

def Env.sample : Env where
  missions := Missions.Env.sample
  pki := Registry.Pki.sample
  wire := Transport.Wire.plain
  changeXml _ _ := "<change/>"

/-- A change notice to the live subscribers of a mission, those that are connections. -/
def announce (notifier : Missions.Notifier) (guid xml : String) : List Transport.ServerMessage :=
  match (notifier.liveSubscribers guid).filter fun uid =>
    (Text.stripPrefix "topic:" uid).isNone with
  | [] => []
  | uids => [{ xml, destUids := some uids, groups := ∅, skipUid := none }]

/-- What routing an event has come to: the server, the recipients and the announcements. -/
structure Routing where
  server : Missions.Server
  recipients : List String := []
  announcements : List Transport.ServerMessage := []

variable (env : Env)

/-- The event goes to the live subscribers of a mission its sender may write to, and is announced if
it was stored. -/
def routeOne (notifier : Missions.Notifier) (username clientUid eventUid : String) (now : Int)
    (routing : Routing) (mission : Missions.MissionRecord) : Routing :=
  match routing.server.state.findSubscription mission.guid clientUid username with
  | none => routing
  | some sub =>
      if sub.role.has .write then
        let server := routeTo username clientUid eventUid now routing.server mission
        let stored :=
          storeOp (Missions.MissionStore.addContent mission.guid (.uid eventUid) clientUid now)
            (routing.server.note username mission.guid .write)
        { server
          recipients := routing.recipients ++ (notifier.liveSubscribers mission.guid).filter
            (· ≠ clientUid)
          announcements := routing.announcements ++
            match stored with
            | .ok _ _ => announce notifier mission.guid (env.changeXml server mission)
            | .error _ _ => [] }
      else routing

def route (side : Side) (clientUid : Option String) (username : String) (names guids : List String)
    (eventUid : String) : List String × Side × List Transport.ServerMessage :=
  let routing := (streamTargets side.server username names guids).foldl
    (routeOne env side.server.notifier username (clientUid.getD "") eventUid side.now)
      { server := side.server }
  (routing.recipients, { side with server := routing.server }, routing.announcements)

variable {env}

private theorem routeOne_server {notifier : Missions.Notifier}
    {username clientUid eventUid : String} {now : Int} {routing : Routing}
    {mission : Missions.MissionRecord} :
    (routeOne env notifier username clientUid eventUid now routing mission).server =
      routeTo username clientUid eventUid now routing.server mission := by
  unfold routeOne
  split
  · next hnone => rw [routeTo, hnone]
  · next sub hsub =>
    split
    · rfl
    · next hwrite => rw [routeTo, hsub]; exact (if_neg hwrite).symm

theorem foldl_routeOne_server {notifier : Missions.Notifier} {username clientUid eventUid : String}
    {now : Int} (targets : List Missions.MissionRecord) (routing : Routing) :
    (targets.foldl (routeOne env notifier username clientUid eventUid now) routing).server =
      targets.foldl (routeTo username clientUid eventUid now) routing.server := by
  induction targets generalizing routing with
  | nil => rfl
  | cons mission rest ih => rw [List.foldl_cons, ih, routeOne_server, List.foldl_cons]

theorem notifier_route (side : Side) (clientUid : Option String) (username : String)
    (names guids : List String) (eventUid : String) :
    (route env side clientUid username names guids eventUid).2.1.server.notifier =
    side.server.notifier := by
  rw [route, foldl_routeOne_server, notifier_stream]

variable (env)

def Env.relay : Transport.Env Side where
  pki := env.pki
  wire := env.wire
  missions :=
    { route := route env
      clientDisconnected := fun side uid =>
        { side with
          server := { side.server with notifier := side.server.notifier.clientDisconnected uid } } }

abbrev Net := Transport.Server Side

/-- The server as it starts, whatever its stores hold: nobody connected, and no live subscribers. -/
def startup (groups : Groups.GroupStore) (registry : Registry.RegistryState)
    (missions : Missions.Server) : Net :=
  Transport.Server.start groups registry { server := { missions with notifier := {} } }

inductive NetAction where
  | relay (now : Int) (action : Transport.Action Side)
  | request (username : String) (headers : Missions.Headers) (inputs : Missions.Inputs)
    (request : Missions.Request)
  /-- A change of a mission is announced to its live subscribers. -/
  | announce (guid xml : String)

namespace Net

variable (net : Net)

abbrev notifier : Missions.Notifier := net.missions.server.notifier

/-- The mission server as it finds the groups and the connected clients. -/
def server : Missions.Server :=
  { net.missions.server with
    groups := net.groups
    clients := net.clients.clients.toList.map fun (_, endpoint) =>
      { commonName := endpoint.commonName, uid := endpoint.uid } }

def synced (now : Int) : Net :=
  { net with missions := { server := net.server, now } }

/-- The missions change by requests and events only. -/
def isOwn : Transport.Action Side → Bool
  | .changeMissions _ | .serverSend _ => false
  | _ => true

def respond (username : String) (headers : Missions.Headers) (inputs : Missions.Inputs)
    (request : Missions.Request) :
    Missions.Server :=
  Missions.respond env.missions net.server username headers inputs request

def step : NetAction → Option Net
  | .relay now action =>
    if isOwn action then Transport.Server.step env.relay (net.synced now) action else none
  | .request username headers inputs request =>
      some { net with
        missions := { net.missions with server := net.respond env username headers inputs request }
          }
  | .announce guid xml =>
      some { net with
        sent := net.sent ++ (announce net.notifier guid xml).map Transport.ServerMessage.outbound }

end Net

end MicroTak.Network
