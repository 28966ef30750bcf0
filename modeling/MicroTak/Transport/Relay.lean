import MicroTak.Lib.Transition
import MicroTak.Transport.Connections

/-!
# The relay

Every connection of every listener around one hub.  A connection subscribes to the hub when it is
accepted, enters its loop once it is admitted, and from then on handles decoded events and hub
messages in any order, interleaved with the other connections and with changes to the groups, the
registry and the missions.  The broadcast channel is the list of everything sent and a read position
for each subscriber, which is what it is as long as nobody lags.
-/

namespace MicroTak.Transport

open Std Registry Groups Cot

/-- A message of the server's own, as the mission side sends them: to some uids (`server_to`), or
into groups and past one uid (`server_broadcast`). -/
structure ServerMessage where
  xml : String
  destUids : Option (List String)
  groups : Finset String
  skipUid : Option String
  deriving DecidableEq

def ServerMessage.outbound (msg : ServerMessage) : Outbound :=
  { sender := serverAddr
    xml := msg.xml
    destUids := msg.destUids
    groups := msg.groups
    origin := .server msg.skipUid }

/-- The mission side as the transports see it.  Routing an event records it in the missions and may
announce it; the answer is the live subscribers it goes to. -/
structure StreamingMissions (M : Type) where
  route : (missions : M) → (clientUid : Option String) → (username : String) →
    (names guids : List String) → (eventUid : String) → List String × M × List ServerMessage
  clientDisconnected : M → String → M

structure Env (M : Type) where
  pki : Pki
  wire : Wire
  missions : StreamingMissions M

/-- A relay for worked examples: no missions, and the sample library and text functions. -/
def Env.sample : Env Unit where
  pki := Pki.sample
  wire := Wire.plain
  missions :=
    { route := fun _ _ _ _ _ _ => ([], (), [])
      clientDisconnected := fun _ _ => () }

inductive Credentials where
  | tcp
  | tls (cn : String) (cert : Der)
  deriving DecidableEq

/-- A connection: its hub subscription, and its session once it is in its loop.  `outGroups` is the
lookup a TLS connection keeps, with the version it was made at. -/
structure Conn where
  credentials : Credentials
  listener : Listener
  pos : Nat
  outGroups : Option (Nat × Finset String) := none
  session : Option Session := none
  deriving DecidableEq

/-- A position report written to a connection as it entered its loop, with the hub index of the
message that report was published as, and what the connection was receiving from at that moment. -/
structure Replay where
  receiver : SocketAddr
  source : SocketAddr
  xml : String
  index : Nat
  out : Finset String
  uid : Option String
  deriving DecidableEq

structure Server (M : Type) where
  groups : GroupStore := {}
  registry : RegistryState := {}
  clients : ConnectedClients := {}
  missions : M
  sent : List Outbound := []
  conns : TreeMap SocketAddr Conn := ∅
  /-- For each report on record, the hub index of its message. -/
  saIndex : TreeMap SocketAddr Nat := ∅
  /-- What has been written from the hub: the receiver and the hub index. -/
  delivered : List (SocketAddr × Nat) := []
  replayed : List Replay := []

inductive Action (M : Type) where
  | accept (peer : SocketAddr) (credentials : Credentials) (listener : Listener)
  | enter (peer : SocketAddr)
  | item (peer : SocketAddr) (decoded : Decoded)
  | deliver (peer : SocketAddr)
  | leave (peer : SocketAddr)
  | changeGroups (event : GroupEvent)
  | changeRegistry (event : RegistryEvent)
  | changeMissions (missions : M)
  | serverSend (msg : ServerMessage)

namespace Server

variable {M : Type} (env : Env M) (server : Server M)

def running (peer : SocketAddr) : Option (Conn × Session) :=
  match server.conns[peer]? with
  | none => none
  | some conn =>
      match conn.session with
      | none => none
      | some session => if session.closed then none else some (conn, session)

/-- Accepting subscribes to the hub, before any handshake. -/
def accept (peer : SocketAddr) (credentials : Credentials) (listener : Listener) :
    Option (Server M) :=
  match server.conns[peer]? with
  | some _ => none
  | none => some { server with
      conns := server.conns.insert peer { credentials, listener, pos := server.sent.length } }

/-- The session a connection enters its loop with; a TLS connection needs a certificate that is
neither revoked nor of a blocked identity. -/
def openSession (peer : SocketAddr) (conn : Conn) : Option Session :=
  match conn.credentials with
  | .tcp => some (Session.openTcp conn.listener peer)
  | .tls cn cert =>
      if server.registry.access env.pki cn cert = .allowed then
        some (Session.openTls env.pki server.registry conn.listener peer cn cert)
      else none

/-- The latest position reports written to a connection as it enters its loop: of every other client
whose IN groups meet its OUT groups. -/
def replaysTo (session : Session) : List Replay :=
  if session.listener.latestSa then
    let out := server.groups.state.activeGroups session.identity.commonName .outgoing
    (server.clients.latestSasExcept session.peer).filterMap fun (endpoint, xml) =>
      if (server.groups.state.activeGroups endpoint.commonName .incoming ∩ out).Nonempty then
        some
          { receiver := session.peer
            source := endpoint.remoteAddr
            xml
            index := (server.saIndex[endpoint.remoteAddr]?).getD 0
            out
            uid := session.deliveryUid }
      else none
  else []

def enter (peer : SocketAddr) : Option (Server M) :=
  match server.conns[peer]? with
  | none => none
  | some conn =>
      match conn.session with
      | some _ => none
      | none =>
          (server.openSession env peer conn).map fun session =>
            let registered := { server with
              clients := server.clients.register
                { remoteAddr := peer, identity := session.identity, uid := none }
              conns := server.conns.insert peer { conn with session := some session } }
            { registered with replayed := server.replayed ++ registered.replaysTo session }

/-- The uid a connection has just taken goes into the list of connected clients. -/
def bindClient (clients : ConnectedClients) (before after : Session) : ConnectedClients :=
  if before.clientUid = after.clientUid then clients
  else
    match after.clientUid with
    | some uid => clients.setUid after.peer uid
    | none => clients

/-- What the mission side makes of an event: recipients, its new state and its announcements. -/
def routed (session : Session) (event : Event) : List String × M × List ServerMessage :=
  match session.routeRequest event with
  | none => ([], server.missions, [])
  | some (clientUid, cn, names, guids) =>
      env.missions.route server.missions clientUid cn names guids event.uid

/-- A relayed event: kept as the latest report where it is one, routed, and sent. -/
def publish (session : Session) (decoded : Decoded) : Server M :=
  let (recipients, missions, announcements) := server.routed env session decoded.event
  let msg := session.outbound env.wire server.groups.state recipients decoded
  let before := server.sent ++ announcements.map ServerMessage.outbound
  let kept := session.keepsSa decoded.event
  { server with
    missions
    sent := before ++ [msg]
    clients := if kept then server.clients.setLatestSa session.peer msg.xml else server.clients
    saIndex :=
      if kept && (server.clients.clients[session.peer]?).isSome then server.saIndex.insert
        session.peer before.length
      else server.saIndex }

def item (peer : SocketAddr) (decoded : Decoded) : Option (Server M) :=
  match server.running peer with
  | none => none
  | some (conn, session) =>
      let (next, reaction) := session.onEvent env.wire server.registry decoded
      let bound := { server with
        conns := server.conns.insert peer { conn with session := some next }
        clients := bindClient server.clients session next }
      match reaction with
      | .relayed => some (bound.publish env next decoded)
      | _ => some bound

/-- The OUT groups a TLS connection filters by, looked up again when the version has moved. -/
def lookupOut (conn : Conn) (cn : String) : Nat × Finset String :=
  let fresh := (server.groups.version, server.groups.state.activeGroups (some cn) .outgoing)
  match conn.outGroups with
  | none => fresh
  | some (version, out) => if version = server.groups.version then (version, out) else fresh

/-- Whether a hub message is written to the connection, and the lookup it keeps. -/
def receive (conn : Conn) (session : Session) (msg : Outbound) :
    Option (Nat × Finset String) × Bool :=
  if msg.sender = session.peer then (conn.outGroups, false)
  else
    match session.identity with
    | .tcp =>
        (conn.outGroups, msg.isDeliverableTo none &&
          msg.reaches (server.groups.state.activeGroups none .outgoing))
    | .tls cn _ =>
        if msg.isDeliverableTo session.clientUid then
          let cached := server.lookupOut conn cn
          (some cached, msg.reaches cached.2 &&
            (!session.protobuf || (env.wire.encodeOutbound msg.xml).isSome))
        else (conn.outGroups, false)

def deliver (peer : SocketAddr) : Option (Server M) :=
  match server.running peer with
  | none => none
  | some (conn, session) =>
      (server.sent[conn.pos]?).map fun msg =>
        let (outGroups, wrote) := server.receive env conn session msg
        { server with
          conns := server.conns.insert peer { conn with pos := conn.pos + 1, outGroups }
          delivered := if wrote then server.delivered ++ [(peer, conn.pos)] else server.delivered }

/-- The connection is gone: if it was in its loop, its endpoint, its latest report and its live
mission subscriptions. -/
def leave (peer : SocketAddr) : Option (Server M) :=
  match server.conns[peer]? with
  | none => none
  | some conn => some { server with
      conns := server.conns.erase peer
      clients := if conn.session.isSome then server.clients.unregister peer else server.clients
      saIndex := if conn.session.isSome then server.saIndex.erase peer else server.saIndex
      missions :=
        match (conn.session.filter (·.listener.missions)).bind (·.deliveryUid) with
        | some uid => env.missions.clientDisconnected server.missions uid
        | none => server.missions }

def step : Action M → Option (Server M)
  | .accept peer credentials listener => server.accept peer credentials listener
  | .enter peer => server.enter env peer
  | .item peer decoded => server.item env peer decoded
  | .deliver peer => server.deliver env peer
  | .leave peer => server.leave env peer
  | .changeGroups event => some { server with
      groups :=
        { state := applyEvent server.groups.state event, version := server.groups.version + 1 } }
  | .changeRegistry event =>
    some { server with registry := Registry.applyEvent server.registry event }
  | .changeMissions missions => some { server with missions }
  | .serverSend msg => some { server with sent := server.sent ++ [msg.outbound] }

/-- The server as it starts, whatever its stores hold: nobody connected, nothing sent. -/
def start (groups : GroupStore) (registry : RegistryState) (missions : M) : Server M :=
  { groups, registry, missions }

end Server

end MicroTak.Transport
