import MicroTak.Transport.Hub
import MicroTak.Transport.Identity

/-!
# The event loop of one connection

What a TLS or plain-TCP connection does with an event it decoded, and whether it writes a message it
received from the hub.  A connection goes by the uid of its first event with a contact endpoint; on
TLS the identity checks follow that assignment, so an event they drop has already named the
connection.
-/

namespace MicroTak.Transport

open Cot Registry Groups

/-- The text-level functions of the server the relay applies to an event: removing the `<marti>`
element, appending a feed's `<source>`, reading the version a `t-x-takp-q` asks for, and framing an
event as protobuf, which fails for one too large to send. -/
structure Wire where
  stripMarti : String → String
  addFeedSource : (xml feedUuid feedName : String) → (tags : List String) → String
  requestedVersion : String → Option String
  encodeOutbound : String → Option (List UInt8)

/-- Text functions for worked examples, which leave the text as it is and frame it by its codes. -/
def Wire.plain : Wire where
  stripMarti xml := xml
  addFeedSource xml _ _ _ := xml
  requestedVersion _ := none
  encodeOutbound xml := some (xml.toList.map fun c => UInt8.ofNat c.toNat)

def takProtoVersion : String := "1"

/-- What a data-feed listener stamps on the events it takes in. -/
structure FeedTag where
  uuid : String
  name : String
  tags : List String
  groups : Finset String
  deriving DecidableEq

def FeedTag.mark (feed : FeedTag) (wire : Wire) (xml : String) : String :=
  wire.addFeedSource xml feed.uuid feed.name feed.tags

/-- The settings a listener hands to each of its connections. -/
structure Listener where
  latestSa : Bool := false
  validateClientUid : Bool := false
  takProtocol : Bool := false
  feed : Option FeedTag := none
  missions : Bool := false
  deriving DecidableEq

/-- A plain-TCP connection has no identity; a TLS one has its certificate's common name and what
that certificate was enrolled for, looked up once. -/
inductive Identity where
  | tcp
  | tls (cn : String) (enrolled : Option (Option String))
  deriving DecidableEq

def Identity.commonName : Identity → Option String
  | .tcp => none
  | .tls cn _ => some cn

/-- The enrolled uid the impersonation rule takes as the connection's own. -/
def Identity.mine : Identity → Option String
  | .tcp => none
  | .tls _ enrolled => enrolled.join

structure Session where
  peer : SocketAddr
  listener : Listener := {}
  identity : Identity
  clientUid : Option String := none
  protobuf : Bool := false
  closed : Bool := false
  deriving DecidableEq

/-- A decoded event with the text it was read from. -/
structure Decoded where
  event : Event
  xml : String
  deriving DecidableEq

inductive Reaction where
  | negotiated (supported : Bool)
  | consumed (ping : Bool)
  | dropped (reason : String)
  | disconnected (reason : String)
  | relayed
  deriving DecidableEq

namespace Session

variable (wire : Wire) (registry : RegistryState) (session : Session)

/-- The session of a TLS connection as it enters `handle_client`. -/
def openTls (pki : Pki) (registry : RegistryState) (listener : Listener) (peer : SocketAddr)
    (cn : String) (peerCert : Der) : Session :=
  { peer, listener, identity := .tls cn (registry.enrolledClientUid pki peerCert) }

def openTcp (listener : Listener) (peer : SocketAddr) : Session :=
  { peer, listener, identity := .tcp }

/-- The connection takes its uid from the first event with a contact endpoint. -/
def bindUid (event : Event) : Session :=
  if session.clientUid.isNone && event.hasEndpoint then { session with clientUid := some event.uid }
  else session

/-- A `t-x-takp-q` on a connection that still speaks XML. -/
def negotiates (event : Event) : Bool :=
  session.listener.takProtocol && !session.protobuf &&
    Text.eqIgnoreAsciiCase event.cotType "t-x-takp-q"

def onTlsEvent (enrolled : Option (Option String)) (item : Decoded) : Session × Reaction :=
  if session.negotiates item.event then
    let supported := wire.requestedVersion item.xml = some takProtoVersion
    ({ session with protobuf := supported }, .negotiated supported)
  else if item.event.isControl then (session, .consumed item.event.isPing)
  else
    -- The uid is taken before either check is made.
    let bound := session.bindUid item.event
    match identityVerdict registry session.listener.validateClientUid enrolled item.event with
    | .drop reason => (bound, .dropped reason)
    | .disconnect reason => ({ bound with closed := true }, .disconnected reason)
    | .relay => (bound, .relayed)

def onTcpEvent (item : Decoded) : Session × Reaction :=
  if item.event.isControl then (session, .consumed item.event.isPing)
  else (session.bindUid item.event, .relayed)

def onEvent (item : Decoded) : Session × Reaction :=
  match session.identity with
  | .tls _ enrolled => session.onTlsEvent wire registry enrolled item
  | .tcp => session.onTcpEvent item

/-- The events of a connection in order, up to the one that ends it. -/
def serve : Session → List Decoded → Session
  | session, [] => session
  | session, item :: rest =>
      if session.closed then session else serve (session.onEvent wire registry item).1 rest

def relayedXml (item : Decoded) : String :=
  let stripped := wire.stripMarti item.xml
  match session.listener.feed with
  | some feed => feed.mark wire stripped
  | none => stripped

/-- The groups an event of this connection is sent into. -/
def sendGroups (groups : Groups.State) : Finset String :=
  match session.listener.feed with
  | some feed =>
      if feed.groups.Nonempty then feed.groups
        else groups.activeGroups session.identity.commonName .incoming
  | none => groups.activeGroups session.identity.commonName .incoming

/-- The question put to the mission side, when a TLS event is addressed to missions: the
connection's uid and identity, and the missions by name and by guid. -/
def routeRequest (event : Event) : Option (Option String × String × List String × List String) :=
  match session.identity with
  | .tcp => none
  | .tls cn _ =>
      let (names, guids) := event.destMissions
      if session.listener.missions && !(names.isEmpty && guids.isEmpty) then
        some (session.clientUid, cn, names, guids)
      else none

/-- Mission subscribers are added to the addressed uids, each once. -/
def addRecipients (dest : List String) : List String → List String
  | [] => dest
  | uid :: rest => addRecipients (if uid ∈ dest then dest else dest ++ [uid]) rest

/-- The resolved recipients of an event, given what the mission side returned. -/
def recipients (event : Event) (routed : List String) : Option (List String) :=
  match session.identity with
  | .tcp => event.addressedUids
  | .tls _ _ =>
      let dest := addRecipients (event.addressedUids.getD []) routed
      if dest.isEmpty then none else some dest

def outbound (groups : Groups.State) (routed : List String) (item : Decoded) : Outbound :=
  { sender := session.peer
    xml := session.relayedXml wire item
    destUids := session.recipients item.event routed
    groups := session.sendGroups groups
    origin := .client }

/-- The uid a hub message is matched against; a plain-TCP connection is matched as nobody. -/
def deliveryUid : Option String :=
  match session.identity with
  | .tcp => none
  | .tls _ _ => session.clientUid

/-- The session takes this message from the hub, its OUT groups being `out`. -/
def accepts (out : Finset String) (msg : Outbound) : Bool :=
  !session.closed && msg.sender ≠ session.peer && msg.isDeliverableTo session.deliveryUid &&
    msg.reaches out

/-- The event is kept as the connection's latest position report. -/
def keepsSa (event : Event) : Bool :=
  event.isSituationalAwareness && session.clientUid = some event.uid

end Session

end MicroTak.Transport
