import MicroTak.Cot.LatestCot
import MicroTak.Lib.Sorting
import MicroTak.Transport.Connections

/-!
# The list of subscriptions

The clients that are listed make a set ordered by a 32-bit hash of eight of their strings, and of
two clients with the same hash only the first is listed.
-/

namespace MicroTak.Marti

open Cot Transport

def encodeUtf16 (s : String) : List Nat :=
  s.toList.flatMap fun c =>
    if c.toNat < 0x10000 then [c.toNat]
    else [0xD800 + (c.toNat - 0x10000) / 0x400, 0xDC00 + (c.toNat - 0x10000) % 0x400]

def javaHash (s : String) : Int32 := (encodeUtf16 s).foldl (fun h c => h * 31 + .ofNat c) 0

def infoHash (fields : List String) : Int32 := fields.foldl (fun h f => h * 31 + javaHash f) 1

structure SaFields where
  callsign : String := ""
  team : String := ""
  role : String := ""
  takv : String := ""

/-- How addresses and events are read: the IP address and the port as texts, and `sa_fields`. -/
structure Texts where
  ip : SocketAddr → String
  port : SocketAddr → String
  saFields : String → SaFields

structure ContactsState where
  clients : ConnectedClients := {}
  groups : Groups.State := {}
  latestCot : LatestCot := {}
  adminCommonName : Option String := none

/-- The fields that are not the same for every client. -/
structure SubscriptionInfo where
  dn : String
  callsign : String
  clientUid : String
  lastReportMs : Int
  lastReportDiffMs : Int
  takClient : String
  takVersion : String
  username : String
  groups : List Groups.MemberGroup
  role : String
  ipAddress : String
  port : String
  team : String
  subscriptionUid : String
  deriving DecidableEq

variable (texts : Texts) (state : ContactsState) (caller : String) (nowMs : Int)

def subscriptionUid (endpoint : ClientEndpoint) : String :=
  (if endpoint.commonName.isSome then "tls:" else "tcp:") ++
    toString ((state.clients.numbers[endpoint.remoteAddr]?).getD 0)

def report (endpoint : ClientEndpoint) : Option LatestEvent :=
  endpoint.uid.bind (state.latestCot.events[·]?)

def reported (endpoint : ClientEndpoint) : SaFields :=
  ((report state endpoint).map fun e => texts.saFields e.xml).getD {}

def dn (endpoint : ClientEndpoint) : String := (endpoint.commonName.map ("CN=" ++ ·)).getD ""

/-- The hash of the fields that make a client's place in the set. -/
def clientHash (endpoint : ClientEndpoint) : Int32 :=
  infoHash [endpoint.uid.getD "", dn endpoint, " " ++ texts.ip endpoint.remoteAddr,
    texts.port endpoint.remoteAddr, "Netty", (reported texts state endpoint).role,
      subscriptionUid state endpoint, endpoint.commonName.getD ""]

def info (endpoint : ClientEndpoint) : SubscriptionInfo :=
  let sa := reported texts state endpoint
  let subscriptionUid := subscriptionUid state endpoint
  let lastReportMs := ((report state endpoint).map (·.serverTimeMs)).getD 0
  let tak := (Text.splitOnce ':' sa.takv).getD (sa.takv, "")
  { dn := dn endpoint
    callsign := if sa.callsign = "" then subscriptionUid else sa.callsign
    clientUid := endpoint.uid.getD ""
    lastReportMs
    lastReportDiffMs := nowMs - lastReportMs
    takClient := tak.1
    takVersion := (Text.split ':' tak.2).headD ""
    username := endpoint.commonName.getD ""
    groups := (endpoint.commonName.map state.groups.memberships).getD []
    role := sa.role
    ipAddress := " " ++ texts.ip endpoint.remoteAddr
    port := texts.port endpoint.remoteAddr
    team := sa.team
    subscriptionUid }

def reachable (groups : Option (Finset String)) : List ClientEndpoint :=
  (state.clients.clients.toList.map (·.2)).filter fun c =>
    match groups, c.commonName with
    | none, _ => true
    | some groups, some cn => state.groups.allGroupNames cn ∩ groups ≠ ∅
    | some groups, none => Groups.anonGroup ∈ groups

def reachableBy : List ClientEndpoint :=
  reachable state (if state.adminCommonName = some caller then none
    else some (state.groups.allGroupNames caller))

def allSubscriptions : List SubscriptionInfo :=
  ((Sorting.firsts (clientHash texts state) (reachableBy state caller)).toList.map Prod.snd).map
    (info texts state nowMs)

/-- Every client that the caller may reach is listed once if and only if no two of them have one
hash. -/
theorem allSubscriptions_perm_iff :
    (allSubscriptions texts state caller nowMs).Perm
    ((reachableBy state caller).map (info texts state nowMs)) ↔
      ((reachableBy state caller).map (clientHash texts state)).Nodup := by
  refine ⟨fun h => Sorting.nodup_of_length_firsts ?_, fun h => (Sorting.perm_firsts h).map _⟩
  simpa [allSubscriptions] using h.length_eq.ge

def plainTexts : Texts where
  ip addr := ((Text.splitOnce ':' addr).getD ("", "")).1
  port addr := ((Text.splitOnce ':' addr).getD ("", "")).2
  saFields _ := {}

/-- Two connections of one device: the 1000th and the 2000th of the server. -/
def twice : ContactsState where
  clients :=
    let first :=
      { nextNumber := 999 : ConnectedClients }.register ⟨"10.0.0.7:5001", .tls "alice" none, none⟩
    { first with nextNumber := 1999 }.register ⟨"10.0.0.7:5000", .tls "alice" none, none⟩
  adminCommonName := some "admin"

theorem one_subscription_for_two_clients :
    (reachableBy twice "admin").length = 2 ∧
    (allSubscriptions plainTexts twice "admin" 0).length = 1 := by
  decide +kernel

end MicroTak.Marti
