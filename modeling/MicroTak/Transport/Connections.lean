import Mathlib.Data.List.Sort
import MicroTak.Transport.Session

/-!
# Connected clients

Who is connected right now, shared by every listener: the endpoint of each connection, its number in
order of arrival, and its latest position report as relayed.
-/

namespace MicroTak.Transport

open Std

structure ClientEndpoint where
  remoteAddr : SocketAddr
  identity : Identity
  uid : Option String
  deriving DecidableEq

def ClientEndpoint.commonName (endpoint : ClientEndpoint) : Option String :=
  endpoint.identity.commonName

structure ConnectedClients where
  clients : TreeMap SocketAddr ClientEndpoint := ∅
  numbers : TreeMap SocketAddr Nat := ∅
  nextNumber : Nat := 0
  latestSa : TreeMap SocketAddr String := ∅

namespace ConnectedClients

variable (connected : ConnectedClients)

def register (endpoint : ClientEndpoint) : ConnectedClients :=
  { connected with
    nextNumber := connected.nextNumber + 1
    numbers := connected.numbers.insert endpoint.remoteAddr (connected.nextNumber + 1)
    clients := connected.clients.insert endpoint.remoteAddr endpoint }

def unregister (remoteAddr : SocketAddr) : ConnectedClients :=
  { connected with
    clients := connected.clients.erase remoteAddr
    numbers := connected.numbers.erase remoteAddr
    latestSa := connected.latestSa.erase remoteAddr }

/-- Records a connection's own position report; nothing happens if it is not registered. -/
def setLatestSa (remoteAddr : SocketAddr) (xml : String) : ConnectedClients :=
  match connected.clients[remoteAddr]? with
  | some _ => { connected with latestSa := connected.latestSa.insert remoteAddr xml }
  | none => connected

def setUid (remoteAddr : SocketAddr) (uid : String) : ConnectedClients :=
  match connected.clients[remoteAddr]? with
  | some endpoint =>
    { connected with
      clients := connected.clients.insert remoteAddr { endpoint with uid := some uid } }
  | none => connected

/-- Every other connected client's latest position report, oldest connection first. -/
def latestSasExcept (remoteAddr : SocketAddr) : List (ClientEndpoint × String) :=
  let sas := connected.latestSa.toList.filterMap fun (addr, xml) =>
    if addr = remoteAddr then none
    else (connected.clients[addr]?).map fun endpoint =>
      ((connected.numbers[addr]?).getD 0, endpoint, xml)
  (sas.insertionSort fun a b => a.1 ≤ b.1).map Prod.snd

variable {connected}

/-- Every client is kept under its own address. -/
def Filed (connected : ConnectedClients) : Prop :=
  ∀ (addr : SocketAddr) (endpoint : ClientEndpoint), connected.clients[addr]? = some endpoint →
    endpoint.remoteAddr = addr

@[simp] theorem setLatestSa_clients {addr : SocketAddr} (xml : String) :
    (connected.setLatestSa addr xml).clients = connected.clients := by
  unfold setLatestSa
  split <;> rfl

theorem mem_latestSasExcept {remoteAddr : SocketAddr} {endpoint : ClientEndpoint} {xml : String} :
    (endpoint, xml) ∈ connected.latestSasExcept remoteAddr ↔
      ∃ addr, addr ≠ remoteAddr ∧ connected.latestSa[addr]? = some xml ∧
      connected.clients[addr]? = some endpoint := by
  simp only [latestSasExcept, List.mem_map, List.mem_insertionSort, List.mem_filterMap, Prod.exists]
  constructor
  · rintro ⟨number, ep, text, ⟨addr, stored, hstored, hentry⟩, heq⟩
    split at hentry
    · cases hentry
    · rename_i hother
      obtain ⟨ep', hclient, hpair⟩ := Option.map_eq_some_iff.1 hentry
      obtain ⟨-, rfl, rfl⟩ := hpair
      obtain ⟨rfl, rfl⟩ := heq
      exact ⟨addr, hother, TreeMap.mem_toList_iff_getElem?_eq_some.1 hstored, hclient⟩
  · rintro ⟨addr, hother, hstored, hclient⟩
    exact ⟨(connected.numbers[addr]?).getD 0, endpoint, xml,
      ⟨addr, xml, TreeMap.mem_toList_iff_getElem?_eq_some.2 hstored, by simp [hother, hclient]⟩,
        rfl⟩

end ConnectedClients

end MicroTak.Transport
