import MicroTak.Feeds.Listeners
import MicroTak.Transport.Positions
import MicroTak.Transport.Switchboard

/-!
# One loop behind four models

The relay knows its connections by address and reads the stores, the switchboard knows them by
number and is told what was read, the feeds come with the task that watches their store, and the
order of positions takes an event apart into its record and its way to the hub.  Each of them is, at
its own names for connections, the loop that every connection runs: an event moves the session on,
and if it is relayed its message goes to the hub before the next event is read.
-/

namespace MicroTak.Transport

open Std Transition Registry Relation Feeds Switchboard Option

/-- A connection: its session once it is in its loop, and the event that is on its way to the
hub. -/
structure Loop where
  session : Option Session := none
  pending : Option Decoded := none

/-- The connections by whatever names them, and the hub. -/
structure Loops (κ : Type) where
  conns : κ → Loop := fun _ => {}
  sent : List Outbound := []

namespace Loops

variable {κ : Type} [DecidableEq κ]

def set (loops : Loops κ) (k : κ) (loop : Loop) : Loops κ :=
  { loops with conns := Function.update loops.conns k loop }

def send (loops : Loops κ) (msg : Outbound) : Loops κ := { loops with sent := loops.sent ++ [msg] }

/-- The connections take turns, and the server sends messages of its own. -/
inductive Step (wire : Wire) (loops : Loops κ) : Loops κ → Prop where
  | enter {k : κ} {peer : SocketAddr} {listener : Listener} {identity : Identity}
      (hnew : (loops.conns k).session = none) :
      Step wire loops
        (loops.set k { loops.conns k with session := some { peer, listener, identity } })
  | read {k : κ} {session : Session} (registry : RegistryState) (decoded : Decoded)
      (hloop : loops.conns k = { session := some session }) (hopen : session.closed = false) :
      Step wire loops (loops.set k
        { session := some (session.onEvent wire registry decoded).1
          pending :=
            if (session.onEvent wire registry decoded).2 = .relayed then some decoded else none })
  | publish {k : κ} {session : Session} {decoded : Decoded} (groups : Groups.State)
      (routed : List String)
      (hloop : loops.conns k = { session := some session, pending := some decoded }) :
      Step wire loops ((loops.set k { session := some session }).send
        (session.outbound wire groups routed decoded))
  | announce (msg : ServerMessage) : Step wire loops (loops.send msg.outbound)
  | leave (k : κ) : Step wire loops (loops.set k {})

/-- The loops of the connections in a map. -/
def ofMap {ν : Type} [Ord κ] (view : ν → Loop) (m : TreeMap κ ν) (sent : List Outbound) :
    Loops κ where
  conns k := ((m[k]?).map view).getD {}
  sent := sent

section

variable {ν : Type} [Ord κ] [TransOrd κ] [LawfulEqOrd κ] {view : ν → Loop} {m : TreeMap κ ν}
  {sent after : List Outbound} {k : κ} {v old : ν} {wire : Wire} {loop : Loop} {session : Session}
  {decoded : Decoded}

end

end Loops

open Loops

/-! ### The relay -/

def Server.loops {M : Type} (server : Server M) : Loops SocketAddr :=
  ofMap (fun conn => { session := conn.session }) server.conns server.sent

def Switchboard.loops (board : Switchboard) : Loops Nat :=
  ofMap (fun line => { session := line.session }) board.lines (board.sent.map Prod.snd)

def Broadcast.loops (bus : Broadcast) : Loops Nat :=
  ofMap (fun link => { session := link.session, pending := link.pending.map Prod.fst }) bus.links
    (bus.sent.map Prod.snd)

end MicroTak.Transport
