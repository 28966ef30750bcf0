import MicroTak.Groups.Store

/-!
# The relay hub

The one broadcast bus every listener publishes into and reads from.  A message carries the groups it
was sent into and the uids it is for, and two tests decide whether a connection gets it: the groups
must meet the connection's OUT groups, and a directed message must name the connection's uid.
-/

namespace MicroTak.Transport

open Groups (anonGroup)

/-- A peer address as printed; addresses are compared and never taken apart. -/
abbrev SocketAddr := String

/-- Who produced a message: a client, or the server itself. -/
inductive Origin where
  | client
  | server (skipUid : Option String)
  deriving DecidableEq

structure Outbound where
  sender : SocketAddr
  xml : String
  destUids : Option (List String)
  groups : Finset String
  origin : Origin
  deriving DecidableEq

/-- The sender address of the server's own messages. -/
def serverAddr : SocketAddr := "0.0.0.0:0"

namespace Outbound

variable (msg : Outbound)

/-- Whether a connection with these active OUT groups may see the message at all. -/
def reaches (receiverOutGroups : Finset String) : Bool :=
  match msg.origin with
  | .server _ =>
      msg.destUids.isSome || anonGroup ∈ msg.groups || (msg.groups ∩ receiverOutGroups).Nonempty
  | .client => (msg.groups ∩ receiverOutGroups).Nonempty

/-- The message is a server broadcast that leaves out the connection's uid. -/
def skips (myUid : Option String) : Bool :=
  match msg.origin with
  | .server (some skip) => myUid = some skip
  | _ => false

/-- Whether a connection known as `myUid` is among the recipients. -/
def isDeliverableTo (myUid : Option String) : Bool :=
  if msg.skips myUid then false
  else
    match msg.destUids with
    | none => true
    | some uids => myUid.any fun uid => uid ∈ uids

variable {msg}

theorem isDeliverableTo_client (h : msg.origin = .client) (myUid : Option String) :
    msg.isDeliverableTo myUid = true ↔ ∀ uids ∈ msg.destUids, ∃ uid ∈ myUid, uid ∈ uids := by
  have hskips : msg.skips myUid = false := by simp [skips, h]
  unfold isDeliverableTo
  cases hdest : msg.destUids <;> cases myUid <;> simp [hskips]

theorem mem_of_isDeliverableTo {uids : List String} {myUid : Option String}
    (hdest : msg.destUids = some uids) (h : msg.isDeliverableTo myUid = true) :
    ∃ uid ∈ uids, myUid = some uid := by
  unfold isDeliverableTo at h
  split at h
  · cases h
  · cases myUid <;> simp_all

end Outbound

end MicroTak.Transport
