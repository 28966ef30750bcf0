import MicroTak.Lib.Dict
import MicroTak.Lib.Journal
import MicroTak.Lib.Text
import Mathlib.Algebra.Ring.Nat
import Mathlib.Data.Finset.Basic

/-!
# Groups

Every identity is a member of named groups, each membership with a direction: IN lets it send into
the group, OUT lets it receive from it.  An identity without memberships is in `__ANON__` both ways.
A version number counts the changes, so that a relay can keep a lookup until it moves.

The functions that change the store are written against its log: what each looks at under the lock,
what it refuses and which events it records, in order.  A grant records one event for each of its
groups, so a log that stops taking appends can leave it half done.
-/

namespace MicroTak.Groups

open Std Journal

def anonGroup : String := "__ANON__"

inductive Direction where
  | incoming
  | outgoing
  deriving DecidableEq

inductive Membership where
  | incoming
  | outgoing
  | both
  deriving DecidableEq

def Membership.includes : Membership → Direction → Bool
  | .both, _ => true
  | .incoming, .incoming => true
  | .outgoing, .outgoing => true
  | _, _ => false

def Membership.merge (self other : Membership) : Membership :=
  if self = other then self else .both

/-- A membership handed out by an invite token or a password account. -/
structure GroupGrant where
  name : String
  membership : Membership
  deriving DecidableEq

structure GroupRecord where
  description : Option String
  bitpos : Nat
  createdAtUnix : Int
  deriving DecidableEq

structure State where
  groups : TreeMap String GroupRecord := ∅
  members : TreeMap String (TreeMap String Membership) := ∅
  /-- The groups an identity has switched off. -/
  inactive : TreeMap String (Finset String) := ∅
  /-- A 32-bit counter. -/
  nextBitpos : Nat := 0

inductive GroupEvent where
  | created (name : String) (description : Option String) (createdAtUnix : Int)
  | deleted (name : String)
  | memberSet (identity group : String) (membership : Option Membership)
  | activeSet (identity : String) (inactive : List String)
  deriving DecidableEq

inductive GroupError where
  | notFound (name : String)
  | alreadyExists (name : String)
  | invalidName (name : String)
  | noActiveGroup
  | eventLog
  deriving DecidableEq

def freshState : State :=
  { nextBitpos := 1
    groups := (∅ : TreeMap String GroupRecord).insert anonGroup
      { description := some "Default group for identities without explicit memberships"
        bitpos := 0
        createdAtUnix := 0 } }

/-- Explicit memberships, or `__ANON__` both ways when there are none. -/
def effectiveMemberships (state : State) (identity : String) : List (String × Membership) :=
  match state.members[identity]? with
  | some groups => if groups.isEmpty then [(anonGroup, .both)] else groups.toList
  | none => [(anonGroup, .both)]

def applyEvent (state : State) : GroupEvent → State
  | .created name description createdAtUnix =>
      { state with
        nextBitpos := (state.nextBitpos + 1) % 2 ^ 32
        groups := state.groups.insert name
          { description, bitpos := state.nextBitpos, createdAtUnix } }
  | .deleted name =>
      { state with
        groups := state.groups.erase name
        members := state.members.map fun _ groups => groups.erase name
        inactive := state.inactive.map fun _ off => off.erase name }
  | .memberSet identity group membership =>
      let groups := (state.members[identity]?).getD ∅
      { state with
        members := state.members.insert identity (match membership with
          | some m => groups.insert group m
          | none => groups.erase group) }
  | .activeSet identity inactive =>
      { state with inactive := state.inactive.insert identity inactive.toFinset }

structure MemberGroup where
  name : String
  direction : Direction
  active : Bool
  record : GroupRecord
  deriving DecidableEq

namespace State

variable (state : State)

def explicit (identity : String) : TreeMap String Membership := (state.members[identity]?).getD ∅

def isInactive (identity group : String) : Bool :=
  (state.inactive[identity]?).any fun off => group ∈ off

/-- The active groups routing uses; an unauthenticated connection is anonymous. -/
def activeGroups (identity : Option String) (direction : Direction) : Finset String :=
  match identity with
  | none => {anonGroup}
  | some identity =>
      ((effectiveMemberships state identity).filter fun (group, membership) =>
        membership.includes direction && !state.isInactive identity group).map Prod.fst |>.toFinset

/-- Every group of the identity in either direction, active or not. -/
def allGroupNames (identity : String) : Finset String :=
  ((effectiveMemberships state identity).map Prod.fst).toFinset

/-- The groups of the identity that exist, once for each direction. -/
def memberships (identity : String) : List MemberGroup :=
  (effectiveMemberships state identity).flatMap fun (name, membership) =>
    ([.incoming, .outgoing].filter membership.includes).filterMap fun direction =>
      (state.groups[name]?).map fun record =>
        ⟨name, direction, !state.isInactive identity name, record⟩

def firstMissing (grants : List GroupGrant) : Option String :=
  (grants.find? fun g => (state.groups[g.name]?).isNone).map (·.name)

end State

def validateName (name : String) : Except GroupError Unit :=
  if Text.trim name ≠ "" ∧ name.length ≤ 64 ∧
      ¬ name.toList.any (fun c => c.toNat < 32 ∨ (127 ≤ c.toNat ∧ c.toNat < 160)) ∧
        name ≠ anonGroup then
    .ok ()
  else .error (.invalidName name)

abbrev GroupOp := Journal.Op State GroupEvent GroupError Unit

/-- The store behind its lock.  `version` moves with every change. -/
structure GroupStore where
  state : State := freshState
  version : Nat := 0

namespace GroupStore

def create (name : String) (description : Option String) (nowUnix : Int) : GroupOp :=
  match validateName name with
  | .error error => .refuse error
  | .ok _ => do
      let state ← Op.get
      Op.ensure ((state.groups[name]?).isNone = true) (.alreadyExists name)
      Op.put (.created name description nowUnix)

def delete (name : String) : GroupOp := do
  Op.ensure (name ≠ anonGroup) (.invalidName name)
  let state ← Op.get
  Op.ensure ((state.groups[name]?).isSome = true) (.notFound name)
  Op.put (.deleted name)

def setMember (group identity : String) (membership : Option Membership) : GroupOp := do
  let state ← Op.get
  Op.ensure ((state.groups[group]?).isSome = true) (.notFound group)
  Op.put (.memberSet identity group membership)

/-- The membership after a grant: what there is already, and what is granted. -/
def merged (state : State) (identity : String) (grant : GroupGrant) : Membership :=
  match (state.explicit identity)[grant.name]? with
  | some existing => existing.merge grant.membership
  | none => grant.membership

/-- A membership for each grant, on top of what the identity has by then. -/
def recordGrants (identity : String) : List GroupGrant → GroupOp
  | [] => pure ()
  | grant :: rest => do
      let state ← Op.get
      Op.put (.memberSet identity grant.name (some (merged state identity grant)))
      recordGrants identity rest

/-- Memberships added at enrollment.  An unknown group refuses them all. -/
def grant (identity : String) (grants : List GroupGrant) : GroupOp := do
  let state ← Op.get
  match state.firstMissing grants with
  | some missing => .refuse (.notFound missing)
  | none => recordGrants identity grants

def setActive (identity : String) (active : Finset String) : GroupOp := do
  let state ← Op.get
  Op.ensure (state.allGroupNames identity ∩ active ≠ ∅) .noActiveGroup
  Op.put (.activeSet identity (((effectiveMemberships state identity).map Prod.fst).filter
    (· ∉ active)))

/-- The store after an operation, on a log that takes `disk` more appends. -/
def after (store : GroupStore) (op : GroupOp) (disk : Option Nat) : GroupStore :=
  let result := op.run applyEvent disk store.state
  { state := result.state, version := store.version + result.recorded.length }

end GroupStore

inductive GroupCall where
  | create (name : String) (description : Option String) (nowUnix : Int)
  | delete (name : String)
  | setMember (group identity : String) (membership : Option Membership)
  | grant (identity : String) (grants : List GroupGrant)
  | setActive (identity : String) (active : Finset String)

def GroupCall.op : GroupCall → GroupOp
  | .create name description nowUnix => GroupStore.create name description nowUnix
  | .delete name => GroupStore.delete name
  | .setMember group identity membership => GroupStore.setMember group identity membership
  | .grant identity grants => GroupStore.grant identity grants
  | .setActive identity active => GroupStore.setActive identity active

end MicroTak.Groups
