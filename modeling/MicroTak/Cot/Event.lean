import MicroTak.Lib.Text

/-!
# Cursor-on-Target events

The part of a CoT event the server acts on, and the questions it asks of one: is it a control
message, is it a device's own position report, whom does it name as its producer, and whom is it
addressed to.
-/

namespace MicroTak.Cot

/-- A `<link>`; a marker's or a chat message's creator has the relation `p-p`. -/
structure Link where
  uid : Option String := none
  relation : Option String := none
  deriving DecidableEq

structure Contact where
  callsign : Option String := none
  endpoint : Option String := none
  deriving DecidableEq

/-- Team-chat membership: an open set of attributes, of which `uid0`, `uid1`, … name members. -/
structure ChatGroup where
  attributes : List (String × String) := []
  deriving DecidableEq

structure Chat where
  chatroom : String
  chatgrp : Option ChatGroup := none
  deriving DecidableEq

structure Dest where
  uid : Option String := none
  mission : Option String := none
  missionGuid : Option String := none
  deriving DecidableEq

structure Marti where
  dest : List Dest := []
  deriving DecidableEq

structure Detail where
  contact : Option Contact := none
  chat : Option Chat := none
  marti : Option Marti := none
  links : List Link := []
  deriving DecidableEq

structure Event where
  uid : String
  cotType : String
  detail : Option Detail := none
  deriving DecidableEq

def allChatRooms : String := "All Chat Rooms"

def controlTypes : List String :=
  ["t-b", "t-b-a", "t-b-c", "t-b-q", "t-x-c-f", "t-x-c-t", "t-x-c-t-r", "t-x-takp-q", "t-x-c-m",
    "t-x-c-i-e", "t-x-c-i-d"]

/-- The attribute values whose key is `@uid` followed by digits only. -/
def ChatGroup.memberUids (group : ChatGroup) : List String :=
  group.attributes.filterMap fun (key, value) => do
    let suffix ← Text.stripPrefix "@uid" key
    if suffix ≠ "" ∧ suffix.toList.all Char.isDigit then some value else none

namespace Event

variable (event : Event)

/-- Control messages are consumed, never relayed. -/
def isControl : Bool :=
  controlTypes.contains (Text.toAsciiLowercase event.cotType)

def isPing : Bool :=
  Text.eqIgnoreAsciiCase event.cotType "t-x-c-t"

def contact : Option Contact :=
  event.detail.bind (·.contact)

/-- The `<contact>` carries an `endpoint`: the test by which a connection takes its client uid. -/
def hasEndpoint : Bool :=
  event.contact.any (·.endpoint.isSome)

/-- A device's own position report: a uid, and a contact with a callsign and an endpoint. -/
def isSituationalAwareness : Bool :=
  match event.contact with
  | none => false
  | some contact =>
      let nonEmpty (value : Option String) := value.any fun v => Text.trim v ≠ ""
      Text.trim event.uid ≠ "" && nonEmpty contact.callsign && nonEmpty contact.endpoint

def producerUids : List String :=
  match event.detail with
  | none => []
  | some detail => (detail.links.filter (·.relation = some "p-p")).filterMap (·.uid)

/-- The missions the event is addressed to, by name and by guid. -/
def destMissions : List String × List String :=
  match event.detail.bind (·.marti) with
  | none => ([], [])
  | some marti =>
      (marti.dest.filterMap (·.mission), (marti.dest.filter (·.mission.isNone)).filterMap
        (·.missionGuid))

end Event

/-- The `<marti><dest uid=…>` recipients. -/
def Detail.destUids (detail : Detail) : List String :=
  match detail.marti with
  | some marti => marti.dest.filterMap (·.uid)
  | none => []

/-- The team-chat recipients; the broadcast chat room has none, whatever its `chatgrp` says. -/
def Detail.chatUids (detail : Detail) : List String :=
  match detail.chat with
  | some chat =>
      if chat.chatroom ≠ allChatRooms then
        match chat.chatgrp with
        | some group => group.memberUids
        | none => []
      else []
  | none => []

namespace Event

/-- The uids the event is addressed to; `none` is no addressing at all, not an empty audience. -/
def addressedUids (event : Event) : Option (List String) :=
  match event.detail with
  | none => none
  | some detail =>
      let uids := detail.destUids ++ detail.chatUids
      if uids = [] then none else some uids

variable {event : Event}

theorem hasEndpoint_of_isSituationalAwareness (h : event.isSituationalAwareness = true) :
    event.hasEndpoint = true := by
  unfold isSituationalAwareness at h
  unfold hasEndpoint
  cases hcontact : event.contact with
  | none => simp [hcontact] at h
  | some contact =>
    rw [hcontact] at h
    cases hendpoint : contact.endpoint with
    | none => simp [hendpoint] at h
    | some endpoint => simp [hendpoint]

theorem addressedUids_ne_nil {uids : List String} (h : event.addressedUids = some uids) :
    uids ≠ [] := by
  unfold addressedUids at h
  split at h
  · cases h
  · dsimp only at h
    split at h
    · cases h
    · rename_i hne
      exact Option.some.inj h ▸ hne

end Event

end MicroTak.Cot
