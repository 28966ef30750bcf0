import Mathlib.Data.Finset.Basic
import MicroTak.Lib.Handler
import MicroTak.Lib.Journal
import MicroTak.Lib.Text
import MicroTak.Missions.Data

/-!
# Missions

A mission has an owner, content, subscribers with a role each, and invitations.  Missions are kept
by guid; names are not unique, and a lookup by name takes the newest visible one that is not
deleted. The store records each change in a log before it applies it.
-/

namespace MicroTak.Missions

open Std Handler

inductive Permission where
  | read
  | write
  | delete
  | setRole
  | setPassword
  | updateGroups
  | manageFeeds
  | manageLayers
  deriving DecidableEq

inductive Role where
  | owner
  | subscriber
  | readOnlySubscriber
  deriving DecidableEq

variable {role : Role}

namespace Role

def default : Role := .subscriber

def name : Role → String
  | .owner => "MISSION_OWNER"
  | .subscriber => "MISSION_SUBSCRIBER"
  | .readOnlySubscriber => "MISSION_READONLY_SUBSCRIBER"

def permissions : Role → List Permission
  | .owner =>
      [.read, .write, .delete, .setRole, .setPassword, .updateGroups, .manageFeeds, .manageLayers]
  | .subscriber => [.read, .write]
  | .readOnlySubscriber => [.read]

def has (role : Role) (permission : Permission) : Bool :=
  role.permissions.contains permission

def hasAll (role other : Role) : Bool :=
  other.permissions.all role.has

theorem has_of_hasAll {other : Role} {permission : Permission} (h : role.hasAll other = true)
    (hother : other.has permission = true) : role.has permission = true := by
  rw [hasAll, List.all_eq_true] at h
  exact h permission (by simpa [has] using hother)

end Role

structure ContentAdd where
  content : Content
  timestampMs : Int
  creatorUid : String
  deriving DecidableEq

structure MissionFields where
  description : String := ""
  chatRoom : String := ""
  baseLayer : String := ""
  bbox : String := ""
  boundingPolygon : String := ""
  path : String := ""
  classification : String := ""
  /-- No expiration is `-1`. -/
  expiration : Int := -1
  deriving DecidableEq

structure MissionRecord where
  id : Nat
  guid : String
  name : String
  fields : MissionFields
  tool : String
  creatorUid : String
  createTimeMs : Int
  lastEditedMs : Int
  groups : Finset String
  passwordHash : Option String
  defaultRole : Option Role
  inviteOnly : Bool
  keywords : Finset String := ∅
  /-- At most one entry for each item, whether it is in the mission or not. -/
  contentKeywords : List (Content × List String) := []
  /-- Each item with its latest addition, in the order of those. -/
  contents : List ContentAdd := []
  deleted : Bool := false
  deriving DecidableEq

namespace MissionRecord

variable (mission : MissionRecord)

def passwordProtected : Bool := mission.passwordHash.isSome

def effectiveDefaultRole : Role := mission.defaultRole.getD Role.default

def has (content : Content) : Bool := mission.contents.any (·.content = content)

/-- The CoT uids among the content. -/
def uids : List String :=
  mission.contents.filterMap fun add =>
    match add.content with
    | .uid uid => some uid
    | .hash _ => none

def hashes : List String :=
  mission.contents.filterMap fun add =>
    match add.content with
    | .uid _ => none
    | .hash hash => some hash

end MissionRecord

structure SubscriptionRecord where
  id : String
  token : String
  clientUid : String
  username : String
  createTimeMs : Int
  role : Role
  deriving DecidableEq

inductive InvitationType where
  | clientUid
  | callsign
  | userName
  | group
  | team
  deriving DecidableEq

structure InvitationRecord where
  missionGuid : String
  missionName : String
  invitee : String
  invitationType : InvitationType
  creatorUid : String
  createTimeMs : Int
  token : String
  role : Role
  deriving DecidableEq

/-- A stretch of server time, without an end where none is given. -/
structure Window where
  startMs : Option Int := none
  endMs : Option Int := none
  deriving DecidableEq

def Window.contains (window : Window) (t : Int) : Bool :=
  window.startMs.all (· ≤ t) && window.endMs.all (t ≤ ·)

structure LogEntryRecord where
  id : String
  content : String
  creatorUid : String
  missionNames : List String
  serverTimeMs : Int
  deriving DecidableEq

/-- The missions by guid, each under its own. -/
structure MissionMap where
  byGuid : TreeMap String MissionRecord := ∅
  keyed : ∀ (guid : String) (mission : MissionRecord), byGuid[guid]? = some mission →
    mission.guid = guid :=
    by simp

variable {mission : MissionRecord} {f : MissionRecord → MissionRecord}
  {hf : ∀ mission, (f mission).guid = mission.guid}

namespace MissionMap

variable (missions : MissionMap)

def insert (mission : MissionRecord) : MissionMap where
  byGuid := missions.byGuid.insert mission.guid mission
  keyed := by
    intro guid found hfound
    rw [Dict.getElem?_insert] at hfound
    split at hfound
    · next hguid => exact Option.some.inj hfound ▸ hguid
    · exact missions.keyed guid found hfound

def update (guid : String) (f : MissionRecord → MissionRecord)
    (hf : ∀ mission, (f mission).guid = mission.guid) :
    MissionMap :=
  match hfound : missions.byGuid[guid]? with
  | none => missions
  | some mission =>
      { byGuid := missions.byGuid.insert guid (f mission)
        keyed := by
          intro other found hother
          rw [Dict.getElem?_insert] at hother
          split at hother
          · next hguid =>
            rw [← Option.some.inj hother, hf, ← hguid]
            exact missions.keyed guid mission hfound
          · exact missions.keyed other found hother }

theorem getElem?_insert (mission : MissionRecord) (guid : String) :
    (missions.insert mission).byGuid[guid]? = if mission.guid = guid then some mission
    else missions.byGuid[guid]? := by
  rw [insert, Dict.getElem?_insert]

theorem getElem?_update (guid other : String) : (missions.update guid f hf).byGuid[other]? =
      if guid = other then (missions.byGuid[other]?).map f else missions.byGuid[other]? := by
  unfold update
  split
  · next hfound =>
    split
    · next hguid => rw [← hguid, hfound]; rfl
    · rfl
  · next mission hfound =>
    rw [Dict.getElem?_insert]
    split
    · next hguid => rw [← hguid, hfound]; rfl
    · rfl

def values : List MissionRecord := missions.byGuid.toList.map Prod.snd

theorem mem_values : mission ∈ missions.values ↔ missions.byGuid[mission.guid]? = some mission :=
  Dict.Keyed.mem_values (m := ⟨missions.byGuid, missions.keyed⟩)

end MissionMap

structure State where
  missions : MissionMap := {}
  /-- Per mission guid, in the order they were made. -/
  subscriptions : TreeMap String (List SubscriptionRecord) := ∅
  invitations : List InvitationRecord := []
  logs : TreeMap String LogEntryRecord := ∅
  data : MissionData := {}
  nextMissionId : Nat := 0

inductive Event where
  | created (mission : MissionRecord) (changeId : Nat)
  | fieldsSet (guid : String) (fields : MissionFields) (atMs : Int)
  | passwordSet (guid : String) (passwordHash : Option String) (atMs : Int)
  | defaultRoleSet (guid : String) (role : Option Role) (atMs : Int)
  | groupsSet (guid : String) (groups : Finset String) (atMs : Int)
  | keywordsSet (guid : String) (keywords : Finset String) (atMs : Int)
  | contentKeywordsSet (guid : String) (content : Content) (keywords : List String)
  | deleted (guid creatorUid : String) (atMs : Int) (changeId : Nat)
  /-- `serverMs` is set for a change made offline at `atMs`. -/
  | contentAdded (guid : String) (content : Content) (creatorUid : String) (atMs : Int)
    (changeId : Nat)
      (serverMs : Option Int)
  | contentRemoved (guid : String) (content : Content) (creatorUid : String) (atMs : Int)
    (changeId : Nat)
      (serverMs : Option Int)
  | subscribed (guid : String) (subscription : SubscriptionRecord)
  | subscriptionRoleSet (guid id : String) (role : Role)
  | unsubscribed (guid id : String)
  | invited (invitation : InvitationRecord)
  | uninvited (guid invitee : String) (invitationType : InvitationType)
  | logEntrySaved (entry : LogEntryRecord)
  | logEntryDeleted (id : String)
  | data (event : DataEvent)

/-- New keywords for an item; none ends its entry. -/
def setKeywordsOf (content : Content) (keywords : List String) : List (Content × List String) →
    List (Content × List String)
  | [] => if keywords = [] then [] else [(content, keywords)]
  | (other, old) :: rest =>
      if other = content then if keywords = [] then rest else (content, keywords) :: rest
      else (other, old) :: setKeywordsOf content keywords rest

/-- The invitations one of the same mission, type and invitee replaces or ends, in any letter
case. -/
def InvitationRecord.isFor (invitation : InvitationRecord) (guid invitee : String)
    (kind : InvitationType) : Bool :=
  invitation.missionGuid = guid && invitation.invitationType = kind &&
    Text.eqIgnoreAsciiCase invitation.invitee invitee

/-- A new role for the first subscription with this id. -/
def setRoleOf (id : String) (role : Role) : List SubscriptionRecord → List SubscriptionRecord
  | [] => []
  | sub :: rest => if sub.id = id then { sub with role } :: rest else sub :: setRoleOf id role rest

theorem map_setRoleOf {β : Type} {f : SubscriptionRecord → β}
    (hf : ∀ sub role, f { sub with role } = f sub) (id : String) (role : Role)
    (subs : List SubscriptionRecord) : (setRoleOf id role subs).map f = subs.map f :=
  Dict.map_update rfl (fun _ _ => rfl) fun sub => hf sub role

namespace State

variable (state : State)

def updateMission (guid : String) (f : MissionRecord → MissionRecord)
    (hf : ∀ mission, (f mission).guid = mission.guid := by exact fun _ => rfl) : State :=
  { state with missions := state.missions.update guid f hf }

/-- A change under the name of its mission.  Its id is used up even if there is no such mission. -/
def noteChange (change : ChangeRecord) : State :=
  match state.missions.byGuid[change.missionGuid]? with
  | some mission =>
    { state with data := state.data.pushChange { change with missionName := mission.name } }
  | none =>
    { state with
      data := { state.data with nextChangeId := max state.data.nextChangeId (change.id + 1) } }

def apply : Event → State
  | .created mission changeId =>
      { state with
        missions := state.missions.insert mission
        nextMissionId := max state.nextMissionId (mission.id + 1)
        data := state.data.pushChange
          { id := changeId, changeType := .createMission, missionGuid := mission.guid,
            missionName := mission.name
            creatorUid := mission.creatorUid, timestampMs := mission.createTimeMs, serverTimeMs :=
              mission.createTimeMs } }
  | .fieldsSet guid fields atMs =>
    state.updateMission guid fun m => { m with fields, lastEditedMs := atMs }
  | .passwordSet guid passwordHash atMs =>
      state.updateMission guid fun m => { m with passwordHash, lastEditedMs := atMs }
  | .defaultRoleSet guid role atMs =>
      state.updateMission guid fun m => { m with defaultRole := role, lastEditedMs := atMs }
  | .groupsSet guid groups atMs =>
    state.updateMission guid fun m => { m with groups, lastEditedMs := atMs }
  | .keywordsSet guid keywords atMs =>
    state.updateMission guid fun m => { m with keywords, lastEditedMs := atMs }
  | .contentKeywordsSet guid content keywords =>
      state.updateMission guid fun m =>
        { m with contentKeywords := setKeywordsOf content keywords m.contentKeywords }
  | .deleted guid creatorUid atMs changeId =>
      (state.updateMission guid fun m => { m with deleted := true }).noteChange
        { id := changeId, changeType := .deleteMission, missionGuid := guid, missionName := "",
          creatorUid
          timestampMs := atMs, serverTimeMs := atMs }
  | .contentAdded guid content creatorUid atMs changeId serverMs =>
      (state.updateMission guid fun m =>
        { m with
          contents := m.contents.filter (·.content ≠ content) ++
            [{ content, timestampMs := atMs, creatorUid }] }).noteChange
        { id := changeId, changeType := .addContent, missionGuid := guid, missionName := "",
          content := some content
          creatorUid, timestampMs := atMs, serverTimeMs := serverMs.getD atMs }
  | .contentRemoved guid content creatorUid atMs changeId serverMs =>
      (state.updateMission guid fun m =>
        { m with contents := m.contents.filter (·.content ≠ content) }).noteChange
        { id := changeId, changeType := .removeContent, missionGuid := guid, missionName := "",
          content := some content, creatorUid, timestampMs := atMs, serverTimeMs :=
            serverMs.getD atMs }
  | .subscribed guid subscription =>
      { state with
        subscriptions :=
          state.subscriptions.insert guid ((state.subscriptions[guid]?).getD [] ++ [subscription]) }
  | .subscriptionRoleSet guid id role =>
      match state.subscriptions[guid]? with
      | some subs =>
        { state with subscriptions := state.subscriptions.insert guid (setRoleOf id role subs) }
      | none => state
  | .unsubscribed guid id =>
      match state.subscriptions[guid]? with
      | some subs =>
        { state with subscriptions := state.subscriptions.insert guid (subs.filter (·.id ≠ id)) }
      | none => state
  | .invited invitation =>
      { state with
        invitations := (state.invitations.filter fun i =>
          !i.isFor invitation.missionGuid invitation.invitee invitation.invitationType) ++
            [invitation] }
  | .uninvited guid invitee kind =>
      { state with invitations := state.invitations.filter fun i => !i.isFor guid invitee kind }
  | .logEntrySaved entry => { state with logs := state.logs.insert entry.id entry }
  | .logEntryDeleted id => { state with logs := state.logs.erase id }
  | .data event =>
      { state with
        data := state.data.apply (((state.missions.byGuid[event.guid]?).map (·.name)).getD "") event
          }

def byGuid (guid : String) : Option MissionRecord := state.missions.byGuid[guid]?

/-- The newest of the missions, the last one of several as new. -/
def newest : List MissionRecord → Option MissionRecord
  | [] => none
  | m :: rest =>
      match newest rest with
      | none => some m
      | some best => if best.createTimeMs < m.createTimeMs then some m else some best

/-- The newest mission of this name that is not deleted, among those that `visible` accepts. -/
def byName (name : String) (visible : MissionRecord → Bool) : Option MissionRecord :=
  newest (state.missions.values.filter fun m => !m.deleted && m.name = Text.trim name && visible m)

/-- Missions of this name existed, and every one of them is deleted. -/
def isDeletedName (name : String) : Bool :=
  let same := state.missions.values.filter (·.name = Text.trim name)
  !same.isEmpty && same.all (·.deleted)

def subscriptionsOf (guid : String) : List SubscriptionRecord :=
  (state.subscriptions[guid]?).getD []

def subscriptionById (guid id : String) : Option SubscriptionRecord :=
  (state.subscriptionsOf guid).find? (·.id = id)

def findSubscription (guid clientUid username : String) : Option SubscriptionRecord :=
  (state.subscriptionsOf guid).find? fun sub => sub.clientUid = clientUid && sub.username = username

def invitationsOf (guid : String) : List InvitationRecord :=
  state.invitations.filter (·.missionGuid = guid)

/-- The invitations of this type for the invitee, in any letter case, on missions that still
exist. -/
def invitationsFor (invitee : String) (kind : InvitationType) : List InvitationRecord :=
  state.invitations.filter fun i =>
    i.invitationType = kind && Text.eqIgnoreAsciiCase i.invitee invitee &&
      (state.byGuid i.missionGuid).any fun m => !m.deleted

def invitationByToken (token : String) : Option InvitationRecord :=
  state.invitations.find? (·.token = token)

def allLogEntries : List LogEntryRecord := state.logs.toList.map Prod.snd

/-- The log entries that name a mission, oldest first. -/
def logEntriesFor (missionName : String) : List LogEntryRecord :=
  ((state.logs.toList.map Prod.snd).filter (missionName ∈ ·.missionNames)).mergeSort
    fun a b => a.serverTimeMs ≤ b.serverTimeMs

/-- Those of them in a window of server time. -/
def logEntriesIn (missionName : String) (window : Window) : List LogEntryRecord :=
  (state.logEntriesFor missionName).filter fun entry => window.contains entry.serverTimeMs

private theorem mem_of_newest {missions : List MissionRecord} (h : newest missions = some mission) :
    mission ∈ missions := by
  induction missions generalizing mission with
  | nil => cases h
  | cons m rest ih =>
    rw [newest] at h
    split at h
    · simp_all
    · next best hbest =>
      split at h
      · simp_all
      · exact List.mem_cons_of_mem _ (ih (hbest.trans h))

theorem byName_spec {name : String} {visible : MissionRecord → Bool}
    (h : state.byName name visible = some mission) : state.byGuid mission.guid = some mission ∧
    mission.deleted = false ∧ mission.name = Text.trim name ∧
      visible mission = true := by
  have hmem := mem_of_newest h
  simp only [List.mem_filter, MissionMap.mem_values, Bool.and_eq_true, Bool.not_eq_true',
    decide_eq_true_eq] at hmem
  exact ⟨hmem.1, hmem.2.1.1, hmem.2.1.2, hmem.2.2⟩

theorem guid_of_byGuid {guid : String} (h : state.byGuid guid = some mission) :
    mission.guid = guid :=
  state.missions.keyed guid mission h

/-! ### What an event leaves alone -/

section Frame

variable {state}

theorem subscriptionsOf_subscribed (guid other : String) (sub : SubscriptionRecord) :
    (state.apply (.subscribed guid sub)).subscriptionsOf other =
      if guid = other then state.subscriptionsOf guid ++ [sub]
      else state.subscriptionsOf other := by
  simp only [apply, subscriptionsOf, Dict.getElem?_insert]
  split <;> rfl

theorem subscriptionsOf_subscriptionRoleSet (guid id other : String) (role : Role) :
    (state.apply (.subscriptionRoleSet guid id role)).subscriptionsOf other =
      if guid = other then setRoleOf id role (state.subscriptionsOf guid)
      else state.subscriptionsOf other := by
  simp only [apply, subscriptionsOf]
  split
  · next subs hsubs =>
    rw [Dict.getElem?_insert, hsubs]
    split <;> rfl
  · next hnone =>
    split
    · next hguid =>
      rw [← hguid, hnone]
      rfl
    · rfl

theorem subscriptionsOf_unsubscribed (guid id other : String) :
    (state.apply (.unsubscribed guid id)).subscriptionsOf other =
      if guid = other then (state.subscriptionsOf guid).filter (·.id ≠ id)
      else state.subscriptionsOf other := by
  simp only [apply, subscriptionsOf]
  split
  · next subs hsubs =>
    rw [Dict.getElem?_insert, hsubs]
    split <;> rfl
  · next hnone =>
    split
    · next hguid =>
      rw [← hguid, hnone]
      rfl
    · rfl

theorem byGuid_created (mission : MissionRecord) (changeId : Nat) (guid : String) :
    (state.apply (.created mission changeId)).byGuid guid = if mission.guid = guid then some mission
    else state.byGuid guid :=
  state.missions.getElem?_insert mission guid

theorem byGuid_updateMission (guid other : String) : (state.updateMission guid f hf).byGuid other =
      if guid = other then (state.byGuid other).map f else state.byGuid other := by
  show (state.missions.update guid f hf).byGuid[other]? = _
  rw [MissionMap.getElem?_update]
  rfl

theorem noteChange_eq (state : State) (change : ChangeRecord) :
    ∃ changes nextChangeId, state.noteChange change =
    { state with data := { state.data with changes, nextChangeId } } := by
  rw [noteChange]
  split <;> exact ⟨_, _, rfl⟩

section

variable (change : ChangeRecord)

include change

theorem subscriptionsOf_noteChange (guid : String) :
    (state.noteChange change).subscriptionsOf guid = state.subscriptionsOf guid := by
  obtain ⟨changes, nextChangeId, heq⟩ := noteChange_eq state change
  rw [heq]
  rfl

theorem layers_noteChange : (state.noteChange change).data.layers = state.data.layers := by
  obtain ⟨changes, nextChangeId, heq⟩ := noteChange_eq state change
  rw [heq]

theorem invitations_noteChange : (state.noteChange change).invitations = state.invitations := by
  obtain ⟨changes, nextChangeId, heq⟩ := noteChange_eq state change
  rw [heq]

theorem byGuid_noteChange (guid : String) :
    (state.noteChange change).byGuid guid = state.byGuid guid := by
  obtain ⟨changes, nextChangeId, heq⟩ := noteChange_eq state change
  rw [heq]
  rfl

end

theorem of_byGuid_change {guid : String}
    (h : (if guid = mission.guid then (state.byGuid mission.guid).map f
      else state.byGuid mission.guid) = some mission)
    (hf : ∀ mission, (f mission).guid = mission.guid) : state.byGuid mission.guid = some mission ∧
    mission.guid ≠ guid ∨
      ∃ old, state.byGuid guid = some old ∧ old.guid = guid ∧ mission = f old := by
  split at h
  · next hguid =>
    obtain ⟨old, hold, rfl⟩ := Option.map_eq_some_iff.1 h
    rw [hf] at hold hguid
    exact .inr ⟨old, hguid ▸ hold, hguid.symm, rfl⟩
  · next hguid => exact .inl ⟨h, fun heq => hguid heq.symm⟩

end Frame

end State

inductive MissionError where
  | notFound (guid : String)
  | eventLog
  deriving DecidableEq

/-- The store behind its lock.  `disk` is how many appends the event log still takes before one
fails. -/
structure MissionStore where
  state : State := {}
  disk : Option Nat := none

structure NewMission where
  guid : String
  name : String
  fields : MissionFields
  tool : String
  creatorUid : String
  groups : Finset String
  passwordHash : Option String
  defaultRole : Option Role
  inviteOnly : Bool

namespace MissionStore

open Journal.Op

abbrev Op (α : Type) := Journal.Op State Event MissionError α

abbrev record (event : Event) : Op Unit := put event

def existing (guid : String) : Op MissionRecord := do
  let state ← get
  orRefuse (state.byGuid guid) (.notFound guid)

def create (new : NewMission) (nowMs : Int) : Op MissionRecord := do
  let state ← get
  let mission : MissionRecord :=
    { id := max state.nextMissionId 1
      guid := new.guid
      name := Text.trim new.name
      fields := new.fields
      tool := new.tool
      creatorUid := new.creatorUid
      createTimeMs := nowMs
      lastEditedMs := nowMs
      groups := new.groups
      passwordHash := new.passwordHash
      defaultRole := new.defaultRole
      inviteOnly := new.inviteOnly }
  record (.created mission state.data.nextChangeId)
  return mission

/-- A change that is refused for an unknown guid. -/
def recordExisting (guid : String) (event : Event) : Op Unit := do
  let _ ← existing guid
  record event

def setFields (guid : String) (fields : MissionFields) (nowMs : Int) : Op Unit :=
  recordExisting guid (.fieldsSet guid fields nowMs)

def setPassword (guid : String) (passwordHash : Option String) (nowMs : Int) : Op Unit :=
  recordExisting guid (.passwordSet guid passwordHash nowMs)

def setDefaultRole (guid : String) (role : Option Role) (nowMs : Int) : Op Unit :=
  recordExisting guid (.defaultRoleSet guid role nowMs)

def setGroups (guid : String) (groups : Finset String) (nowMs : Int) : Op Unit :=
  recordExisting guid (.groupsSet guid groups nowMs)

def setKeywords (guid : String) (keywords : Finset String) (nowMs : Int) : Op Unit :=
  recordExisting guid (.keywordsSet guid keywords nowMs)

/-- Each keyword once, at its first place. -/
def setContentKeywords (guid : String) (content : Content) (keywords : List String) : Op Unit :=
  recordExisting guid (.contentKeywordsSet guid content keywords.eraseDups)

/-- A change to a mission that exists, under the next change id. -/
def recordChange (guid : String) (event : Nat → Event) : Op Unit := do
  let _ ← existing guid
  let state ← get
  record (event state.data.nextChangeId)

def addContentAt (guid : String) (content : Content) (creatorUid : String) (atMs : Int)
    (serverMs : Option Int) : Op Unit :=
  recordChange guid fun changeId => .contentAdded guid content creatorUid atMs changeId serverMs

def addContent (guid : String) (content : Content) (creatorUid : String) (nowMs : Int) : Op Unit :=
  addContentAt guid content creatorUid nowMs none

def removeContentAt (guid : String) (content : Content) (creatorUid : String) (atMs : Int)
    (serverMs : Option Int) :
    Op Unit :=
  recordChange guid fun changeId => .contentRemoved guid content creatorUid atMs changeId serverMs

def removeContent (guid : String) (content : Content) (creatorUid : String)
    (nowMs : Int) : Op Unit :=
  removeContentAt guid content creatorUid nowMs none

def delete (guid creatorUid : String) (nowMs : Int) : Op MissionRecord := do
  recordChange guid fun changeId => .deleted guid creatorUid nowMs changeId
  existing guid

/-- The subscription of this client uid and username, its role raised if the new one covers it, or a
new one under `id`. -/
def subscribe (guid clientUid username : String) (role : Role) (nowMs : Int) (id : String)
    (makeToken : String → String) : Op SubscriptionRecord := do
  let _ ← existing guid
  let state ← get
  match state.findSubscription guid clientUid username with
  | some sub =>
      if sub.role ≠ role ∧ role.hasAll sub.role then do
        record (.subscriptionRoleSet guid sub.id role)
        return { sub with role }
      else return sub
  | none => do
      let sub : SubscriptionRecord :=
        { id, token := makeToken id, clientUid, username, createTimeMs := nowMs, role }
      record (.subscribed guid sub)
      return sub

/-- A role assignment goes by the username if there is one, else by the client uid. -/
def named (clientUid username : String) (sub : SubscriptionRecord) : Bool :=
  if username ≠ "" then sub.username = username else sub.clientUid = clientUid

def setSubscriptionRole (guid clientUid username : String) (role : Role) : Op Unit := do
  let _ ← existing guid
  let state ← get
  let ids := ((state.subscriptionsOf guid).filter (named clientUid username)).map (·.id)
  putAll (ids.map fun id => .subscriptionRoleSet guid id role)

def unsubscribe (guid clientUid username : String) : Op Unit := do
  let state ← get
  let ids := ((state.subscriptionsOf guid).filter fun sub =>
    sub.clientUid = clientUid && (username = "" || sub.username = username)).map (·.id)
  putAll (ids.map fun id => .unsubscribed guid id)

/-- Whether the invitation was stored; one of the same mission, type and invitee is in the way. -/
def invite (invitation : InvitationRecord) : Op Bool := do
  let _ ← existing invitation.missionGuid
  let state ← get
  if state.invitations.any fun i =>
      i.missionGuid = invitation.missionGuid && i.invitationType = invitation.invitationType &&
        i.invitee = invitation.invitee then
    return false
  else do
    record (.invited invitation)
    return true

def uninvite (guid invitee : String) (kind : InvitationType) : Op Unit :=
  record (.uninvited guid invitee kind)

def saveLogEntry (entry : LogEntryRecord) : Op LogEntryRecord := do
  record (.logEntrySaved entry)
  return entry

def deleteLogEntry (id : String) : Op Unit :=
  record (.logEntryDeleted id)

def perform {α : Type} (op : Op α) : EStateM MissionError MissionStore α := fun store =>
  let result := op.run State.apply store.disk store.state
  match result.answer with
  | .done a => .ok a { state := result.state, disk := result.disk }
  | .refused error => .error error { state := result.state, disk := result.disk }
  | .failed _ => .error .eventLog { state := result.state, disk := result.disk }

theorem perform_record {α : Type} (event : Event) (next : Op α) :
    perform (.record event next) = perform (record event) >>= fun _ => perform next := by
  funext ⟨state, disk⟩
  match disk with
  | none | some 0 | some (n + 1) => rfl

@[simp] theorem perform_bind {α β : Type} (op : Op α) (f : α → Op β) :
    perform (op >>= f) = perform op >>= fun a => perform (f a) := by
  induction op with
  | done a => rfl
  | refuse error => rfl
  | look next ih =>
    funext store
    exact congrFun (ih store.state) store
  | record event next ih =>
    show perform (.record event (next >>= f)) = _
    rw [perform_record, perform_record, ih, bind_assoc]

theorem perform_putAll (events : List Event) : perform (putAll events) = events.forM fun event =>
    perform (record event) := by
  induction events with
  | nil => rfl
  | cons event rest ih =>
    rw [putAll, perform_record, ih]
    rfl

end MissionStore

end MicroTak.Missions
