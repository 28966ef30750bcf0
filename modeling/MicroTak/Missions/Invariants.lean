import MicroTak.Lib.Kept
import MicroTak.Missions.Calls

/-!
# What every mission store keeps

Over every sequence of calls and restarts: changes are listed under increasing ids below the next
one, no two missions share an id, the content of a mission is what its changes amount to, and a
client uid and username have one subscription to a mission, whose role a new subscription never
lowers.
-/

namespace MicroTak.Missions

open Std Journal Transition List Op MissionStore

def ChangeRecord.onContents (guid : String) (contents : List ContentAdd) (change : ChangeRecord) :
    List ContentAdd :=
  match change.content with
  | none => contents
  | some content =>
      if change.missionGuid ≠ guid then contents
      else match change.changeType with
        | .addContent =>
            contents.filter (·.content ≠ content) ++
              [{ content, timestampMs := change.timestampMs, creatorUid := change.creatorUid }]
        | .removeContent => contents.filter (·.content ≠ content)
        | _ => contents

def contentsAfter (guid : String) (changes : List ChangeRecord) : List ContentAdd :=
  changes.foldl (ChangeRecord.onContents guid) []

section Contents

variable {guid : String} {change : ChangeRecord} {changes : List ChangeRecord}
  {contents : List ContentAdd}

theorem contentsAfter_concat : contentsAfter guid (changes ++ [change]) = change.onContents guid
    (contentsAfter guid changes) := by
  rw [contentsAfter, foldl_append]
  rfl

theorem ChangeRecord.onContents_of_none (h : change.content = none) :
    change.onContents guid contents = contents := by
  rw [onContents, h]

theorem ChangeRecord.onContents_of_ne (h : change.missionGuid ≠ guid) :
    change.onContents guid contents = contents := by
  rw [onContents]
  split
  · rfl
  · rw [if_pos h]

theorem contentsAfter_eq_nil (h : ∀ change ∈ changes, change.missionGuid ≠ guid) :
    contentsAfter guid changes = [] := by
  induction changes using List.reverseRecOn with
  | nil => rfl
  | append_singleton rest change ih =>
    rw [contentsAfter_concat, ChangeRecord.onContents_of_ne (h change (by simp))]
    exact ih fun other hother => h other (mem_append_left _ hother)

private theorem nodup_onContents (h : (contents.map (·.content)).Nodup) :
    ((change.onContents guid contents).map (·.content)).Nodup := by
  have hfilter : ∀ content, ((contents.filter (·.content ≠ content)).map (·.content)).Nodup :=
    fun content => h.sublist (filter_sublist.map _)
  rw [ChangeRecord.onContents]
  split
  · exact h
  · next content _ =>
    split
    · exact h
    · split
      · rw [map_append, nodup_append_comm]
        refine nodup_cons.2 ⟨?_, hfilter content⟩
        intro hmem
        obtain ⟨add, hadd, hcontent⟩ := mem_map.1 hmem
        simpa [hcontent] using (mem_filter.1 hadd).2
      · exact hfilter content
      · exact h

theorem nodup_contentsAfter : ((contentsAfter guid changes).map (·.content)).Nodup := by
  induction changes using List.reverseRecOn with
  | nil => exact nodup_nil
  | append_singleton rest change ih =>
    rw [contentsAfter_concat]
    exact nodup_onContents ih

end Contents

namespace State

def core (state : State) (guid : String) : Option (Nat × List ContentAdd) :=
  (state.byGuid guid).map fun mission => (mission.id, mission.contents)

structure WellFormed (state : State) : Prop where
  changes : state.data.changes.Pairwise (·.id < ·.id)
  below : ∀ change ∈ state.data.changes, change.id < state.data.nextChangeId
  missionIds : ∀ (guid guid' : String) (mission mission' : MissionRecord), state.byGuid guid =
    some mission → state.byGuid guid' = some mission' → mission.id = mission'.id → guid = guid'
  contents : ∀ (guid : String) (mission : MissionRecord), state.byGuid guid = some mission →
    (mission.contents.map (·.content)).Nodup ∧
      mission.contents = contentsAfter guid state.data.changes
  subscribers : ∀ guid, ((state.subscriptionsOf guid).map fun sub =>
    (sub.clientUid, sub.username)).Nodup

/-- The part of it about missions and their changes, with what the calls rely on. -/
structure Listed (state : State) : Prop where
  changes : state.data.changes.Pairwise (·.id < ·.id)
  below : ∀ change ∈ state.data.changes, change.id < state.data.nextChangeId
  known : ∀ change ∈ state.data.changes, (state.core change.missionGuid).isSome = true
  ids : ∀ guid id contents, state.core guid = some (id, contents) → id < state.nextMissionId
  distinct : ∀ guid guid' id contents contents', state.core guid = some (id, contents) →
    state.core guid' = some (id, contents') → guid = guid'
  contents : ∀ guid id contents, state.core guid = some (id, contents) →
    contents = contentsAfter guid state.data.changes

/-- The part of it about subscriptions: each has its own id, and its own client uid and username. -/
structure Subscribed (state : State) : Prop where
  ids : ∀ guid, ((state.subscriptionsOf guid).map (·.id)).Nodup
  subscribers : ∀ guid, ((state.subscriptionsOf guid).map fun sub =>
    (sub.clientUid, sub.username)).Nodup

theorem Listed.wellFormed {state : State} (h : state.Listed) (hsubs : state.Subscribed) :
    state.WellFormed where
  __ := h
  missionIds := by
    intro guid guid' mission mission' hmission hmission' hid
    refine h.distinct guid guid' mission.id mission.contents mission'.contents
      (by rw [core, hmission]; rfl) ?_
    rw [core, hmission', hid]
    rfl
  contents := by
    intro guid mission hmission
    have hcontents := h.contents guid mission.id mission.contents (by rw [core, hmission]; rfl)
    exact ⟨hcontents ▸ nodup_contentsAfter, hcontents⟩
  subscribers := hsubs.subscribers

end State

/-! ### One event -/

def DataEvent.changeId : DataEvent → Option Nat
  | .missionFeedAdded _ _ _ changeId _ | .missionFeedRemoved _ _ _ changeId _
  | .externalDataSet _ _ _ _ changeId
  | .externalDataChange _ _ _ _ _ changeId => some changeId
  | .mapLayerSaved _ _ _ changeId => changeId
  | _ => none

theorem MissionData.apply_changeId_none (data : MissionData) {event : DataEvent}
    (h : event.changeId = none) (missionName : String) :
    (data.apply missionName event).changes = data.changes ∧
      (data.apply missionName event).nextChangeId = data.nextChangeId := by
  by_cases hlayer : event.isLayer = true
  · obtain ⟨layers, heq⟩ := data.apply_of_isLayer hlayer missionName
    rw [heq]
    exact ⟨rfl, rfl⟩
  · cases event with
    | mapLayerSaved guid layer creatorUid changeId =>
      obtain rfl : changeId = none := h
      exact ⟨rfl, rfl⟩
    | missionFeedAdded | missionFeedRemoved | externalDataSet | externalDataChange => cases h
    | _ => exact absurd rfl hlayer

variable {changeId : Nat} {guid : String}

theorem MissionData.apply_changeId_some (data : MissionData) {event : DataEvent}
    (h : event.changeId = some changeId) (missionName : String) :
    ∃ change : ChangeRecord, change.id = changeId ∧ change.missionGuid = event.guid ∧
    change.content = none ∧
      (data.apply missionName event).changes = data.changes ++ [change] ∧
      (data.apply missionName event).nextChangeId = max data.nextChangeId (changeId + 1) := by
  cases event with
  | mapLayerSaved guid layer creatorUid changeId =>
    obtain rfl : changeId = some _ := h
    exact ⟨_, rfl, rfl, rfl, rfl, rfl⟩
  | missionFeedAdded | missionFeedRemoved | externalDataSet | externalDataChange =>
    cases h
    exact ⟨_, rfl, rfl, rfl, rfl, rfl⟩
  | _ => cases h

namespace State

variable {state next : State} {f : MissionRecord → MissionRecord}
  {hf : ∀ mission, (f mission).guid = mission.guid}

/-- What the calls record: missions with a guid and an id of their own, changes of missions that are
there under the next id, and subscriptions with an id and a subscriber of their own. -/
def Allows (state : State) : Event → Prop
  | .created mission changeId =>
      state.byGuid mission.guid = none ∧ mission.contents = [] ∧ state.nextMissionId ≤ mission.id ∧
        changeId = state.data.nextChangeId
  | .deleted guid _ _ changeId | .contentAdded guid _ _ _ changeId _
  | .contentRemoved guid _ _ _ changeId _ =>
      (state.byGuid guid).isSome = true ∧ changeId = state.data.nextChangeId
  | .subscribed guid sub =>
      sub.id ∉ (state.subscriptionsOf guid).map (·.id) ∧
        (sub.clientUid, sub.username) ∉ (state.subscriptionsOf guid).map fun sub =>
          (sub.clientUid, sub.username)
  | .data event =>
      ∀ changeId, event.changeId = some changeId →
        (state.byGuid event.guid).isSome = true ∧ changeId = state.data.nextChangeId
  | _ => True

/-- What an event can do to the missions and their changes. -/
inductive Noted (state next : State) : Prop where
  | quiet (hchanges : next.data.changes = state.data.changes) (hnext : next.data.nextChangeId =
    state.data.nextChangeId)
      (hids : next.nextMissionId = state.nextMissionId) (hcore : ∀ guid, next.core guid =
        state.core guid)
  | change (change : ChangeRecord) (hid : change.id = state.data.nextChangeId)
      (hchanges : next.data.changes = state.data.changes ++ [change])
      (hnext : next.data.nextChangeId = max state.data.nextChangeId (change.id + 1))
      (hids : next.nextMissionId = state.nextMissionId)
        (hknown : (state.core change.missionGuid).isSome = true)
      (hcore : ∀ guid, next.core guid = (state.core guid).map fun core =>
        (core.1, change.onContents guid core.2))
  | created (guid : String) (id : Nat) (change : ChangeRecord)
    (hid : change.id = state.data.nextChangeId)
      (hguid : change.missionGuid = guid) (hcontent : change.content = none)
      (hchanges : next.data.changes = state.data.changes ++ [change])
      (hnext : next.data.nextChangeId = max state.data.nextChangeId (change.id + 1))
      (hids : next.nextMissionId = max state.nextMissionId (id + 1)) (hnew : state.core guid = none)
      (hge : state.nextMissionId ≤ id)
      (hcore : ∀ other, next.core other = if guid = other then some (id, []) else state.core other)

theorem core_isSome : (state.core guid).isSome = (state.byGuid guid).isSome := Option.isSome_map ..

theorem core_updateMission (hf : ∀ mission, (f mission).guid = mission.guid)
    {g : List ContentAdd → List ContentAdd}
    (hcore : ∀ mission, ((f mission).id, (f mission).contents) = (mission.id, g mission.contents))
    (other : String) : (state.updateMission guid f hf).core other =
      (state.core other).map fun core => (core.1, if guid = other then g core.2 else core.2) := by
  rw [core, core, byGuid_updateMission]
  split
  · rw [Option.map_map, Option.map_map]
    exact congrArg (fun k => (state.byGuid other).map k) (funext hcore)
  · exact Option.map_id'.symm

theorem Noted.updated
    (hcore : ∀ mission, ((f mission).id, (f mission).contents) = (mission.id, mission.contents)) :
    state.Noted (state.updateMission guid f hf) := by
  refine .quiet rfl rfl rfl fun other => ?_
  rw [core_updateMission hf (g := id) hcore]
  simp

variable {event : Event} {change : ChangeRecord}

theorem Noted.noteChange (hguid : change.missionGuid = guid)
    (hid : change.id = state.data.nextChangeId) (hthere : (state.byGuid guid).isSome = true)
    (hcore : ∀ mission, ((f mission).id, (f mission).contents) =
      (mission.id, change.onContents guid mission.contents)) :
    state.Noted ((state.updateMission guid f hf).noteChange change) := by
  subst hguid
  obtain ⟨mission, hmission⟩ := Option.isSome_iff_exists.1 hthere
  have hfound : (state.updateMission change.missionGuid f hf).missions.byGuid[change.missionGuid]? =
      some (f mission) := by
    refine (byGuid_updateMission change.missionGuid change.missionGuid).trans ?_
    rw [if_pos rfl, hmission]
    rfl
  have hnoted : (state.updateMission change.missionGuid f hf).noteChange change =
      { state.updateMission change.missionGuid f hf with
        data := state.data.pushChange { change with missionName := (f mission).name } } := by
    rw [State.noteChange, hfound]
    rfl
  rw [hnoted]
  refine .change { change with missionName := (f mission).name } hid rfl rfl rfl
    (core_isSome.trans hthere) fun other => ?_
  refine (core_updateMission hf (g := fun contents => change.onContents change.missionGuid contents)
    hcore other).trans ?_
  refine congrArg (fun k => (state.core other).map k) (funext fun core => ?_)
  split
  · next heq =>
    subst heq
    rfl
  · next hne => exact congrArg (Prod.mk core.1) (ChangeRecord.onContents_of_ne hne).symm

theorem Noted.created_apply {mission : MissionRecord}
    (hallows : state.Allows (.created mission changeId)) :
    state.Noted (state.apply (.created mission changeId)) := by
  obtain ⟨hnew, hcontents, hge, hid⟩ := hallows
  refine .created mission.guid mission.id _ hid rfl rfl rfl rfl rfl (by rw [core, hnew]; rfl) hge
    fun other => ?_
  rw [core, byGuid_created]
  split
  · rw [Option.map_some, hcontents]
  · rfl

private theorem Noted.data_apply {event : DataEvent} (hallows : state.Allows (.data event)) :
    state.Noted (state.apply (.data event)) := by
  cases hid : event.changeId with
  | none =>
    obtain ⟨hchanges, hnext⟩ := state.data.apply_changeId_none hid _
    exact .quiet hchanges hnext rfl fun _ => rfl
  | some changeId =>
    obtain ⟨hthere, hnextId⟩ := hallows changeId hid
    obtain ⟨change, hchange, hguid, hcontent, hchanges, hnext⟩ :=
      state.data.apply_changeId_some hid _
    refine .change change (hchange.trans hnextId) hchanges (hchange ▸ hnext) rfl ?_ fun other => ?_
    · rw [core_isSome, hguid, hthere]
    · simp only [ChangeRecord.onContents_of_none hcontent]
      exact Option.map_id'.symm

theorem Noted.apply (hallows : state.Allows event) : state.Noted (state.apply event) := by
  cases event with
  | created => exact .created_apply hallows
  | data => exact .data_apply hallows
  | deleted | contentAdded | contentRemoved =>
    refine .noteChange rfl hallows.2 hallows.1 fun mission => ?_
    simp [ChangeRecord.onContents]
  | subscriptionRoleSet guid id role | unsubscribed guid id =>
    rw [State.apply]
    split <;> exact .quiet rfl rfl rfl fun _ => rfl
  | subscribed | invited | uninvited | logEntrySaved | logEntryDeleted =>
    exact .quiet rfl rfl rfl fun _ => rfl
  | _ => exact .updated fun _ => rfl

/-- A change under the next id comes after every other. -/
theorem pairwise_concat (h : state.Listed) (hid : change.id = state.data.nextChangeId) :
    (state.data.changes ++ [change]).Pairwise (·.id < ·.id) := by
  refine pairwise_append.2 ⟨h.changes, pairwise_singleton _ _, fun old hold new hnew => ?_⟩
  rw [mem_singleton.1 hnew, hid]
  exact h.below old hold

private theorem below_concat (h : state.Listed) :
    ∀ old ∈ state.data.changes ++ [change],
    old.id < max state.data.nextChangeId (change.id + 1) := by
  intro old hold
  rcases mem_append.1 hold with hold | hold
  · exact Nat.lt_of_lt_of_le (h.below old hold) (Nat.le_max_left _ _)
  · rw [mem_singleton.1 hold]
    exact Nat.lt_of_lt_of_le (Nat.lt_succ_self _) (Nat.le_max_right _ _)

theorem Listed.noted (h : state.Listed) (hnoted : state.Noted next) : next.Listed := by
  cases hnoted with
  | quiet hchanges hnext hids hcore =>
    constructor
    case changes => exact hchanges ▸ h.changes
    case below => exact hchanges ▸ hnext ▸ h.below
    case known => exact fun change hchange => (hcore _).symm ▸ h.known change (hchanges ▸ hchange)
    case ids => exact fun guid id contents hfound =>
      hids ▸ h.ids guid id contents (hcore guid ▸ hfound)
    case distinct =>
      exact fun guid guid' id contents contents' hfound hfound' =>
        h.distinct guid guid' id contents contents' (hcore guid ▸ hfound) (hcore guid' ▸ hfound')
    case contents => exact fun guid id contents hfound =>
      hchanges ▸ h.contents guid id contents (hcore guid ▸ hfound)
  | change change hid hchanges hnext hids hknown hcore =>
    -- a mission that is there now was there before, with the content before the change
    have hbefore : ∀ guid id contents, next.core guid = some (id, contents) →
        ∃ old, state.core guid = some (id, old) ∧ contents = change.onContents guid old := by
      intro guid id contents hfound
      rw [hcore, Option.map_eq_some_iff] at hfound
      obtain ⟨⟨id, old⟩, hold, heq⟩ := hfound
      cases heq
      exact ⟨old, hold, rfl⟩
    constructor
    case changes => exact hchanges ▸ pairwise_concat h hid
    case below => exact hchanges ▸ hnext ▸ below_concat h
    case known =>
      intro old hold
      rw [hcore, Option.isSome_map]
      rw [hchanges] at hold
      rcases mem_append.1 hold with hold | hold
      · exact h.known old hold
      · rw [mem_singleton.1 hold]
        exact hknown
    case ids =>
      intro guid id contents hfound
      obtain ⟨old, hold, -⟩ := hbefore guid id contents hfound
      exact hids ▸ h.ids guid id old hold
    case distinct =>
      intro guid guid' id contents contents' hfound hfound'
      obtain ⟨old, hold, -⟩ := hbefore guid id contents hfound
      obtain ⟨old', hold', -⟩ := hbefore guid' id contents' hfound'
      exact h.distinct guid guid' id old old' hold hold'
    case contents =>
      intro guid id contents hfound
      obtain ⟨old, hold, heq⟩ := hbefore guid id contents hfound
      rw [hchanges, contentsAfter_concat, ← h.contents guid id old hold, heq]
  | created guid id change hid hguid hcontent hchanges hnext hids hnew hge hcore =>
    have hcases : ∀ other otherId contents, next.core other = some (otherId, contents) →
        other = guid ∧ otherId = id ∧ contents = [] ∨
          state.core other = some (otherId, contents) := by
      intro other otherId contents hfound
      rw [hcore] at hfound
      split at hfound
      · next heq =>
        cases hfound
        exact .inl ⟨heq.symm, rfl, rfl⟩
      · exact .inr hfound
    have hother : ∀ old ∈ state.data.changes, old.missionGuid ≠ guid := by
      intro old hold heq
      have hsome := h.known old hold
      rw [heq, hnew] at hsome
      cases hsome
    constructor
    case changes => exact hchanges ▸ pairwise_concat h hid
    case below => exact hchanges ▸ hnext ▸ below_concat h
    case known =>
      intro old hold
      rw [hchanges] at hold
      rw [hcore]
      split
      · rfl
      · next hne =>
        rcases mem_append.1 hold with hold | hold
        · exact h.known old hold
        · rw [mem_singleton.1 hold] at hne
          exact absurd hguid.symm hne
    case ids =>
      intro other otherId contents hfound
      rw [hids]
      rcases hcases other otherId contents hfound with ⟨-, rfl, -⟩ | hold
      · exact Nat.lt_of_lt_of_le (Nat.lt_succ_self _) (Nat.le_max_right _ _)
      · exact Nat.lt_of_lt_of_le (h.ids other otherId contents hold) (Nat.le_max_left _ _)
    case distinct =>
      intro one two otherId contents contents' hone htwo
      -- no mission had the id of the new one
      have hfree : ∀ other contents, state.core other ≠ some (id, contents) :=
        fun other contents hold => absurd (h.ids other id contents hold) (Nat.not_lt.2 hge)
      rcases hcases one otherId contents hone with ⟨rfl, rfl, -⟩ | hold <;>
        rcases hcases two otherId contents' htwo with ⟨rfl, hsame, -⟩ | hold'
      · rfl
      · exact absurd hold' (hfree two contents')
      · exact absurd (hsame ▸ hold) (hfree one contents)
      · exact h.distinct one two otherId contents contents' hold hold'
    case contents =>
      intro other otherId contents hfound
      rw [hchanges, contentsAfter_concat, ChangeRecord.onContents_of_none hcontent]
      rcases hcases other otherId contents hfound with ⟨rfl, -, rfl⟩ | hold
      · exact (contentsAfter_eq_nil hother).symm
      · exact h.contents other otherId contents hold

private theorem Subscribed.of_sublist (h : state.Subscribed)
    (hids : ∀ guid, ((next.subscriptionsOf guid).map fun sub =>
      (sub.id, sub.clientUid, sub.username)).Sublist ((state.subscriptionsOf guid).map fun sub =>
      (sub.id, sub.clientUid, sub.username))) : next.Subscribed where
  ids := by
    intro guid
    have hsub := (hids guid).map Prod.fst
    rw [map_map, map_map] at hsub
    exact (h.ids guid).sublist hsub
  subscribers := by
    intro guid
    have hsub := (hids guid).map Prod.snd
    rw [map_map, map_map] at hsub
    exact (h.subscribers guid).sublist hsub

theorem Subscribed.apply (h : state.Subscribed) (hallows : state.Allows event) :
    (state.apply event).Subscribed := by
  cases event with
  | subscribed guid sub =>
    have hsubs : ∀ other, (state.apply (.subscribed guid sub)).subscriptionsOf other = _ :=
      fun other => subscriptionsOf_subscribed guid other sub
    constructor
    case ids =>
      intro other
      rw [hsubs]
      split
      · rw [map_append, nodup_append_comm]
        exact nodup_cons.2 ⟨hallows.1, h.ids guid⟩
      · exact h.ids other
    case subscribers =>
      intro other
      rw [hsubs]
      split
      · rw [map_append, nodup_append_comm]
        exact nodup_cons.2 ⟨hallows.2, h.subscribers guid⟩
      · exact h.subscribers other
  | subscriptionRoleSet guid id role =>
    refine h.of_sublist fun other => ?_
    rw [subscriptionsOf_subscriptionRoleSet]
    split
    · next heq => rw [map_setRoleOf fun _ _ => rfl, heq]
    · exact List.Sublist.refl _
  | unsubscribed guid id =>
    refine h.of_sublist fun other => ?_
    rw [subscriptionsOf_unsubscribed]
    split
    · next heq =>
      rw [heq]
      exact filter_sublist.map _
    · exact List.Sublist.refl _
  | deleted | contentAdded | contentRemoved =>
    refine h.of_sublist fun other => ?_
    rw [State.apply, subscriptionsOf_noteChange]
    exact List.Sublist.refl _
  | _ => exact ⟨h.ids, h.subscribers⟩

structure Sound (state : State) : Prop where
  listed : state.Listed
  subscribed : state.Subscribed

theorem Sound.apply (h : state.Sound) (hallows : state.Allows event) : (state.apply event).Sound :=
  ⟨h.listed.noted (.apply hallows), h.subscribed.apply hallows⟩

theorem sound_empty : ({} : State).Sound := by
  have hcore : ∀ guid, ({} : State).core guid = none := fun guid => by simp [core, byGuid]
  have hsubs : ∀ guid, ({} : State).subscriptionsOf guid = [] := fun guid => by
    simp [subscriptionsOf]
  constructor
  case listed =>
    exact
      { changes := List.Pairwise.nil
        below := fun _ h => absurd h not_mem_nil
        known := fun _ h => absurd h not_mem_nil
        ids := fun guid id contents h => by simp [hcore] at h
        distinct := fun guid guid' id contents contents' h => by simp [hcore] at h
        contents := fun guid id contents h => by simp [hcore] at h }
  case subscribed => exact ⟨fun guid => by simp [hsubs], fun guid => by simp [hsubs]⟩

/-! ### One call -/

section Calls

variable {α : Type} {disk : Option Nat}

section

variable (h : state.Sound)

include h

theorem Sound.existing_bind {f : MissionRecord → MissionStore.Op α}
    (hf : (state.byGuid guid).isSome = true → ∀ mission,
      ((f mission).run State.apply disk state).state.Sound) :
    ((existing guid >>= f).run State.apply disk state).state.Sound := by
  rw [existing, bind_assoc, run_get_bind, run_orRefuse_bind]
  split
  · next mission hmission => exact hf (by rw [hmission]; rfl) mission
  · exact h

theorem Sound.put_bind {f : Unit → MissionStore.Op α} (hallows : state.Allows event)
    (hreads : (f ()).Only fun _ => False) :
    ((put event >>= f).run State.apply disk state).state.Sound := by
  refine state_put_bind Sound h fun disk => ?_
  rw [hreads.state_eq]
  exact h.apply hallows

theorem Sound.put (hallows : state.Allows event) :
    ((put event : MissionStore.Op Unit).run State.apply disk state).state.Sound :=
  h.put_bind (f := pure) hallows trivial

theorem Sound.recordChange_bind {event : Nat → Event} {f : Unit → MissionStore.Op α}
    (hallows : (state.byGuid guid).isSome = true → state.Allows (event state.data.nextChangeId))
    (hreads : (f ()).Only fun _ => False) :
    ((recordChange guid event >>= f).run State.apply disk state).state.Sound := by
  rw [recordChange, bind_assoc]
  refine h.existing_bind fun hthere _ => ?_
  exact h.put_bind (hallows hthere) hreads

theorem Sound.recordChange {event : Nat → Event}
    (hallows : (state.byGuid guid).isSome = true → state.Allows (event state.data.nextChangeId)) :
    ((MissionStore.recordChange guid event).run State.apply disk state).state.Sound := by
  rw [← bind_pure (MissionStore.recordChange guid event)]
  exact h.recordChange_bind hallows trivial

theorem Sound.only {op : MissionStore.Op α}
    (hop : op.Only fun event => ∀ state : State, state.Allows event) :
    (op.run State.apply disk state).state.Sound :=
  hop.run Sound (fun state _ hallows hstate => hstate.apply (hallows state)) h

end

theorem allows_onLayers (h : MissionStore.OnLayers guid event) (state : State) :
    state.Allows event := by
  obtain ⟨change, rfl, hlayer, -⟩ := h
  intro changeId hid
  cases change with
  | layerSaved | layerNamed | layerParentSet | layerAfterSet | layerDeleted => cases hid
  | _ => cases hlayer

end Calls

end State

/-- Random ids are new: no mission has the guid of a new one, no subscription to a mission the id of
another. -/
def MissionCall.fresh (state : State) : MissionCall → Bool
  | .create new _ => (state.byGuid new.guid).isNone
  | .subscribe guid _ _ _ _ id _ => (state.subscriptionsOf guid).all (·.id ≠ id)
  | _ => true

section Calls

open State

variable {state : State} {disk : Option Nat}

variable {clientUid username id : String} {role : Role} {nowMs : Int}
  {subs : List SubscriptionRecord} {sub : SubscriptionRecord} {makeToken : String → String}

theorem subscribe_sound (h : state.Sound)
    (hfresh : (state.subscriptionsOf guid).all (·.id ≠ id) = true) :
    ((MissionCall.subscribe guid clientUid username role nowMs id makeToken).op.run State.apply disk
      state).state.Sound := by
  rw [MissionCall.op, subscribe, bind_assoc]
  refine h.existing_bind fun _ _ => ?_
  rw [bind_assoc, run_get_bind]
  split
  · split
    · exact h.put_bind trivial trivial
    · exact h
  · next hnone =>
    refine h.put_bind ⟨?_, ?_⟩ trivial
    · intro hmem
      obtain ⟨sub, hsub, hid⟩ := mem_map.1 hmem
      have hne := all_eq_true.1 hfresh sub hsub
      simp [hid] at hne
    · intro hmem
      obtain ⟨sub, hsub, hsame⟩ := mem_map.1 hmem
      simp only [Prod.mk.injEq] at hsame
      have hne := find?_eq_none.1 hnone sub hsub
      simp [hsame] at hne

private theorem put_lastChange_sound {event : DataEvent} (h : state.Sound)
    (hthere : (state.byGuid event.guid).isSome = true)
    (hid : event.changeId = some state.data.nextChangeId) :
    ((put (.data event) >>= fun _ => lastChange >>= fun _ =>
      pure ()).run State.apply disk state).state.Sound := by
  refine h.put_bind ?_ (only_get.bind fun _ => trivial)
  intro changeId hsome
  rw [hid, Option.some.injEq] at hsome
  exact ⟨hthere, hsome.symm⟩

theorem MissionCall.sound {call : MissionCall} (h : state.Sound)
    (hfresh : call.fresh state = true) : (call.op.run State.apply disk state).state.Sound := by
  cases call with
  | create new nowMs =>
    refine h.put_bind ⟨?_, rfl, Nat.le_max_left _ _, rfl⟩ trivial
    exact Option.isNone_iff_eq_none.1 hfresh
  | setFields | setPassword | setDefaultRole | setGroups | setKeywords | setContentKeywords =>
    exact h.existing_bind fun _ _ => h.put trivial
  | delete =>
    rw [op, MissionStore.delete, bind_assoc]
    exact h.recordChange_bind (fun hthere => ⟨hthere, rfl⟩) (only_existing.bind fun _ => trivial)
  | addContentAt =>
    rw [op, MissionStore.addContentAt]
    exact h.recordChange fun hthere => ⟨hthere, rfl⟩
  | removeContentAt =>
    rw [op, MissionStore.removeContentAt]
    exact h.recordChange fun hthere => ⟨hthere, rfl⟩
  | addMissionFeed =>
    rw [op, MissionStore.addMissionFeed, bind_assoc]
    refine h.existing_bind fun hthere _ => ?_
    rw [bind_assoc, run_get_bind]
    split
    · exact h
    · exact put_lastChange_sound h hthere rfl
  | removeMissionFeed =>
    rw [op, MissionStore.removeMissionFeed, bind_assoc]
    refine h.existing_bind fun hthere _ => ?_
    rw [bind_assoc, run_get_bind]
    split
    · exact h
    · rw [bind_assoc]
      exact put_lastChange_sound h hthere rfl
  | addMapLayer =>
    rw [op, MissionStore.addMapLayer, bind_assoc]
    refine h.existing_bind fun hthere _ => ?_
    exact put_lastChange_sound h hthere rfl
  | setExternalData =>
    rw [op, MissionStore.setExternalData, bind_assoc]
    refine h.existing_bind fun hthere _ => ?_
    rw [bind_assoc, run_get_bind]
    exact put_lastChange_sound h hthere rfl
  | externalDataChange =>
    rw [op]
    unfold MissionStore.externalDataChange
    rw [bind_assoc]
    refine h.existing_bind fun hthere _ => ?_
    rw [bind_assoc, run_get_bind]
    split
    · exact h
    · rw [bind_assoc]
      exact put_lastChange_sound h hthere rfl
  | updateMapLayer layer => exact h.put fun changeId hid => (by cases hid)
  | subscribe => exact subscribe_sound h hfresh
  | setSubscriptionRole =>
    refine h.only (only_existing.bind fun _ => only_get.bind fun _ =>
      only_putAll fun event hevent => ?_)
    obtain ⟨id, -, rfl⟩ := mem_map.1 hevent
    exact fun _ => trivial
  | unsubscribe =>
    refine h.only (only_get.bind fun _ => only_putAll fun event hevent => ?_)
    obtain ⟨id, -, rfl⟩ := mem_map.1 hevent
    exact fun _ => trivial
  | invite =>
    rw [op, MissionStore.invite, bind_assoc]
    refine h.existing_bind fun _ _ => ?_
    rw [bind_assoc, run_get_bind]
    split
    · exact h
    · exact h.put_bind trivial trivial
  | uninvite | saveLogEntry | deleteLogEntry => exact h.put trivial
  | addLayer => exact h.only ((only_addLayer _).mono fun _ => allows_onLayers)
  | renameLayer => exact h.only ((only_renameLayer _ _).mono fun _ => allows_onLayers)
  | moveLayer => exact h.only ((only_moveLayer _ _ _).mono fun _ => allows_onLayers)
  | deleteLayer => exact h.only ((only_deleteLayer _).mono fun _ => allows_onLayers)

/-- The subscription goes on, with a role that covers the one it had. -/
def Continues (sub : SubscriptionRecord) (subs : List SubscriptionRecord) : Prop :=
  ∃ role : Role, { sub with role } ∈ subs ∧ role.hasAll sub.role = true

end Calls

/-! ### Runs -/

abbrev storeStep (empty : State) := Kept.step State.apply empty MissionCall.op

namespace Refilled

def new : NewMission where
  guid := "m-1"
  name := "Ops"
  fields := {}
  tool := "public"
  creatorUid := "uid-1"
  groups := {"Red"}
  passwordHash := none
  defaultRole := none
  inviteOnly := false

def turns : List (Turn MissionCall) :=
  [.call (.create new 1), .call (.addContentAt "m-1" (.uid "a") "uid-1" 2 none),
    .call (.addContentAt "m-1" (.uid "b") "uid-1" 3 none), .restart,
    .call (.addContentAt "m-1" (.uid "a") "uid-2" 4 none),
    .call (.subscribe "m-1" "uid-1" "alpha" .owner 5 "s-1" id),
    .call (.subscribe "m-1" "uid-1" "alpha" .readOnlySubscriber 6 "s-2" id)]

/-- An item whose record stays although its append fails, and another one added after it. -/
def leftBehind : List (Turn MissionCall) :=
  [.call (.create new 1), .call (.addContentAt "m-1" (.uid "a") "uid-1" 2 none) (some 0) true,
    .call (.addContentAt "m-1" (.uid "b") "uid-1" 3 none)]

end Refilled

end MicroTak.Missions
