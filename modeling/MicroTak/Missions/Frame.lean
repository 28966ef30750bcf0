import MicroTak.Missions.Runs

/-!
# What a request leaves of other missions

Map layers, external data and feeds are kept by their own uid or id for all missions together, so
that a request on one mission can reach those of another.
-/

namespace MicroTak.Missions

open Std Handler Relation Transition Dict.Keyed MapLayerRecord Env

variable {env : Env} {caller : Caller} {inputs : Inputs} {request : Request} {start server : Server}
variable {guid : String} {disk : Option Nat}

@[ext] structure View where
  contents : Option (List ContentAdd)
  layers : List LayerRecord
  mapLayers : String → Option MapLayerRecord
  externalData : String → Option ExternalDataRecord
  feeds : String → Option MissionFeedRecord

def State.view (state : State) (guid : String) : View where
  contents := (state.byGuid guid).map (·.contents)
  layers := state.data.layersOf guid
  mapLayers uid := (state.data.mapLayers.get? uid).filter (·.missionGuid = guid)
  externalData id := (state.data.externalData.get? id).filter (·.missionGuid = guid)
  feeds uid := (state.data.missionFeeds.get? uid).filter (·.missionGuid = guid)

/-- What a request may do to the data of a mission that the caller has no role on. -/
structure View.Kept (request : Request) (savesDefault : Bool) (before after : View) : Prop where
  contents : after.contents = before.contents
  layers : after.layers = before.layers
  mapLayers : ∀ uid ∉ request.mapLayerUids, after.mapLayers uid = before.mapLayers uid ∨
    savesDefault = true ∧
      after.mapLayers uid = (before.mapLayers uid).map MapLayerRecord.unsetDefault
  externalData : ∀ id, after.externalData id = before.externalData id ∨
    id ∈ request.externalIds ∧ after.externalData id = none
  feeds : ∀ uid, after.feeds uid = before.feeds uid ∨ uid ∈ request.feedUids ∧
    after.feeds uid = none

theorem View.Kept.refl {savesDefault : Bool} (view : View) :
    View.Kept request savesDefault view view :=
  ⟨rfl, rfl, fun _ _ => .inl rfl, fun _ => .inl rfl, fun _ => .inl rfl⟩

/-- The ids drawn from here on are not in use for the mission. -/
structure Unused (env : Env) (server : Server) (guid : String) : Prop where
  mission : ¬ Fresh env server guid
  mapLayer : ∀ k, server.drawn ≤ k →
    (server.state.view guid).mapLayers (stripDashes (env.randomUuid k)) = none
  feed : ∀ k, server.drawn ≤ k → (server.state.view guid).feeds (env.randomUuid k) = none

/-! ### Events that leave the data of missions alone -/

variable {other : String}

section Events

variable {state : State} {f : MissionRecord → MissionRecord}
  {hf : ∀ mission, (f mission).guid = mission.guid}

theorem view_updateMission (hcontents : ∀ mission, (f mission).contents = mission.contents) :
    (state.updateMission other f hf).view guid = state.view guid := by
  have hsame : ((state.updateMission other f hf).byGuid guid).map (·.contents) =
      (state.byGuid guid).map (·.contents) := by
    rw [State.byGuid_updateMission]
    split
    · rw [Option.map_map]
      exact congrArg (fun g => (state.byGuid guid).map g) (funext hcontents)
    · rfl
  ext1
  · exact hsame
  all_goals rfl

theorem view_updateMission_of_ne (hother : other ≠ guid) :
    (state.updateMission other f hf).view guid = state.view guid := by
  ext1
  · show ((state.updateMission other f hf).byGuid guid).map (·.contents) = _
    rw [State.byGuid_updateMission, if_neg hother]
    rfl
  all_goals rfl

theorem view_noteChange (change : ChangeRecord) :
    (state.noteChange change).view guid = state.view guid := by
  obtain ⟨changes, nextChangeId, heq⟩ := State.noteChange_eq state change
  rw [heq]
  rfl

/-- The events that may change the data of the mission. -/
def Event.touches (guid : String) : Event → Prop
  | .created mission _ => mission.guid = guid
  | .contentAdded other .. | .contentRemoved other .. => other = guid
  | .data _ => True
  | _ => False

theorem view_apply {event : Event} (h : ¬ event.touches guid) :
    (state.apply event).view guid = state.view guid := by
  cases event with
  | created mission changeId =>
    have hne : mission.guid ≠ guid := h
    ext1
    · show ((state.apply (.created mission changeId)).byGuid guid).map (·.contents) = _
      rw [State.byGuid_created, if_neg hne]
      rfl
    all_goals rfl
  | contentAdded | contentRemoved => exact (view_noteChange _).trans (view_updateMission_of_ne h)
  | deleted => exact (view_noteChange _).trans (view_updateMission fun _ => rfl)
  | subscriptionRoleSet other id role | unsubscribed other id =>
    simp only [State.apply]
    split <;> rfl
  | data change => exact absurd trivial h
  | subscribed | invited | uninvited | logEntrySaved | logEntryDeleted => rfl
  | _ => exact view_updateMission fun _ => rfl

end Events

/-! ### Events on the data of missions -/

section Data

theorem filter_unsetDefault (found : Option MapLayerRecord) :
    (found.map unsetDefault).filter (·.missionGuid = guid) =
      (found.filter (·.missionGuid = guid)).map unsetDefault := by
  rw [Option.filter_map]
  rfl

theorem map_unsetDefault_twice (found : Option MapLayerRecord) :
    (found.map unsetDefault).map unsetDefault = found.map unsetDefault := by
  rw [Option.map_map]
  rfl

theorem mapLayers_apply (state : State) (on : String) (layer : MapLayerRecord) (creatorUid : String)
    (changeId : Option Nat) (uid : String) :
    ((state.apply (.data (.mapLayerSaved on layer creatorUid changeId))).view guid).mapLayers uid =
      if layer.uid = uid then (some layer).filter (·.missionGuid = guid)
      else if layer.props.defaultLayer then ((state.view guid).mapLayers uid).map unsetDefault
      else (state.view guid).mapLayers uid := by
  have hsaved : (state.apply (.data (.mapLayerSaved on layer creatorUid changeId))).data.mapLayers =
      (state.data.saveMapLayer layer).mapLayers := by
    cases changeId <;> rfl
  simp only [State.view, hsaved, MissionData.saveMapLayer, get?_insert]
  split
  · rfl
  · split
    · exact (congrArg (Option.filter _) (get?_mapValues _ _ uid)).trans (filter_unsetDefault _)
    · rfl

/-- The caller has no role on the mission, and no drawn id is in use for it. -/
structure Outside (env : Env) (caller : Caller) (request : Request) (start : Server)
    (guid : String) : Prop where
  role : ∀ mission, request.target caller start.state = some mission →
    (env.roleFor start.state mission caller).isSome = true → mission.guid ≠ guid
  unused : Unused env start guid

theorem Outside.ne_of_mayWrite (h : Outside env caller request start guid)
    (hwrite : MayWrite env caller request start other) : other ≠ guid := by
  rcases hwrite with ⟨mission, hmission, rfl, hrole⟩ | hfresh
  · refine h.role mission hmission ?_
    obtain ⟨role, hrole, -⟩ := (Option.any_eq_true _ _).1 hrole
    rw [hrole]
    rfl
  · rintro rfl
    exact h.unused.mission hfresh

variable {savesDefault : Bool} {before : View} {state : State}

variable {on creatorUid : String} {atMs : Int} {changeId : Nat} {change : DataEvent}

variable (houtside : Outside env caller request start guid)

include houtside

theorem kept_mapLayerSaved {layer : MapLayerRecord} {changeId : Option Nat}
    (hlicensed : DataLicensed env caller request start
      (.mapLayerSaved on layer creatorUid changeId))
    (h : View.Kept request (request.savesDefault caller start.state) (start.state.view guid)
      (state.view guid)) :
    View.Kept request (request.savesDefault caller start.state) (start.state.view guid)
      ((state.apply (.data (.mapLayerSaved on layer creatorUid changeId))).view guid) := by
  obtain ⟨hnamed, hdefault⟩ := hlicensed
  have hframe : ((state.apply (.data (.mapLayerSaved on layer creatorUid changeId))).view guid) =
      { state.view guid with
        mapLayers :=
          ((state.apply (.data (.mapLayerSaved on layer creatorUid changeId))).view guid).mapLayers
            } := by
    cases changeId <;> rfl
  rw [hframe]
  refine { h with mapLayers := fun uid huid => ?_ }
  rw [mapLayers_apply]
  split
  · next heq =>
    -- The request does not name it, so its uid is drawn, and was free.
    subst heq
    obtain ⟨hwrite, k, hk, hdrawn⟩ := hnamed.resolve_left huid
    left
    rw [hdrawn, houtside.unused.mapLayer k hk]
    exact Option.filter_some_neg (decide_eq_false (houtside.ne_of_mayWrite hwrite))
  · split
    · next hflag =>
      right
      refine ⟨hdefault hflag, ?_⟩
      rcases h.mapLayers uid huid with hsame | ⟨-, hunset⟩
      · rw [hsame]
      · rw [hunset, map_unsetDefault_twice]
    · exact h.mapLayers uid huid

theorem kept_externalDataSet {record : ExternalDataRecord}
    (hlicensed : DataLicensed env caller request start
      (.externalDataSet on record creatorUid atMs changeId))
    (h : View.Kept request savesDefault (start.state.view guid) (state.view guid)) :
    View.Kept request savesDefault (start.state.view guid)
      ((state.apply (.data (.externalDataSet on record creatorUid atMs changeId))).view guid) := by
  obtain ⟨hwrite, hrecord⟩ := hlicensed
  refine { h with externalData := fun id => ?_ }
  change ((state.data.externalData.insert record).get? id).filter _ = _ ∨
    _ ∧ ((state.data.externalData.insert record).get? id).filter _ = _
  rw [filter_get?_insert]
  split
  · next heq =>
    subst heq
    have hnone : (some record).filter (·.missionGuid = guid) = none :=
      Option.filter_some_neg (decide_eq_false (houtside.ne_of_mayWrite hwrite))
    rw [hnone]
    rcases hrecord with hnamed | ⟨mission, old, hmission, hrole, hguid, hold⟩
    · exact .inr ⟨hnamed, rfl⟩
    · -- It was the copied mission's before.
      left
      have hne : old.missionGuid ≠ guid := hguid ▸ houtside.role mission hmission hrole
      exact ((congrArg (Option.filter _) hold).trans
        (Option.filter_some_neg (decide_eq_false hne))).symm
  · exact h.externalData id

omit houtside in
theorem kept_externalDataChange {change : ExternalDataChange} {remove : Bool}
    (hlicensed : DataLicensed env caller request start
      (.externalDataChange on change remove creatorUid atMs changeId))
    (h : View.Kept request savesDefault before (state.view guid)) :
    View.Kept request savesDefault before
      ((state.apply (.data (.externalDataChange on change remove creatorUid atMs changeId))).view
        guid) := by
  cases remove with
  | false => exact h
  | true =>
    refine { h with externalData := fun id => ?_ }
    change ((state.data.externalData.erase change.uid).get? id).filter _ = _ ∨
      _ ∧ ((state.data.externalData.erase change.uid).get? id).filter _ = _
    rw [filter_get?_erase]
    split
    · next heq => exact .inr ⟨heq ▸ hlicensed, rfl⟩
    · exact h.externalData id

theorem kept_missionFeedAdded {feed : MissionFeedRecord}
    (hlicensed : DataLicensed env caller request start
      (.missionFeedAdded on feed creatorUid changeId atMs))
    (h : View.Kept request savesDefault (start.state.view guid) (state.view guid)) :
    View.Kept request savesDefault (start.state.view guid)
      ((state.apply (.data (.missionFeedAdded on feed creatorUid changeId atMs))).view guid) := by
  obtain ⟨hwrite, k, hk, hdrawn⟩ := hlicensed
  refine { h with feeds := fun uid => ?_ }
  change ((state.data.missionFeeds.insert feed).get? uid).filter _ = _ ∨
    _ ∧ ((state.data.missionFeeds.insert feed).get? uid).filter _ = _
  rw [filter_get?_insert]
  split
  · next heq =>
    subst heq
    left
    rw [hdrawn, houtside.unused.feed k hk]
    exact Option.filter_some_neg (decide_eq_false (houtside.ne_of_mayWrite hwrite))
  · exact h.feeds uid

omit houtside in
theorem kept_missionFeedRemoved {feedUid : String}
    (hlicensed : DataLicensed env caller request start
      (.missionFeedRemoved on feedUid creatorUid changeId atMs))
    (h : View.Kept request savesDefault before (state.view guid)) :
    View.Kept request savesDefault before
      ((state.apply (.data (.missionFeedRemoved on feedUid creatorUid changeId atMs))).view
        guid) := by
  refine { h with feeds := fun uid => ?_ }
  change ((state.data.missionFeeds.erase feedUid).get? uid).filter _ = _ ∨
    _ ∧ ((state.data.missionFeeds.erase feedUid).get? uid).filter _ = _
  rw [filter_get?_erase]
  split
  · next heq => exact .inr ⟨heq ▸ hlicensed, rfl⟩
  · exact h.feeds uid

omit houtside in
private theorem view_layerEvent (hlayer : change.isLayer = true) (hguid : change.guid ≠ guid) :
    (state.apply (.data change)).view guid = state.view guid := by
  have hlayers : (state.apply (.data change)).data.layersOf guid = state.data.layersOf guid := by
    refine (MissionData.layersOf_apply _ change guid).trans ?_
    cases change with
    | layerSaved | layerNamed | layerParentSet | layerAfterSet | layerDeleted => exact if_neg hguid
    | _ => cases hlayer
  obtain ⟨layers, heq⟩ :=
    state.data.apply_of_isLayer hlayer
      (((state.missions.byGuid[change.guid]?).map (·.name)).getD "")
  have hstate : state.apply (.data change) = { state with data := { state.data with layers } } :=
    congrArg (fun data => { state with data }) heq
  ext1
  · rfl
  · exact hlayers
  all_goals
    rw [hstate]
    rfl

private theorem kept_data (hlicensed : DataLicensed env caller request start change)
    (h : View.Kept request (request.savesDefault caller start.state) (start.state.view guid)
      (state.view guid)) :
    View.Kept request (request.savesDefault caller start.state) (start.state.view guid)
      ((state.apply (.data change)).view guid) := by
  cases change with
  | missionFeedAdded => exact kept_missionFeedAdded houtside hlicensed h
  | missionFeedRemoved => exact kept_missionFeedRemoved hlicensed h
  | mapLayerSaved => exact kept_mapLayerSaved houtside hlicensed h
  | externalDataSet => exact kept_externalDataSet houtside hlicensed h
  | externalDataChange => exact kept_externalDataChange hlicensed h
  | _ =>
    rw [view_layerEvent rfl (houtside.ne_of_mayWrite hlicensed.1)]
    exact h

end Data

private theorem kept_of_reached (houtside : Outside env caller request start guid)
    (h : Reached env caller request start server) :
    View.Kept request (request.savesDefault caller start.state) (start.state.view guid)
    (server.state.view guid) := by
  induction h with
  | refl => exact .refl _
  | @tail server next hbefore heffect ih =>
    have hkept : ∀ event, ¬ event.touches guid →
        View.Kept request (request.savesDefault caller start.state) (start.state.view guid)
          ((server.state.apply event).view guid) := by
      intro event hevent
      rw [view_apply hevent]
      exact ih
    cases heffect with
    | draw | pass | spare | connect | disconnect | relay => exact ih
    | edit event disk hedit =>
      cases event with
      | data change => exact kept_data houtside hedit.2 ih
      | contentAdded | contentRemoved => exact hkept _ (houtside.ne_of_mayWrite hedit.2)
      | created => cases hedit.1
      | _ => exact hkept _ not_false
    | create mission changeId disk hguid =>
      refine hkept (.created mission changeId) ?_
      rintro rfl
      exact houtside.unused.mission ⟨server.drawn, drawn_le_of_reached hbefore, hguid⟩
    | _ => exact hkept _ not_false

/-- Whatever a caller without a role on a mission asks for, the contents and layers of the mission
stay. Its external data and feeds stay but for those the request names, which may leave it, and so
do its map layers that the request does not name, but for the default flag when the request saves a
default layer. -/
theorem other_mission_kept {other : MissionRecord}
    (hother : start.state.byGuid other.guid = some other)
    (hrole : env.roleFor start.state other caller = none) (hunused : Unused env start other.guid)
    (inputs : Inputs) (request : Request) :
    View.Kept request (request.savesDefault caller start.state) (start.state.view other.guid)
      ((after (handle env caller inputs request) start).state.view other.guid) := by
  have houtside : Outside env caller request start other.guid := by
    refine ⟨fun mission hmission hsome hguid => ?_, hunused⟩
    have hbyGuid := (seen_of_target hmission).1
    rw [hguid, hother] at hbyGuid
    rw [← Option.some.inj hbyGuid, hrole] at hsome
    cases hsome
  have hreached : wp (handle env caller inputs request) (fun _ => Reached env caller request start)
      (fun _ => Reached env caller request start) start :=
    wp.mono handle_justified (fun _ _ h => h.1) (fun _ _ h => h)
  exact kept_of_reached houtside hreached.after

def neighbours : List Action :=
  [.request "admin" {} {} (.put "Plans" { inviteOnly := true } false),
    .request "admin" {} { now := 1 } (.about (.name "Plans") (.addMapLayer (some "admin")
      (some { props := { name := some "Base", url := some "tiles", defaultLayer := true } }))),
    .request "admin" {} { now := 2 } (.about (.name "Plans")
      (.addFeed { creatorUid := some "admin", dataFeedUid := some "d" })),
    .request "admin" {} { now := 3 }
      (.about (.name "Plans") (.setExternal (some "admin") (some { uid := "e" }))),
    .request "bob" {} { now := 4 } (.put "Ops" {} false)]

private theorem unused_neighbours {server : Server}
    (h : run (step sample) {} neighbours = some server) : Unused sample server "u" := by
  have hkeys : (run (step sample) {} neighbours).map (fun server =>
      (server.drawn, server.state.data.mapLayers.values.map (·.uid),
        server.state.data.missionFeeds.values.map (·.uid))) =
      some (6, [sample.randomUuid 2], [sample.randomUuid 3]) := by
    decide +kernel
  rw [h, Option.map_some, Option.some.injEq, Prod.mk.injEq, Prod.mk.injEq] at hkeys
  obtain ⟨hdrawn, hlayers, hfeeds⟩ := hkeys
  have hnumber : ∀ k n, server.drawn ≤ k → n < 6 → sample.randomUuid k ≠ sample.randomUuid n :=
    fun k n hk hn heq => absurd (sample_lawful.randomUuid_injective heq) (by omega)
  have hdashes : ∀ k, stripDashes (sample.randomUuid k) = sample.randomUuid k := by
    intro k
    simp [stripDashes, sample]
  refine ⟨?_, fun k hk => ?_, fun k hk => ?_⟩
  · rintro ⟨k, hk, hguid⟩
    exact hnumber k 0 hk (by decide) hguid.symm
  · refine congrArg (Option.filter _) (get?_eq_none ?_)
    rw [hlayers, hdashes, List.mem_singleton]
    exact hnumber k 2 hk (by decide)
  · refine congrArg (Option.filter _) (get?_eq_none ?_)
    rw [hfeeds, List.mem_singleton]
    exact hnumber k 3 hk (by decide)

theorem other_mission_kept_neighbours :
    ∃ server, run (step sample) {} neighbours = some server ∧
      ∃ mission, server.state.byGuid "u" = some mission ∧
        sample.roleFor server.state mission (sample.caller server "bob" {}) = none ∧
        View.Kept (.about (.name "Ops") (.setExternal (some "bob") (some { uid := "x" }))) false
        (server.state.view "u")
          ((after (handle sample (sample.caller server "bob" {}) { now := 5 }
            (.about (.name "Ops") (.setExternal (some "bob") (some { uid := "x" }))))
            server).state.view "u") := by
  refine exists_end (fun server => ∃ mission, server.state.byGuid "u" = some mission ∧
    sample.roleFor server.state mission (sample.caller server "bob" {}) = none) (by decide +kernel)
    fun server hrun hend => ?_
  obtain ⟨mission, hmission, hrole⟩ := hend
  have hguid := server.state.guid_of_byGuid hmission
  have hkept :=
    other_mission_kept (by rw [hguid, hmission]) hrole (hguid ▸ unused_neighbours hrun) { now := 5 }
      (.about (.name "Ops") (.setExternal (some "bob") (some { uid := "x" })))
  rw [hguid] at hkept
  exact ⟨mission, hmission, hrole, hkept⟩

/-- What a user without a role on the mission for invited users changes in it through a mission of
its own: the default layer is the default no more, the layer has other tiles, the external data has
moved and the feed is gone. -/
theorem other_mission_changed :
    ∃ server, run (step sample) {} neighbours = some server ∧
      let bob := sample.caller server "bob" {}
      let view := server.state.view "u"
      let viewAfter := fun request =>
        (after (handle sample bob { now := 5 } (.about (.name "Ops") request)) server).state.view
          "u"
      (∃ mission, server.state.byGuid "u" = some mission ∧
        sample.roleFor server.state mission bob = none) ∧
      (∃ own, server.state.byGuid "uuuuu" = some own ∧
        (sample.roleFor server.state own bob).any (·.has .write) = true) ∧
      (view.mapLayers "uuu").map (fun layer => (layer.props.url, layer.props.defaultLayer)) =
        some (some "tiles", true) ∧
      ((viewAfter (.addMapLayer (some "bob") (some { props :=
          { name := some "Own", url := some "own", defaultLayer := true } }))).mapLayers "uuu").map
        (·.props.defaultLayer) = some false ∧
      ((viewAfter (.updateMapLayer (some "bob")
        (some { uid := "uuu", props := { name := some "Base", url := some "own" } }))).mapLayers
          "uuu").map (·.props.url) = some (some "own") ∧
      (view.externalData "e").isSome = true ∧
      (viewAfter (.setExternal (some "bob") (some { uid := "e" }))).externalData "e" = none ∧
      (view.feeds "uuuu").isSome = true ∧
      (viewAfter (.removeFeed "uuuu" (some "bob"))).feeds "uuuu" = none := by
  decide +kernel

end MicroTak.Missions
