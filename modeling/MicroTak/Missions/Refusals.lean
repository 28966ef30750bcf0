import MicroTak.Lib.Refusal
import MicroTak.Missions.Calls
import MicroTak.Missions.LayerForest

/-!
# Requests that are refused

A request answered with a status between 400 and 499 is refused.  Most handlers make their checks
before they store anything, so a refused request leaves the store as it was.  Some make a check in
between: an update of a mission, a list of layers to move, content to file under a path, a package
of changes made offline, and the requests on keywords.
-/

namespace MicroTak.Missions

open Std Handler Journal.Op MissionStore Firm

def ApiError.isRefusal : ApiError → Bool
  | .internal | .crashed => false
  | _ => true

/-- The mission is in the store, deleted or not. -/
def There (guid : String) (state : State) : Prop := (state.byGuid guid).isSome = true

/-- What no event ends. -/
def Lasting (I : State → Prop) : Prop := ∀ state event, I state → I (state.apply event)

/-- Handlers that leave the store alone. -/
abbrev Looks {α : Type} (m : Api α) : Prop := Still Server.store m

/-- Handlers that refuse nothing while the store is like this. -/
abbrev Stores {α : Type} (I : State → Prop) (m : Api α) : Prop :=
  Firm (fun e : ApiError => e.isRefusal = true) Server.store (fun store => I store.state) m

/-- Handlers that leave the store alone if they refuse. -/
abbrev Refuses {α : Type} (I : State → Prop) (m : Api α) : Prop :=
  Clean (fun e : ApiError => e.isRefusal = true) Server.store (fun store => I store.state) m

section Operations

variable {α : Type} {guid uid : String} {I : State → Prop} {nowMs : Int} {creatorUid : String}
  {op : MissionStore.Op α}

theorem lasting_there : Lasting (There guid) := by
  intro state event hthere
  have hname : ((state.apply event).nameOf guid).isSome = true := by
    have hname : (state.nameOf guid).isSome = true := (Option.isSome_map ..).trans hthere
    cases event with
    | created mission changeId =>
      rw [nameOf_created]
      split
      · rfl
      · exact hname
    | _ =>
      rw [nameOf_apply fun _ _ heq => by cases heq]
      exact hname
  exact (Option.isSome_map ..).symm.trans hname

theorem lasting_true : Lasting fun _ => True := fun _ _ _ => trivial

theorem stores_storeOp (hlasting : Lasting I) (h : op.Accepts I) : Stores I (storeOp op) := by
  refine ⟨fun server hI => ?_⟩
  rw [wp_storeOp]
  induction op generalizing server with
  | done a => exact hI
  | refuse error => exact h.elim
  | look next ih =>
    exact ih server.state (h server.state hI) server hI
  | record event next ih =>
    rw [perform_record, wp_bind, wp_record]
    refine ⟨fun _ => ?_, fun _ hrefused => by cases hrefused⟩
    exact ih h { server with store := _ } (hlasting _ event hI)

theorem looks_storeOp (h : op.Only fun _ => False) : Looks (storeOp op) := by
  refine ⟨fun server => ?_⟩
  have hstable : EditStable (fun _ => False) fun next => next.store = server.store :=
    fun _ _ _ hfalse => hfalse.elim
  exact (keeps_storeOp hstable h).run rfl

theorem stores_record (hlasting : Lasting I) {event : Event} : Stores I (storeOp (record event)) :=
  stores_storeOp hlasting accepts_put

theorem stores_saveLogEntry (hlasting : Lasting I) {entry : LogEntryRecord} :
    Stores I (storeOp (saveLogEntry entry)) :=
  stores_storeOp hlasting (accepts_put.bind fun _ => trivial)

theorem accepts_existing_bind {f : MissionRecord → MissionStore.Op α}
    (h : ∀ mission, (f mission).Accepts (There guid)) :
    (existing guid >>= f).Accepts (There guid) := by
  rw [existing, bind_assoc]
  refine accepts_get_bind fun state hthere => ?_
  obtain ⟨mission, hmission⟩ := Option.isSome_iff_exists.1 hthere
  rw [hmission]
  exact h mission

theorem stores_existing {f : MissionRecord → State → MissionStore.Op α}
    (h : ∀ mission state, (f mission state).Accepts (There guid)) :
    Stores (There guid) (storeOp (do f (← existing guid) (← Journal.Op.get))) :=
  stores_storeOp lasting_there (accepts_existing_bind fun mission => accepts_get_bind fun state _ =>
    h mission state)

/-! ### The operations of the store -/

theorem stores_recordExisting (event : Event) :
    Stores (There guid) (storeOp (recordExisting guid event)) :=
  stores_storeOp lasting_there (accepts_existing_bind fun _ => accepts_put)

theorem stores_recordChange (event : Nat → Event) :
    Stores (There guid) (storeOp (recordChange guid event)) :=
  stores_existing fun _ _ => accepts_put

theorem stores_removeContent {content : Content} {atMs : Int} {serverMs : Option Int} :
    Stores (There guid) (storeOp (removeContentAt guid content creatorUid atMs serverMs)) :=
  stores_recordChange _

theorem stores_unsubscribe {other clientUid username : String} :
    Stores (There guid) (storeOp (unsubscribe other clientUid username)) :=
  stores_storeOp lasting_there (accepts_get_bind fun _ _ => accepts_putAll)

theorem stores_invite {invitation : InvitationRecord} (hguid : invitation.missionGuid = guid) :
    Stores (There guid) (storeOp (invite invitation)) := by
  subst hguid
  refine stores_existing fun _ _ => ?_
  split
  · trivial
  · exact accepts_put.bind fun _ => trivial

theorem stores_delete : Stores (There guid) (storeOp (delete guid creatorUid nowMs)) := by
  refine stores_storeOp lasting_there (Journal.Op.Accepts.bind ?_ fun _ => ?_)
  · exact accepts_existing_bind fun _ => accepts_get_bind fun _ _ => accepts_put
  · rw [← bind_pure (existing guid)]
    exact accepts_existing_bind fun _ => trivial

/-! ### The operations on mission data -/

theorem accepts_lastChange {I : State → Prop} : lastChange.Accepts I := fun _ _ => trivial

theorem stores_addMissionFeed {feed : MissionFeedRecord} :
    Stores (There guid) (storeOp (MissionStore.addMissionFeed guid feed creatorUid nowMs)) := by
  refine stores_existing fun _ _ => ?_
  split
  · trivial
  · exact accepts_put.bind fun _ => accepts_lastChange

theorem stores_removeMissionFeed {creatorUid : String} :
    Stores (There guid) (storeOp (MissionStore.removeMissionFeed guid uid creatorUid nowMs)) := by
  refine stores_existing fun _ _ => ?_
  split
  · trivial
  · exact accepts_put.bind fun _ => accepts_lastChange

theorem stores_addLayer {layer : LayerRecord} :
    Stores (There guid) (storeOp (MissionStore.addLayer guid layer)) :=
  stores_storeOp lasting_there (accepts_existing_bind fun _ =>
    (accepts_get_bind fun _ _ => accepts_putAll).bind fun _ => accepts_put)

theorem stores_deleteLayer : Stores (There guid) (storeOp (MissionStore.deleteLayer guid uid)) := by
  refine stores_storeOp lasting_there (accepts_get_bind fun state _ => ?_)
  split
  · trivial
  · exact (accepts_get_bind fun _ _ => accepts_putAll).bind fun _ => accepts_put

theorem accepts_fixupAfter {uid parent after : Option String} :
    (fixupAfter guid uid parent after).Accepts I :=
  accepts_get_bind fun _ _ => accepts_putAll

theorem refuses_moveLayerOp (hlasting : Lasting I) {parent after : Option String} :
    Refuses I (storeOp (MissionStore.moveLayer guid uid parent after)) := by
  rw [MissionStore.moveLayer, storeOp_bind]
  refine (looks_storeOp only_get).bind_clean fun state => ?_
  rw [storeOp_bind]
  refine (looks_storeOp only_orRefuse).bind_clean fun layer => (stores_storeOp hlasting ?_).clean
  exact accepts_fixupAfter.bind fun _ => accepts_fixupAfter.bind fun _ =>
    accepts_putIf.bind fun _ => accepts_get_bind fun _ _ => accepts_putIf

theorem wp_storeOp_existing {mission : MissionRecord} {server : Server}
    {Q : MissionRecord → Server → Prop} {E : ApiError → Server → Prop}
    (h : server.state.byGuid guid = some mission) : wp (storeOp (existing guid)) Q E server ↔
    Q mission server := by
  rw [existing, storeOp_bind, wp_bind, wp_storeOp_get, h]
  rfl

end Operations

section Handlers

variable {env : Env} {caller : Caller} {inputs : Inputs} {mission : MissionRecord}
  {I : State → Prop} {permission : Permission} {role : Option Role} {creator creatorUid : String}

/-! ### Looking -/

theorem looks_draw : Looks env.draw := ⟨fun _ => rfl⟩

theorem looks_check {error : ApiError} : Looks (check caller mission role permission error) :=
  still_ensure.bind fun _ => still_modify fun _ => rfl

theorem looks_require : Looks (require caller mission role permission) :=
  looks_check

theorem looks_requireWrite : Looks (requireWrite env caller mission) := still_get.bind fun _ =>
    looks_require

theorem looks_checkLogMissions {names : List String} :
    Looks (checkLogMissions env caller names permission) := by
  refine still_forM fun name => still_get.bind fun server => still_orThrow.bind fun mission => ?_
  split
  · exact looks_check
  · exact still_modify fun _ => rfl

theorem getMissionImpl_looks {key : Key} {password : String} :
    Looks (getMissionImpl env caller inputs key password) := by
  refine still_reads.bind fun mission => still_reads.bind fun window => still_get.bind fun server =>
    ?_
  split
  · exact still_ensure.bind fun _ => looks_draw.bind fun _ => still_pure
  · split
    · exact still_pure
    · exact still_ensure.bind fun _ => still_pure

/-! ### Storing -/

theorem stores_missionResponse : Stores I (missionResponse mission) :=
  firm_get.bind fun _ => (firm_orThrow (by decide)).bind fun _ => firm_pure

theorem stores_draw : Stores I env.draw := ⟨fun _ h => h⟩

theorem stores_subscribeCaller {clientUid : String} {role : Role} :
    Stores (There mission.guid) (subscribeCaller env caller inputs mission clientUid role) := by
  refine stores_draw.bind fun _ => stores_existing fun _ _ => ?_
  split
  · split
    · exact accepts_put.bind fun _ => trivial
    · trivial
  · exact accepts_put.bind fun _ => trivial

theorem stores_saveNewMapLayer {props : MapLayerProps} :
    Stores (There mission.guid) (saveNewMapLayer env inputs mission props creator) :=
  stores_draw.bind fun _ => bind (stores_existing fun _ _ => accepts_put.bind fun _ =>
    accepts_lastChange) fun _ => firm_pure

theorem stores_saveExternal {record : ExternalDataRecord} :
    Stores (There mission.guid) (saveExternal inputs mission record creator) :=
  bind (stores_existing fun _ _ => accepts_put.bind fun _ => accepts_lastChange) fun _ => firm_pure

theorem stores_notify {change : Notifier → Notifier} : Stores I (notify change) :=
  firm_modify fun _ => rfl

theorem stores_setRole {clientUid username : String} :
    Stores (There mission.guid) (setRole mission clientUid username role) := by
  cases role with
  | some role => exact stores_existing fun _ _ => accepts_putAll
  | none => exact stores_notify.bind fun _ => stores_unsubscribe

theorem stores_inviteRecord {invitee : String} {kind : InvitationType} {role : Role} :
    Stores (There mission.guid) (inviteRecord env inputs mission invitee kind role creatorUid) := by
  refine stores_draw.bind fun id => bind (stores_invite rfl) fun stored =>
    bind ?_ fun _ => firm_pure
  exact firm_whenever (firm_modify fun _ => rfl)

theorem stores_inviteOrUpdate {entry : String × String × Role} :
    Stores (There mission.guid) (inviteOrUpdate env inputs mission creatorUid entry) := by
  refine firm_get.bind fun server => ?_
  split
  · exact stores_setRole
  · split
    · exact stores_inviteRecord.bind fun _ => firm_pure
    · exact stores_inviteRecord.bind fun _ => firm_pure

mutual

theorem stores_removeLayerTree (tree : LayerTree) :
    Stores (There mission.guid) (removeLayerTree inputs mission creator tree) := by
  cases tree with
  | node layer children =>
    refine (stores_removeLayerTrees children).bind fun _ => firm_get.bind fun server => ?_
    refine (firm_orThrow (by decide)).bind fun current => ?_
    exact bind (firm_forM fun _ _ => stores_removeContent) fun _ => stores_deleteLayer

theorem stores_removeLayerTrees (trees : List LayerTree) :
    Stores (There mission.guid) (removeLayerTrees inputs mission creator trees) := by
  cases trees with
  | nil =>
    exact firm_pure
  | cons tree rest =>
    exact (stores_removeLayerTree tree).bind fun _ => stores_removeLayerTrees rest

end

theorem stores_deleteLayers {creator uid : String} :
    Stores (There mission.guid) (deleteLayer inputs mission creator uid) := by
  refine (firm_get.bind fun server => firm_orThrow (by decide)).bind fun tree => ?_
  split
  · exact firm_pure
  · exact stores_removeLayerTree _

theorem stores_created {new : String → NewMission}
    {rest : MissionRecord × SubscriptionRecord → Api Reply}
    (h : ∀ created, Stores (There created.1.guid) (rest created)) :
    Stores (fun _ => True) (createOwned env caller inputs new creatorUid >>= rest) := by
  refine ⟨fun server _ =>
    wp_bind.2 (wp.mono (Q := fun created next => There created.1.guid next.state) ?_
      (fun created next hthere => ((h created).run next hthere).mono (fun _ _ _ => trivial)
        fun _ _ he => he) fun _ _ he => he)⟩
  rw [createOwned, wp_bind, wp_draw, wp_bind, wp_storeOp, create]
  simp only [perform_bind, wp_bind, wp_perform_get, wp_record]
  refine ⟨fun _ => ?_, fun _ hrefused => by cases hrefused⟩
  refine (stores_subscribeCaller.run _ ?_).mono (fun _ _ h => h) fun _ _ h => h
  show (State.byGuid (State.apply _ (.created _ _)) _).isSome = true
  rw [State.byGuid_created, if_pos rfl]
  rfl

theorem copyMission_refuses {request : CopyRequest} :
    Refuses (fun _ => True) (copyMission env caller inputs mission request) := by
  refine still_get.bind_clean fun server => looks_require.bind_clean fun _ =>
    still_orThrow.bind_clean fun creator => ?_
  refine still_orThrow.bind_clean fun copyName => still_ensure.bind_clean fun _ =>
    still_ensure.bind_clean fun _ => ?_
  refine (stores_created fun created => ?_).clean
  refine stores_notify.bind fun _ =>
    bind ?_ fun _ => bind (firm_get.bind fun server => firm_forM fun entry _ => ?_) fun _ =>
      firm_pure
  · refine (stores_recordExisting _).bind fun _ => firm_get.bind fun server => ?_
    refine (firm_forM fun layer _ => stores_saveNewMapLayer.bind fun _ => firm_pure).bind fun _ =>
      firm_get.bind fun server => ?_
    exact (firm_forM fun found _ => stores_saveExternal).bind fun _ => firm_forM fun _ _ => by
      exact stores_recordChange fun changeId => .contentAdded _ _ _ _ changeId none
  · exact (stores_saveLogEntry lasting_there).bind fun _ => firm_pure

theorem addLayer_refuses {uid name : Option String} {layerType : LayerType}
    {parent after : Option String} :
    Refuses (There mission.guid) (addLayer env mission uid name layerType parent after) := by
  refine still_get.bind_clean fun server => ?_
  split
  · refine Clean.bind_firm ?_ fun _ => firm_get.bind fun _ => firm_pure
    exact still_get.bind_clean fun _ => still_orThrow.bind_clean fun _ =>
      still_ensure.bind_clean fun _ => refuses_moveLayerOp lasting_there
  · split
    · exact (stores_addLayer.bind fun _ => firm_get.bind fun _ => firm_pure).clean
    · exact looks_draw.bind_clean fun _ => (stores_addLayer.bind fun _ => firm_get.bind fun _ =>
        firm_pure).clean

/-! ### Requests that make their checks first -/

/-- A refusal of this handler, here, leaves the store as it was. -/
def Untouched {α : Type} (m : Api α) (server : Server) : Prop :=
  wp m (fun _ _ => True) (fun e next => e.isRefusal = true → next.store = server.store) server

variable {server : Server}

theorem Untouched.of_refuses {α : Type} {m : Api α} (h : Refuses I m) (hI : I server.state) :
    Untouched m server :=
  (h.run server hI).mono (fun _ _ _ => trivial) fun _ _ he => he

theorem Untouched.of_looks {α : Type} {m : Api α} (h : Looks m) : Untouched m server :=
  (h.run server).mono (fun _ _ _ => trivial) fun _ _ hsame _ => hsame

/-- The requests that make a check when they may have stored something. -/
def MissionRequest.checksLate : MissionRequest → Bool
  | .addContents .. | .setKeywords _ | .clearKeywords | .removeKeyword .. | .setContentKeywords ..
  | .clearContentKeywords _
  | .setLayerParent .. | .package .. => true
  | _ => false

private theorem externalChangeImpl_refuses {id : String} {creatorUid notes : Option String}
    {action : MissionStore.ExternalDataAction} :
    Refuses (There mission.guid)
    (externalChangeImpl env caller inputs mission id creatorUid notes action) := by
  refine looks_requireWrite.bind_clean fun _ => still_orThrow.bind_clean fun creator =>
    still_orThrow.bind_clean fun notes => ?_
  refine ⟨fun server hthere => ?_⟩
  obtain ⟨mission, hmission⟩ := Option.isSome_iff_exists.1 hthere
  unfold externalDataChange
  rw [wp_bind, storeOp_bind, wp_bind, wp_storeOp_existing hmission, storeOp_bind, wp_bind,
    wp_storeOp_get]
  split
  · exact fun _ => rfl
  · rw [storeOp_bind, wp_bind, wp_storeOp, wp_record]
    refine ⟨fun _ =>
      wp_bind.2 (wp_orThrow.2 ⟨fun _ _ => lasting_there _ _ hthere, fun hnone => ?_⟩),
        fun _ hrefused => by cases hrefused⟩
    cases List.getLast?_concat.symm.trans hnone

theorem handleAbout_untouched {about : MissionRequest} (hearly : about.checksLate = false)
    (hthere : There mission.guid server.state) :
    Untouched (handleAbout env caller inputs mission about) server := by
  have hmission {m : Api Reply} (h : Refuses (There mission.guid) m) : Untouched m server :=
    .of_refuses h hthere
  have hrole {p : Permission} {f : Server → Unit → Api Reply}
      (h : ∀ s, Refuses (There mission.guid) (f s ())) :
        Untouched (get >>= fun s =>
          require caller mission (env.roleFor s.state mission caller) p >>= f s) server :=
    hmission (still_get.bind_clean fun s => looks_require.bind_clean fun _ => h s)
  have hwrite {f : Unit → Api Reply} (h : Refuses (There mission.guid) (f ())) :
      Untouched (requireWrite env caller mission >>= f) server :=
    hmission (looks_requireWrite.bind_clean fun _ => h)
  cases about with
  | delete deepDelete creatorUid =>
    refine hrole fun _ => ?_
    exact (still_whenever looks_check).bind_clean fun _ =>
      (stores_delete.bind fun _ => firm_pure).clean
  | removeContent hash uid creatorUid =>
    refine hrole fun _ => clean ?_
    refine (firm_forM fun _ _ => stores_removeContent).bind fun _ =>
      (firm_forM fun _ _ => stores_removeContent).bind fun _ => ?_
    exact stores_missionResponse
  | guarded endpoint | cot | subscribers | subscriptionRoles | role | invitations =>
    exact .of_looks (still_get.bind fun _ => looks_require.bind fun _ => still_pure)
  | logs =>
    exact .of_looks (still_get.bind fun _ => looks_require.bind fun _ => still_reads.bind fun _ =>
      still_pure)
  | addMapLayer creatorUid body =>
    refine hwrite (still_orThrow.bind_clean fun creator => ?_)
    refine still_orThrow.bind_clean fun body => still_ensure.bind_clean fun _ => clean ?_
    exact stores_saveNewMapLayer.bind fun _ => firm_pure
  | updateMapLayer creatorUid body =>
    refine hwrite (still_orThrow.bind_clean fun _ => still_orThrow.bind_clean fun body => ?_)
    refine still_get.bind_clean fun server => still_orThrow.bind_clean fun found =>
      still_ensure.bind_clean fun _ => ?_
    exact clean (bind (stores_storeOp lasting_there accepts_put) fun _ =>
      firm_get.bind fun _ => firm_pure)
  | setExternal creatorUid body =>
    refine hwrite (still_orThrow.bind_clean fun creator => ?_)
    refine still_orThrow.bind_clean fun body => still_ensure.bind_clean fun _ => clean ?_
    exact stores_saveExternal.bind fun _ => firm_pure
  | changeExternal id creatorUid notes action => exact hmission externalChangeImpl_refuses
  | addFeed params =>
    refine hwrite (still_orThrow.bind_clean fun creator => ?_)
    refine still_orThrow.bind_clean fun dataFeedUid => still_orThrow.bind_clean fun cotTypes =>
      looks_draw.bind_clean fun uid => ?_
    exact clean (bind stores_addMissionFeed fun _ => firm_pure)
  | removeFeed uid creatorUid =>
    refine hwrite (still_orThrow.bind_clean fun creator => clean ?_)
    exact stores_removeMissionFeed.bind fun _ => firm_pure
  | createLayer params =>
    refine hwrite (still_orThrow.bind_clean fun name => ?_)
    refine still_orThrow.bind_clean fun typeName => still_orThrow.bind_clean fun layerType => ?_
    exact still_orThrow.bind_clean fun creator => addLayer_refuses.bind_firm fun _ => firm_pure
  | renameLayer uid params =>
    refine hwrite (still_orThrow.bind_clean fun name => ?_)
    refine still_orThrow.bind_clean fun creator => still_get.bind_clean fun server =>
      still_orThrow.bind_clean fun layer => ?_
    exact ((stores_storeOp lasting_there accepts_put).bind fun _ => firm_pure).clean
  | deleteLayers uids creatorUid =>
    refine hwrite (still_orThrow.bind_clean fun creator => ?_)
    exact still_ensure.bind_clean fun _ => ((firm_forM fun _ _ => stores_deleteLayers).bind fun _ =>
      firm_pure).clean
  | copy request => exact .of_refuses copyMission_refuses trivial
  | accessToken password =>
    exact .of_looks (still_ensure.bind fun _ => looks_draw.bind fun _ => still_pure)
  | setPassword password =>
    refine hrole fun _ => clean ?_
    exact (stores_recordExisting _).bind fun _ => firm_pure
  | setExpiration expiration =>
    exact hmission ((stores_recordExisting _).bind fun _ => firm_pure).clean
  | subscription uid =>
    exact .of_looks (still_get.bind fun _ => still_orThrow.bind fun _ => still_pure)
  | subscribe uid topic password =>
    refine hmission (still_reads.bind_clean fun _ => still_reads.bind_clean fun _ =>
      still_ensure.bind_clean fun _ => ?_)
    refine clean (stores_subscribeCaller.bind fun sub => stores_notify.bind fun _ => ?_)
    exact (stores_record lasting_there).bind fun _ => firm_get.bind fun server => firm_pure
  | unsubscribe uid topic disconnectOnly =>
    refine hrole fun _ => clean ?_
    exact stores_notify.bind fun _ => (firm_whenever stores_unsubscribe).bind fun _ => firm_pure
  | setSubscriptionRoles creatorUid entries =>
    refine hrole fun _ => still_orThrow.bind_clean fun creator => ?_
    exact still_reads.bind_clean fun parsed =>
      ((firm_forM fun _ _ => stores_inviteOrUpdate).bind fun _ => firm_pure).clean
  | setRole clientUid username role =>
    refine hrole fun _ => still_ensure.bind_clean fun _ => ?_
    exact still_ensure.bind_clean fun _ => (stores_setRole.bind fun _ => firm_pure).clean
  | invite kind invitee creatorUid role =>
    refine hmission (still_get.bind_clean fun _ => still_orThrow.bind_clean fun creator => ?_)
    exact still_ensure.bind_clean fun _ => (stores_inviteRecord.bind fun _ => firm_pure).clean
  | uninvite kind invitee creatorUid =>
    refine hmission (still_get.bind_clean fun _ => still_orThrow.bind_clean fun _ => ?_)
    split
    · exact still_pure.clean
    · exact ((stores_record lasting_there).bind fun _ => firm_pure).clean
  | _ => cases hearly

end Handlers

end MicroTak.Missions
