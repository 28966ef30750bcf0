import MicroTak.Missions.Effects

/-!
# Rules for handlers

What the operations of the store do in terms of effects, for the handlers that are made of them.
-/

namespace MicroTak.Missions

open Std Handler Groups Relation MissionStore
open Journal.Op (only_get only_put)

variable {env : Env} {caller : Caller} {inputs : Inputs} {request : Request} {start server : Server}
variable {mission : MissionRecord}

def Seen (caller : Caller) (state : State) (mission : MissionRecord) : Prop :=
  state.byGuid mission.guid = some mission ∧ mission.deleted = false ∧ caller.visible mission = true

variable {create : Bool} {state : State} {guid : String} {key : Key} {α : Type}
  {new : String → NewMission}

theorem Caller.lookupName_spec {name : String}
    (h : caller.lookupName state create name = .ok (some mission)) : Seen caller state mission := by
  rw [lookupName] at h
  split at h
  · cases h
  · split at h
    · next hbyName =>
      cases h
      obtain ⟨hguid, hdeleted, -, hvisible⟩ := state.byName_spec hbyName
      exact ⟨hguid, hdeleted, hvisible⟩
    · split at h
      · cases h
      · split at h <;> cases h

private theorem Caller.lookupGuid_spec (h : caller.lookupGuid state guid = .ok (some mission)) :
    Seen caller state mission := by
  rw [lookupGuid] at h
  split at h
  · cases h
  · split at h
    · next hbyGuid =>
      split at h
      · cases h
      · split at h
        · next hdeleted hvisible =>
          cases h
          refine ⟨?_, by simpa using hdeleted, hvisible⟩
          rw [state.guid_of_byGuid hbyGuid]
          exact hbyGuid
        · cases h
    · cases h

theorem Caller.lookup_spec (h : caller.lookup state create key = .ok (some mission)) :
    Seen caller state mission := by
  cases key with
  | name name => exact lookupName_spec h
  | guid guid => exact lookupGuid_spec h
  | nameOrGuid name =>
    rw [lookup] at h
    split at h
    · next hname => exact lookupName_spec (hname.trans h)
    · split at h
      · next hguid => exact lookupGuid_spec (hguid.trans h)
      · cases h

theorem Caller.target_spec (h : caller.target state key = .ok mission) :
    Seen caller state mission := by
  rw [target] at h
  split at h
  · next hlookup =>
    cases h
    exact lookup_spec hlookup
  · cases h
  · cases h

theorem toOption_eq_some {e : Except ApiError α} {a : α} : e.toOption = some a ↔ e = .ok a := by
  cases e <;> simp [Except.toOption]

theorem seen_of_target (h : request.target caller state = some mission) :
    Seen caller state mission := by
  have hlookup : ∀ name, (caller.lookup state true (.name (Text.trim name))).toOption.join =
      some mission → Seen caller state mission := by
    intro name hname
    rw [Option.join_eq_some_iff, toOption_eq_some] at hname
    exact Caller.lookup_spec hname
  cases request with
  | get key password | about key about => exact Caller.target_spec (toOption_eq_some.1 h)
  | put name request allowGroupChange => exact hlookup name h
  | post name request allowGroupChange allowDupe =>
    cases allowDupe with
    | true => cases h
    | false => exact hlookup name h
  | _ => cases h

section Operations

variable {Q : Unit → Server → Prop} {E : ApiError → Server → Prop}

variable {event : Event} {creatorUid token creator : String}

theorem wp_storeOp_record (hQ : ∀ disk, Q () (server.applied event disk)) (hE : ∀ e, E e server) :
    wp (storeOp (record event)) Q E server := by
  rw [wp_storeOp, wp_record]
  exact ⟨fun _ => hQ _, fun _ => hE _⟩

theorem wp_recordExisting (hQ : ∀ disk, Q () (server.applied event disk)) (hE : ∀ e, E e server) :
    wp (storeOp (recordExisting guid event)) Q E server := by
  rw [wp_storeOp, recordExisting, perform_bind, wp_bind, wp_existing]
  refine ⟨fun mission hmission => ?_, fun _ => hE _⟩
  rw [wp_record]
  exact ⟨fun _ => hQ _, fun _ => hE _⟩

/-- What the events that `p` allows keep. -/
def EditStable (p : Event → Prop) (Inv : Server → Prop) : Prop :=
  ∀ server event disk, p event → Inv server → Inv (server.applied event disk)

theorem reached_edit :
    EditStable (Allowed env caller request start) (Reached env caller request start) :=
  fun server event disk hedit hreached => hreached.tail (.edit server event disk hedit)

section Edits

variable {p : Event → Prop} {I : Server → Prop} (hstable : EditStable p I) {guid : String}

include hstable

theorem keeps_storeOp {op : MissionStore.Op α} (hop : op.Only p) : Keeps I (storeOp op) := by
  refine ⟨fun {server} h => ?_⟩
  rw [wp_storeOp]
  induction op generalizing server with
  | done a => exact h
  | refuse error => exact h
  | look next ih =>
    exact ih _ (hop _) h
  | record event next ih =>
    rw [perform_record, wp_bind, wp_record]
    exact ⟨fun _ => ih hop.2 (hstable server event _ hop.1 h), fun _ => h⟩

theorem keeps_record (hedit : p event) : Keeps I (storeOp (record event)) :=
  keeps_storeOp hstable (only_put hedit)

theorem keeps_edit (hedit : p event) : Keeps I (storeOp (recordExisting guid event)) :=
  keeps_storeOp hstable (only_existing.bind fun _ => only_put hedit)

theorem keeps_change {event : Nat → Event} (hedit : ∀ changeId, p (event changeId)) :
    Keeps I (storeOp (recordChange guid event)) :=
  keeps_storeOp hstable (only_existing.bind fun _ => only_get.bind fun _ => only_put (hedit _))

theorem keeps_saveLogEntry {entry : LogEntryRecord} (hedit : p (.logEntrySaved entry)) :
    Keeps I (storeOp (saveLogEntry entry)) :=
  keeps_storeOp hstable ((only_put hedit).bind fun _ => trivial)

variable {content : Content} {nowMs : Int}

theorem keeps_addContent
    (hedit : ∀ changeId, p (.contentAdded guid content creatorUid nowMs changeId none)) :
    Keeps I (storeOp (addContent guid content creatorUid nowMs)) :=
  keeps_change hstable hedit

theorem keeps_removeContent
    (hedit : ∀ changeId, p (.contentRemoved guid content creatorUid nowMs changeId none)) :
    Keeps I (storeOp (removeContent guid content creatorUid nowMs)) :=
  keeps_change hstable hedit

theorem keeps_addContents {contents : List Content}
    (hedit : ∀ content changeId,
      p (.contentAdded mission.guid content creatorUid inputs.now changeId none)) :
    Keeps I (addContents inputs mission creatorUid contents) :=
  keeps_forM fun content _ => keeps_addContent hstable (hedit content)

theorem keeps_createOwned (hdraw : ∀ server, I server → I server.drew)
    (hcreated : ∀ mission changeId, p (.created mission changeId))
    (hsubscribed : ∀ guid sub, p (.subscribed guid sub))
    (hrole : ∀ guid id role, p (.subscriptionRoleSet guid id role)) :
    Keeps I (createOwned env caller inputs new creatorUid) := by
  have hdrawn : Keeps I env.draw := ⟨hdraw _⟩
  refine hdrawn.bind fun _ => Keeps.bind (keeps_storeOp hstable ?_) fun _ =>
    Keeps.bind ?_ fun _ => keeps_pure
  · exact only_get.bind fun _ => (only_put (hcreated _ _)).bind fun _ => trivial
  · refine hdrawn.bind fun _ => keeps_storeOp hstable (only_existing.bind fun _ =>
      only_get.bind fun _ => ?_)
    split
    · split
      · exact (only_put (hrole _ _ _)).bind fun _ => trivial
      · trivial
    · exact (only_put (hsubscribed _ _)).bind fun _ => trivial

end Edits

theorem storeOp_bind {β : Type} (op : MissionStore.Op α) (f : α → MissionStore.Op β) :
    storeOp (op >>= f) = storeOp op >>= fun a => storeOp (f a) := by
  funext server
  rw [storeOp, perform_bind]
  simp only [storeOp, bind, EStateM.bind]
  cases perform op server.store <;> rfl

theorem wp_storeOp_get {Q : State → Server → Prop} : wp (storeOp Journal.Op.get) Q E server ↔
    Q server.state server := Iff.rfl

theorem wp_storeOp_putIf {c : Prop} [Decidable c]
    (hQ : c → ∀ disk, Q () (server.applied event disk)) (hskip : ¬ c → Q () server)
    (hE : ∀ e, E e server) : wp (storeOp (Journal.Op.putIf c event)) Q E server := by
  by_cases hc : c
  · rw [Journal.Op.putIf, if_pos hc]
    exact wp_storeOp_record (hQ hc) hE
  · rw [Journal.Op.putIf, if_neg hc]
    exact hskip hc

mutual

/-- What removing a content and deleting a layer keep, removing a layer with all below it keeps. -/
theorem keeps_removeLayerTree {I : Server → Prop}
    (hcontent : ∀ content,
      Keeps I (storeOp (removeContent mission.guid content creator inputs.now)))
    (hlayer : ∀ uid, Keeps I (storeOp (MissionStore.deleteLayer mission.guid uid)))
    (tree : LayerTree) : Keeps I (removeLayerTree inputs mission creator tree) := by
  cases tree with
  | node layer children =>
    refine (keeps_removeLayerTrees hcontent hlayer children).bind fun _ =>
      keeps_get.bind fun _ => ?_
    exact keeps_orThrow.bind fun _ => (keeps_forM fun content _ => hcontent content).bind fun _ =>
      hlayer layer.uid

theorem keeps_removeLayerTrees {I : Server → Prop}
    (hcontent : ∀ content,
      Keeps I (storeOp (removeContent mission.guid content creator inputs.now)))
    (hlayer : ∀ uid, Keeps I (storeOp (MissionStore.deleteLayer mission.guid uid)))
    (trees : List LayerTree) : Keeps I (removeLayerTrees inputs mission creator trees) := by
  cases trees with
  | nil =>
    exact keeps_pure
  | cons tree rest =>
    exact (keeps_removeLayerTree hcontent hlayer tree).bind fun _ =>
      keeps_removeLayerTrees hcontent hlayer rest

end

theorem subscriptionsOf_edit (hedit : event.isEdit = true) (state : State) (guid : String) :
    (state.apply event).subscriptionsOf guid = state.subscriptionsOf guid := by
  cases event with
  | deleted | contentAdded | contentRemoved => exact State.subscriptionsOf_noteChange _ _
  | _ => first | rfl | cases hedit

def OwnToken (caller : Caller) (guid token : String) (server : Server) : Prop :=
  ∃ stored ∈ server.state.subscriptionsOf guid, stored.token = token ∧
    stored.username = caller.username

theorem ownToken_edit :
    EditStable (Allowed env caller request start) (OwnToken caller guid token) := by
  intro server event disk hedit hown
  rw [OwnToken, Server.applied, subscriptionsOf_edit hedit.1]
  exact hown

theorem OwnToken.shows (h : OwnToken caller guid token server) :
    Shows env caller request start server token := by
  obtain ⟨stored, hstored, rfl, husername⟩ := h
  exact .own guid stored hstored husername

theorem wp_subscribeCaller {clientUid : String} {role : Role}
    (hreached : Reached env caller request start server)
    (hmission : server.state.byGuid mission.guid = some mission)
    (hadmitted : Admitted env caller request start mission role) :
    wp (subscribeCaller env caller inputs mission clientUid role)
      (fun sub next => Reached env caller request start next ∧
        OwnToken caller mission.guid sub.token next)
      (fun _ => Reached env caller request start) server := by
  have hdraw : Reached env caller request start server.drew := hreached.tail (.draw server)
  rw [subscribeCaller, wp_bind, wp_draw, wp_storeOp, subscribe, perform_bind, wp_bind, wp_existing]
  refine ⟨fun _ _ => ?_, fun _ => hdraw⟩
  rw [perform_bind, wp_bind, wp_perform_get]
  cases hfind : server.state.findSubscription mission.guid clientUid caller.username with
  | none =>
    simp only [perform_bind, wp_bind, wp_record]
    have hmem : ∀ sub, sub ∈ (server.state.apply (.subscribed mission.guid sub)).subscriptionsOf
        mission.guid := by
      intro sub
      rw [State.subscriptionsOf_subscribed, if_pos rfl]
      exact List.mem_append_right _ (List.mem_singleton.2 rfl)
    refine ⟨fun _ => ⟨?_, _, hmem _, rfl, rfl⟩, fun _ => hdraw⟩
    exact hreached.tail (.subscribe server mission _ _ _ hmission rfl rfl rfl hadmitted)
  | some sub =>
    have hsub := List.find?_some hfind
    have hmem : sub ∈ server.state.subscriptionsOf mission.guid := List.mem_of_find?_eq_some hfind
    simp only [Bool.and_eq_true, decide_eq_true_eq] at hsub
    dsimp only
    split
    · simp only [perform_bind, wp_bind, wp_record]
      refine ⟨fun _ => ⟨?_, ?_⟩, fun _ => hdraw⟩
      · exact hdraw.tail
          (.raise server.drew mission sub role _ (by rw [hsub.1]; exact hfind) hadmitted)
      · -- The stored subscription is the one that was found, with another role.
        have hkept : (sub.token, sub.username) ∈
            ((server.state.apply (.subscriptionRoleSet mission.guid sub.id role)).subscriptionsOf
              mission.guid).map fun stored => (stored.token, stored.username) := by
          rw [State.subscriptionsOf_subscriptionRoleSet, if_pos rfl, map_setRoleOf fun _ _ => rfl]
          exact List.mem_map_of_mem hmem
        obtain ⟨stored, hstored, heq⟩ := List.mem_map.1 hkept
        rw [Prod.mk.injEq] at heq
        exact ⟨stored, hstored, heq.1, heq.2.trans hsub.2⟩
    · exact ⟨hdraw, sub, hmem, rfl, hsub.2⟩

theorem drawn_le_of_reached (h : Reached env caller request start server) :
    start.drawn ≤ server.drawn := by
  induction h with
  | refl => exact le_rfl
  | tail _ heffect ih =>
    exact ih.trans
      (by cases heffect <;> simp [Server.drew, Server.applied, Server.note, Server.spare])

theorem wp_createOwned (hnew : ∀ guid, (new guid).guid = guid)
    (hreached : Reached env caller request start server) :
    wp (createOwned env caller inputs new creatorUid)
      (fun owned next =>
        (Reached env caller request start next ∧ OwnToken caller owned.1.guid owned.2.token next) ∧
        Fresh env start owned.1.guid) (fun _ => Reached env caller request start) server := by
  have hdraw : Reached env caller request start server.drew := hreached.tail (.draw server)
  rw [createOwned, wp_bind, wp_draw, wp_bind, wp_storeOp, create]
  simp only [perform_bind, wp_bind, wp_perform_get, wp_record]
  have hfresh : Fresh env start (new (env.randomUuid server.drawn)).guid :=
    ⟨server.drawn, drawn_le_of_reached hreached, hnew _⟩
  refine ⟨fun _ => ?_, fun _ => hdraw⟩
  refine (wp_subscribeCaller (hreached.tail (.create server _ _ _ (hnew _))) ?_
    (.inl ⟨hfresh, rfl⟩)).mono (fun _ _ h => ⟨h, hfresh⟩) (fun _ _ h => h)
  show State.byGuid (State.apply _ (.created _ _)) _ = _
  rw [State.byGuid_created, if_pos rfl]

theorem reached_note {permission : Permission}
    (hseen : start.state.byGuid mission.guid = some mission)
    (hrole : (env.roleFor start.state mission caller).any (·.has permission) = true)
    (hreached : Reached env caller request start server) :
    Reached env caller request start (server.note caller.username mission.guid permission) := by
  obtain ⟨role, hrole, hhas⟩ := (Option.any_eq_true _ _).1 hrole
  exact hreached.tail (.pass server mission role permission hseen (.inl hrole) hhas)

end Operations

theorem keeps_notify {I : Server → Prop} {change : Notifier → Notifier}
    (h : ∀ server, I server → I { server with notifier := change server.notifier }) :
    Keeps I (notify change) :=
  keeps_modify h

theorem keeps_missionResponse {I : Server → Prop} : Keeps I (missionResponse mission) :=
  keeps_get.bind fun _ => keeps_orThrow.bind fun _ => keeps_pure

end MicroTak.Missions
