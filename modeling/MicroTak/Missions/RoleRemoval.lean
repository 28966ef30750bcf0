import MicroTak.Missions.Runs

/-!
# Taking a user's role away

A request that sets no role is to unsubscribe whom a request with a role would give it to.  The
assignment goes by the username if there is one; the removal goes by the client uid as well, in the
store and in the notifier, so it misses a user's subscriptions under other client uids.
-/

namespace MicroTak.Missions

open Handler MissionStore

/-- Between these two the user was taken out of the mission. -/
structure RemovesUser (guid clientUid username : String) (server next : Server) : Prop where
  gone : ∀ sub ∈ next.state.subscriptionsOf guid, sub.username = username → clientUid ≠ "" ∧
    sub.clientUid ≠ clientUid
  silent : ∀ sub ∈ server.state.subscriptionsOf guid, sub ∉ next.state.subscriptionsOf guid →
    sub.clientUid ∉ next.notifier.liveSubscribers guid
  -- the subscriptions whose role the same request with a role sets
  named : ∀ sub ∈ server.state.subscriptionsOf guid,
    sub ∉ next.state.subscriptionsOf guid ↔ named clientUid username sub = true

variable {env : Env} {caller : Caller} {inputs : Inputs} {mission : MissionRecord}
  {server next : Server} {reply : Reply}
variable {guid clientUid username : String}

theorem wp_putAll_unsubscribed {subs : List SubscriptionRecord} {store : MissionStore}
    (ids : List String) (h : store.state.subscriptionsOf guid = subs) :
    wp (perform (.putAll (ids.map fun id => .unsubscribed guid id)))
      (fun _ next => next.state.subscriptionsOf guid = subs.filter (·.id ∉ ids)) (fun _ _ =>
        True) store := by
  induction ids generalizing subs store with
  | nil =>
    show store.state.subscriptionsOf guid = _
    simpa using h
  | cons id rest ih =>
    rw [List.map_cons, Journal.Op.putAll, perform_record, wp_bind, wp_record]
    refine ⟨fun _ => (ih rfl).mono (fun _ next hnext => ?_) fun _ _ h => h, fun _ => trivial⟩
    rw [hnext, State.subscriptionsOf_unsubscribed, if_pos rfl, h, List.filter_filter]
    refine List.filter_congr fun sub _ => ?_
    simp [Bool.and_comm]

/-- The subscriptions that a request without a role is about. -/
def unsubscribed (clientUid username : String) (sub : SubscriptionRecord) : Bool :=
  sub.clientUid = clientUid && (username = "" || sub.username = username)

private theorem wp_roleSetImpl_none : wp (roleSetImpl env caller mission clientUid username none)
      (fun _ next => next.notifier = server.notifier.disconnect mission.guid clientUid ∧
        next.state.subscriptionsOf mission.guid = (server.state.subscriptionsOf mission.guid).filter
          (·.id ∉ ((server.state.subscriptionsOf mission.guid).filter
            (unsubscribed clientUid username)).map (·.id)))
      (fun _ _ => True) server := by
  simp only [roleSetImpl, setRole, wp_bind, wp_get, require, wp_check, wp_ensure,
    wp_notify, wp_storeOp, unsubscribe, perform_bind, wp_perform_get]
  refine ⟨fun _ => ⟨fun _ => ⟨fun _ => ?_, fun _ => trivial⟩, fun _ => trivial⟩, fun _ => trivial⟩
  exact (wp_putAll_unsubscribed _ rfl).mono (fun _ _ hnext => ⟨rfl, hnext⟩) fun _ _ h => h

/-- The user is taken out of the mission if and only if every subscription of the user has the
client uid that the request names. -/
theorem role_removal_iff (henv : env.Lawful) {actions : List Action} {key : Key}
    (notifier : Notifier) (hrun : Transition.run (step env) {} actions = some server)
    (hname : username ≠ "")
    (haccepted : fault (handle env caller inputs (.about key (.setRole clientUid username none)))
      { server with notifier } = none)
    (hnext : after (handle env caller inputs (.about key (.setRole clientUid username none)))
      { server with notifier } = next) :
    ∃ mission, caller.target server.state key = .ok mission ∧
      (RemovesUser mission.guid clientUid username { server with notifier } next ↔
        ∀ sub ∈ server.state.subscriptionsOf mission.guid, sub.username = username →
        sub.clientUid = clientUid) := by
  obtain ⟨reply, hok⟩ := exists_ok_of_fault haccepted
  rw [hnext, eq_ok_iff_wp, handle, wp_bind, Caller.existing, wp_reads] at hok
  cases htarget : caller.target server.state key with
  | error e => exact (hok.2 e htarget).elim
  | ok mission =>
  obtain ⟨hlive, hsubs⟩ := wp_roleSetImpl_none.of_ok (eq_ok_iff_wp.2 (hok.1 mission htarget))
  have hsound := sound_of_run henv hrun
  have hkept : ∀ sub ∈ server.state.subscriptionsOf mission.guid,
      (sub ∉ next.state.subscriptionsOf mission.guid ↔ sub.clientUid = clientUid ∧ sub.username =
        username) := by
    intro sub hsub
    rw [hsubs, List.mem_filter, decide_eq_true_eq, not_and, not_not]
    constructor
    · intro hid
      obtain ⟨other, hother, heq⟩ := List.mem_map.1 (hid hsub)
      obtain ⟨hmem, hnamed⟩ := List.mem_filter.1 hother
      obtain ⟨-, huid, huser⟩ := hsound.id_unique _ _ hmem _ _ hsub heq
      simpa [unsubscribed, hname, huid, huser] using hnamed
    · rintro ⟨huid, huser⟩ -
      exact List.mem_map_of_mem (List.mem_filter.2 ⟨hsub, by simp [unsubscribed, huid, huser]⟩)
  refine ⟨mission, rfl, fun h sub hsub huser => ?_, fun h =>
    ⟨fun sub hsub huser => ?_, fun sub hsub hgone => ?_, fun sub hsub => ?_⟩⟩
  · have hgone := (h.named sub hsub).2 (by simp [named, hname, huser])
    exact ((hkept sub hsub).1 hgone).1
  · have hbefore : sub ∈ server.state.subscriptionsOf mission.guid := by
      rw [hsubs] at hsub
      exact List.mem_of_mem_filter hsub
    exact ((hkept sub hbefore).2 ⟨h sub hbefore huser, huser⟩ hsub).elim
  · rw [hlive, ((hkept sub hsub).1 hgone).1]
    simp
  · rw [hkept sub hsub, named, if_pos hname, decide_eq_true_eq]
    exact ⟨And.right, fun huser => ⟨h sub hsub huser, huser⟩⟩

def aliceSubscribed (clientUid : String) : List Action :=
  [.request "admin" {} {} (.put "Ops" { defaultRole := some .subscriber } false),
    .request "alice" {} {} (.about (.name "Ops") (.subscribe clientUid "" ""))]

def removal (clientUid : String) : Request := .about (.name "Ops") (.setRole clientUid "alice" none)

theorem role_removal_of_only_device :
    ∃ server, Transition.run (step Env.sample) {} (aliceSubscribed "A1") = some server ∧
      ∃ mission next, RemovesUser mission "A1" "alice" server next := by
  refine Transition.exists_end (fun server =>
    fault (handle Env.sample (Env.sample.caller server "admin" {}) {} (removal "A1")) server =
      none ∧ ∀ mission ∈
        ((Env.sample.caller server "admin" {}).target server.state (.name "Ops")).toOption,
          ∀ sub ∈ server.state.subscriptionsOf mission.guid, sub.username = "alice" →
            sub.clientUid = "A1") (by decide +kernel)
    fun server hrun hend => ?_
  obtain ⟨mission, htarget, hiff⟩ :=
    role_removal_iff Env.sample_lawful server.notifier hrun (by decide) hend.1 rfl
  exact ⟨mission.guid, _, hiff.2 (hend.2 mission (toOption_eq_some.2 htarget))⟩

/-- Named by the username alone, `alice` is still subscribed. -/
theorem role_removal_by_username :
    ∃ server, Transition.run (step Env.sample) {} (aliceSubscribed "A1") = some server ∧
      fault (handle Env.sample (Env.sample.caller server "admin" {}) {} (removal "")) server =
      none ∧ ∃ mission ∈ server.state.missions.values,
        ¬ RemovesUser mission.guid "" "alice" server
          (after (handle Env.sample (Env.sample.caller server "admin" {}) {} (removal ""))
            server) := by
  refine Transition.exists_end_and (fun server => ∃ mission ∈ server.state.missions.values,
    ∃ sub ∈ (after (handle Env.sample (Env.sample.caller server "admin" {}) {} (removal ""))
      server).state.subscriptionsOf mission.guid, sub.username = "alice") (by decide +kernel)
        fun server _ _ hend => ?_
  obtain ⟨mission, hmission, sub, hsub, huser⟩ := hend
  exact ⟨mission, hmission, fun h => (h.gone sub hsub huser).1 rfl⟩

end MicroTak.Missions
