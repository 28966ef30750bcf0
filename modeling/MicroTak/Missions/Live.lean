import MicroTak.Missions.Justified

/-!
# Live subscribers

The client uids that are told of a mission's changes, kept by the notifier beside the store.  A
subscription, a new mission and a copy name a client uid, which need not be that of the caller's own
connection; an unsubscription and the removal of a role name one too.  Nothing else in a request
changes the notifier.
-/

namespace MicroTak.Missions

open Handler

variable {env : Env} {caller : Caller} {inputs : Inputs} {start server : Server}
  {mission : MissionRecord}
variable {I : Notifier → Prop}

/-- What a request may do to the notifier: make the client uid it names a live subscriber of the
mission it is about or makes, or end the live subscription it names. -/
theorem notifier_of_handle (request : Request) (h : I start.notifier)
    (hconnect : ∀ notifier guid clientUid, request.subscriber = some clientUid →
      Fresh env start guid ∨
        (∃ mission, request.target caller start.state = some mission ∧ mission.guid = guid) →
      I notifier → I (notifier.connect guid clientUid))
    (hdisconnect : ∀ notifier guid clientUid,
      request.unsubscribes env caller start.state guid clientUid = true ∨
      request.removes env caller start.state guid clientUid = true → I notifier →
      I (notifier.disconnect guid clientUid)) :
    I (after (handle env caller inputs request) start).notifier := by
  have hreached :
      Reached env caller request start (after (handle env caller inputs request) start) :=
    (handle_justified.mono (fun _ _ h => h.1) fun _ _ h => h).after
  generalize after (handle env caller inputs request) start = next at hreached
  induction hreached with
  | refl => exact h
  | tail _ heffect ih =>
    cases heffect with
    | connect guid clientUid hnamed hmission => exact hconnect _ guid clientUid hnamed hmission ih
    | disconnect guid clientUid hends => exact hdisconnect _ guid clientUid hends ih
    | _ => exact ih

theorem notifier_respond (username : String) (headers : Headers) (request : Request) :
    (respond env server username headers inputs request).notifier =
      (after (handle env (env.caller server username headers) inputs request) server).notifier := by
  unfold respond after
  cases handle env (env.caller server username headers) inputs request server <;> rfl

private theorem notifier_routeTo (username clientUid eventUid : String) (now : Int) :
    (routeTo username clientUid eventUid now server mission).notifier = server.notifier := by
  unfold routeTo
  split
  · rfl
  · split
    · have hstored :
          wp (storeOp (MissionStore.addContent mission.guid (.uid eventUid) clientUid now))
            (fun _ next => next.notifier = server.notifier) (fun _ next =>
              next.notifier = server.notifier)
          (server.note username mission.guid .write) :=
        wp_storeOp.2 (wp_trivial.mono (fun _ _ _ => rfl) fun _ _ _ => rfl)
      exact hstored.after
    · rfl

theorem notifier_stream (username clientUid eventUid : String) (now : Int)
    (targets : List MissionRecord) :
    (targets.foldl (routeTo username clientUid eventUid now) server).notifier =
    server.notifier := by
  induction targets generalizing server with
  | nil => rfl
  | cons mission rest ih => exact ih.trans (notifier_routeTo username clientUid eventUid now)

theorem subscribeImpl_connects {uid topic password : String} :
    wp (subscribeImpl env caller inputs mission uid topic password)
      (fun _ next => (mission.guid, topicUid uid topic) ∈ next.notifier.live) (fun _ _ =>
        True) server := by
  refine wp_then fun window _ => wp_then fun role _ => wp_then fun _ _ => wp_then fun sub joined =>
    ?_
  have hlive : (mission.guid, topicUid uid topic) ∈
      (joined.notifier.connect mission.guid (topicUid uid topic)).live :=
    Notifier.mem_connect.2 (.inl rfl)
  rw [wp_bind, wp_notify, wp_bind, wp_storeOp]
  exact wp_trivial.mono (fun _ _ _ => hlive) fun _ _ _ => trivial

end MicroTak.Missions
