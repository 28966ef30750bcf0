import MicroTak.Network.Basic

/-!
# How long a live subscription lasts

A client uid stays a live subscriber of a mission while a connection that goes by it is open, until
its own user unsubscribes it or a role holder removes it, as long as two things do not happen:
another connection that goes by the same uid closes, and another user unsubscribes it by name.
-/

namespace MicroTak.Transport.Server

variable {M : Type} {env : Env M} {server next : Server M} {peer : SocketAddr} {user uid : String}

def Bound (server : Server M) (peer : SocketAddr) (user uid : String) : Prop :=
  ∃ conn session, server.conns[peer]? = some conn ∧ conn.session = some session ∧
    session.identity.commonName = some user ∧ session.clientUid = some uid

theorem Bound.step {action : Action M} (h : server.Bound peer user uid)
    (hstays : action ≠ .leave peer) (hstep : server.step env action = some next) :
    next.Bound peer user uid := by
  obtain ⟨conn, session, hconn, hsession, huser, huid⟩ := h
  obtain ⟨conn', session', hconn', hsession', hkept, -⟩ := conn_step hconn hsession hstep hstays
  refine ⟨conn', session', hconn', hsession', ?_⟩
  rcases hkept with rfl | ⟨decoded, rfl⟩
  · exact ⟨huser, huid⟩
  · rw [Session.onEvent_identity, Session.onEvent_clientUid, huid]
    exact ⟨huser, rfl⟩

end MicroTak.Transport.Server

namespace MicroTak.Network

open Std Transition Transport Missions.Notifier

variable {env : Env}

namespace Net

def caller (env : Env) (net : Net) (username : String) (headers : Missions.Headers) :
    Missions.Caller :=
  env.missions.caller net.server username headers

/-- The subscription is not ended by its own means: the connection stays, its user does not
unsubscribe it, and no role holder removes it. -/
def stays (env : Env) (peer : SocketAddr) (user guid uid : String) (net : Net) : NetAction → Bool
  | .relay _ (.leave other) => other ≠ peer
  | .request username headers _ request =>
      !(username = user && request.unsubscribes env.missions (net.caller env username headers)
        net.server.state guid uid) && !request.removes env.missions
          (net.caller env username headers) net.server.state guid uid
  | _ => true

/-- No other connection that goes by the uid closes, and no other user unsubscribes it. -/
def undisturbed (env : Env) (peer : SocketAddr) (user guid uid : String) (net : Net) :
    NetAction → Bool
  | .relay _ (.leave other) =>
      other = peer || ((net.conns[other]?).bind (·.session)).all fun session =>
        !(session.listener.missions && session.deliveryUid = some uid)
  | .request username headers _ request =>
      username = user || !request.unsubscribes env.missions (net.caller env username headers)
        net.server.state guid uid
  | _ => true

variable {net next : Net} {peer : SocketAddr} {user guid uid : String} {action : NetAction}

theorem bound_step (h : net.Bound peer user uid)
    (hstays : net.stays env peer user guid uid action = true)
    (hstep : net.step env action = some next) : next.Bound peer user uid := by
  cases action with
  | relay now action =>
    simp only [step] at hstep
    split at hstep
    · have hsynced : (net.synced now).Bound peer user uid := h
      refine hsynced.step ?_ hstep
      rintro rfl
      simp [stays] at hstays
    · cases hstep
  | request username headers inputs request | announce other xml =>
    cases hstep
    exact h

private theorem live_respond {username : String} {headers : Missions.Headers}
    {inputs : Missions.Inputs} {request : Missions.Request}
    (hlive : (guid, uid) ∈ net.notifier.live)
    (hunsubscribe : request.unsubscribes env.missions (net.caller env username headers)
      net.server.state guid uid = false) (hremove :
      request.removes env.missions (net.caller env username headers) net.server.state guid uid =
      false) :
    (guid, uid) ∈ (net.respond env username headers inputs request).notifier.live := by
  rw [respond, Missions.notifier_respond]
  refine Missions.notifier_of_handle (I := fun notifier =>
    (guid, uid) ∈ notifier.live) request hlive ?_ ?_
  · intro notifier other clientUid _ _ hlive
    exact mem_connect.2 (.inr hlive)
  · rintro notifier other clientUid hends hlive
    refine mem_disconnect.2 ⟨hlive, ?_⟩
    rintro ⟨⟩
    rcases hends with hends | hends
    · exact absurd (hunsubscribe.symm.trans hends) (by simp)
    · exact absurd (hremove.symm.trans hends) (by simp)

theorem live_step (hlive : (guid, uid) ∈ net.notifier.live)
    (hstays : net.stays env peer user guid uid action = true)
    (hundisturbed : net.undisturbed env peer user guid uid action = true)
    (hstep : net.step env action = some next) : (guid, uid) ∈ next.notifier.live := by
  cases action with
  | relay now action =>
    simp only [step] at hstep
    split at hstep
    · next hown =>
      refine Server.missions_step (fun side => (guid, uid) ∈ side.server.notifier.live) hstep hlive
        (fun _ _ _ _ _ => (notifier_route ..).symm ▸ hlive) ?_ ?_
      · rintro other conn session left rfl hconn hsession hmissions hleft
        refine mem_clientDisconnected.2 ⟨hlive, ?_⟩
        rintro rfl
        have hother : other ≠ peer := by simpa [stays] using hstays
        have hconn' : net.conns[other]? = some conn := hconn
        simp [undisturbed, hother, hconn', hsession, hmissions, hleft] at hundisturbed
      · rintro missions rfl
        cases hown
    · cases hstep
  | request username headers inputs request =>
    cases hstep
    obtain ⟨hown, hremove⟩ : (username ≠ user ∨
      request.unsubscribes env.missions (net.caller env username headers)
        net.server.state guid uid = false) ∧
          request.removes env.missions (net.caller env username headers)
        net.server.state guid uid = false := by
      simpa [stays] using hstays
    have hother : username = user ∨
        request.unsubscribes env.missions (net.caller env username headers) net.server.state guid
          uid = false := by
      simpa [undisturbed] using hundisturbed
    exact live_respond hlive (hother.elim (fun heq => hown.resolve_left (absurd heq)) id) hremove
  | announce other xml =>
    cases hstep
    exact hlive

def accepts (env : Env) (net : Net) (username : String) (headers : Missions.Headers)
    (inputs : Missions.Inputs) (request : Missions.Request) : Bool :=
  match Missions.handle env.missions (net.caller env username headers) inputs request
    net.server with
  | .ok _ _ => true
  | .error _ _ => false

/-- A request to subscribe the client uid to the mission is accepted. -/
def Subscribes (env : Env) (before next : Net) (guid uid : String) : Prop :=
  ∃ username headers inputs key password,
    ((before.caller env username headers).target before.server.state key).toOption.map (·.guid) =
      some guid ∧ before.accepts env username headers inputs
        (.about key (.subscribe uid "" password)) = true ∧
      before.step env (.request username headers inputs (.about key (.subscribe uid "" password))) =
        some next

private theorem Subscribes.live {before : Net} (h : Subscribes env before net guid uid) :
    (guid, uid) ∈ net.notifier.live := by
  obtain ⟨username, headers, inputs, key, password, hguid, haccepts, hstep⟩ := h
  obtain ⟨mission, htarget, rfl⟩ := Option.map_eq_some_iff.1 hguid
  have hrules : Handler.wp (Missions.handle env.missions (before.caller env username headers) inputs
      (.about key (.subscribe uid "" password))) (fun _ next =>
        (mission.guid, uid) ∈ next.notifier.live) (fun _ _ => True)
      before.server := by
    rw [Missions.handle, Handler.wp_bind, Missions.Caller.existing, Handler.wp_reads]
    refine ⟨fun found hfound => ?_, fun _ _ => trivial⟩
    cases hfound.symm.trans (Missions.toOption_eq_some.1 htarget)
    exact Missions.subscribeImpl_connects
  cases hstep
  unfold accepts at haccepts
  split at haccepts
  · next reply after hok =>
    have hafter :
        (before.respond env username headers inputs
          (.about key (.subscribe uid "" password))).notifier =
        after.notifier := by
      rw [respond, Missions.notifier_respond]
      exact congrArg Missions.Server.notifier (Handler.after_of_ok hok)
    show (mission.guid, uid) ∈ (before.respond env username headers inputs _).notifier.live
    rw [hafter]
    exact hrules.of_ok hok
  · cases haccepts

theorem live_subscription_lasts (env : Env) (before net last : Net) (actions : List NetAction)
    (peer : SocketAddr) (user guid uid : String) (hsubscribes : Subscribes env before net guid uid)
    (hbound : net.Bound peer user uid) (hrun : run (step env) net actions = some last)
    (hstays : Along (step env) (fun net action => net.stays env peer user guid uid action =
      true) net actions)
    (hundisturbed : Along (step env) (fun net action =>
      net.undisturbed env peer user guid uid action = true) net actions) :
    last.Bound peer user uid ∧ uid ∈ last.notifier.liveSubscribers guid := by
  rw [mem_liveSubscribers]
  refine run_invariant (fun net : Net => net.Bound peer user uid ∧
    (guid, uid) ∈ net.notifier.live) hrun (hstays.and hundisturbed) ⟨hbound, hsubscribes.live⟩ ?_
  rintro net action next ⟨hbound, hlive⟩ ⟨hstays, hundisturbed⟩ hstep
  exact ⟨bound_step hbound hstays hstep, live_step hlive hstays hundisturbed hstep⟩

namespace Overlap

def connect (peer : SocketAddr) (user uid : String) : List NetAction :=
  [.relay 0 (.accept peer (.tls user Spoof.malloryCert) { missions := true }),
    .relay 0 (.enter peer), .relay 0 (.item peer (Spoof.report uid))]

def connected (user uid : String) : List NetAction :=
  .request "alice" {} {} (.put "Ops" {} false) ::
    (connect "a" "alice" "phone" ++ connect "b" user uid)

def subscribe : NetAction :=
  .request "alice" {} {} (.about (.name "Ops") (.subscribe "phone" "" ""))

def bobLeaves : List NetAction :=
  [.announce "u" "<change/>",
    .request "bob" {} {} (.about (.name "Ops") (.unsubscribe "tablet" "" true)),
      .relay 0 (.leave "b")]

end Overlap

open Overlap in
/-- The client reconnects before its first connection is gone, and subscribes.  It is not a live
subscriber any more once the first connection closes, or once another user unsubscribes it by
name. -/
theorem live_subscription_cut_off :
    (∃ before, run (step Env.sample) (startup {} {} {}) (connected "alice" "phone") = some before ∧
      before.accepts Env.sample "alice" {} {} (.about (.name "Ops") (.subscribe "phone" "" "")) =
      true ∧ ∃ net, before.step Env.sample subscribe = some net ∧
      "phone" ∈ net.notifier.liveSubscribers "u" ∧
        ∃ last, net.step Env.sample (.relay 0 (.leave "a")) = some last ∧
          ((last.conns["b"]?).bind (·.session)).map (fun session =>
            (session.clientUid, session.closed)) = some (some "phone", false) ∧
          "phone" ∉ last.notifier.liveSubscribers "u") ∧
    ∃ last, run (step Env.sample) (startup {} {} {}) (connected "alice" "phone" ++
        [subscribe, .request "bob" {} {} (.about (.name "Ops") (.unsubscribe "phone" "" true))]) =
        some last ∧
      "phone" ∉ last.notifier.liveSubscribers "u" := by
  constructor
  · decide +kernel
  · decide +kernel

open Overlap in
theorem live_subscription_lasts_beside_bob :
    ∃ before net last, run (step Env.sample) (startup {} {} {}) (connected "bob" "tablet") =
    some before ∧
      before.step Env.sample subscribe = some net ∧
      run (step Env.sample) net bobLeaves = some last ∧ last.Bound "a" "alice" "phone" ∧
      "phone" ∈ last.notifier.liveSubscribers "u" := by
  have hrun : ∃ before, run (step Env.sample) (startup {} {} {}) (connected "bob" "tablet") =
      some before ∧
        before.accepts Env.sample "alice" {} {} (.about (.name "Ops") (.subscribe "phone" "" "")) =
          true ∧
      ((before.caller Env.sample "alice" {}).target before.server.state (.name "Ops")).toOption.map
        (·.guid) = some "u" ∧
      ∃ net, before.step Env.sample subscribe = some net ∧
        (∃ conn, net.conns["a"]? = some conn ∧ ∃ session, conn.session = some session ∧
          session.identity.commonName = some "alice" ∧ session.clientUid = some "phone") ∧
        Along (step Env.sample) (fun net action =>
          net.stays Env.sample "a" "alice" "u" "phone" action = true) net bobLeaves ∧
        Along (step Env.sample) (fun net action =>
          net.undisturbed Env.sample "a" "alice" "u" "phone" action = true) net bobLeaves ∧
        ∃ last, run (step Env.sample) net bobLeaves = some last ∧ True := by
    decide +kernel
  obtain ⟨before, hbefore, haccepts, htarget, net, hnet,
    ⟨conn, hconn, session, hsession, huser, huid⟩, hstays, hundisturbed, last, hlast, -⟩ := hrun
  exact ⟨before, net, last, hbefore, hnet, hlast,
    live_subscription_lasts Env.sample before net last bobLeaves "a" "alice" "u" "phone"
      ⟨"alice", {}, {}, .name "Ops", "", htarget, haccepts, hnet⟩ ⟨conn, session, hconn, hsession,
        huser, huid⟩ hlast
    hstays hundisturbed⟩

end Net

end MicroTak.Network
