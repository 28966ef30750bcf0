import MicroTak.Network.Basic
import MicroTak.Transport.Delivery

/-!
# Whom a notice of a mission reaches

A notice goes to the client uids that are live subscribers when it is sent, and to whichever
connection goes by such a uid when it reads it; the groups of that connection are not asked.
-/

namespace MicroTak.Network

open Std Transition Transport Server Missions.Notifier List

variable {env : Env}

/-- In the run, a request named the client uid for the mission, of a caller who saw it then, or made
it by that request. -/
def Named (env : Env) (start : Net) (actions : List NetAction) (guid uid : String) : Prop :=
  ∃ before after username headers inputs request net,
    actions = before ++ .request username headers inputs request :: after ∧
      run (Net.step env) start before = some net ∧ request.subscriber = some uid ∧
      (Missions.Fresh env.missions net.server guid ∨
        ∃ mission, Missions.Seen (env.missions.caller net.server username headers)
          net.server.state mission ∧ mission.guid = guid)

variable {action : NetAction} {actions : List NetAction} {notifier : Missions.Notifier}
  {uids : List String} {missions : List Missions.MissionRecord}

namespace Net

variable {net next : Net} {guid uid : String}

end Net

theorem mem_announce {guid xml uid : String} {msg : ServerMessage}
    (h : msg ∈ announce notifier guid xml) (hdest : msg.destUids = some uids) (huid : uid ∈ uids) :
    uid ∈ notifier.liveSubscribers guid := by
  unfold announce at h
  split at h
  · cases h
  · obtain rfl := mem_singleton.1 h
    cases hdest
    exact (mem_filter.1 huid).1

/-- What is routed and announced is for live subscribers of the missions. -/
structure Routing.IsFor (notifier : Missions.Notifier) (missions : List Missions.MissionRecord)
    (routing : Routing) : Prop where
  recipients : ∀ uid ∈ routing.recipients, ∃ mission ∈ missions,
    uid ∈ notifier.liveSubscribers mission.guid
  announcements : ∀ msg ∈ routing.announcements, ∀ uids, msg.destUids = some uids → ∀ uid ∈ uids,
    ∃ mission ∈ missions, uid ∈ notifier.liveSubscribers mission.guid

variable {routing : Routing}

private theorem Routing.IsFor.routeOne {mission : Missions.MissionRecord}
    (h : routing.IsFor notifier missions) (hmission : mission ∈ missions)
    (username clientUid eventUid : String) (now : Int) :
    (routeOne env notifier username clientUid eventUid now routing mission).IsFor notifier
    missions := by
  unfold Network.routeOne
  split
  · exact h
  · split
    · constructor
      case recipients =>
        intro uid huid
        rcases mem_append.1 huid with huid | huid
        · exact h.recipients uid huid
        · exact ⟨mission, hmission, (mem_filter.1 huid).1⟩
      case announcements =>
        intro msg hmsg uids hdest uid huid
        rcases mem_append.1 hmsg with hmsg | hmsg
        · exact h.announcements msg hmsg uids hdest uid huid
        · split at hmsg
          · exact ⟨mission, hmission, mem_announce hmsg hdest huid⟩
          · cases hmsg
    · exact h

private theorem Routing.IsFor.foldl {targets : List Missions.MissionRecord}
    (h : routing.IsFor notifier targets) (hmissions : ∀ mission ∈ missions, mission ∈ targets)
    (username clientUid eventUid : String) (now : Int) :
    (missions.foldl (Network.routeOne env notifier username clientUid eventUid now) routing).IsFor
    notifier targets := by
  induction missions generalizing routing with
  | nil => exact h
  | cons mission rest ih =>
    exact ih (h.routeOne (hmissions mission mem_cons_self) username clientUid eventUid now)
      fun other hother => hmissions other (mem_cons_of_mem _ hother)

namespace Net

variable {net next : Net} {guid uid : String}

variable {msg : Outbound} {i : Nat}

namespace TwoGroups

/-- A mission of the group of `alice`, for which `alice` names the client uid of this user's
connection. -/
def named (user : String) : List NetAction :=
  [.relay 0 (.changeGroups (.created "Blue" none 0)),
    .relay 0 (.changeGroups (.created "Red" none 0)),
      .relay 0 (.changeGroups (.memberSet "alice" "Blue" (some .both))),
    .relay 0 (.changeGroups (.memberSet "eve" "Red" (some .both))),
    .relay 0 (.accept "e" (.tls user Spoof.malloryCert) { missions := true }),
      .relay 0 (.enter "e"),
    .relay 0 (.item "e" (Spoof.report "tablet")),
    .request "alice" {} {} (.put "Ops" { groups := ["Blue"] } false),
    .request "alice" {} {} (.about (.name "Ops") (.subscribe "tablet" "" ""))]

def removed : List NetAction :=
  named "alice" ++ [.relay 0 (.changeGroups (.memberSet "alice" "Blue" none))]

def moved : List NetAction :=
  named "alice" ++ [.request "admin" {} {} (.put "Ops" { groups := ["Red"] } true)]

end TwoGroups

end Net

end MicroTak.Network
