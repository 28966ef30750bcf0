import MicroTak.Lib.Transition
import MicroTak.Missions.Api

/-!
# Runs of the mission server

Requests of many users, one after the other, and what happens around them: content streamed to a
mission, changes of groups and connections, events relayed, invitations delivered, and an event log
that may stop taking appends.
-/

namespace MicroTak.Missions

open Std Handler Groups Transition

inductive Action where
  | request (username : String) (headers : Headers) (inputs : Inputs) (request : Request)
  /-- An event streamed to missions over a connection with this client uid. -/
  | stream (username clientUid : String) (names guids : List String) (eventUid : String) (now : Int)
  /-- An invitation reaches a connection of this user. -/
  | deliver (username : String) (notice : InviteNotice)
  | regroup (groups : GroupStore)
  | connect (clients : List Connected)
  | leave (clientUid : String)
  | relay (uid xml : String) (now : Int)
  | disk (disk : Option Nat)

/-- The missions streamed content is for, each once. -/
def streamTargets (server : Server) (username : String) (names guids : List String) :
    List MissionRecord :=
  let groups := server.groups.state.allGroupNames username
  let visible (mission : MissionRecord) : Bool := decide (∃ group ∈ mission.groups, group ∈ groups)
  ((names.filterMap fun name => server.state.byName name visible) ++
    (guids.filterMap fun guid => (server.state.byGuid guid).filter fun m =>
      !m.deleted && visible m)).foldl MissionMap.insert {} |>.values

/-- Streamed content is added where the sender's subscription may write; a failed append is passed
over. -/
def routeTo (username clientUid eventUid : String) (now : Int) (server : Server)
    (mission : MissionRecord) : Server :=
  match server.state.findSubscription mission.guid clientUid username with
  | none => server
  | some sub =>
      if sub.role.has .write then
        after (storeOp (MissionStore.addContent mission.guid (.uid eventUid) clientUid now))
          (server.note username mission.guid .write)
      else server

def Server.receives (server : Server) (username : String) (notice : InviteNotice) : Bool :=
  server.notices.contains notice &&
    server.clients.any fun client =>
      client.commonName = some username && client.uid.any fun uid => decide (uid ∈ notice.uids)

def Server.show (server : Server) (username : String) (tokens : List String) : Server :=
  { server with shown := tokens.map (fun token => (username, token)) ++ server.shown }

def respond (env : Env) (server : Server) (username : String) (headers : Headers) (inputs : Inputs)
    (request : Request) :
    Server :=
  match handle env (env.caller server username headers) inputs request server with
  | .ok reply next => next.show username reply.tokens
  | .error _ next => next

def step (env : Env) (server : Server) : Action → Option Server
  | .request username headers inputs request =>
    some (respond env server username headers inputs request)
  | .stream username clientUid names guids eventUid now =>
      some ((streamTargets server username names guids).foldl
        (routeTo username clientUid eventUid now) server)
  | .deliver username notice =>
      if server.receives username notice then some (server.show username [notice.token]) else none
  | .regroup groups => some { server with groups }
  | .connect clients => some { server with clients }
  | .leave clientUid =>
    some { server with notifier := server.notifier.clientDisconnected clientUid }
  | .relay uid xml now =>
    some { server with latestCot := server.latestCot.insert uid { xml, serverTimeMs := now } }
  | .disk disk => some { server with store := { server.store with disk } }

end MicroTak.Missions
