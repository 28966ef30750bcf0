import MicroTak.Missions.Confinement

/-!
# Protected missions stay closed

A mission with a password, or for invited users only, gives a stranger nothing, as long as the
stranger neither asks for an access token of the mission while it has no password nor reads the
invitations of others.
-/

namespace MicroTak.Missions

open Std Handler Groups Transition Relation Env List

variable {env : Env} {caller : Caller} {request : Request} {start server next : Server}
variable {mission : MissionRecord} {c guid : String}

def MissionRecord.closed (mission : MissionRecord) : Prop :=
  mission.passwordProtected = true ∨ mission.inviteOnly = true

instance : Decidable mission.closed := inferInstanceAs (Decidable (_ ∨ _))

/-- No two missions have one name, deleted ones included. -/
def UniqueNames (state : State) : Prop :=
  ∀ mission ∈ state.missions.values, ∀ other ∈ state.missions.values, mission.name = other.name →
    mission.guid = other.guid

instance (state : State) : Decidable (UniqueNames state) :=
  inferInstanceAs (Decidable (∀ _ ∈ _, ∀ _ ∈ _, _))

def Request.password : Request → Option String
  | .get _ password => some password
  | .about _ (.accessToken password) => some password
  | .about _ (.subscribe _ _ password) => some password
  | _ => none

/-- A user presents only tokens the server has shown to the user. -/
def OwnTokens (env : Env) (c : String) (server : Server) (caller : Caller) : Prop :=
  ∀ token ∈ caller.token, (c, token) ∈ server.shown ∨ env.tokens.decode token = none

instance : Decidable (OwnTokens env c server caller) := inferInstanceAs (Decidable (∀ _ ∈ _, _))

variable {token : String} {claims : MissionClaims} {state : State}

theorem OwnTokens.shown (h : OwnTokens env c server caller)
    (htoken : caller.token = some token) (hdecode : env.tokens.decode token = some claims) :
    (c, token) ∈ server.shown := by
  rcases h token htoken with hshown | hnone
  · exact hshown
  · rw [hdecode] at hnone
    cases hnone

/-- What a user with no part in the mission does: no invitation to it arrives, and no request
presents its password or a token from elsewhere. -/
def Stranger (env : Env) (c guid : String) (server : Server) : Action → Prop
  | .deliver username notice => username = c → notice.missionGuid ≠ guid
  | .request username headers _ request => username = c →
      OwnTokens env c server (env.caller server c headers) ∧
        ∀ password ∈ request.password,
          ∀ mission ∈ request.target (env.caller server c headers) server.state,
            mission.guid = guid → env.passwordMatches mission password = false
  | _ => True

instance (action : Action) : Decidable (Stranger env c guid server action) := by
  unfold Stranger
  split <;> infer_instance

/-- A user who has no part in the mission: no subscription, no invitation, no password. -/
structure Outsider (env : Env) (c guid : String) (server : Server) (action : Action) : Prop where
  unique : UniqueNames server.state
  subscription : ∀ sub ∈ server.state.subscriptionsOf guid, sub.username ≠ c
  invitation : ∀ i ∈ server.state.invitationsFor c .userName, i.missionGuid ≠ guid
  stranger : Stranger env c guid server action

/-- The user does not ask for a token of the mission while it has no password, nor for the
invitations to it: those the mission lists while it is open, and those of a client uid. -/
def Abstains (env : Env) (c guid : String) (server : Server) : Action → Prop
  | .request username headers _ (.about key (.accessToken _)) => username = c →
      ∀ mission ∈ ((env.caller server c headers).target server.state key).toOption,
        mission.guid = guid → mission.passwordProtected = true
  | .request username headers _ (.about key .invitations) => username = c →
      ∀ mission ∈ ((env.caller server c headers).target server.state key).toOption,
        mission.guid = guid → mission.closed
  | .request username _ _ (.myInvitations (some clientUid)) => username = c →
      ∀ i ∈ server.state.invitationsFor clientUid .clientUid, i.missionGuid ≠ guid
  | _ => True

instance (action : Action) : Decidable (Abstains env c guid server action) := by
  unfold Abstains
  split <;> infer_instance

instance (action : Action) : Decidable (Outsider env c guid server action) :=
  decidable_of_iff (UniqueNames server.state ∧
    (∀ sub ∈ server.state.subscriptionsOf guid, sub.username ≠ c) ∧
      (∀ i ∈ server.state.invitationsFor c .userName, i.missionGuid ≠ guid) ∧
        Stranger env c guid server action)
    ⟨fun h => ⟨h.1, h.2.1, h.2.2.1, h.2.2.2⟩, fun h =>
      ⟨h.unique, h.subscription, h.invitation, h.stranger⟩⟩

theorem UniqueNames.guid_eq (h : UniqueNames state) {guid guid' name : String}
    (hguid : state.nameOf guid = some name) (hguid' : state.nameOf guid' = some name) :
    guid = guid' := by
  obtain ⟨mission, hmission, rfl⟩ := Option.map_eq_some_iff.1 hguid
  obtain ⟨other, hother, hname⟩ := Option.map_eq_some_iff.1 hguid'
  have hkey := state.guid_of_byGuid hmission
  have hkey' := state.guid_of_byGuid hother
  rw [← hkey, ← hkey']
  rw [← hkey] at hmission
  rw [← hkey'] at hother
  exact h mission (state.missions.mem_values.2 hmission) other
    (state.missions.mem_values.2 hother) hname.symm

/-- No token for the mission has been shown to the user. -/
def Unshown (env : Env) (c guid : String) (server : Server) : Prop :=
  ∀ token claims, (c, token) ∈ server.shown → env.tokens.decode token = some claims →
    claims.missionGuid ≠ guid

/-- The caller's token gives no role on the mission, whatever becomes of its subscriptions. -/
def Worthless (env : Env) (caller : Caller) (mission : MissionRecord) : Prop :=
  ∀ state types, env.roleFromToken state mission caller types = none

theorem Worthless.roleFor_eq_none (h : Worthless env caller mission) (hadmin : caller.admin = false)
    (hclosed : mission.closed) : env.roleFor state mission caller = none := by
  rw [roleFor, h]
  rcases hclosed with hpassword | hinvite
  · simp [hadmin, hpassword]
  · simp [hadmin, hinvite]

section Step

variable {username : String} {headers : Headers} {inputs : Inputs}
variable (henv : env.Lawful) (hadmin : env.isAdmin c = false) (hsound : Sound env start)
variable (hunshown : Unshown env c guid start)
variable (houtsider : Outsider env c guid start (.request username headers inputs request))

include henv hsound hunshown houtsider

theorem worthless_of_outsider (hmission : start.state.byGuid guid = some mission)
    (husername : username = c) : Worthless env (env.caller start username headers) mission := by
  subst husername
  intro state types
  cases htoken : (env.caller start username headers).token with
  | none => simp [roleFromToken, htoken]
  | some token =>
    cases hdecode : env.tokens.decode token with
    | none => simp [roleFromToken, htoken, hdecode]
    | some claims =>
      have hshown := (houtsider.stranger rfl).1.shown htoken hdecode
      have hname : claims.missionName ≠ mission.name := by
        intro hname
        obtain ⟨type, issuedGuid, id, hissued, -⟩ := hsound.shown _ token hshown
        obtain ⟨name, hnameOf, hdecode'⟩ := hissued.decode henv
        cases hdecode.symm.trans hdecode'
        have hsame : name = mission.name := hname
        exact hunshown token _ hshown hdecode
          (houtsider.unique.guid_eq hnameOf (hsame ▸ nameOf_of_byGuid hmission))
      simp [roleFromToken, htoken, hdecode, hname]

include hadmin in
private theorem Shows.guid_ne
    (habstains : Abstains env c guid start (.request username headers inputs request))
    (husername : username = c)
    (hreached : Reached env (env.caller start username headers) request start server)
    (hnone : ∀ sub ∈ server.state.subscriptionsOf guid, sub.username ≠ c)
    (hshows : Shows env (env.caller start username headers) request start server token)
    (hdecode : env.tokens.decode token = some claims) : claims.missionGuid ≠ guid := by
  have hinvitation : ∀ i ∈ start.state.invitations, env.tokens.decode i.token = some claims →
      claims.missionGuid = i.missionGuid := by
    intro i hi hdecode
    obtain ⟨id, hissued⟩ := hsound.invitation i hi
    obtain ⟨name, -, hdecode'⟩ := hissued.decode henv
    exact congrArg MissionClaims.missionGuid (Option.some.inj (hdecode.symm.trans hdecode'))
  have hfound : ∀ found, request.target (env.caller start username headers) start.state =
      some found → found.guid = guid → start.state.byGuid guid = some found :=
    fun found htarget hguid => hguid ▸ (seen_of_target htarget).1
  intro hguid
  cases hshows with
  | own other sub hsub hown =>
    obtain ⟨name, -, hdecode'⟩ :=
      ((hsound.reached henv hreached).1.subscription other sub hsub).decode henv
    cases hdecode.symm.trans hdecode'
    obtain rfl : other = guid := hguid
    exact hnone sub hsub (hown.trans husername)
  | access found k now htarget hk hgate =>
    rw [henv.tokens.decode_create] at hdecode
    cases hdecode
    subst husername
    obtain ⟨key, password, ⟨rfl, hmatches⟩ | ⟨rfl, hmatches⟩⟩ := hgate
    · rw [(houtsider.stranger rfl).2 password rfl found htarget hguid] at hmatches
      cases hmatches
    · have hmatches := hmatches (habstains rfl found htarget hguid)
      rw [(houtsider.stranger rfl).2 password rfl found htarget hguid] at hmatches
      cases hmatches
  | listed found i htarget hrequest hrole hstate hi =>
    obtain ⟨hmem, hi⟩ := mem_filter.1 hi
    have hfoundGuid : found.guid = guid := by
      rw [← hguid, hinvitation i hmem hdecode]
      exact (of_decide_eq_true hi).symm
    have hmission := hfound found htarget hfoundGuid
    have hworthless := worthless_of_outsider henv hsound hunshown houtsider hmission husername
    obtain ⟨key, rfl⟩ := hrequest
    obtain ⟨role, hrole⟩ := hrole
    subst husername
    rw [hworthless.roleFor_eq_none hadmin (habstains rfl found htarget hfoundGuid)] at hrole
    cases hrole
  | mine clientUid i hrequest hstate hi =>
    subst husername hrequest
    rcases mem_append.1 (mem_filter.1 hi).1 with hi | hi
    · refine habstains rfl i hi ?_
      rw [← hguid, hinvitation i (mem_filter.1 hi).1 hdecode]
    · have hi := (mem_filter.1 hi).1
      refine houtsider.invitation i hi ?_
      rw [← hguid, hinvitation i (mem_filter.1 hi).1 hdecode]

end Step

private theorem Unshown.step (henv : env.Lawful) (hadmin : env.isAdmin c = false)
    (hsound : Sound env server) (h : Unshown env c guid server) {action : Action}
    (houtsider : Outsider env c guid server action) (habstains : Abstains env c guid server action)
    (hstep : step env server action = some next)
    (hnone : ∀ sub ∈ next.state.subscriptionsOf guid, sub.username ≠ c) :
    Unshown env c guid next := by
  intro token claims hshown hdecode
  cases step_outcome hstep with
  | request username headers inputs request tokens next hreached hshows =>
    rcases mem_append.1 hshown with hnew | hold
    · obtain ⟨shown, hmem, heq⟩ := mem_map.1 hnew
      cases heq
      exact (hshows token hmem).guid_ne henv hadmin hsound h houtsider habstains rfl hreached
        hnone hdecode
    · rw [shown_of_reached hreached] at hold
      exact h token claims hold hdecode
  | stream username clientUid names guids eventUid now next hstreamed =>
    rw [(kept_of_streamed hstreamed).1] at hshown
    exact h token claims hshown hdecode
  | deliver username notice hnotice =>
    rcases mem_append.1 hshown with hnew | hold
    · obtain ⟨shown, hmem, heq⟩ := mem_map.1 hnew
      cases heq
      rw [mem_singleton.1 hmem] at hdecode
      obtain ⟨id, hissued⟩ := hsound.notice notice hnotice
      obtain ⟨name, -, hdecode'⟩ := hissued.decode henv
      cases hdecode.symm.trans hdecode'
      exact houtsider.stranger rfl
    · exact h token claims hold hdecode
  | outside _ _ hstate hdrawn hnotices hpassed hspared hkept =>
    rw [hkept] at hshown
    exact h token claims hshown hdecode

end MicroTak.Missions
