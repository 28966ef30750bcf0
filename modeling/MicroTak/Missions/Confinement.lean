import MicroTak.Missions.Runs

/-!
# Tokens stay with their mission

A token gives a role on a mission only if it carries the mission's name.  A subscription token is
looked up under the mission's guid as well, so it never works on another mission.  Access and
invitation tokens are matched by name alone, and a mission that shares the name accepts them.
-/

namespace MicroTak.Missions

open Std Handler Groups Transition Relation Env

variable {env : Env} {caller : Caller} {inputs : Inputs} {request : Request}
  {start server next : Server}
variable {mission : MissionRecord}

def Caller.bare (caller : Caller) : Caller := { caller with token := none }

def Headers.bare (headers : Headers) : Headers :=
  { headers with missionAuthorization := none, authorization := none }

/-- The caller's token is worth nothing on the mission, while its subscriptions stay as they are. -/
structure Idle (env : Env) (caller : Caller) (mission : MissionRecord) (start : Server) : Prop where
  token : ∀ state : State, state.subscriptionsOf mission.guid =
    start.state.subscriptionsOf mission.guid → ∀ types,
      env.roleFromToken state mission caller types = none

theorem roleFromToken_bare (state : State) (types : List TokenType) :
    env.roleFromToken state mission caller.bare types = none := rfl

section

variable (h : Idle env caller mission start)

include h

theorem Idle.roleFor :
    env.roleFor start.state mission caller = env.roleFor start.state mission caller.bare := by
  rw [Env.roleFor, Env.roleFor, h.token _ rfl, roleFromToken_bare]
  rfl

private theorem requireWrite_bare :
    requireWrite env caller mission start = requireWrite env caller.bare mission start := by
  simp only [requireWrite, get_bind]
  rw [h.roleFor]
  rfl

theorem handleAbout_bare (about : MissionRequest) :
    handleAbout env caller inputs mission about start =
    handleAbout env caller.bare inputs mission about start := by
  cases about with
  | accessToken | setExpiration | subscription => rfl
  | subscribe uid topic password =>
    have hsubscription : subscriptionRole env caller start.state mission password =
        subscriptionRole env caller.bare start.state mission password := by
      rw [subscriptionRole, subscriptionRole, h.token _ rfl]
      rfl
    refine bind_eq rfl fun window t hwindow => ?_
    obtain ⟨-, rfl⟩ := reads_eq_ok.1 hwindow
    refine bind_eq ?_ fun _ _ _ => rfl
    simp only [reads, hsubscription]
  | uninvite kind invitee creatorUid =>
    simp only [handleAbout, uninviteImpl, get_bind, h.token _ rfl, roleFromToken_bare]
  | invite kind invitee creatorUid role =>
    simp only [handleAbout, inviteImpl, get_bind]
    rw [h.roleFor]
  | setKeywords | clearKeywords | removeKeyword | setContentKeywords | clearContentKeywords
  | addMapLayer | updateMapLayer
  | setExternal | changeExternal | addFeed | removeFeed | createLayer | renameLayer | setLayerParent
  | deleteLayers =>
    exact bind_eq (requireWrite_bare h) fun _ _ _ => rfl
  | _ =>
    simp only [handleAbout, logsForMission, deleteImpl, addContentsImpl, removeContentImpl,
      guardedImpl, cotImpl, addMissionPackage, copyMission, setPasswordImpl, unsubscribeImpl,
        setSubscriptionRolesImpl, subscribersImpl, subscriptionRolesImpl,
      roleGetImpl, roleSetImpl, invitationsImpl, get_bind]
    rw [h.roleFor]
    rfl

private theorem updateExisting_bare (create : CreateRequest) (groups : Finset String)
    (allowGroupChange : Bool) :
    updateExisting env caller inputs mission create groups allowGroupChange start =
      updateExisting env caller.bare inputs mission create groups allowGroupChange start := by
  -- The default role is set by a token role read after the fields and the password have changed.
  let Same (server : Server) : Prop :=
    server.state.subscriptionsOf mission.guid = start.state.subscriptionsOf mission.guid
  simp only [updateExisting, get_bind]
  rw [h.roleFor]
  have hsame : Same start := rfl
  refine bind_eq_of_wp Same rfl (wp_ensure.2 ⟨fun _ => hsame, fun _ => trivial⟩)
    fun _ server hsame => ?_
  refine bind_eq_of_wp Same rfl (wp_check.2 ⟨fun _ => hsame, fun _ => trivial⟩)
    fun _ server hsame => ?_
  refine bind_eq_of_wp Same rfl (wp_whenever.2 ⟨fun _ => ?_, fun _ => hsame⟩) fun _ server hsame =>
    ?_
  · exact wp_recordExisting (fun _ => hsame) fun _ => trivial
  refine bind_eq_of_wp Same rfl (wp_whenever.2 ⟨fun _ => ?_, fun _ => hsame⟩) fun _ server hsame =>
    ?_
  · refine wp_bind.2 (wp_check.2 ⟨fun _ => ?_, fun _ => trivial⟩)
    exact wp_recordExisting (fun _ => hsame) fun _ => trivial
  refine bind_eq ?_ fun _ _ _ => rfl
  simp only [updateDefaultRole, whenever]
  split
  · simp only [get_bind, h.token _ hsame, roleFromToken_bare]
    rfl
  · rfl

end

private theorem createImpl_bare (name : String) (create : CreateRequest) (allowGroupChange : Bool)
    (dupe : Dupe)
    (hfound : ∀ found, caller.lookup start.state true (.name (Text.trim name)) = .ok (some found) →
      (dupe.allow && dupe.inDifferentGroups) = false → Idle env caller found start) :
    createImpl env caller inputs name create allowGroupChange dupe start =
      createImpl env caller.bare inputs name create allowGroupChange dupe start := by
  refine bind_eq_of_wp (fun server => server = start) rfl
    (wp_ensure.2 ⟨fun _ => rfl, fun _ => trivial⟩) ?_
  intro _ server hserver
  subst hserver
  refine bind_eq rfl fun groups t hgroups => ?_
  obtain ⟨-, rfl⟩ := reads_eq_ok.1 hgroups
  refine bind_eq rfl fun found t hlookup => ?_
  obtain ⟨hlookup, rfl⟩ := reads_eq_ok.1 hlookup
  cases hfilter : found.filter fun _ => !(dupe.allow && dupe.inDifferentGroups) with
  | none => rfl
  | some mission =>
    rw [Option.filter_eq_some_iff] at hfilter
    rw [hfilter.1] at hlookup
    exact updateExisting_bare
      (hfound mission hlookup (by simpa only [Bool.not_eq_true'] using hfilter.2)) create groups
        allowGroupChange

theorem handle_bare (htarget : request.target caller start.state = some mission)
    (h : Idle env caller mission start) :
    handle env caller inputs request start = handle env caller.bare inputs request start := by
  cases request with
  | get key password =>
    refine bind_eq rfl fun found t hexisting => ?_
    obtain ⟨hfound, rfl⟩ := reads_eq_ok.1 hexisting
    obtain rfl : found = mission := Option.some.inj ((toOption_eq_some.2 hfound).symm.trans htarget)
    refine bind_eq rfl fun window t hwindow => ?_
    obtain ⟨-, rfl⟩ := reads_eq_ok.1 hwindow
    simp only [get_bind]
    rw [h.roleFor]
    rfl
  | put name create allowGroupChange =>
    refine createImpl_bare name create allowGroupChange _ fun found hfound _ => ?_
    rw [Request.target, hfound] at htarget
    exact Option.some.inj htarget ▸ h
  | post name create allowGroupChange allowDupe =>
    refine createImpl_bare name create allowGroupChange _ fun found hfound hdupe => ?_
    have hallow : allowDupe = false := by simpa only [Bool.and_true] using hdupe
    rw [Request.target, hfound, hallow] at htarget
    exact Option.some.inj htarget ▸ h
  | about key about =>
    refine bind_eq rfl fun found t hexisting => ?_
    obtain ⟨hfound, rfl⟩ := reads_eq_ok.1 hexisting
    obtain rfl : found = mission := Option.some.inj ((toOption_eq_some.2 hfound).symm.trans htarget)
    exact handleAbout_bare h about
  | _ => cases htarget

/-! ### What a token is worth on another mission -/

variable {state : State} {token guid : String} {claims : MissionClaims}

theorem subscriptionsOf_of_reached (henv : env.Lawful) (hsound : Sound env start) {name : String}
    (hname : start.state.nameOf guid = some name)
    (htarget : ∀ mission, request.target caller start.state = some mission → mission.guid ≠ guid)
    (h : Reached env caller request start server) :
    server.state.subscriptionsOf guid = start.state.subscriptionsOf guid := by
  -- A mission made by the request is none that was there before.
  have hadmitted : ∀ mission role, Admitted env caller request start mission role →
      mission.guid ≠ guid := by
    intro mission role hadmitted heq
    rcases hadmitted with ⟨hfresh, -⟩ | ⟨hmission, -⟩
    · exact hsound.not_fresh henv hname (heq ▸ hfresh)
    · exact htarget mission hmission heq
  induction h with
  | refl => rfl
  | tail _ heffect ih =>
    rw [← ih]
    cases heffect with
    | edit event disk hedit => exact subscriptionsOf_edit hedit.1 _ guid
    | subscribe mission sub now disk hmission hid htoken husername hadmit =>
      exact (State.subscriptionsOf_subscribed ..).trans (if_neg (hadmitted mission sub.role hadmit))
    | raise mission sub role disk hsub hadmit =>
      exact (State.subscriptionsOf_subscriptionRoleSet ..).trans
        (if_neg (hadmitted mission role hadmit))
    | assign mission clientUid username role id disk hmission =>
      exact (State.subscriptionsOf_subscriptionRoleSet ..).trans (if_neg (htarget mission hmission))
    | unsubscribe mission id disk hmission =>
      exact (State.subscriptionsOf_unsubscribed ..).trans (if_neg (htarget mission hmission))
    | _ => rfl

theorem admin_roleFor_bare (hadmin : caller.admin = true) :
    env.roleFor state mission caller.bare = some .owner := by
  rw [roleFor, roleFromToken_bare]
  exact if_pos hadmin

section Foreign

variable {bearer : String}
variable (henv : env.Lawful) (hsound : Sound env start) (hshown : (bearer, token) ∈ start.shown)
variable (hdecode : env.tokens.decode token = some claims) (htoken : caller.token = some token)
variable (hother : claims.missionGuid ≠ mission.guid)
variable (hforeign : claims.tokenType = .subscription ∨ claims.missionName ≠ mission.name)

include henv hsound hshown hdecode htoken hother hforeign

theorem idle_of_foreign : Idle env caller mission start where
  token state hsame types := by
    simp only [roleFromToken, htoken, hdecode, Option.bind_eq_bind, Option.bind_some]
    split
    · rfl
    · next hname =>
      rw [not_or, not_not, not_not] at hname
      have htype : claims.tokenType = .subscription := hforeign.resolve_right fun hne => hne hname.2
      have hsubs : ∀ sub ∈ start.state.subscriptionsOf mission.guid, sub.id ≠ claims.id := by
        intro sub hsub hid
        obtain ⟨type, issuedGuid, id, hissued, hsubs⟩ := hsound.shown _ token hshown
        obtain ⟨name, -, hdecode'⟩ := hissued.decode henv
        cases hdecode.symm.trans hdecode'
        exact hother (hsubs htype _ sub hsub hid).1.symm
      rw [htype]
      simpa [State.subscriptionById, hsame] using hsubs

/-- Every permission a request uses on the mission is one of the caller's role without the token. -/
theorem passed_of_foreign (hmission : start.state.byGuid mission.guid = some mission)
    (h : Reached env caller request start server) :
    Grown (fun passed => passed.missionGuid = mission.guid →
      (env.roleFor start.state mission caller.bare).any (·.has passed.permission) =
      true) start.passed server.passed := by
  refine passed_of_reached (fun server found role permission hreached hfound hrole hhas hguid =>
    ?_) h
  have hsame : found.guid = mission.guid := hguid
  obtain rfl : found = mission := by
    rw [hsame, hmission] at hfound
    exact (Option.some.inj hfound).symm
  rcases hrole with hrole | ⟨hadmin, rfl⟩ | hrole
  · rw [← (idle_of_foreign henv hsound hshown hdecode htoken hother hforeign).roleFor, hrole]
    exact hhas
  · rw [admin_roleFor_bare hadmin]
    exact hhas
  · rw [← shown_of_reached hreached] at hshown
    rw [(idle_of_foreign henv (hsound.reached henv hreached).1 hshown hdecode htoken hother
      hforeign).token _ rfl] at hrole
    cases hrole

end Foreign

/-- A token of another mission is worth nothing: in every run, a request with it has the role on the
mission, the permissions there and the subscriptions it would have without it, and a request about
the mission does the same without it. -/
theorem token_confined (henv : env.Lawful) {actions : List Action}
    (hrun : run (step env) {} actions = some server) {bearer token : String}
    {claims : MissionClaims} (hshown : (bearer, token) ∈ server.shown)
    (hdecode : env.tokens.decode token = some claims) (username : String) (headers : Headers)
    (htoken : (env.caller server username headers).token = some token) {mission : MissionRecord}
    (hmission : server.state.byGuid mission.guid = some mission)
    (hother : claims.missionGuid ≠ mission.guid)
    (hforeign : claims.tokenType = .subscription ∨ claims.missionName ≠ mission.name)
    (inputs : Inputs) (request : Request) :
    (∀ types, env.roleFromToken server.state mission (env.caller server username headers) types =
      none) ∧ env.roleFor server.state mission (env.caller server username headers) =
      env.roleFor server.state mission (env.caller server username headers.bare) ∧
    (∃ new, (respond env server username headers inputs request).passed = new ++ server.passed ∧
      ∀ passed ∈ new, passed.missionGuid = mission.guid →
        (env.roleFor server.state mission (env.caller server username headers.bare)).any
        (·.has passed.permission) = true) ∧
    (respond env server username headers inputs request).state.subscriptionsOf mission.guid =
      (respond env server username headers.bare inputs request).state.subscriptionsOf mission.guid ∧
    (request.target (env.caller server username headers) server.state = some mission →
      handle env (env.caller server username headers) inputs request server =
        handle env (env.caller server username headers.bare) inputs request server) := by
  have hsound := sound_of_run henv hrun
  have hidle := idle_of_foreign henv hsound hshown hdecode htoken hother hforeign
  have hhandle : request.target (env.caller server username headers) server.state = some mission →
      handle env (env.caller server username headers) inputs request server =
        handle env (env.caller server username headers.bare) inputs request server :=
    fun htarget => handle_bare htarget hidle
  obtain ⟨next, tokens, hnext, hreached, -⟩ :=
    respond_spec env server username headers inputs request
  refine ⟨hidle.token _ rfl, hidle.roleFor, ?_, ?_, hhandle⟩
  · have hpassed :=
      passed_of_foreign henv hsound hshown hdecode htoken hother hforeign hmission hreached
    rw [hnext]
    exact hpassed
  · by_cases htarget : request.target (env.caller server username headers) server.state =
      some mission
    · -- A request about the mission: the whole answer is the same.
      rw [respond, respond, hhandle htarget]
    · -- Any other leaves its subscriptions alone, with the token and without it.
      obtain ⟨bare, bareTokens, hbare, hbareReached, -⟩ :=
        respond_spec env server username headers.bare inputs request
      have hframe : ∀ found, request.target (env.caller server username headers) server.state =
          some found → found.guid ≠ mission.guid := by
        intro found hfound hguid
        have hbyGuid := (seen_of_target hfound).1
        rw [hguid, hmission] at hbyGuid
        exact htarget (hfound.trans hbyGuid.symm)
      have hwith :=
        subscriptionsOf_of_reached henv hsound (nameOf_of_byGuid hmission) hframe hreached
      rw [show request.target (env.caller server username headers) server.state =
        request.target (env.caller server username headers.bare) server.state by
          cases request <;> rfl] at hframe
      have hwithout :=
        subscriptionsOf_of_reached henv hsound (nameOf_of_byGuid hmission) hframe hbareReached
      rw [hnext, hbare]
      exact hwith.trans hwithout.symm

/-- Two missions under two names, and an access token for the first. -/
def otherName : List Action :=
  [.request "alice" {} {} (.put "Ops" {} false),
    .request "eve" {} { now := 1 } (.about (.name "Ops") (.accessToken "")),
    .request "bob" {} { now := 2 } (.put "Plans" { inviteOnly := true } false)]

theorem token_confined_otherName :
    ∃ server mission, run (step sample) {} otherName = some server ∧
      server.state.byGuid "uuuu" = some mission ∧ ("eve", "Auuu|Ops|u") ∈ server.shown ∧
      sample.roleFor server.state mission
          (sample.caller server "eve" { missionAuthorization := some "Bearer Auuu|Ops|u" }) =
        sample.roleFor server.state mission (sample.caller server "eve" {}) :=
  ⟨_, _, rfl, rfl, by decide +kernel,
    (token_confined sample_lawful (show run (step sample) {} otherName = some _ from rfl)
      (show ("eve", "Auuu|Ops|u") ∈ _ by decide +kernel)
      (show sample.tokens.decode "Auuu|Ops|u" = some ⟨"uuu", .access, "Ops", "u"⟩ by decide +kernel)
        "eve"
      { missionAuthorization := some "Bearer Auuu|Ops|u" } (by decide +kernel) (by decide +kernel)
          (by decide +kernel)
      (by decide +kernel) {} (.about (.name "Plans") .role)).2.1⟩

/-- Two missions under one name, the second for invited users only. -/
def sharedName : List Action :=
  [.request "alice" {} {} (.put "Ops" {} false),
    .request "eve" {} { now := 1 } (.about (.name "Ops") (.accessToken "")),
    .request "bob" {} { now := 2 } (.post "Ops" { inviteOnly := true } false true)]

/-- The access token of the first mission gives its bearer a role and a subscription on the
second. -/
theorem access_token_crosses :
    ∃ server mission, run (step sample) {} sharedName = some server ∧
      ("eve", "Auuu|Ops|u") ∈ server.shown ∧
      sample.tokens.decode "Auuu|Ops|u" =
        some { id := "uuu", tokenType := .access, missionName := "Ops", missionGuid := "u" } ∧
      server.state.byGuid "uuuu" = some mission ∧ mission.name = "Ops" ∧
      sample.roleFor server.state mission
        (sample.caller server "eve" { missionAuthorization := some "Bearer Auuu|Ops|u" }) =
        some .subscriber ∧
      sample.roleFor server.state mission (sample.caller server "eve" {}) = none ∧
      (∃ sub ∈ (respond sample server "eve" { missionAuthorization := some "Bearer Auuu|Ops|u" }
        { now := 3 }
          (.about (.name "Ops") (.subscribe "phone" "" ""))).state.subscriptionsOf "uuuu",
          sub.username = "eve") ∧
      ∀ sub ∈ (respond sample server "eve" {} { now := 3 }
        (.about (.name "Ops") (.subscribe "phone" "" ""))).state.subscriptionsOf "uuuu",
        sub.username ≠ "eve" := by
  refine ⟨_, _, rfl, ?_, ?_, rfl, ?_⟩
  · decide +kernel
  · decide +kernel
  · decide +kernel

end MicroTak.Missions
