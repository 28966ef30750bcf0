import MicroTak.Missions.Protection

/-!
# No self-escalation

What a user can do on a mission stays within a role that covers the mission's default role and the
user's subscriptions, invitations and tokens, as long as nobody names the user, and the user neither
reads invitations that go further nor drops the token where log entries are not checked.
-/

namespace MicroTak.Missions

open Std Handler Groups Transition Relation List

variable {env : Env} {caller : Caller} {request : Request} {start server next : Server}
variable {mission : MissionRecord} {c guid : String} {r : Role}

/-- The user's subscriptions, invitations and invitation tokens on the mission go no further than
`r`. -/
structure Bounded (c guid : String) (r : Role) (server : Server) : Prop where
  subscription : ∀ sub ∈ server.state.subscriptionsOf guid, sub.username = c →
    r.hasAll sub.role = true
  invitation : ∀ i ∈ server.state.invitationsOf guid, i.invitationType = .userName →
    Text.eqIgnoreAsciiCase i.invitee c = true → r.hasAll i.role = true
  token : ∀ i ∈ server.state.invitationsOf guid, (c, i.token) ∈ server.shown →
    r.hasAll i.role = true

instance : Decidable (Bounded c guid r server) :=
  decidable_of_iff ((∀ sub ∈ server.state.subscriptionsOf guid, sub.username = c →
    r.hasAll sub.role = true) ∧
      (∀ i ∈ server.state.invitationsOf guid, i.invitationType = .userName →
        Text.eqIgnoreAsciiCase i.invitee c = true → r.hasAll i.role = true) ∧
      ∀ i ∈ server.state.invitationsOf guid, (c, i.token) ∈ server.shown → r.hasAll i.role = true)
    ⟨fun h => ⟨h.1, h.2.1, h.2.2⟩, fun h => ⟨h.subscription, h.invitation, h.token⟩⟩

/-- Nobody names the user in an invitation or a role assignment on the mission. -/
def Unnamed (env : Env) (c guid : String) (r : Role) (server : Server) : Action → Prop
  | .deliver username notice =>
    username = c → notice.missionGuid = guid → r.hasAll notice.role = true
  | .request username headers _ request =>
      (username = c → OwnTokens env c server (env.caller server c headers)) ∧
        ∀ mission ∈ request.target (env.caller server username headers) server.state,
          mission.guid = guid →
            (∀ assignment ∈ request.assignments, ∀ sub ∈ server.state.subscriptionsOf guid,
              sub.username = c → MissionStore.named assignment.1 assignment.2.1 sub = false) ∧
          ∀ invitee ∈ request.invitees, invitee.1 = .userName →
            Text.eqIgnoreAsciiCase invitee.2 c = false
  | _ => True

instance (action : Action) : Decidable (Unnamed env c guid r server action) :=
  match action with
  | .deliver .. => inferInstanceAs (Decidable (_ → _))
  | .request .. => inferInstanceAs (Decidable (_ ∧ _))
  | .stream .. | .regroup _ | .connect _ | .leave _ | .relay .. | .disk _ =>
    inferInstanceAs (Decidable True)

/-- Names are unique, the default role is covered by `r`, and nobody names the user. -/
structure LeftAlone (env : Env) (c guid : String) (r default : Role) (server : Server)
    (action : Action) : Prop where
  unique : UniqueNames server.state
  defaultRole : ∀ mission ∈ server.state.byGuid guid, mission.effectiveDefaultRole = default
  unnamed : Unnamed env c guid r server action

instance (default : Role) (action : Action) :
    Decidable (LeftAlone env c guid r default server action) :=
  decidable_of_iff (UniqueNames server.state ∧
      (∀ mission ∈ server.state.byGuid guid, mission.effectiveDefaultRole = default) ∧
        Unnamed env c guid r server action)
    ⟨fun h => ⟨h.1, h.2.1, h.2.2⟩, fun h => ⟨h.unique, h.defaultRole, h.unnamed⟩⟩

def Request.listed : Request → Option Key
  | .about key .invitations => some key
  | _ => none

def Request.invitee : Request → Option String
  | .myInvitations clientUid => clientUid
  | _ => none

/-- The user lists no invitation to the mission that goes further than `r`, and a request of the
user on log entries of the mission comes with a role. -/
def Discreet (env : Env) (c guid : String) (r : Role) (server : Server) : Action → Prop
  | .request username headers _ request => username = c →
      (∀ key ∈ request.listed,
        ∀ mission ∈ ((env.caller server c headers).target server.state key).toOption,
          mission.guid = guid → ∀ i ∈ server.state.invitationsOf guid, r.hasAll i.role = true) ∧
      (∀ clientUid ∈ request.invitee, ∀ i ∈ server.state.invitationsFor clientUid .clientUid,
        i.missionGuid = guid → r.hasAll i.role = true) ∧
      ∀ name ∈ request.logMissions server.state,
        ∀ mission ∈ server.state.byName name (env.caller server c headers).visible,
          mission.guid = guid →
            (env.roleFor server.state mission (env.caller server c headers)).isSome = true
  | _ => True

instance (action : Action) : Decidable (Discreet env c guid r server action) :=
  match action with
  | .request .. => inferInstanceAs (Decidable (_ → _))
  | .deliver .. | .stream .. | .regroup _ | .connect _ | .leave _ | .relay .. | .disk _ =>
    inferInstanceAs (Decidable True)

/-! ### What a token gives -/

variable {types : List TokenType} {role : Role} {other name : String} {disk : Option Nat}

theorem roleFromToken_spec {state : State}
    (h : env.roleFromToken state mission caller types = some role) :
    ∃ token claims, caller.token = some token ∧ env.tokens.decode token = some claims ∧
      claims.tokenType ∈ types ∧ claims.missionName = mission.name ∧
      match claims.tokenType with
      | .subscription =>
        ∃ sub ∈ state.subscriptionsOf mission.guid, sub.id = claims.id ∧ sub.role = role
      | .invitation => ∃ i ∈ state.invitations, i.token = token ∧ i.role = role
      | .access => mission.effectiveDefaultRole = role := by
  simp only [Env.roleFromToken, Option.bind_eq_bind, Option.bind_eq_some_iff] at h
  obtain ⟨token, htoken, claims, hdecode, h⟩ := h
  split at h
  · cases h
  · next hname =>
    rw [not_or, not_not, not_not] at hname
    refine ⟨token, claims, htoken, hdecode, hname.1, hname.2, ?_⟩
    cases htype : claims.tokenType with
    | subscription =>
      rw [htype] at h
      obtain ⟨sub, hsub, hrole⟩ := Option.map_eq_some_iff.1 h
      have hid := find?_some hsub
      exact ⟨sub, mem_of_find?_eq_some hsub, of_decide_eq_true hid, hrole⟩
    | invitation =>
      rw [htype] at h
      obtain ⟨i, hi, hrole⟩ := Option.map_eq_some_iff.1 h
      have hi := (Option.filter_eq_some_iff.1 hi).1
      have hid := find?_some hi
      exact ⟨i, mem_of_find?_eq_some hi, of_decide_eq_true hid, hrole⟩
    | access =>
      rw [htype] at h
      exact Option.some.inj h

theorem subscription_bounded (henv : env.Lawful) (hsound : Sound env server)
    (hbounded : Bounded c guid r server) {token : String} {claims : MissionClaims}
    (hshown : (c, token) ∈ server.shown) (hdecode : env.tokens.decode token = some claims)
    (htype : claims.tokenType = .subscription) {sub : SubscriptionRecord}
    (hsub : sub ∈ server.state.subscriptionsOf guid) (hid : sub.id = claims.id) :
    r.hasAll sub.role = true := by
  obtain ⟨type, issuedGuid, id, hissued, hsubs⟩ := hsound.shown c token hshown
  obtain ⟨name, -, hdecode'⟩ := hissued.decode henv
  cases hdecode.symm.trans hdecode'
  exact hbounded.subscription sub hsub (hsubs htype guid sub hsub hid).2

theorem subscriptionToken_bounded (henv : env.Lawful) (hsound : Sound env server)
    (hbounded : Bounded c guid r server) (hown : OwnTokens env c server caller)
    (hguid : mission.guid = guid)
    (h : env.roleFromToken server.state mission caller [.subscription] = some role) :
    r.hasAll role = true := by
  obtain ⟨token, claims, htoken, hdecode, htype, -, hrole⟩ := roleFromToken_spec h
  have htype := mem_singleton.1 htype
  rw [htype, hguid] at hrole
  obtain ⟨sub, hsub, hid, rfl⟩ := hrole
  exact subscription_bounded henv hsound hbounded (hown.shown htoken hdecode) hdecode htype hsub hid

theorem roleFromToken_bounded (henv : env.Lawful) (hsound : Sound env server)
    (hunique : UniqueNames server.state) (hmission : server.state.byGuid guid = some mission)
    (hdefault : r.hasAll mission.effectiveDefaultRole = true) (hbounded : Bounded c guid r server)
    (hown : OwnTokens env c server caller)
    (h : env.roleFromToken server.state mission caller types = some role) :
    r.hasAll role = true := by
  have hguid := server.state.guid_of_byGuid hmission
  obtain ⟨token, claims, htoken, hdecode, -, hname, hrole⟩ := roleFromToken_spec h
  have hshown := hown.shown htoken hdecode
  cases htype : claims.tokenType with
  | subscription =>
    rw [htype, hguid] at hrole
    obtain ⟨sub, hsub, hid, rfl⟩ := hrole
    exact subscription_bounded henv hsound hbounded hshown hdecode htype hsub hid
  | invitation =>
    rw [htype] at hrole
    obtain ⟨i, hi, rfl, rfl⟩ := hrole
    -- The invitation is to the one mission of the name the token carries.
    obtain ⟨id, hissued⟩ := hsound.invitation i hi
    obtain ⟨name, hnameOf, hdecode'⟩ := hissued.decode henv
    cases hdecode.symm.trans hdecode'
    have hsame : name = mission.name := hname
    have higuid : i.missionGuid = guid :=
      hunique.guid_eq hnameOf (hsame ▸ nameOf_of_byGuid hmission)
    exact hbounded.token i (mem_filter.2 ⟨hi, decide_eq_true higuid⟩) hshown
  | access =>
    rw [htype] at hrole
    exact hrole ▸ hdefault

section Roles

variable (henv : env.Lawful) (hsound : Sound env server) (hunique : UniqueNames server.state)
variable (hmission : server.state.byGuid guid = some mission)
  (hdefault : r.hasAll mission.effectiveDefaultRole = true)
variable (hbounded : Bounded c guid r server) (hown : OwnTokens env c server caller)

include henv hsound hunique hmission hdefault hbounded hown

theorem roleFor_bounded (hadmin : caller.admin = false)
    (h : env.roleFor server.state mission caller = some role) : r.hasAll role = true := by
  rw [Env.roleFor] at h
  split at h
  · next htoken =>
    cases h
    exact roleFromToken_bounded henv hsound hunique hmission hdefault hbounded hown htoken
  · rw [hadmin] at h
    split at h
    · next hfalse => cases hfalse
    · split at h
      · cases h
      · exact Option.some.inj h ▸ hdefault

theorem subscriptionRole_bounded (husername : caller.username = c) {password : String}
    (h : subscriptionRole env caller server.state mission password = .ok role) :
    r.hasAll role = true := by
  have htoken : ∀ {types role}, env.roleFromToken server.state mission caller types = some role →
      r.hasAll role = true :=
        roleFromToken_bounded henv hsound hunique hmission hdefault hbounded hown
  have hgetD : ∀ {types}, r.hasAll
      ((env.roleFromToken server.state mission caller types).getD mission.effectiveDefaultRole) =
        true := by
    intro types
    cases hrole : env.roleFromToken server.state mission caller types with
    | none => exact hdefault
    | some role => exact htoken hrole
  simp only [subscriptionRole] at h
  split at h
  · split at h
    · split at h
      · exact Except.ok.inj h ▸ hgetD
      · cases h
    · split at h
      · next hrole => exact Except.ok.inj h ▸ htoken hrole
      · cases h
  · split at h
    · cases h
    · split at h
      · split at h
        · next invitation hfind =>
          obtain rfl := Except.ok.inj h
          have hmem := mem_of_find?_eq_some hfind
          have higuid := find?_some hfind
          obtain ⟨hi, hfor⟩ := mem_filter.1 hmem
          rw [Bool.and_eq_true, Bool.and_eq_true, decide_eq_true_eq, husername] at hfor
          refine hbounded.invitation invitation (mem_filter.2 ⟨hi, ?_⟩) hfor.1.1 hfor.1.2
          rw [← server.state.guid_of_byGuid hmission]
          exact higuid
        · cases h
      · exact Except.ok.inj h ▸ hgetD

end Roles

/-! ### What a request keeps -/

section

variable (h : Bounded c guid r server)

include h

theorem Bounded.of_subset (hsubs : ∀ sub ∈ next.state.subscriptionsOf guid, sub.username = c →
      sub ∈ server.state.subscriptionsOf guid ∨ r.hasAll sub.role = true)
    (hinvitations : ∀ i ∈ next.state.invitations, i ∈ server.state.invitations)
    (hshown : next.shown = server.shown) : Bounded c guid r next := by
  have hmem : ∀ i ∈ next.state.invitationsOf guid, i ∈ server.state.invitationsOf guid := by
    intro i hi
    obtain ⟨hi, hguid⟩ := mem_filter.1 hi
    exact mem_filter.2 ⟨hinvitations i hi, hguid⟩
  refine ⟨fun sub hsub hc => ?_, fun i hi => h.invitation i (hmem i hi), fun i hi hseen => ?_⟩
  · exact (hsubs sub hsub hc).elim (fun hold => h.subscription sub hold hc) id
  · exact h.token i (hmem i hi) (hshown ▸ hseen)

/-- What a request by anyone may do to the user's roles on the mission. -/
structure Harmless (env : Env) (caller : Caller) (request : Request) (start : Server)
    (c guid : String) (r : Role) : Prop where
  admitted : caller.username = c → ∀ mission role, Admitted env caller request start mission role →
    mission.guid = guid → r.hasAll role = true
  assigned : ∀ mission, request.target caller start.state = some mission → mission.guid = guid →
    ∀ assignment ∈ request.assignments, ∀ sub ∈ start.state.subscriptionsOf guid, sub.username = c →
      MissionStore.named assignment.1 assignment.2.1 sub = false
  invited : ∀ mission, request.target caller start.state = some mission → mission.guid = guid →
    ∀ invitee ∈ request.invitees, invitee.1 = .userName → Text.eqIgnoreAsciiCase invitee.2 c = false

theorem Bounded.subscribed {new : SubscriptionRecord}
    (hnew : other = guid → new.username = c → r.hasAll new.role = true) :
    Bounded c guid r (server.drew.applied (.subscribed other new) disk) := by
  refine h.of_subset (fun sub hsub hc => ?_) (fun i hi => hi) rfl
  rcases mem_subscriptionsOf_subscribed hsub with hold | ⟨hguid, rfl⟩
  · exact .inl hold
  · exact .inr (hnew hguid hc)

theorem Bounded.roleSet {id : String}
    (hrole : other = guid → ∀ old ∈ server.state.subscriptionsOf guid, old.id = id →
      old.username = c → r.hasAll role = true) :
      Bounded c guid r (server.applied (.subscriptionRoleSet other id role) disk) := by
  refine h.of_subset (fun sub hsub hc => ?_) (fun i hi => mem_invitations_apply rfl hi) rfl
  have hset : sub ∈
      (server.state.apply (.subscriptionRoleSet other id role)).subscriptionsOf guid := hsub
  rw [State.subscriptionsOf_subscriptionRoleSet] at hset
  split at hset
  · next hguid =>
    subst hguid
    rcases Dict.mem_of_update rfl (fun _ _ => rfl) hset with hold | ⟨old, hold, hid, rfl⟩
    · exact .inl hold
    · exact .inr (hrole rfl old hold hid hc)
  · exact .inl hset

private theorem Bounded.invited (henv : env.Lawful) (hsound : Sound env server)
    {new : InvitationRecord} {now : Int} {notices : List InviteNotice}
    (htoken : new.token = env.tokens.create (env.randomUuid server.drawn) .invitation
      name other now)
    (hnew : new.missionGuid = guid → new.invitationType = .userName →
      Text.eqIgnoreAsciiCase new.invitee c = false) :
    Bounded c guid r { server.drew.applied (.invited new) disk with notices } := by
  have hmem : ∀ i ∈ (server.state.apply (.invited new)).invitationsOf guid,
      i ∈ server.state.invitationsOf guid ∨ i = new ∧ new.missionGuid = guid := by
    intro i hi
    obtain ⟨hi, hguid⟩ := mem_filter.1 hi
    rcases mem_append.1 hi with hold | hi
    · exact .inl (mem_filter.2 ⟨(mem_filter.1 hold).1, hguid⟩)
    · rw [mem_singleton.1 hi] at hguid
      exact .inr ⟨mem_singleton.1 hi, of_decide_eq_true hguid⟩
  refine ⟨h.subscription, fun i hi htype hinvitee => ?_, fun i hi hshown => ?_⟩
  · rcases hmem i hi with hold | ⟨rfl, hguid⟩
    · exact h.invitation i hold htype hinvitee
    · rw [hnew hguid htype] at hinvitee
      cases hinvitee
  · rcases hmem i hi with hold | ⟨rfl, hguid⟩
    · exact h.token i hold hshown
    · -- Nobody has seen the token of a new invitation.
      obtain ⟨type, issuedGuid, id, hissued, -⟩ := hsound.shown c i.token hshown
      exact absurd htoken (hissued.ne_create henv)

end

theorem Bounded.reached (henv : env.Lawful) (hsound : Sound env start) (h : Bounded c guid r start)
    (hharmless : Harmless env caller request start c guid r)
    (hreached : Reached env caller request start server) : Bounded c guid r server := by
  induction hreached with
  | refl => exact h
  | @tail server next hbefore heffect ih =>
    have hsoundNow := (hsound.reached henv hbefore).1
    cases heffect with
    | edit event disk hedit =>
      refine ih.of_subset (fun sub hsub _ => .inl ?_) (fun i hi => ?_) rfl
      · exact (subscriptionsOf_edit hedit.1 server.state guid) ▸ hsub
      · exact mem_invitations_apply (Event.not_isGrant_of_isEdit hedit.1) hi
    | subscribe mission new now disk hmission hid htoken husername hadmitted =>
      refine ih.subscribed fun hguid hc => ?_
      exact hharmless.admitted (husername.symm.trans hc) mission new.role hadmitted hguid
    | raise mission sub role disk hsub hadmitted =>
      refine ih.roleSet fun hguid old hold hid hc => ?_
      have hmem := mem_of_find?_eq_some hsub
      have hfound := find?_some hsub
      rw [Bool.and_eq_true, decide_eq_true_eq, decide_eq_true_eq] at hfound
      obtain ⟨-, -, husername⟩ := hsoundNow.id_unique guid old hold mission.guid sub hmem hid
      exact hharmless.admitted (hfound.2.symm.trans (husername.symm.trans hc)) mission role
        hadmitted hguid
    | assign mission clientUid username role id disk hmission hassign hrole hkeys hnamed =>
      refine ih.roleSet fun hguid old hold hid hc => ?_
      -- A subscription the assignment names is none of the user's.
      obtain ⟨sub, hsub, rfl, hname⟩ := hnamed
      have hkey : (old.id, old.clientUid, old.username) ∈
          subscriptionKeys server.state mission.guid :=
        mem_map.2 ⟨old, hguid ▸ hold, rfl⟩
      rw [hkeys] at hkey
      obtain ⟨kept, hkept, heq⟩ := mem_map.1 hkey
      rw [Prod.mk.injEq, Prod.mk.injEq] at heq
      obtain ⟨-, -, husername⟩ :=
        hsound.id_unique _ sub hsub _ kept hkept (hid.symm.trans heq.1.symm)
      have hunnamed := hharmless.assigned mission hmission hguid _ hassign sub (hguid ▸ hsub)
        (husername.trans (heq.2.2.trans hc))
      rw [hname] at hunnamed
      cases hunnamed
    | unsubscribe mission id disk hmission =>
      refine ih.of_subset (fun sub hsub _ => .inl ?_) (fun i hi => mem_invitations_apply rfl hi) rfl
      have hleft :
          sub ∈ (server.state.apply (.unsubscribed mission.guid id)).subscriptionsOf guid := hsub
      rw [State.subscriptionsOf_unsubscribed] at hleft
      split at hleft
      · next hguid => exact hguid ▸ (mem_filter.1 hleft).1
      · exact hleft
    | invite mission invitation now disk hmission hguid hname htoken hinvitee hrole =>
      refine ih.invited henv hsoundNow htoken fun hinvited => ?_
      exact hharmless.invited mission hmission (hguid ▸ hinvited) _ hinvitee
    | _ => exact ih.of_subset (fun _ hsub _ => .inl hsub) (fun _ hi => hi) rfl

/-! ### What a step keeps -/

section Step

variable {username : String} {headers : Headers} {inputs : Inputs} {default : Role}
variable (henv : env.Lawful) (hadmin : env.isAdmin c = false) (hsound : Sound env start)
variable (hname : start.state.nameOf guid = some name) (hdefault : r.hasAll default = true)
variable (hbounded : Bounded c guid r start)
variable (hleft : LeftAlone env c guid r default start (.request username headers inputs request))

include henv hsound hname hdefault hbounded hleft

theorem harmless_of_leftAlone :
    Harmless env (env.caller start username headers) request start c guid r where
  admitted := by
    intro husername found role hadmitted hguid
    subst husername
    rcases hadmitted with ⟨hfresh, -⟩ | ⟨htarget, key, uid, topic, password, rfl, hrole⟩
    · exact absurd (hguid ▸ hfresh) (hsound.not_fresh henv hname)
    · have hfound : start.state.byGuid guid = some found := hguid ▸ (seen_of_target htarget).1
      have hcovers : r.hasAll found.effectiveDefaultRole = true :=
        hleft.defaultRole found hfound ▸ hdefault
      exact subscriptionRole_bounded henv hsound hleft.unique hfound hcovers hbounded
        (hleft.unnamed.1 rfl) rfl hrole
  assigned := fun found htarget hguid => (hleft.unnamed.2 found htarget hguid).1
  invited := fun found htarget hguid => (hleft.unnamed.2 found htarget hguid).2

include hadmin in
theorem passed_bounded
    (hreached : Reached env (env.caller start username headers) request start server) :
    Grown (fun passed => passed.username = c → passed.missionGuid = guid →
      r.has passed.permission = true) start.passed server.passed := by
  have hharmless := harmless_of_leftAlone henv hsound hname hdefault hbounded hleft
  refine passed_of_reached
    (fun server found role permission hbefore hfound hrole hhas husername hguid => ?_) hreached
  have hguid : found.guid = guid := hguid
  subst husername
  rw [hguid] at hfound
  have hcovers : r.hasAll found.effectiveDefaultRole = true :=
    hleft.defaultRole found hfound ▸ hdefault
  have hown := hleft.unnamed.1 rfl
  refine Role.has_of_hasAll ?_ hhas
  rcases hrole with hrole | ⟨hadmin', -⟩ | hrole
  · exact roleFor_bounded henv hsound hleft.unique hfound hcovers hbounded hown hadmin hrole
  · rw [show (env.caller start username headers).admin = false from hadmin] at hadmin'
    cases hadmin'
  · have hownNow : OwnTokens env username server (env.caller start username headers) := by
      rw [OwnTokens, shown_of_reached hbefore]
      exact hown
    exact subscriptionToken_bounded henv (hsound.reached henv hbefore).1
      (hbounded.reached henv hsound hharmless hbefore) hownNow hguid hrole

omit hname hdefault in
theorem Shows.bounded
    (hdiscreet : Discreet env c guid r start (.request username headers inputs request))
    (husername : username = c)
    (hreached : Reached env (env.caller start username headers) request start server)
    {i : InvitationRecord} (hi : i ∈ server.state.invitationsOf guid)
    (hshows : Shows env (env.caller start username headers) request start server i.token) :
    r.hasAll i.role = true := by
  have hsoundNow := (hsound.reached henv hreached).1
  obtain ⟨hmem, higuid⟩ := mem_filter.1 hi
  have higuid : i.missionGuid = guid := of_decide_eq_true higuid
  obtain ⟨id, hissued⟩ := hsoundNow.invitation i hmem
  obtain ⟨iname, -, hdecode⟩ := hissued.decode henv
  -- Two invitations with one token are to one mission and for one role.
  have hsame : ∀ j ∈ server.state.invitations, j.token = i.token → j.missionGuid = guid ∧
      j.role = i.role := by
    intro j hj htoken
    obtain ⟨id', hissued'⟩ := hsoundNow.invitation j hj
    obtain ⟨jname, -, hdecode'⟩ := hissued'.decode henv
    rw [htoken, hdecode] at hdecode'
    have hguid : i.missionGuid = j.missionGuid :=
      congrArg MissionClaims.missionGuid (Option.some.inj hdecode')
    exact ⟨hguid.symm.trans higuid, hsoundNow.token_unique j hj i hmem htoken⟩
  subst husername
  generalize htoken : i.token = token at hshows
  cases hshows with
  | own other sub hsub hown =>
    obtain ⟨subname, -, hdecode'⟩ := (hsoundNow.subscription other sub hsub).decode henv
    rw [← htoken, hdecode] at hdecode'
    cases congrArg MissionClaims.tokenType (Option.some.inj hdecode')
  | access found k now htarget hk hgate =>
    rw [htoken, henv.tokens.decode_create] at hdecode
    cases congrArg MissionClaims.tokenType (Option.some.inj hdecode)
  | listed found j htarget hrequest hrole hstate hj =>
    obtain ⟨hj, hjguid⟩ := mem_filter.1 hj
    obtain ⟨hguid, -⟩ := hsame j (hstate ▸ hj) htoken.symm
    obtain ⟨key, rfl⟩ := hrequest
    have hfound : found.guid = guid := (of_decide_eq_true hjguid).symm.trans hguid
    exact (hdiscreet rfl).1 key rfl found htarget hfound i (hstate ▸ hi)
  | mine clientUid j hrequest hstate hj =>
    subst hrequest
    have hrole : ∀ j ∈ start.state.invitations, j.token = i.token →
        (j.missionGuid = guid → r.hasAll j.role = true) → r.hasAll i.role = true := by
      intro j hj hjtoken hcovers
      obtain ⟨hguid, hrole⟩ := hsame j (hstate ▸ hj) hjtoken
      exact hrole ▸ hcovers hguid
    rcases mem_append.1 (mem_filter.1 hj).1 with hj | hj
    · exact hrole j (mem_filter.1 hj).1 htoken.symm fun hguid =>
        (hdiscreet rfl).2.1 clientUid rfl j hj hguid
    · obtain ⟨hjmem, hfor⟩ := mem_filter.1 (mem_filter.1 hj).1
      rw [Bool.and_eq_true, Bool.and_eq_true, decide_eq_true_eq] at hfor
      refine hrole j hjmem htoken.symm fun hguid => ?_
      exact hbounded.invitation j (mem_filter.2 ⟨hjmem, decide_eq_true hguid⟩) hfor.1.1 hfor.1.2

end Step

theorem Bounded.show (h : Bounded c guid r server) {username : String} {tokens : List String}
    (htokens : username = c → ∀ i ∈ server.state.invitationsOf guid, i.token ∈ tokens →
      r.hasAll i.role = true) :
    Bounded c guid r (server.show username tokens) := by
  refine ⟨h.subscription, h.invitation, fun i hi hshown => ?_⟩
  rcases mem_append.1 hshown with hnew | hold
  · obtain ⟨token, htoken, heq⟩ := mem_map.1 hnew
    cases heq
    exact htokens rfl i hi htoken
  · exact h.token i hi hold

/-- Every check of the mission that the steps from `start` to `server` pass for the user is one of
`r`, and they spare the user none. -/
def Within (c guid : String) (r : Role) (start server : Server) : Prop :=
  (∃ new, server.passed = new ++ start.passed ∧
    ∀ passed ∈ new, passed.username = c → passed.missionGuid = guid →
      r.has passed.permission = true) ∧
  ∃ new, server.spared = new ++ start.spared ∧ ∀ spared ∈ new, spared.username = c →
    spared.missionGuid ≠ guid

theorem Within.of_eq (hpassed : server.passed = start.passed)
    (hspared : server.spared = start.spared) : Within c guid r start server :=
  ⟨⟨[], hpassed, forall_mem_nil _⟩, [], hspared, forall_mem_nil _⟩

theorem Within.trans (h : Within c guid r start server) (h' : Within c guid r server next) :
    Within c guid r start next := by
  exact ⟨Grown.trans h.1 h'.1, Grown.trans h.2 h'.2⟩

private theorem Bounded.step (henv : env.Lawful) (hadmin : env.isAdmin c = false)
    (hsound : Sound env server) (hname : server.state.nameOf guid = some name) {default : Role}
    (hdefault : r.hasAll default = true) (h : Bounded c guid r server) {action : Action}
    (hleft : LeftAlone env c guid r default server action)
    (hdiscreet : Discreet env c guid r server action) (hstep : step env server action = some next) :
    Bounded c guid r next ∧ Within c guid r server next := by
  cases step_outcome hstep with
  | request username headers inputs request tokens next hreached hshows =>
    have hharmless := harmless_of_leftAlone henv hsound hname hdefault h hleft
    have hspared :=
      spared_of_reached (P := fun spared => spared.username = c → spared.missionGuid ≠ guid)
        (fun name mission permission hlog hmission hrole husername hguid => by
        have husername : username = c := husername
        subst husername
        have hsome := (hdiscreet rfl).2.2 name hlog mission hmission hguid
        rw [hrole] at hsome
        cases hsome) hreached
    have hpassed := passed_bounded henv hadmin hsound hname hdefault h hleft hreached
    refine ⟨(h.reached henv hsound hharmless hreached).show fun husername i hi htoken =>
      ?_, hpassed, hspared⟩
    exact (hshows i.token htoken).bounded henv hsound h hleft hdiscreet husername hreached hi
  | stream username clientUid names guids eventUid now next hstreamed =>
    obtain ⟨hshown, hspared, hsubs⟩ := kept_of_streamed hstreamed
    have hnarrows : Narrows env server next := narrows_of_streamed hstreamed
    refine ⟨h.of_subset (fun sub hsub _ => .inl (hsubs guid ▸ hsub)) hnarrows.invitation hshown,
      ?_, [], hspared, forall_mem_nil _⟩
    refine passed_of_streamed hstreamed fun other sub hsub hsender hhas husername hguid => ?_
    obtain rfl : other = guid := hguid
    exact Role.has_of_hasAll (h.subscription sub hsub (hsender.trans husername)) hhas
  | deliver username notice hnotice =>
    refine ⟨h.show fun husername i hi htoken => ?_, .of_eq rfl rfl⟩
    obtain ⟨hmem, higuid⟩ := mem_filter.1 hi
    have htoken := mem_singleton.1 htoken
    -- The notice is of the invitation it carries the token of.
    obtain ⟨id, hissued⟩ := hsound.notice notice hnotice
    obtain ⟨id', hissued'⟩ := hsound.invitation i hmem
    obtain ⟨noticeName, -, hdecode⟩ := hissued.decode henv
    obtain ⟨iname, -, hdecode'⟩ := hissued'.decode henv
    rw [htoken, hdecode] at hdecode'
    have hguid : notice.missionGuid = i.missionGuid :=
      congrArg MissionClaims.missionGuid (Option.some.inj hdecode')
    rw [hsound.notice_role notice hnotice i hmem htoken]
    exact hleft.unnamed husername (hguid.trans (of_decide_eq_true higuid))
  | outside _ _ hstate hdrawn hnotices hpassed hspared hshown =>
    refine ⟨h.of_subset (fun sub hsub _ => .inl (hstate ▸ hsub)) (fun i hi => hstate ▸ hi) hshown,
      ?_⟩
    exact .of_eq hpassed hspared

end MicroTak.Missions
