import MicroTak.Missions.Justified

/-!
# What every run keeps

Every step is a request with its effects and the tokens it shows, streamed content, a delivery, or a
change outside the store.  Ids are drawn once, names of missions never change, and every token in
the hands of a user was issued for the mission whose guid it carries.
-/

namespace MicroTak.Missions

open Std Handler Groups Transition Relation State

variable {env : Env} {caller : Caller} {request : Request} {start server next : Server}

/-- A change while streamed content is routed. -/
inductive Streamed (username clientUid : String) : Server → Server → Prop where
  | pass (server : Server) (guid : String) (sub : SubscriptionRecord)
      (hsub : server.state.findSubscription guid clientUid username = some sub)
        (hhas : sub.role.has .write = true) :
      Streamed username clientUid server (server.note username guid .write)
  | edit (server : Server) (event : Event) (disk : Option Nat) (hedit : event.isEdit = true)
      (hlayers : ∀ state : State, (state.apply event).data.layers = state.data.layers) :
      Streamed username clientUid server (server.applied event disk)

/-- A step, as far as missions and tokens go. -/
inductive Outcome (env : Env) (server : Server) : Action → Server → Prop where
  | request (username : String) (headers : Headers) (inputs : Inputs) (request : Request)
    (tokens : List String)
      (next : Server)
        (hreached : Reached env (env.caller server username headers) request server next)
      (hshows : ∀ token ∈ tokens,
        Shows env (env.caller server username headers) request server next token) :
      Outcome env server (.request username headers inputs request) (next.show username tokens)
  | stream (username clientUid : String) (names guids : List String) (eventUid : String) (now : Int)
    (next : Server)
      (hstreamed : ReflTransGen (Streamed username clientUid) server next) :
      Outcome env server (.stream username clientUid names guids eventUid now) next
  | deliver (username : String) (notice : InviteNotice) (hnotice : notice ∈ server.notices) :
      Outcome env server (.deliver username notice) (server.show username [notice.token])
  | outside (action : Action) (next : Server) (hstate : next.state = server.state)
    (hdrawn : next.drawn = server.drawn)
      (hnotices : next.notices = server.notices) (hpassed : next.passed = server.passed)
      (hspared : next.spared = server.spared) (hshown : next.shown = server.shown) :
        Outcome env server action next

theorem streamed_routeTo (username clientUid eventUid : String) (now : Int) (server : Server)
    (mission : MissionRecord) :
    ReflTransGen (Streamed username clientUid) server
    (routeTo username clientUid eventUid now server mission) := by
  rw [routeTo]
  split
  · exact .refl
  · next sub hsub =>
    split
    · next hhas =>
      have hpass : ReflTransGen (Streamed username clientUid) server
          (server.note username mission.guid .write) :=
        .single (.pass server mission.guid sub hsub hhas)
      have hstable : EditStable (fun event => event.isEdit = true ∧
          ∀ state : State, (state.apply event).data.layers = state.data.layers)
          (ReflTransGen (Streamed username clientUid) server) :=
        fun next event disk hevent hnext => hnext.tail (.edit next event disk hevent.1 hevent.2)
      exact ((keeps_addContent hstable fun _ =>
        ⟨rfl, fun _ => layers_noteChange _⟩).run hpass).after
    · exact .refl

theorem respond_state (env : Env) (server : Server) (username : String) (headers : Headers)
    (inputs : Inputs) (request : Request) :
    (respond env server username headers inputs request).state =
      (after (handle env (env.caller server username headers) inputs request) server).state := by
  rw [respond, after]
  cases handle env (env.caller server username headers) inputs request server <;> rfl

theorem respond_spec (env : Env) (server : Server) (username : String) (headers : Headers)
    (inputs : Inputs) (request : Request) :
    ∃ next tokens, respond env server username headers inputs request = next.show username tokens ∧
      Reached env (env.caller server username headers) request server next ∧
      ∀ token ∈ tokens,
      Shows env (env.caller server username headers) request server next token := by
  have hjustified : Justified env (env.caller server username headers) request server
      (handle env (env.caller server username headers) inputs request) := handle_justified
  rw [Justified, wp] at hjustified
  rw [respond]
  cases hhandle : handle env (env.caller server username headers) inputs request server with
  | ok reply next =>
    rw [hhandle] at hjustified
    exact ⟨next, reply.tokens, rfl, hjustified⟩
  | error e next =>
    rw [hhandle] at hjustified
    exact ⟨next, [], rfl, hjustified, List.forall_mem_nil _⟩

variable {action : Action} {guid id token name username clientUid : String}
  {mission : MissionRecord} {last : Server} {type : TokenType} {now : Int}
  {sub new : SubscriptionRecord} {P : Passed → Prop}

theorem step_outcome (hstep : step env server action = some next) :
    Outcome env server action next := by
  cases action with
  | request username headers inputs request =>
    cases hstep
    obtain ⟨next, tokens, hnext, hreached, hshows⟩ :=
      respond_spec env server username headers inputs request
    rw [hnext]
    exact .request username headers inputs request tokens next hreached hshows
  | stream username clientUid names guids eventUid now =>
    cases hstep
    refine .stream username clientUid names guids eventUid now _ ?_
    generalize streamTargets server username names guids = targets
    induction targets generalizing server with
    | nil => exact .refl
    | cons mission rest ih =>
      exact (streamed_routeTo username clientUid eventUid now server mission).trans ih
  | deliver username notice =>
    rw [step] at hstep
    split at hstep
    · next hreceives =>
      cases hstep
      rw [Server.receives, Bool.and_eq_true, List.contains_iff_mem] at hreceives
      exact .deliver username notice hreceives.1
    · cases hstep
  | _ =>
    cases hstep
    exact .outside _ _ rfl rfl rfl rfl rfl rfl

/-- `after` is `before` with more in front, all of which has the property. -/
def Grown {α : Type} (P : α → Prop) (before after : List α) : Prop := ∃ new, after = new ++ before ∧
    ∀ a ∈ new, P a

section Grown

variable {α : Type} {Q : α → Prop} {before between after : List α} {a : α}

theorem Grown.refl : Grown Q before before := ⟨[], rfl, List.forall_mem_nil _⟩

theorem Grown.trans (h : Grown Q before between) (h' : Grown Q between after) :
    Grown Q before after := by
  obtain ⟨new, rfl, hnew⟩ := h
  obtain ⟨more, rfl, hmore⟩ := h'
  exact ⟨more ++ new, (List.append_assoc ..).symm, List.forall_mem_append.2 ⟨hmore, hnew⟩⟩

theorem Grown.cons (h : Grown Q before after) (ha : Q a) : Grown Q before (a :: after) :=
  h.trans ⟨[a], rfl, List.forall_mem_singleton.2 ha⟩

end Grown

theorem passed_of_reached
    (hpass : ∀ server mission role permission, Reached env caller request start server →
      start.state.byGuid mission.guid = some mission →
      HoldsRole env caller start server mission role → role.has permission = true → P
      { username := caller.username, missionGuid := mission.guid, permission })
    (h : Reached env caller request start server) : Grown P start.passed server.passed := by
  induction h with
  | refl => exact .refl
  | @tail server next hreached heffect ih =>
    cases heffect with
    | pass mission role permission hmission hrole hhas =>
      exact ih.cons (hpass server mission role permission hreached hmission hrole hhas)
    | _ => exact ih

/-- The checks a request is spared: on missions of log entries where the caller has no role. -/
theorem spared_of_reached
    (hspare : ∀ name mission permission, name ∈ request.logMissions start.state →
      start.state.byName name caller.visible = some mission →
      env.roleFor start.state mission caller = none → P
      { username := caller.username, missionGuid := mission.guid, permission })
    (h : Reached env caller request start server) : Grown P start.spared server.spared := by
  induction h with
  | refl => exact .refl
  | tail _ heffect ih =>
    cases heffect with
    | spare name mission permission hname hmission hrole =>
      exact ih.cons (hspare name mission permission hname hmission hrole)
    | _ => exact ih

/-! ### Names -/

/-- The name of a mission, deleted ones too. -/
def State.nameOf (state : State) (guid : String) : Option String := (state.byGuid guid).map (·.name)

variable {state : State}

private theorem nameOf_updateMission {f : MissionRecord → MissionRecord}
    {hf : ∀ mission, (f mission).guid = mission.guid}
    (hname : ∀ mission, (f mission).name = mission.name) (other : String) :
    (state.updateMission guid f hf).nameOf other = state.nameOf other := by
  rw [nameOf, nameOf, byGuid_updateMission]
  split
  · rw [Option.map_map]
    exact congrArg (fun g => (state.byGuid other).map g) (funext hname)
  · rfl

variable {event : Event}

theorem nameOf_apply (hevent : ∀ mission changeId, event ≠ .created mission changeId)
    (guid : String) : (state.apply event).nameOf guid = state.nameOf guid := by
  cases event with
  | created mission changeId => exact absurd rfl (hevent mission changeId)
  | subscriptionRoleSet other id role | unsubscribed other id =>
    rw [apply]
    split <;> rfl
  | subscribed | invited | uninvited | logEntrySaved | logEntryDeleted | data => rfl
  | deleted | contentAdded | contentRemoved =>
    refine (congrArg (Option.map _) (byGuid_noteChange _ guid)).trans (nameOf_updateMission ?_ guid)
    exact fun _ => rfl
  | _ =>
    refine nameOf_updateMission ?_ guid
    exact fun _ => rfl

theorem nameOf_created (mission : MissionRecord) (changeId : Nat) (guid : String) :
    (state.apply (.created mission changeId)).nameOf guid =
      if mission.guid = guid then some mission.name else state.nameOf guid := by
  rw [nameOf, byGuid_created]
  split <;> rfl

theorem nameOf_of_byGuid (h : state.byGuid guid = some mission) :
    state.nameOf guid = some mission.name := by
  rw [nameOf, h]
  rfl

/-! ### Ids and tokens -/

def Drawn (env : Env) (server : Server) (id : String) : Prop := ∃ k, k < server.drawn ∧
    id = env.randomUuid k

def Issued (env : Env) (server : Server) (type : TokenType) (guid id token : String) : Prop :=
  Drawn env server id ∧ ∃ name now, server.state.nameOf guid = some name ∧
    token = env.tokens.create id type name guid now

structure Extends (server next : Server) : Prop where
  drawn : server.drawn ≤ next.drawn
  name : ∀ guid name, server.state.nameOf guid = some name → next.state.nameOf guid = some name

theorem Extends.trans (h : Extends server next) (h' : Extends next last) : Extends server last :=
  ⟨h.drawn.trans h'.drawn, fun guid name hname => h'.name guid name (h.name guid name hname)⟩

theorem Drawn.mono (h : Drawn env server id) (hle : server.drawn ≤ next.drawn) :
    Drawn env next id := by
  obtain ⟨k, hk, rfl⟩ := h
  exact ⟨k, by omega, rfl⟩

theorem Issued.mono (h : Issued env server type guid id token)
    (hextends : Extends server next) : Issued env next type guid id token := by
  obtain ⟨hdrawn, name, now, hname, htoken⟩ := h
  exact ⟨hdrawn.mono hextends.drawn, name, now, hextends.name guid name hname, htoken⟩

theorem not_drawn_next (henv : env.Lawful) : ¬ Drawn env server (env.randomUuid server.drawn) := by
  intro ⟨k, hk, heq⟩
  have := henv.randomUuid_injective heq
  omega

theorem Issued.decode (henv : env.Lawful) (h : Issued env server type guid id token) :
    ∃ name, server.state.nameOf guid = some name ∧
      env.tokens.decode token =
      some { id, tokenType := type, missionName := name, missionGuid := guid } := by
  obtain ⟨-, name, now, hname, rfl⟩ := h
  exact ⟨name, hname, henv.tokens.decode_create ..⟩

theorem Issued.ne_create (henv : env.Lawful) {type' : TokenType} {name' guid' : String}
    (h : Issued env server type guid id token) :
    token ≠ env.tokens.create (env.randomUuid server.drawn) type' name' guid' now := by
  intro heq
  obtain ⟨name, -, hdecode⟩ := h.decode henv
  rw [heq, henv.tokens.decode_create] at hdecode
  have hid : env.randomUuid server.drawn = id := congrArg MissionClaims.id (Option.some.inj hdecode)
  exact not_drawn_next henv (hid ▸ h.1)

/-- A token in the hands of a user: issued for a mission, and a subscription token for one of the
user's own. -/
def Held (env : Env) (server : Server) (username token : String) : Prop :=
  ∃ type guid id, Issued env server type guid id token ∧
    (type = .subscription → ∀ guid', ∀ sub ∈ server.state.subscriptionsOf guid',
      sub.id = id → guid' = guid ∧ sub.username = username)

structure Sound (env : Env) (server : Server) : Prop where
  guid_drawn : ∀ guid name, server.state.nameOf guid = some name → Drawn env server guid
  subscription : ∀ guid, ∀ sub ∈ server.state.subscriptionsOf guid,
    Issued env server .subscription guid sub.id sub.token
  id_unique : ∀ guid, ∀ sub ∈ server.state.subscriptionsOf guid, ∀ guid',
    ∀ sub' ∈ server.state.subscriptionsOf guid', sub.id = sub'.id → guid = guid' ∧
      sub.clientUid = sub'.clientUid ∧ sub.username = sub'.username
  invitation : ∀ i ∈ server.state.invitations, ∃ id,
    Issued env server .invitation i.missionGuid id i.token
  token_unique : ∀ i ∈ server.state.invitations, ∀ j ∈ server.state.invitations, i.token = j.token →
    i.role = j.role
  notice : ∀ notice ∈ server.notices, ∃ id,
    Issued env server .invitation notice.missionGuid id notice.token
  notice_role : ∀ notice ∈ server.notices, ∀ i ∈ server.state.invitations, i.token = notice.token →
    i.role = notice.role
  shown : ∀ username token, (username, token) ∈ server.shown → Held env server username token

theorem sound_empty : Sound env {} := by
  constructor <;> simp [nameOf, byGuid, subscriptionsOf]

/-- Nothing new to hold: the subscriptions, invitations, notices and shown tokens are among the old
ones. -/
structure Narrows (env : Env) (server next : Server) : Prop extends Extends server next where
  guid : ∀ guid name, next.state.nameOf guid = some name → server.state.nameOf guid = some name ∨
    Drawn env next guid
  subscription : ∀ guid, ∀ sub ∈ next.state.subscriptionsOf guid,
    ∃ old ∈ server.state.subscriptionsOf guid, old.id = sub.id ∧ old.token = sub.token ∧
      old.clientUid = sub.clientUid ∧ old.username = sub.username
  invitation : ∀ i ∈ next.state.invitations, i ∈ server.state.invitations
  notice : next.notices = server.notices
  shown : next.shown = server.shown

theorem Narrows.trans (h : Narrows env server next) (h' : Narrows env next last) :
    Narrows env server last where
  toExtends := h.toExtends.trans h'.toExtends
  guid guid name hname := by
    rcases h'.guid guid name hname with hname | hdrawn
    · exact (h.guid guid name hname).imp id fun hdrawn => hdrawn.mono h'.drawn
    · exact .inr hdrawn
  subscription guid sub hsub := by
    obtain ⟨old, hold, hid, htoken, hclient, husername⟩ := h'.subscription guid sub hsub
    obtain ⟨first, hfirst, hid', htoken', hclient', husername'⟩ := h.subscription guid old hold
    exact ⟨first, hfirst, hid'.trans hid, htoken'.trans htoken, hclient'.trans hclient,
      husername'.trans husername⟩
  invitation i hi := h.invitation i (h'.invitation i hi)
  notice := h'.notice.trans h.notice
  shown := h'.shown.trans h.shown

theorem Sound.narrows (h : Sound env server) (hnarrows : Narrows env server next) :
    Sound env next where
  guid_drawn guid name hname := by
    rcases hnarrows.guid guid name hname with hname | hdrawn
    · exact (h.guid_drawn guid name hname).mono hnarrows.drawn
    · exact hdrawn
  subscription guid sub hsub := by
    obtain ⟨old, hold, hid, htoken, -, -⟩ := hnarrows.subscription guid sub hsub
    rw [← hid, ← htoken]
    exact (h.subscription guid old hold).mono hnarrows.toExtends
  id_unique guid sub hsub guid' sub' hsub' hid := by
    obtain ⟨old, hold, hid₁, -, hclient, husername⟩ := hnarrows.subscription guid sub hsub
    obtain ⟨old', hold', hid₂, -, hclient', husername'⟩ := hnarrows.subscription guid' sub' hsub'
    rw [← hclient, ← husername, ← hclient', ← husername']
    exact h.id_unique guid old hold guid' old' hold' (by rw [hid₁, hid₂, hid])
  invitation i hi := by
    obtain ⟨id, hissued⟩ := h.invitation i (hnarrows.invitation i hi)
    exact ⟨id, hissued.mono hnarrows.toExtends⟩
  token_unique i hi j hj := h.token_unique i (hnarrows.invitation i hi) j (hnarrows.invitation j hj)
  notice notice hnotice := by
    rw [hnarrows.notice] at hnotice
    obtain ⟨id, hissued⟩ := h.notice notice hnotice
    exact ⟨id, hissued.mono hnarrows.toExtends⟩
  notice_role notice hnotice i hi := by
    rw [hnarrows.notice] at hnotice
    exact h.notice_role notice hnotice i (hnarrows.invitation i hi)
  shown username token hshown := by
    rw [hnarrows.shown] at hshown
    obtain ⟨type, guid, id, hissued, hsub⟩ := h.shown username token hshown
    refine ⟨type, guid, id, hissued.mono hnarrows.toExtends, fun htype guid' sub hmem hid => ?_⟩
    obtain ⟨old, hold, hid', -, -, husername⟩ := hnarrows.subscription guid' sub hmem
    rw [← husername]
    exact hsub htype guid' old hold (hid'.trans hid)

/-- The events after which there is more to hold. -/
def Event.isGrant : Event → Bool
  | .created .. | .subscribed .. | .invited .. => true
  | _ => false

theorem Event.not_isGrant_of_isEdit (h : event.isEdit = true) : event.isGrant = false := by
  cases event <;> first | rfl | cases h

section

variable (hevent : event.isGrant = false)

include hevent

theorem mem_subscriptionsOf_apply (hsub : sub ∈ (state.apply event).subscriptionsOf guid) :
    ∃ old ∈ state.subscriptionsOf guid,
      old.id = sub.id ∧ old.token = sub.token ∧ old.clientUid = sub.clientUid ∧
      old.username = sub.username := by
  cases event with
  | created | subscribed | invited => cases hevent
  | subscriptionRoleSet other id role =>
    rw [subscriptionsOf_subscriptionRoleSet] at hsub
    split at hsub
    · next hguid =>
      subst hguid
      rcases Dict.mem_of_update rfl (fun _ _ => rfl) hsub with hold | ⟨old, hold, -, rfl⟩
      · exact ⟨sub, hold, rfl, rfl, rfl, rfl⟩
      · exact ⟨old, hold, rfl, rfl, rfl, rfl⟩
    · exact ⟨sub, hsub, rfl, rfl, rfl, rfl⟩
  | unsubscribed other id =>
    rw [subscriptionsOf_unsubscribed] at hsub
    split at hsub
    · next hguid => exact ⟨sub, hguid ▸ (List.mem_filter.1 hsub).1, rfl, rfl, rfl, rfl⟩
    · exact ⟨sub, hsub, rfl, rfl, rfl, rfl⟩
  | deleted | contentAdded | contentRemoved =>
    rw [subscriptionsOf_edit rfl] at hsub
    exact ⟨sub, hsub, rfl, rfl, rfl, rfl⟩
  | _ => exact ⟨sub, hsub, rfl, rfl, rfl, rfl⟩

theorem mem_invitations_apply {i : InvitationRecord}
    (hi : i ∈ (state.apply event).invitations) : i ∈ state.invitations := by
  cases event with
  | created | subscribed | invited => cases hevent
  | uninvited guid invitee kind => exact (List.mem_filter.1 hi).1
  | subscriptionRoleSet guid id role | unsubscribed guid id =>
    rw [apply] at hi
    split at hi <;> exact hi
  | deleted | contentAdded | contentRemoved =>
    rw [apply, invitations_noteChange] at hi
    exact hi
  | _ => exact hi

theorem narrows_applied (disk : Option Nat) : Narrows env server (server.applied event disk) := by
  have hname : ∀ guid, (server.applied event disk).state.nameOf guid = server.state.nameOf guid :=
    nameOf_apply fun mission changeId hcreated => by rw [hcreated] at hevent; cases hevent
  constructor
  · exact ⟨le_rfl, fun guid name h => (hname guid).trans h⟩
  · exact fun guid name h => .inl ((hname guid).symm.trans h)
  · exact fun guid sub hsub => mem_subscriptionsOf_apply hevent hsub
  · exact fun i hi => mem_invitations_apply hevent hi
  · rfl
  · rfl

end

theorem narrows_of_eq (hstate : next.state = server.state) (hdrawn : server.drawn ≤ next.drawn)
    (hnotices : next.notices = server.notices) (hshown : next.shown = server.shown) :
    Narrows env server next := by
  constructor
  · exact ⟨hdrawn, fun guid name h => hstate ▸ h⟩
  · exact fun guid name h => .inl (hstate ▸ h)
  · exact fun guid sub hsub => ⟨sub, hstate ▸ hsub, rfl, rfl, rfl, rfl⟩
  · exact fun i hi => hstate ▸ hi
  · exact hnotices
  · exact hshown

section

variable (henv : env.Lawful)

include henv

theorem narrows_created (h : Sound env server)
    (hguid : mission.guid = env.randomUuid server.drawn) (changeId : Nat) (disk : Option Nat) :
    Narrows env server (server.drew.applied (.created mission changeId) disk) := by
  have hname : ∀ guid, (server.drew.applied (.created mission changeId) disk).state.nameOf guid =
      if mission.guid = guid then some mission.name else server.state.nameOf guid :=
        nameOf_created mission changeId
  constructor
  · refine ⟨Nat.le_succ _, fun guid name hold => ?_⟩
    have hne : mission.guid ≠ guid := by
      intro heq
      rw [← heq, hguid] at hold
      exact not_drawn_next henv (h.guid_drawn _ name hold)
    rw [hname, if_neg hne, hold]
  · intro guid name hnew
    rw [hname] at hnew
    split at hnew
    · next heq => exact .inr ⟨server.drawn, Nat.lt_succ_self _, heq ▸ hguid⟩
    · exact .inl hnew
  · exact fun guid sub hsub => ⟨sub, hsub, rfl, rfl, rfl, rfl⟩
  · exact fun i hi => hi
  · rfl
  · rfl

omit henv in
theorem mem_subscriptionsOf_subscribed {other : String}
    (hsub : sub ∈ (state.apply (.subscribed guid new)).subscriptionsOf other) :
    sub ∈ state.subscriptionsOf other ∨ guid = other ∧ sub = new := by
  rw [subscriptionsOf_subscribed] at hsub
  split at hsub
  · next hguid =>
    rcases List.mem_append.1 hsub with hold | hnew
    · exact .inl (hguid ▸ hold)
    · exact .inr ⟨hguid, List.mem_singleton.1 hnew⟩
  · exact .inl hsub

theorem Sound.subscribed (h : Sound env server) (hname : server.state.nameOf guid = some name)
    (hid : new.id = env.randomUuid server.drawn)
    (htoken : new.token = env.tokens.create new.id .subscription name guid now)
    (disk : Option Nat) : Sound env (server.drew.applied (.subscribed guid new) disk) := by
  have hextends : Extends server (server.drew.applied (.subscribed guid new) disk) :=
    ⟨Nat.le_succ _, fun _ _ h => h⟩
  have hnew : ∀ other, ∀ sub ∈ server.state.subscriptionsOf other, sub.id ≠ new.id := by
    intro other sub hsub heq
    exact not_drawn_next henv (hid ▸ heq ▸ (h.subscription other sub hsub).1)
  refine ⟨fun other name hname => (h.guid_drawn other name hname).mono hextends.drawn,
    fun other sub hsub => ?_, fun other sub hsub other' sub' hsub' heq => ?_, fun i hi =>
      ?_, h.token_unique, fun notice hnotice => ?_,
    h.notice_role, fun username token hshown => ?_⟩
  · rcases mem_subscriptionsOf_subscribed hsub with hold | ⟨rfl, rfl⟩
    · exact (h.subscription other sub hold).mono hextends
    · exact ⟨⟨server.drawn, Nat.lt_succ_self _, hid⟩, name, now, hname, htoken⟩
  · rcases mem_subscriptionsOf_subscribed hsub with hold | ⟨rfl, rfl⟩ <;>
      rcases mem_subscriptionsOf_subscribed hsub' with hold' | ⟨rfl, rfl⟩
    · exact h.id_unique other sub hold other' sub' hold' heq
    · exact absurd heq (hnew other sub hold)
    · exact absurd heq.symm (hnew other' sub' hold')
    · exact ⟨rfl, rfl, rfl⟩
  · obtain ⟨id, hissued⟩ := h.invitation i hi
    exact ⟨id, hissued.mono hextends⟩
  · obtain ⟨id, hissued⟩ := h.notice notice hnotice
    exact ⟨id, hissued.mono hextends⟩
  · obtain ⟨type, other, id, hissued, hsubs⟩ := h.shown username token hshown
    refine ⟨type, other, id, hissued.mono hextends, fun htype guid' sub hsub heq => ?_⟩
    rcases mem_subscriptionsOf_subscribed hsub with hold | ⟨rfl, rfl⟩
    · exact hsubs htype guid' sub hold heq
    · exact absurd (hid ▸ heq ▸ hissued.1) (not_drawn_next henv)

private theorem Sound.invited (h : Sound env server) {new : InvitationRecord}
    {notice : InviteNotice} (hname : server.state.nameOf new.missionGuid = some name)
    (htoken : new.token =
      env.tokens.create (env.randomUuid server.drawn) .invitation name new.missionGuid now)
    (hnotice : notice.missionGuid = new.missionGuid ∧ notice.token = new.token ∧
      notice.role = new.role)
    (disk : Option Nat) :
    Sound env { server.drew.applied (.invited new) disk with
      notices := notice :: server.notices } := by
  have hextends : Extends server { server.drew.applied (.invited new) disk with
      notices := notice :: server.notices } :=
    ⟨Nat.le_succ _, fun _ _ h => h⟩
  have hissued : Issued env { server.drew.applied (.invited new) disk with
      notices := notice :: server.notices } .invitation new.missionGuid
        (env.randomUuid server.drawn) new.token :=
    ⟨⟨server.drawn, Nat.lt_succ_self _, rfl⟩, name, now, hname, htoken⟩
  have hmem : ∀ i ∈ (server.state.apply (.invited new)).invitations, i ∈ server.state.invitations ∨
      i = new := by
    intro i hi
    rcases List.mem_append.1 hi with hold | hnew
    · exact .inl (List.mem_filter.1 hold).1
    · exact .inr (List.mem_singleton.1 hnew)
  -- An old token is never that of the new invitation.
  have hnew : ∀ {type : TokenType} {guid id token : String}, Issued env server type guid id token →
      token ≠ new.token :=
    fun hold => htoken ▸ hold.ne_create henv
  refine ⟨fun other name hname => (h.guid_drawn other name hname).mono hextends.drawn,
    fun other sub hsub => (h.subscription other sub hsub).mono hextends, h.id_unique,
      fun i hi => ?_,
    fun i hi j hj heq => ?_, fun old hold => ?_, fun old hold i hi heq =>
      ?_, fun username token hshown => ?_⟩
  · rcases hmem i hi with hi | rfl
    · obtain ⟨id, hissued⟩ := h.invitation i hi
      exact ⟨id, hissued.mono hextends⟩
    · exact ⟨_, hissued⟩
  · rcases hmem i hi with hi' | rfl <;> rcases hmem j hj with hj' | rfl
    · exact h.token_unique i hi' j hj' heq
    · obtain ⟨id, hissued⟩ := h.invitation i hi'
      exact absurd heq (hnew hissued)
    · obtain ⟨id, hissued⟩ := h.invitation j hj'
      exact absurd heq.symm (hnew hissued)
    · rfl
  · rcases List.mem_cons.1 hold with rfl | hold
    · rw [hnotice.1, hnotice.2.1]
      exact ⟨_, hissued⟩
    · obtain ⟨id, hissued⟩ := h.notice old hold
      exact ⟨id, hissued.mono hextends⟩
  · rcases List.mem_cons.1 hold with rfl | hold' <;> rcases hmem i hi with hi' | rfl
    · obtain ⟨id, hissued⟩ := h.invitation i hi'
      exact absurd (heq.trans hnotice.2.1) (hnew hissued)
    · exact hnotice.2.2.symm
    · exact h.notice_role old hold' i hi' heq
    · obtain ⟨id, hissued⟩ := h.notice old hold'
      exact absurd heq.symm (hnew hissued)
  · obtain ⟨type, guid, id, hissued, hsubs⟩ := h.shown username token hshown
    exact ⟨type, guid, id, hissued.mono hextends, hsubs⟩

private theorem Sound.effect (h : Sound env server) (hstart : Extends start server)
    (heffect : Effect env caller request start server next) : Sound env next ∧
    Extends server next := by
  have hnarrow : Narrows env server next → Sound env next ∧ Extends server next :=
    fun hnarrows => ⟨h.narrows hnarrows, hnarrows.toExtends⟩
  cases heffect with
  | draw => exact hnarrow (narrows_of_eq rfl (Nat.le_succ _) rfl rfl)
  | pass | spare | connect | disconnect | relay => exact hnarrow (narrows_of_eq rfl le_rfl rfl rfl)
  | edit event disk hedit =>
    exact hnarrow (narrows_applied (Event.not_isGrant_of_isEdit hedit.1) disk)
  | create mission changeId disk hguid => exact hnarrow (narrows_created henv h hguid changeId disk)
  | setPassword | setDefaultRole | raise | assign | unsubscribe =>
    exact hnarrow (narrows_applied rfl _)
  | subscribe mission sub now disk hmission hid htoken husername hadmitted =>
    exact ⟨h.subscribed henv (nameOf_of_byGuid hmission) hid htoken disk, Nat.le_succ _,
      fun _ _ hname => hname⟩
  | invite mission invitation now disk hmission hguid hname htoken hinvitee hrole =>
    have hbyGuid := nameOf_of_byGuid (seen_of_target hmission).1
    rw [← hguid] at hbyGuid htoken
    refine ⟨h.invited henv (hstart.name _ _ hbyGuid) htoken ⟨hguid.symm, rfl, rfl⟩ disk,
      Nat.le_succ _, ?_⟩
    exact fun _ _ hname => hname

theorem Sound.reached (h : Sound env start) (hreached : Reached env caller request start server) :
    Sound env server ∧ Extends start server := by
  induction hreached with
  | refl => exact ⟨h, le_rfl, fun _ _ h => h⟩
  | tail _ heffect ih =>
    obtain ⟨hsound, hextends⟩ := ih.1.effect henv ih.2 heffect
    exact ⟨hsound, ih.2.trans hextends⟩

theorem Sound.not_fresh (h : Sound env start)
    (hname : start.state.nameOf guid = some name) : ¬ Fresh env start guid := by
  intro ⟨k, hk, hfresh⟩
  obtain ⟨k', hk', hdrawn⟩ := h.guid_drawn guid name hname
  have := henv.randomUuid_injective (hfresh.symm.trans hdrawn)
  omega

end

section

variable (h : ReflTransGen (Streamed username clientUid) start server)

include h

theorem narrows_of_streamed : Narrows env start server := by
  induction h with
  | refl => exact narrows_of_eq rfl le_rfl rfl rfl
  | tail _ hchange ih =>
    cases hchange with
    | pass => exact ih.trans (narrows_of_eq rfl le_rfl rfl rfl)
    | edit event disk hedit =>
      exact ih.trans (narrows_applied (Event.not_isGrant_of_isEdit hedit) disk)

omit h in
theorem shown_of_reached (h : Reached env caller request start server) :
    server.shown = start.shown := by
  induction h with
  | refl => rfl
  | tail _ heffect ih => exact Eq.trans (by cases heffect <;> rfl) ih

theorem kept_of_streamed : server.shown = start.shown ∧ server.spared = start.spared ∧
      ∀ guid, server.state.subscriptionsOf guid = start.state.subscriptionsOf guid := by
  induction h with
  | refl => exact ⟨rfl, rfl, fun _ => rfl⟩
  | tail _ hchange ih =>
    cases hchange with
    | pass => exact ih
    | edit event disk hedit =>
      exact ⟨ih.1, ih.2.1, fun guid => (subscriptionsOf_edit hedit _ guid).trans (ih.2.2 guid)⟩

/-- The checks streamed content passes, each by a subscription of its sender. -/
theorem passed_of_streamed
    (hpass : ∀ guid, ∀ sub ∈ start.state.subscriptionsOf guid, sub.username = username →
      sub.role.has .write = true → P { username, missionGuid := guid, permission := .write }) :
      Grown P start.passed server.passed := by
  induction h with
  | refl => exact .refl
  | tail hbefore hchange ih =>
    cases hchange with
    | pass guid sub hsub hhas =>
      refine ih.cons ?_
      have hmem := List.mem_of_find?_eq_some hsub
      have hfound := List.find?_some hsub
      rw [(kept_of_streamed hbefore).2.2] at hmem
      rw [Bool.and_eq_true, decide_eq_true_eq, decide_eq_true_eq] at hfound
      exact hpass guid sub hmem hfound.2 hhas
    | edit => exact ih

end

/-- A token that is shown was issued, and a subscription token only to whom it belongs. -/
theorem Shows.held (henv : env.Lawful) (h : Sound env start)
    (hreached : Reached env caller request start server)
    (hshows : Shows env caller request start server token) :
    Held env server caller.username token := by
  obtain ⟨hsound, hextends⟩ := h.reached henv hreached
  have hinvitation : ∀ i ∈ start.state.invitations, Held env server caller.username i.token := by
    intro i hi
    obtain ⟨id, hissued⟩ := h.invitation i hi
    exact ⟨.invitation, i.missionGuid, id, hissued.mono hextends, fun htype => nomatch htype⟩
  cases hshows with
  | own guid sub hsub husername =>
    refine ⟨.subscription, guid, sub.id, hsound.subscription guid sub hsub,
      fun _ guid' sub' hsub' heq => ?_⟩
    obtain ⟨hguid, -, husername'⟩ := hsound.id_unique guid' sub' hsub' guid sub hsub heq
    exact ⟨hguid, husername'.trans husername⟩
  | access mission k now hmission hk hgate =>
    have hname := hextends.name _ _ (nameOf_of_byGuid (seen_of_target hmission).1)
    exact ⟨.access, mission.guid, _, ⟨⟨k, hk, rfl⟩, mission.name, now, hname, rfl⟩, fun htype =>
      nomatch htype⟩
  | listed mission i hmission hrequest hrole hstate hi =>
    exact hinvitation i (List.mem_filter.1 hi).1
  | mine clientUid i hrequest hstate hi =>
    refine hinvitation i ?_
    rcases List.mem_append.1 (List.mem_filter.1 hi).1 with hi | hi
    · exact (List.mem_filter.1 hi).1
    · exact (List.mem_filter.1 (List.mem_filter.1 hi).1).1

private theorem Sound.show (h : Sound env server) {tokens : List String}
    (htokens : ∀ token ∈ tokens, Held env server username token) :
    Sound env (server.show username tokens) := by
  refine { h with shown := fun user token hshown => ?_ }
  rcases List.mem_append.1 hshown with hnew | hold
  · obtain ⟨shown, hmem, heq⟩ := List.mem_map.1 hnew
    cases heq
    exact htokens token hmem
  · exact h.shown user token hold

theorem Sound.step (henv : env.Lawful) (h : Sound env server)
    (hstep : step env server action = some next) : Sound env next := by
  cases step_outcome hstep with
  | request username headers inputs request tokens next hreached hshows =>
    exact (h.reached henv hreached).1.show fun token htoken =>
      (hshows token htoken).held henv h hreached
  | stream username clientUid names guids eventUid now next hstreamed =>
    exact h.narrows (narrows_of_streamed hstreamed)
  | deliver username notice hnotice =>
    refine h.show fun token htoken => ?_
    obtain ⟨id, hissued⟩ := h.notice notice hnotice
    rw [List.mem_singleton.1 htoken]
    exact ⟨.invitation, notice.missionGuid, id, hissued, fun htype => nomatch htype⟩
  | outside _ _ hstate hdrawn hnotices hpassed hspared hshown =>
    exact h.narrows (narrows_of_eq hstate hdrawn.ge hnotices hshown)

theorem sound_of_run (henv : env.Lawful) {actions : List Action}
    (hrun : run (Missions.step env) {} actions = some server) : Sound env server :=
  run_preserves (Sound env) hrun sound_empty fun _ _ _ h hstep => h.step henv hstep

/-- An environment for worked examples: ids are `u`, `uu` and so on. -/
def Env.sample : Env where
  adminCommonName := some "admin"
  tokens := .sample
  argon2 := .sample
  randomUuid n := String.ofList (List.replicate (n + 1) 'u')
  callsign _ := none

theorem Env.sample_lawful : Env.sample.Lawful where
  tokens := MissionTokenSigner.sample_lawful
  randomUuid_injective := by
    intro m n h
    have hlength := congrArg (fun s => s.toList.length) h
    simpa [Env.sample] using hlength

end MicroTak.Missions
