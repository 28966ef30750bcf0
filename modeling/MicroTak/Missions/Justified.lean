import MicroTak.Missions.DataJustified

/-!
# Every request is justified

Handler by handler: its changes are effects, and its response shows only tokens that it may.
-/

namespace MicroTak.Missions

open Std Handler Groups Relation Journal.Op MissionStore List Request

variable {env : Env} {caller : Caller} {inputs : Inputs} {request : Request} {start server : Server}
variable {mission : MissionRecord}

/-- The handler only has effects of the request. -/
def Works {α : Type} (env : Env) (caller : Caller) (request : Request) (start : Server)
    (m : Api α) : Prop :=
  wp m (fun _ => Reached env caller request start) (fun _ => Reached env caller request start) start

variable {α : Type} {permission : Permission} {key : Key}

theorem works_of_keeps {m : Api α} (h : Keeps (Reached env caller request start) m) :
    Works env caller request start m :=
  h.run .refl

theorem Works.justified {handler : Api Reply} (h : Works env caller request start handler)
    (htokens : Answers (fun reply => reply.tokens = []) handler) :
    Justified env caller request start handler := by
  refine (wp.and h (htokens.reply start)).mono (fun reply next h => ⟨h.1, ?_⟩) fun _ _ h => h.1
  rw [h.2]
  exact forall_mem_nil _

section Handlers

variable (hmission : request.target caller start.state = some mission)

include hmission

theorem mayWrite_of_role
    (hrole : (env.roleFor start.state mission caller).any (·.has .write) = true) :
    MayWrite env caller request start mission.guid :=
  .inl ⟨mission, hmission, rfl, hrole⟩

theorem keeps_check {error : ApiError} :
    Keeps (Reached env caller request start)
    (check caller mission (env.roleFor start.state mission caller) permission error) :=
  ⟨fun h => wp_check.2 ⟨fun hrole => reached_note (seen_of_target hmission).1 hrole h, fun _ => h⟩⟩

theorem wp_require {rest : Server → Api α} {Q : α → Server → Prop}
    (hrest : (env.roleFor start.state mission caller).any (·.has permission) = true → ∀ server,
      Reached env caller request start server → server.state = start.state →
        wp (rest start) Q (fun _ => Reached env caller request start) server) :
    wp (do
      let server ← get
      require caller mission (env.roleFor server.state mission caller) permission
      rest server) Q (fun _ => Reached env caller request start) start := by
  rw [wp_bind, wp_get, wp_bind, require, wp_check]
  exact ⟨fun hrole => hrest hrole _ (reached_note (seen_of_target hmission).1 hrole .refl) rfl,
    fun _ => .refl⟩

theorem works_of_require {rest : Server → Api Reply}
    (hrest : (env.roleFor start.state mission caller).any (·.has permission) = true →
      Keeps (Reached env caller request start) (rest start)) :
    Works env caller request start (do
      let server ← get
      require caller mission (env.roleFor server.state mission caller) permission
      rest server) :=
  wp_require hmission fun hrole _ hreached _ => (hrest hrole).run hreached

theorem works_of_write {rest : Api Reply}
    (hrest : MayWrite env caller request start mission.guid →
      Keeps (Reached env caller request start) rest) :
    Works env caller request start (requireWrite env caller mission >>= fun _ => rest) :=
  works_of_require hmission fun hrole => hrest (mayWrite_of_role hmission hrole)

variable {creatorUid guid token clientUid username : String}

omit hmission in
theorem keeps_delete {nowMs : Int} :
    Keeps (Reached env caller request start) (storeOp (delete mission.guid creatorUid nowMs)) := by
  refine keeps_storeOp reached_edit (Only.bind ?_ fun _ => only_existing)
  exact only_existing.bind fun _ => only_get.bind fun _ => only_put ⟨rfl, trivial⟩

omit hmission in
theorem keeps_importItem (hwrite : MayWrite env caller request start mission.guid)
    (hlogs : request.editsLogs = true) (item : PackageItem) :
    Keeps (Reached env caller request start) (importItem env inputs mission creatorUid item) := by
  have hsave : ∀ entry, Keeps (Reached env caller request start) (storeOp (saveLogEntry entry)) :=
    fun entry => keeps_saveLogEntry reached_edit ⟨rfl, hlogs⟩
  cases item with
  | cot uid xml atMs =>
    have hlatest : Keeps (Reached env caller request start) (recordLatest inputs uid xml) :=
      keeps_modify fun server h => h.tail (.relay server _)
    exact hlatest.bind fun _ => keeps_addContentAt hwrite
  | file hash atMs => exact keeps_addContentAt hwrite
  | removed content atMs => exact keeps_removeContentAt hwrite
  | logEntry id content entryCreator missionNames =>
    cases id with
    | some id => exact keeps_pure.bind fun _ => (hsave _).bind fun _ => keeps_pure
    | none => exact keeps_draw.bind fun _ => (hsave _).bind fun _ => keeps_pure
  | unreadableEntry => exact keeps_throw
  | logEntryRemoved id => exact keeps_record reached_edit ⟨rfl, hlogs⟩

/-! ### Copies -/

omit hmission in
theorem keeps_createOwned_records {data : MissionData} {new : String → NewMission} :
    Keeps (fun next => next.state.data.mapLayers = data.mapLayers ∧
      next.state.data.externalData = data.externalData)
      (createOwned env caller inputs new creatorUid) := by
  have hstable : EditStable (fun event => ∀ state : State, (state.apply event).data.mapLayers =
      state.data.mapLayers ∧ (state.apply event).data.externalData = state.data.externalData)
      fun next => next.state.data.mapLayers = data.mapLayers ∧
        next.state.data.externalData = data.externalData :=
    fun server _ _ hevent h =>
      ⟨(hevent server.state).1.trans h.1, (hevent server.state).2.trans h.2⟩
  refine keeps_createOwned hstable (fun _ h => h) (fun _ _ _ => ⟨rfl, rfl⟩) (fun _ _ _ =>
    ⟨rfl, rfl⟩) fun guid id role state => ?_
  simp only [State.apply]
  split <;> exact ⟨rfl, rfl⟩

omit hmission in
theorem ownToken_stable : EditStable (Allowed env caller request start) fun next =>
    Reached env caller request start next ∧ OwnToken caller guid token next :=
  fun server event disk hedit h =>
    ⟨reached_edit server event disk hedit h.1, ownToken_edit server event disk hedit h.2⟩

private theorem wp_copyContainers {copy : MissionRecord} {creator : String}
    (hfresh : Fresh env start copy.guid)
    (hrole : (env.roleFor start.state mission caller).isSome = true)
    (hrequest : ∃ key copy, request = .about key (.copy copy))
    (h : Reached env caller request start server ∧ OwnToken caller copy.guid token server)
    (hmaps : server.state.data.mapLayers = start.state.data.mapLayers)
    (hexternal : server.state.data.externalData = start.state.data.externalData) :
    wp (copyContainers env inputs mission copy creator)
      (fun _ next => Reached env caller request start next ∧ OwnToken caller copy.guid token next)
      (fun _ => Reached env caller request start) server := by
  have hstable := @ownToken_stable env caller request start copy.guid token
  rw [copyContainers, wp_bind]
  refine wp_recordExisting (fun disk => ?_) fun _ => h.1
  have hkeywords := hstable server (.keywordsSet copy.guid mission.keywords inputs.now) disk
    ⟨rfl, trivial⟩ h
  rw [wp_bind]
  -- A copied layer is a default only if one of the mission's was.
  have hdefault : ∀ layer ∈ server.state.data.mapLayersOf mission.guid,
      layer.props.defaultLayer = true → request.savesDefault caller start.state = true := by
    intro layer hlayer hdefault
    obtain ⟨key, copy, rfl⟩ := hrequest
    have hsource : (caller.target start.state key).toOption = some mission := hmission
    rw [MissionData.mapLayersOf, hmaps] at hlayer
    rw [savesDefault, hsource]
    exact any_eq_true.2 ⟨layer, hlayer, hdefault⟩
  have hlayerStable : EditStable (fun event => Allowed env caller request start event ∧
      ∀ state : State, (state.apply event).data.externalData = state.data.externalData) fun next =>
      (Reached env caller request start next ∧ OwnToken caller copy.guid token next) ∧
        next.state.data.externalData = start.state.data.externalData :=
    fun next event disk hevent hnext =>
      ⟨hstable next event disk hevent.1 hnext.1, (hevent.2 next.state).trans hnext.2⟩
  refine Keeps.wp_bind (keeps_forM fun layer hlayer =>
    Keeps.bind (keeps_saveNewMapLayer hlayerStable ?_ ?_) fun _ => keeps_pure) ⟨hkeywords,
      hexternal⟩ (fun _ next hnext => ?_) fun _ _ h => h.1.1
  · exact fun next hnext => ⟨⟨hnext.1.1.tail (.draw next), hnext.1.2⟩, hnext.2⟩
  · intro next saved changeId hnext hguid huid hprops
    refine ⟨allowed_newMapLayer (.inr (hguid ▸ hfresh)) hnext.1.1 huid fun hsaved =>
      ?_, fun _ => rfl⟩
    exact hdefault layer hlayer (by rwa [hprops] at hsaved)
  rw [wp_bind]
  refine Keeps.wp_bind (keeps_forM fun record hrecord =>
    keeps_saveExternal hstable (.inr hfresh) (.inr ?_)) hnext.1 (fun _ last hlast => ?_)
      fun _ _ h => h.1
  · rw [MissionData.externalDataOf, hnext.2, mem_filter, Dict.Keyed.mem_values,
      decide_eq_true_eq] at hrecord
    exact ⟨mission, record, hmission, hrole, hrecord.2, hrecord.1⟩
  · exact ((keeps_addContents hstable fun _ _ => ⟨rfl, .inr hfresh⟩).run hlast).mono (fun _ _ h =>
      h) fun _ _ h => h.1

theorem copyMission_justified (copy : CopyRequest)
    (hrequest : ∃ key, request = .about key (.copy copy)) :
    Justified env caller request start (copyMission env caller inputs mission copy) := by
  refine wp_require hmission fun hrole server hreached hstate => ?_
  have hrole : (env.roleFor start.state mission caller).isSome = true := by
    obtain ⟨role, hrole, -⟩ := (Option.any_eq_true _ _).1 hrole
    rw [hrole]
    rfl
  simp only [wp_bind, wp_orThrow, wp_ensure]
  refine ⟨fun creator hcreator =>
    ⟨fun copyName _ => ⟨fun _ => ⟨fun _ => ?_, fun _ => hreached⟩, fun _ => hreached⟩, fun _ =>
      hreached⟩, fun _ => hreached⟩
  refine ((wp_createOwned (fun _ => rfl) hreached).and
    (keeps_createOwned_records.run ⟨rfl, rfl⟩)).mono (fun owned server h => ?_) (fun _ _ h => h.1)
  obtain ⟨made, owner⟩ := owned
  obtain ⟨⟨hown, hfresh⟩, hmaps, hexternal⟩ := h
  rw [hstate] at hmaps hexternal
  obtain ⟨key, rfl⟩ := hrequest
  have hlive := hown.1.tail (.connect server made.guid creator hcreator (.inl hfresh))
  rw [wp_notify]
  refine (wp_copyContainers hmission hfresh hrole ⟨key, copy, rfl⟩
    ⟨hlive, hown.2⟩ hmaps hexternal).mono (fun _ server h => ?_) (fun _ _ h => h)
  have hstable := @ownToken_stable env caller (.about key (.copy copy)) start made.guid owner.token
  refine (Keeps.run (keeps_forM fun entry _ => (keeps_saveLogEntry hstable ⟨rfl, rfl⟩).bind fun _ =>
    keeps_pure) h).mono (fun _ server h => ⟨h.1, fun token htoken => ?_⟩) (fun _ _ h => h.1)
  rw [mem_singleton.1 htoken]
  exact h.2.shows

/-! ### Tokens -/

theorem accessToken_justified (password : String)
    (hrequest : ∃ key, request = .about key (.accessToken password)) :
    Justified env caller request start (accessToken env inputs mission password) := by
  obtain ⟨key, hrequest⟩ := hrequest
  simp only [Justified, accessToken, wp_bind, wp_ensure]
  refine ⟨fun hgate => ⟨.tail .refl (.draw start), fun token htoken => ?_⟩, fun _ => .refl⟩
  rw [mem_singleton.1 htoken]
  refine .access mission start.drawn _ hmission (Nat.lt_succ_self _) ⟨key, password,
    .inr ⟨hrequest, fun hprotected => ?_⟩⟩
  by_contra hwrong
  exact hgate ⟨hprotected, hwrong⟩

omit hmission in
theorem subscriptionGetImpl_justified (uid : String) :
    Justified env caller request start (subscriptionGetImpl caller mission uid) := by
  simp only [Justified, subscriptionGetImpl, wp_bind, wp_orThrow]
  refine ⟨fun sub hsub => ⟨.refl, fun token htoken => ?_⟩, fun _ => .refl⟩
  have hfound := find?_some hsub
  simp only [Bool.and_eq_true, decide_eq_true_eq] at hfound
  rw [mem_singleton.1 htoken]
  exact .own mission.guid sub (mem_of_find?_eq_some hsub) hfound.2

omit hmission in
theorem wp_readWindow {Q : Window → Server → Prop} {E : ApiError → Server → Prop}
    (hQ : ∀ window, Q window server) (hE : ∀ e, E e server) : wp (readWindow inputs) Q E server :=
  wp_reads.2 ⟨fun window _ => hQ window, fun e _ => hE e⟩

theorem subscribeImpl_justified (uid topic password : String)
    (hrequest : ∃ key, request = .about key (.subscribe uid topic password)) :
    Justified env caller request start
    (subscribeImpl env caller inputs mission uid topic password) := by
  obtain ⟨key, hrequest⟩ := hrequest
  rw [Justified, subscribeImpl, wp_bind]
  refine wp_readWindow (fun window => ?_) fun _ => .refl
  simp only [wp_bind, wp_reads, wp_ensure]
  refine ⟨fun role hrole => ⟨fun _ => ?_, fun _ => .refl⟩, fun _ _ => .refl⟩
  have hadmitted : Admitted env caller request start mission role :=
    .inr ⟨hmission, key, uid, topic, password, hrequest, hrole⟩
  refine (wp_subscribeCaller .refl (seen_of_target hmission).1 hadmitted).mono (fun sub server h =>
    ?_) (fun _ _ h => h)
  have hlive := h.1.tail (.connect server mission.guid (topicUid uid topic) (by rw [hrequest]; rfl)
    (.inr ⟨mission, hmission, rfl⟩))
  rw [wp_notify]
  refine wp_storeOp_record (fun disk => ?_) fun _ => hlive
  obtain ⟨hreached, hown⟩ :=
    ownToken_stable _ (.uninvited mission.guid uid .clientUid) disk ⟨rfl, trivial⟩ ⟨hlive, h.2⟩
  refine ⟨hreached, fun token htoken => ?_⟩
  have htoken : token ∈ [sub.token] := by
    split at htoken <;> exact htoken
  rw [mem_singleton.1 htoken]
  exact hown.shows

theorem invitationsImpl_justified (hrequest : ∃ key, request = .about key .invitations) :
    Justified env caller request start (invitationsImpl env caller mission) := by
  refine wp_require hmission fun hrole server hreached hstate => ?_
  obtain ⟨role, hrole, -⟩ := (Option.any_eq_true _ _).1 hrole
  refine ⟨hreached, fun token htoken => ?_⟩
  obtain ⟨invitation, hinvitation, rfl⟩ := mem_map.1 htoken
  exact .listed mission invitation hmission hrequest ⟨role, hrole⟩ hstate hinvitation

omit hmission in
private theorem tokens_logged (state : State) (window : Window) (reply : Reply) :
    (logged inputs state mission window reply).tokens = reply.tokens := by
  rw [logged]
  split <;> rfl

theorem getMissionImpl_justified (key : Key) (password : String)
    (hrequest : request = .get key password)
    (htarget : caller.target start.state key = .ok mission) :
    Justified env caller request start (getMissionImpl env caller inputs key password) := by
  simp only [Justified, getMissionImpl, Caller.existing, wp_bind, wp_reads, htarget]
  refine ⟨fun found hfound => ?_, fun _ _ => .refl⟩
  cases hfound
  refine wp_readWindow (fun window => ?_) fun _ => .refl
  rw [wp_get]
  split
  · simp only [wp_bind, wp_ensure]
    refine ⟨fun hmatches => ⟨.tail .refl (.draw start), fun token htoken => ?_⟩, fun _ => .refl⟩
    rw [tokens_logged] at htoken
    rw [mem_singleton.1 htoken]
    exact .access mission start.drawn _ hmission (Nat.lt_succ_self _) ⟨key, password,
      .inl ⟨hrequest, hmatches⟩⟩
  · split
    · rw [wp_pure, tokens_logged]
      exact ⟨.refl, forall_mem_nil _⟩
    · simp only [wp_bind, wp_ensure]
      exact ⟨fun _ => ⟨.refl, forall_mem_nil _⟩, fun _ => .refl⟩

/-! ### Roles -/

theorem keeps_unsubscribe :
    Keeps (Reached env caller request start)
    (storeOp (unsubscribe mission.guid clientUid username)) := by
  refine ⟨fun {server} hreached => ?_⟩
  rw [wp_storeOp, unsubscribe, perform_bind, wp_bind, wp_perform_get, perform_putAll]
  refine wp_forM (fun store => Reached env caller request start { server with store }) ?_ hreached
  intro event hevent store hstore
  obtain ⟨id, -, rfl⟩ := mem_map.1 hevent
  rw [wp_record]
  exact ⟨fun _ => hstore.tail (.unsubscribe { server with store } mission id _ hmission),
    fun _ => hstore⟩

omit hmission in
theorem subscriptionKeys_roleSet (state : State) (guid id other : String) (role : Role) :
    subscriptionKeys (state.apply (.subscriptionRoleSet guid id role)) other =
    subscriptionKeys state other := by
  rw [subscriptionKeys, State.subscriptionsOf_subscriptionRoleSet]
  split
  · next hguid => rw [map_setRoleOf fun _ _ => rfl, hguid, subscriptionKeys]
  · rfl

omit hmission in
/-- While roles are assigned, the subscriptions belong to whom they did. -/
def Assigning (env : Env) (caller : Caller) (request : Request) (start : Server) (guid : String)
    (server : Server) : Prop :=
  Reached env caller request start server ∧ subscriptionKeys server.state guid =
    subscriptionKeys start.state guid

section Assigning

variable {role : Role}
  (hrole : mayAssign mission (env.roleFor start.state mission caller) role = true)

include hrole

theorem keeps_setRole (hassign : (clientUid, username, role) ∈ request.assignments) :
    Keeps (Assigning env caller request start mission.guid)
    (setRole mission clientUid username (some role)) := by
  refine ⟨fun {server} h => ?_⟩
  rw [setRole, wp_storeOp, setSubscriptionRole, perform_bind, wp_bind, wp_existing]
  refine ⟨fun _ _ => ?_, fun _ => h⟩
  rw [perform_bind, wp_bind, wp_perform_get, perform_putAll]
  refine wp_forM (fun store => Assigning env caller request start mission.guid { server with
    store }) ?_ h
  intro event hevent store hstore
  obtain ⟨id, hid, rfl⟩ := mem_map.1 hevent
  obtain ⟨sub, hsub, rfl⟩ := mem_map.1 hid
  obtain ⟨hsub, hnamed⟩ := mem_filter.1 hsub
  have hmem : (sub.id, sub.clientUid, sub.username) ∈
      subscriptionKeys start.state mission.guid := by
    rw [← h.2]
    exact mem_map_of_mem hsub
  obtain ⟨other, hother, heq⟩ := mem_map.1 hmem
  simp only [Prod.mk.injEq] at heq
  rw [wp_record]
  refine ⟨fun _ => ⟨?_, ?_⟩, fun _ => hstore⟩
  · refine hstore.1.tail
      (.assign { server with store } mission clientUid username role sub.id _ hmission hassign hrole
        hstore.2 ⟨other, hother, heq.1, ?_⟩)
    rw [named, heq.2.1, heq.2.2]
    exact hnamed
  · exact (subscriptionKeys_roleSet _ _ _ _ _).trans hstore.2

theorem keeps_inviteRecord {invitee : String} {kind : InvitationType}
    (hinvitee : (kind, invitee) ∈ request.invitees) :
    Keeps (Assigning env caller request start mission.guid)
    (inviteRecord env inputs mission invitee kind role creatorUid) := by
  refine ⟨fun {server} h => ?_⟩
  have hdraw : Assigning env caller request start mission.guid server.drew :=
    ⟨h.1.tail (.draw server), h.2⟩
  rw [inviteRecord, wp_bind, wp_draw, wp_bind, wp_storeOp, invite, perform_bind,
    wp_bind, wp_existing]
  refine ⟨fun _ _ => ?_, fun _ => hdraw⟩
  rw [perform_bind, wp_bind, wp_perform_get]
  split
  · simp only [wp_perform_pure, wp_bind, wp_whenever]
    refine ⟨fun hstored => ?_, fun _ => hdraw⟩
    cases hstored
  · simp only [perform_bind, wp_bind, wp_record, wp_perform_pure, wp_pure, wp_whenever]
    refine ⟨fun _ => ⟨fun _ => ⟨?_, h.2⟩, fun hnot => absurd trivial hnot⟩, fun _ => hdraw⟩
    exact h.1.tail (.invite server mission _ _ _ hmission rfl rfl rfl hinvitee hrole)

end Assigning

omit hmission in
private theorem mem_of_parseEntries {role : Option Role} {entries : List RoleEntry}
    {parsed : List (String × String × Role)} (h : parseEntries mission role entries = .ok parsed)
    {entry : String × String × Role} (hentry : entry ∈ parsed) :
    entry ∈ entries.filterMap RoleEntry.assignment ∧ mayAssign mission role entry.2.2 = true := by
  induction entries generalizing parsed with
  | nil =>
    cases h
    cases hentry
  | cons first rest ih =>
    rw [parseEntries] at h
    split at h
    · next clientUid newRole huid hrole =>
      split at h
      · next hassign =>
        cases hrest : parseEntries mission role rest with
        | error e =>
          rw [hrest] at h
          cases h
        | ok others =>
          rw [hrest] at h
          cases h
          rw [filterMap_cons, RoleEntry.assignment, huid, hrole]
          rcases mem_cons.1 hentry with rfl | hentry
          · exact ⟨mem_cons_self, hassign⟩
          · exact ⟨mem_cons_of_mem _ (ih hrest hentry).1, (ih hrest hentry).2⟩
      · cases h
    · cases h

theorem setSubscriptionRolesImpl_works (creatorUid : Option String) (entries : List RoleEntry)
    (hassignments : request.assignments = entries.filterMap RoleEntry.assignment)
    (hinvitees : request.invitees = (entries.filterMap RoleEntry.assignment).map assignee) :
    Works env caller request start
    (setSubscriptionRolesImpl env caller inputs mission creatorUid entries) := by
  refine wp_require hmission fun _ server hreached hstate => ?_
  simp only [wp_bind, wp_orThrow, wp_reads]
  refine ⟨fun creator _ => ⟨fun parsed hparsed => ?_, fun _ _ => hreached⟩, fun _ => hreached⟩
  have hassigning : Assigning env caller request start mission.guid server :=
    ⟨hreached, by rw [hstate]⟩
  refine (Keeps.run (keeps_forM ?_) hassigning).mono (fun _ _ h => h.1) fun _ _ h => h.1
  rintro ⟨clientUid, username, role⟩ hentry
  obtain ⟨hassign, hrole⟩ := mem_of_parseEntries hparsed hentry
  have hinvitee : assignee (clientUid, username, role) ∈ request.invitees := by
    rw [hinvitees]
    exact mem_map_of_mem hassign
  rw [← hassignments] at hassign
  refine keeps_get.bind fun server => ?_
  split
  · exact keeps_setRole hmission hrole hassign
  · split
    · next husername =>
      rw [assignee, if_pos husername] at hinvitee
      exact (keeps_inviteRecord hmission hrole hinvitee).bind fun _ => keeps_pure
    · next husername =>
      rw [assignee, if_neg husername] at hinvitee
      exact (keeps_inviteRecord hmission hrole hinvitee).bind fun _ => keeps_pure

theorem roleSetImpl_works (clientUid username : String) (role : Option Role)
    (hrequest : ∃ key, request = .about key (.setRole clientUid username role)) :
    Works env caller request start (roleSetImpl env caller mission clientUid username role) := by
  obtain ⟨key, rfl⟩ := hrequest
  refine wp_require hmission fun hset server hreached hstate => ?_
  simp only [wp_bind, wp_ensure]
  refine ⟨fun hdefault => ⟨fun hrole => ?_, fun _ => hreached⟩, fun _ => hreached⟩
  cases role with
  | none =>
    have hfound : (caller.target start.state key).toOption = some mission := hmission
    have hends : removes env caller start.state mission.guid clientUid
        (.about key (.setRole clientUid username none)) = true := by
      simp [removes, hfound, hset, hdefault]
    exact (keeps_unsubscribe hmission).run
      (hreached.tail (.disconnect server mission.guid clientUid (.inr hends)))
  | some role =>
    have hassigned := (keeps_setRole hmission hrole (mem_singleton.2 rfl)).run
      ⟨hreached, by rw [hstate]⟩
    exact hassigned.mono (fun _ _ h => h.1) fun _ _ h => h.1

/-! ### Updates -/

theorem updateExisting_works (create : CreateRequest) (groups : Finset String)
    (allowGroupChange : Bool) :
    Works env caller request start
    (updateExisting env caller inputs mission create groups allowGroupChange) := by
  have hpassword : Keeps (Reached env caller request start)
      (updatePassword env caller inputs mission create
        (env.roleFor start.state mission caller)) := by
    refine keeps_whenever ⟨fun {server} hreached => ?_⟩
    rw [wp_bind, wp_check]
    refine ⟨fun hrole => ?_, fun _ => hreached⟩
    have hnoted := reached_note (seen_of_target hmission).1 hrole hreached
    obtain ⟨role, hrole, hhas⟩ := (Option.any_eq_true _ _).1 hrole
    exact wp_recordExisting (fun disk =>
      hnoted.tail (.setPassword _ mission _ _ disk hmission ⟨role, .inl hrole, hhas⟩)) fun _ =>
        hnoted
  have hdefault :
      Keeps (Reached env caller request start)
        (updateDefaultRole env caller inputs mission create) := by
    refine keeps_whenever ⟨fun {server} hreached => ?_⟩
    simp only [wp_bind, wp_orThrow, wp_check, wp_ensure]
    refine ⟨fun defaultRole _ => ⟨fun tokenRole htoken => ⟨fun hhas => ?_, fun _ => hreached⟩,
      fun _ => hreached⟩, fun _ => hreached⟩
    have hholds : HoldsRole env caller start server mission tokenRole := by
      split at htoken
      · next hadmin => exact .inr (.inl ⟨hadmin, (Option.some.inj htoken).symm⟩)
      · exact .inr (.inr htoken)
    have hnoted :=
      hreached.tail
        (.pass server mission tokenRole .setRole (seen_of_target hmission).1 hholds hhas)
    refine ⟨fun hall => wp_recordExisting (fun disk => ?_) fun _ => hnoted, fun _ => hnoted⟩
    exact hnoted.tail (.setDefaultRole _ mission defaultRole _ disk hmission
      ⟨tokenRole, hholds, hhas, hall⟩)
  have hedit := fun event hevent =>
    @keeps_edit event _ _ (@reached_edit env caller request start) mission.guid hevent
  have hfields := fun fields => hedit (.fieldsSet mission.guid fields inputs.now) ⟨rfl, trivial⟩
  have hgroups := hedit (.groupsSet mission.guid groups inputs.now) ⟨rfl, trivial⟩
  refine Keeps.run (keeps_ensure.bind fun _ => (keeps_check hmission).bind fun _ =>
    ?_) ReflTransGen.refl
  refine (keeps_whenever (hfields _)).bind fun _ => hpassword.bind fun _ =>
    hdefault.bind fun _ => ?_
  exact (keeps_whenever ((keeps_check hmission).bind fun _ => hgroups)).bind fun _ =>
    keeps_missionResponse

/-! ### All requests about a mission -/

def MissionRequest.givesTokens : MissionRequest → Bool
  | .copy _ | .accessToken _ | .subscription _ | .subscribe .. | .invitations => true
  | _ => false

end Handlers

/-- A response without log entries or events. -/
def Reply.plain : Reply → Bool
  | .logEntry _ | .logEntries _ | .withLogs .. | .events _ => false
  | _ => true

def MissionRequest.plain : MissionRequest → Bool
  | .logs | .cot | .subscribe .. => false
  | _ => true

variable {about : MissionRequest}

/-- Whatever a handler does before, it ends by returning its response. -/
theorem handleAbout_plain :
    Answers (fun reply => (about.givesTokens = false → reply.tokens = []) ∧
      (about.plain = true → reply.plain = true)) (handleAbout env caller inputs mission about) := by
  cases about with
  | subscribe uid topic password =>
    refine ⟨fun server => wp_trivial.mono (fun _ _ _ => ⟨?_, ?_⟩) fun _ _ h => h⟩
    · exact fun h => Bool.noConfusion h
    · exact fun h => Bool.noConfusion h
  | _ =>
    repeat' first | refine answers_pure ⟨?_, ?_⟩ | refine answers_bind fun _ => ?_ | split
    all_goals first | exact fun _ => rfl | exact fun h => Bool.noConfusion h

private theorem handleAbout_works
    (hmission : target caller start.state (.about key about) = some mission)
    (hplain : about.givesTokens = false) :
    Works env caller (.about key about) start (handleAbout env caller inputs mission about) := by
  cases about with
  | delete deepDelete creatorUid =>
    refine works_of_require hmission fun _ => (keeps_whenever (keeps_check hmission)).bind fun _ =>
      ?_
    exact keeps_delete.bind fun _ => keeps_pure
  | addContents hashes uids paths creatorUid =>
    refine works_of_require hmission fun hrole => ?_
    have hwrite := mayWrite_of_role hmission hrole
    refine keeps_ensure.bind fun _ =>
      (keeps_addContents reached_edit fun _ _ => ⟨rfl, hwrite⟩).bind fun _ => ?_
    refine (keeps_forM fun path _ => keeps_forM fun item _ => ?_).bind fun _ =>
      keeps_missionResponse
    exact keeps_fileContents (keeps_onLayers hwrite rfl) keeps_draw fun _ _ =>
      keeps_addContentAt hwrite
  | removeContent hash uid creatorUid =>
    refine works_of_require hmission fun hrole => ?_
    have hremove := fun content =>
      @keeps_removeContentAt _ _ _ _ _ (mayWrite_of_role hmission hrole) creatorUid content
        inputs.now none
    exact (keeps_forM fun content _ => hremove content).bind fun _ =>
      (keeps_forM fun content _ => hremove content).bind fun _ =>
      keeps_missionResponse
  | guarded | cot | subscribers | subscriptionRoles | role =>
    exact works_of_require hmission fun _ => keeps_pure
  | logs => exact works_of_require hmission fun _ => keeps_reads.bind fun _ => keeps_pure
  | setKeywords keywords =>
    refine works_of_write hmission fun _ => keeps_orThrow.bind fun _ =>
      Keeps.bind (keeps_edit reached_edit ⟨rfl, trivial⟩) fun _ => ?_
    exact keeps_ensure.bind fun _ => keeps_missionResponse
  | clearKeywords =>
    refine works_of_write hmission fun _ =>
      Keeps.bind (keeps_edit reached_edit ⟨rfl, trivial⟩) fun _ => ?_
    exact keeps_ensure.bind fun _ => keeps_missionResponse
  | removeKeyword name keyword =>
    refine works_of_write hmission fun _ => keeps_ensure.bind fun _ =>
      Keeps.bind (keeps_edit reached_edit ⟨rfl, trivial⟩) fun _ => ?_
    exact keeps_ensure.bind fun _ => keeps_missionResponse
  | setContentKeywords content keywords =>
    refine works_of_write hmission fun _ => keeps_orThrow.bind fun _ => keeps_ensure.bind fun _ =>
      ?_
    exact Keeps.bind (keeps_edit reached_edit ⟨rfl, trivial⟩) fun _ => keeps_ensure.bind fun _ =>
      keeps_pure
  | clearContentKeywords content =>
    refine works_of_write hmission fun _ => ?_
    exact Keeps.bind (keeps_edit reached_edit ⟨rfl, trivial⟩) fun _ => keeps_ensure.bind fun _ =>
      keeps_pure
  | addMapLayer creatorUid body =>
    refine works_of_write hmission fun hwrite => keeps_orThrow.bind fun _ =>
      keeps_orThrow_bind fun body hbody => ?_
    subst hbody
    refine keeps_ensure.bind fun _ => Keeps.bind (keeps_saveNewMapLayer reached_edit ?_ ?_) fun _ =>
      keeps_pure
    · exact fun server hreached => hreached.tail (.draw server)
    · exact fun server layer _ hreached hguid huid hprops =>
        allowed_newMapLayer (hguid ▸ hwrite) hreached huid (hprops ▸ id)
  | updateMapLayer creatorUid body =>
    refine works_of_write hmission fun _ => keeps_orThrow.bind fun _ =>
      keeps_orThrow_bind fun body hbody => ?_
    subst hbody
    refine keeps_get.bind fun server => keeps_orThrow_bind fun found hfound =>
      keeps_ensure.bind fun _ => ?_
    have huid : found.uid = body.uid := server.state.data.mapLayers.keyed _ _ hfound
    refine Keeps.bind (keeps_storeOp reached_edit (only_put ⟨rfl, .inl ?_, id⟩)) fun _ =>
      keeps_get.bind fun _ => keeps_pure
    exact mem_singleton.2 huid
  | setExternal creatorUid body =>
    refine works_of_write hmission fun hwrite => keeps_orThrow.bind fun _ =>
      keeps_orThrow_bind fun body hbody => ?_
    subst hbody
    refine keeps_ensure.bind fun _ => Keeps.bind (keeps_saveExternal reached_edit hwrite (.inl ?_))
      fun _ => keeps_pure
    exact mem_singleton.2 rfl
  | changeExternal id creatorUid notes action =>
    refine works_of_write hmission fun _ => keeps_orThrow.bind fun _ => keeps_orThrow.bind fun _ =>
      Keeps.bind ?_ fun _ =>
      keeps_orThrow.bind fun _ => keeps_pure
    exact keeps_storeOp reached_edit (only_externalDataChange fun _ _ _ huid =>
      ⟨rfl, mem_singleton.2 huid⟩)
  | addFeed params =>
    refine works_of_write hmission fun hwrite => keeps_orThrow.bind fun _ =>
      keeps_orThrow.bind fun _ => keeps_orThrow.bind fun _ => ?_
    refine ⟨fun {server} hreached => ?_⟩
    refine Keeps.run (Keeps.bind (keeps_addMissionFeed hwrite ?_) fun _ => keeps_pure)
      (hreached.tail (.draw server))
    exact ⟨server.drawn, drawn_le_of_reached hreached, rfl⟩
  | removeFeed uid creatorUid =>
    refine works_of_write hmission fun _ => keeps_orThrow.bind fun _ =>
      Keeps.bind (keeps_removeMissionFeed ?_) fun _ => keeps_pure
    exact mem_singleton.2 rfl
  | createLayer params =>
    refine works_of_write hmission fun hwrite => keeps_orThrow.bind fun _ =>
      keeps_orThrow.bind fun _ => ?_
    exact keeps_orThrow.bind fun _ => keeps_orThrow.bind fun _ =>
      (keeps_addLayer (keeps_onLayers hwrite rfl) keeps_draw).bind fun _ => keeps_pure
  | renameLayer uid params =>
    refine works_of_write hmission fun hwrite => keeps_orThrow.bind fun _ =>
      keeps_orThrow.bind fun _ => keeps_get.bind fun _ => ?_
    exact keeps_orThrow.bind fun _ =>
      (keeps_onLayers hwrite rfl (MissionStore.only_renameLayer uid _)).bind fun _ => keeps_pure
  | setLayerParent layerUids params =>
    refine works_of_write hmission fun hwrite => keeps_orThrow.bind fun _ =>
      keeps_ensure.bind fun _ => ?_
    exact (keeps_moveLayers (keeps_onLayers hwrite rfl)).bind fun _ => keeps_pure
  | deleteLayers uids creatorUid =>
    refine works_of_write hmission fun hwrite => keeps_orThrow.bind fun _ =>
      keeps_ensure.bind fun _ => ?_
    exact (keeps_forM fun _ _ => keeps_deleteLayer hwrite rfl).bind fun _ => keeps_pure
  | package creatorUid items =>
    refine works_of_require hmission fun hrole => ?_
    exact (keeps_forM fun item _ =>
      keeps_importItem (mayWrite_of_role hmission hrole) rfl item).bind fun _ => keeps_pure
  | setPassword password =>
    refine works_of_require hmission fun hrole => Keeps.bind ⟨fun hreached => ?_⟩ fun _ =>
      keeps_pure
    obtain ⟨role, hrole, hhas⟩ := (Option.any_eq_true _ _).1 hrole
    exact wp_recordExisting (fun disk =>
      hreached.tail (.setPassword _ mission _ _ disk hmission ⟨role, .inl hrole, hhas⟩)) fun _ =>
        hreached
  | setExpiration expiration =>
    exact works_of_keeps (Keeps.bind (keeps_edit reached_edit ⟨rfl, trivial⟩) fun _ => keeps_pure)
  | unsubscribe uid topic disconnectOnly =>
    refine works_of_require hmission fun hrole => (keeps_notify fun server h => ?_).bind fun _ =>
      (keeps_whenever (keeps_unsubscribe hmission)).bind fun _ => keeps_pure
    have hfound : (caller.target start.state key).toOption = some mission := hmission
    exact h.tail (.disconnect server mission.guid (topicUid uid topic)
      (.inl (by simp [unsubscribes, hfound, hrole])))
  | setSubscriptionRoles creatorUid entries =>
    exact setSubscriptionRolesImpl_works hmission creatorUid entries rfl rfl
  | setRole clientUid username role =>
    exact roleSetImpl_works hmission clientUid username role ⟨key, rfl⟩
  | invite kind invitee creatorUid role =>
    simp only [Works, handleAbout, inviteImpl, wp_bind, wp_orThrow, wp_ensure]
    refine ⟨fun creator _ => ⟨fun hrole => ?_, fun _ => .refl⟩, fun _ => .refl⟩
    exact ((keeps_inviteRecord hmission hrole (mem_singleton.2 rfl)).run ⟨.refl, rfl⟩).mono
      (fun _ _ h => h.1) fun _ _ h => h.1
  | uninvite kind invitee creatorUid =>
    refine works_of_keeps (keeps_get.bind fun server => keeps_orThrow.bind fun _ => ?_)
    split
    · exact keeps_pure
    · exact Keeps.bind (keeps_record reached_edit ⟨rfl, trivial⟩) fun _ => keeps_pure
  | _ => cases hplain

theorem handleAbout_justified
    (hmission : target caller start.state (.about key about) = some mission) :
    Justified env caller (.about key about) start
    (handleAbout env caller inputs mission about) := by
  cases htokens : about.givesTokens with
  | false =>
    exact (handleAbout_works hmission htokens).justified (handleAbout_plain.mono fun _ h =>
      h.1 htokens)
  | true =>
    cases about with
    | copy copy => exact copyMission_justified hmission copy ⟨key, rfl⟩
    | accessToken password => exact accessToken_justified hmission password ⟨key, rfl⟩
    | subscription uid => exact subscriptionGetImpl_justified uid
    | subscribe uid topic password =>
      exact subscribeImpl_justified hmission uid topic password ⟨key, rfl⟩
    | invitations => exact invitationsImpl_justified hmission ⟨key, rfl⟩
    | _ => cases htokens

theorem createImpl_justified (name : String) (create : CreateRequest) (allowGroupChange : Bool)
    (dupe : Dupe)
    (htarget : ∀ mission, caller.lookup start.state true (.name (Text.trim name)) =
      .ok (some mission) → (dupe.allow && dupe.inDifferentGroups) = false →
      request.target caller start.state = some mission)
    (hsubscriber : request.subscriber = some create.creatorUid) :
    Justified env caller request start
    (createImpl env caller inputs name create allowGroupChange dupe) := by
  simp only [Justified, createImpl, wp_bind, wp_ensure, wp_reads]
  refine ⟨fun _ => ⟨fun groups _ => ⟨fun found hfound => ?_, fun _ _ => .refl⟩, fun _ _ => .refl⟩,
    fun _ => .refl⟩
  split
  · next mission hmission =>
    rw [Option.filter_eq_some_iff] at hmission
    have hmission :=
      htarget mission (by rw [hfound, hmission.1])
        (by simpa only [Bool.not_eq_true'] using hmission.2)
    refine (updateExisting_works hmission create groups allowGroupChange).justified ?_
    repeat' first | exact answers_pure rfl | refine answers_bind fun _ => ?_
  · refine wp_bind.2 ((wp_createOwned (fun _ => rfl) .refl).mono (fun owned server h => ?_)
      (fun _ _ h => h))
    refine ⟨h.1.1.tail (.connect server owned.1.guid create.creatorUid hsubscriber (.inl h.2)),
      fun token htoken => ?_⟩
    rw [mem_singleton.1 htoken]
    exact OwnToken.shows h.1.2

/-! ### Log entries -/

section LogEntries

variable {names : List String} {entry : LogEntryRecord}

theorem wp_logged {rest : Api Reply}
    (hnames : ∀ name ∈ names, name ∈ request.logMissions start.state)
    (h : Reached env caller request start server ∧ server.state = start.state)
    (hrest : Keeps (Reached env caller request start) rest) :
    wp (checkLogMissions env caller names permission >>= fun _ => rest) (fun _ =>
      Reached env caller request start) (fun _ => Reached env caller request start) server := by
  refine Keeps.wp_bind (I := fun server => Reached env caller request start server ∧
    server.state = start.state) ?_ h (fun _ _ h => hrest.run h.1) fun _ _ h => h.1
  refine keeps_forM fun name hname => ⟨fun {server} h => ?_⟩
  simp only [checkLogMission, wp_bind, wp_orThrow]
  refine ⟨fun mission hmission => ?_, fun _ => h⟩
  rw [h.2] at hmission ⊢
  split
  · next role hrole =>
    rw [wp_check]
    refine ⟨fun hhas => ⟨?_, h.2⟩, fun _ => h⟩
    exact h.1.tail (.pass server mission role permission (start.state.byName_spec hmission).1
      (.inl hrole) hhas)
  · next hrole =>
    exact ⟨h.1.tail (.spare server name mission permission (hnames name hname) hmission hrole), h.2⟩

variable {id content creatorUid : String} {missionNames : List String}

theorem keeps_saved (hlogs : request.editsLogs = true) : Keeps (Reached env caller request start)
    (storeOp (saveLogEntry entry) >>= fun saved => pure (Reply.logEntry saved)) :=
  Keeps.bind (keeps_saveLogEntry reached_edit ⟨rfl, hlogs⟩) fun _ => keeps_pure

theorem postLogEntry_works : Works env caller (.postLogEntry content creatorUid missionNames) start
    (postLogEntry env caller inputs content creatorUid missionNames) := by
  exact wp_logged (fun _ h => h) ⟨.tail .refl (.draw start), rfl⟩ (keeps_saved rfl)

theorem mem_logMissions (hentry : start.state.logs[id]? = some entry) :
    ∀ name ∈ entry.missionNames, name ∈ ((start.state.logs[id]?).map (·.missionNames)).getD [] := by
  rw [hentry]
  exact fun _ h => h

theorem getLogEntry_works :
    Works env caller (.getLogEntry id) start (getLogEntry env caller id) := by
  rw [Works, getLogEntry, wp_bind, wp_get, wp_bind, wp_orThrow]
  exact ⟨fun entry hentry => wp_logged (mem_logMissions hentry) ⟨.refl, rfl⟩ keeps_pure,
    fun _ => .refl⟩

private theorem deleteLogEntry_works :
    Works env caller (.deleteLogEntry id) start (deleteLogEntry env caller id) := by
  rw [Works, deleteLogEntry, wp_bind, wp_get, wp_bind, wp_orThrow]
  refine ⟨fun entry hentry => wp_logged (mem_logMissions hentry) ⟨.refl, rfl⟩ ?_, fun _ => .refl⟩
  exact Keeps.bind (keeps_record reached_edit ⟨rfl, rfl⟩) fun _ => keeps_pure

end LogEntries

/-- Every change of a request is one of the effects, and every token in its response is accounted
for. -/
theorem handle_justified :
    Justified env caller request start (handle env caller inputs request) := by
  cases request with
  | get key password =>
    cases htarget : caller.target start.state key with
    | ok mission =>
      have hmission : target caller start.state (.get key password) = some mission :=
        toOption_eq_some.2 htarget
      exact getMissionImpl_justified hmission key password rfl htarget
    | error e =>
      simp [Justified, handle, getMissionImpl, Caller.existing, htarget, ReflTransGen.refl]
  | put name create allowGroupChange =>
    refine createImpl_justified name create allowGroupChange _ (fun mission hlookup _ => ?_) rfl
    rw [target, hlookup]
    rfl
  | post name create allowGroupChange allowDupe =>
    refine createImpl_justified name create allowGroupChange _ (fun mission hlookup hdupe => ?_) rfl
    have hallow : allowDupe = false := by simpa using hdupe
    rw [target, hlookup, hallow]
    rfl
  | about key about =>
    rw [Justified, handle, Caller.existing, wp_bind, wp_reads]
    exact ⟨fun mission htarget => handleAbout_justified (toOption_eq_some.2 htarget),
      fun _ _ => .refl⟩
  | myInvitations clientUid =>
    simp only [Justified, handle, myInvitations, wp_bind, wp_orThrow]
    refine ⟨fun clientUid hclientUid => ⟨.refl, fun token htoken => ?_⟩, fun _ => .refl⟩
    obtain ⟨invitation, hinvitation, rfl⟩ := mem_map.1 htoken
    exact .mine clientUid invitation (by rw [hclientUid]) rfl hinvitation
  | allInvitationNames clientUid => exact ⟨.refl, forall_mem_nil _⟩
  | postLogEntry =>
    exact postLogEntry_works.justified (answers_bind fun _ => answers_bind fun _ =>
      answers_bind fun _ => answers_pure rfl)
  | putLogEntry =>
    refine Works.justified ?_ (answers_bind fun _ => answers_bind fun _ => ?_)
    · exact wp_logged (fun _ h => h) ⟨.refl, rfl⟩ (keeps_get.bind fun _ =>
        keeps_ensure.bind fun _ => keeps_saved rfl)
    exact answers_bind fun _ => answers_bind fun _ => answers_pure rfl
  | getLogEntry =>
    exact getLogEntry_works.justified (answers_bind fun _ => answers_bind fun _ =>
      answers_bind fun _ => answers_pure rfl)
  | deleteLogEntry =>
    refine deleteLogEntry_works.justified (answers_bind fun _ => answers_bind fun _ => ?_)
    exact answers_bind fun _ => answers_bind fun _ => answers_pure rfl
  | allLogs =>
    exact (works_of_keeps (keeps_ensure.bind fun _ => keeps_get.bind fun _ => keeps_pure)).justified
      (answers_bind fun _ => answers_bind fun _ => answers_pure rfl)

end MicroTak.Missions
