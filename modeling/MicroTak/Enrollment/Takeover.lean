import MicroTak.Enrollment.Steps

/-!
# Nobody takes over an identity

What a request has shown when it comes to enroll a certificate, over any interleaving of requests,
administrator's calls, crashes and restarts.
-/

namespace MicroTak.Enrollment

open Std Registry Users Groups Lines Transition DeviceRegistry RegistryState

/-! ### What a request has shown -/

def ProvesPassword (env : Env) (users : UserStore) (request : SignRequest)
    (username : String) : Prop :=
  ∃ password record, basicAuthCredentials env request = some (username, password) ∧
    users.users[username]? = some record ∧ env.argon2.verify password record.passwordHash = true

/-- The request carries this token, as a parameter or in place of a password. -/
def Presents (env : Env) (request : SignRequest) (token : String) : Prop :=
  request.token = some token ∨ ∃ username, basicAuthCredentials env request = some (username, token)

/-- What holds of a request at each stage, given the accounts, the bootstrap token and the holder of
its lock. -/
def Stage.Ok (env : Env) (users : UserStore) (bootstrap : Option String)
    (holder : Option Nat) (id : Nat) (request : SignRequest) : Stage → Prop
  | .received | .responded _ => True
  | .chooses signed => SignedFor env id request signed
  | .limitsPassword signed username password | .verifies signed username password =>
      SignedFor env id request signed ∧ basicAuthCredentials env request = some (username, password)
  | .readsAccount signed username =>
    SignedFor env id request signed ∧ ProvesPassword env users request username
  | .checksGroups signed _ | .checksBlock signed _ | .rotates signed _ =>
      SignedFor env id request signed ∧ ProvesPassword env users request signed.commonName ∧
        env.isAdminCn signed.commonName = false
  | .limitsBootstrap signed token =>
      SignedFor env id request signed ∧ env.isAdminCn signed.commonName = true ∧ ∀ t ∈ token,
        Presents env request t
  | .locksToken signed token =>
      SignedFor env id request signed ∧ env.isAdminCn signed.commonName = true ∧
        Presents env request token
  | .enrollsAdmin signed =>
      SignedFor env id request signed ∧ env.isAdminCn signed.commonName = true ∧ holder = some id ∧
        ∃ token, bootstrap = some token ∧ Presents env request token
  | .clearsToken _ | .deletesFile _ => holder = some id
  | .findsDevice signed _ | .limitsInvite signed _ | .looksUpInvite signed _
  | .checksInviteGroups signed _ _
  | .consumesInvite signed _ _ | .enrollsNew signed _ =>
      SignedFor env id request signed ∧ env.isAdminCn signed.commonName = false
  | .grants _ _ => True

/-! ### The accounts keep their passwords -/

/-- Every account of the first store is in the second, with the same hash. -/
def KeepsAccounts (before after : UserStore) : Prop :=
  ∀ (username : String) (record : UserRecord), before.users[username]? = some record →
    ∃ kept, after.users[username]? = some kept ∧ kept.passwordHash = record.passwordHash

theorem keepsAccounts_refl (users : UserStore) : KeepsAccounts users users :=
  fun _ record h => ⟨record, h, rfl⟩

variable {env : Env}

section

variable {request : SignRequest}

theorem ProvesPassword.mono {before after : UserStore} {username : String}
    (h : ProvesPassword env before request username) (hkeep : KeepsAccounts before after) :
    ProvesPassword env after request username := by
  obtain ⟨password, record, hauth, hrecord, hverify⟩ := h
  obtain ⟨kept, hkept, hhash⟩ := hkeep username record hrecord
  exact ⟨password, kept, hauth, hkept, hhash ▸ hverify⟩

theorem provesPassword_of_authenticate {users : UserStore} {username password : String}
    (hauth : basicAuthCredentials env request = some (username, password))
    (h : users.authenticate env.argon2 username password = true) :
    ProvesPassword env users request username := by
  unfold UserStore.authenticate at h
  split at h
  · cases h
  · rename_i record hrecord
    split at h
    · cases h
    · exact ⟨password, record, hauth, hrecord, h⟩

/-- What a request has shown stays shown while others go on: the lock keeps the bootstrap token. -/
theorem Stage.Ok.mono {before after : UserStore} {bootstrap bootstrap' : Option String}
    {holder holder' : Option Nat} {id : Nat} {stage : Stage}
    (h : stage.Ok env before bootstrap holder id request) (hkeep : KeepsAccounts before after)
    (hlock : holder = some id → holder' = some id ∧ bootstrap' = bootstrap) :
    stage.Ok env after bootstrap' holder' id request := by
  cases stage with
  | readsAccount signed username => exact ⟨h.1, h.2.mono hkeep⟩
  | checksGroups signed grants | checksBlock signed grants | rotates signed grants =>
    exact ⟨h.1, h.2.1.mono hkeep, h.2.2⟩
  | enrollsAdmin signed =>
    obtain ⟨hsigned, hadmin, hholder, token, htoken, hpresents⟩ := h
    obtain ⟨hholder', hbootstrap⟩ := hlock hholder
    exact ⟨hsigned, hadmin, hholder', token, hbootstrap ▸ htoken, hpresents⟩
  | clearsToken signed | deletesFile signed => exact (hlock h).1
  | _ => exact h

/-! ### One step of a request -/

/-- The registry is left alone, or one certificate is enrolled: by a rotation, or under a new
name. -/
def RegistryEffect (before after : DeviceRegistry) (request : SignRequest) (stage : Stage) : Prop :=
  after = before ∨ ∃ signed, after = enrolledRegistry before request signed ∧
    ((∃ grants, stage = .rotates signed grants) ∨
      before.state.find signed.commonName = none ∧
        (stage = .enrollsAdmin signed ∨ ∃ grants, stage = .enrollsNew signed grants))

structure Advanced (env : Env) (server : Server) (running : Running) (id : Nat)
    (request : SignRequest) (stage : Stage) (next : Server) (running' : Running)
    (stage' : Stage) : Prop where
  running_eq : next.running = some running'
  requests_eq : running'.requests = running.requests.insert id (request, stage')
  users_eq : next.users = server.users
  ok : stage'.Ok env server.users running'.bootstrap running'.holder id request
  lock : ∀ other, other ≠ id → running.holder = some other →
    running'.holder = some other ∧ running'.bootstrap = running.bootstrap
  registry : RegistryEffect server.registry next.registry request stage

namespace Server

variable {server next : Server} {running : Running} {id : Nat} {input : Input} {stage : Stage}

theorem withoutPassword_ok {users : UserStore} {bootstrap : Option String} {holder : Option Nat}
    {signed : Signed} {token : Option String} (hsigned : SignedFor env id request signed)
    (htoken : ∀ t ∈ token, Presents env request t) :
    (withoutPassword env signed token).Ok env users bootstrap holder id request := by
  unfold withoutPassword
  split
  · rename_i hadmin
    exact ⟨hsigned, hadmin, htoken⟩
  · rename_i hadmin
    exact ⟨hsigned, Bool.eq_false_iff.2 hadmin⟩

private theorem presents_of_presentedToken {t : String} (h : t ∈ presentedToken env request) :
    Presents env request t := by
  rw [presentedToken] at h
  split at h
  · next username token hauth =>
    cases h
    exact .inr ⟨username, hauth⟩
  · exact .inl h

/-- Going on, a request has shown what its new stage says, and the lock is with whom it was unless
the request holds it or takes it. -/
theorem advance_spec (hok : stage.Ok env server.users running.bootstrap running.holder id request)
    (h : server.advance env running id request input stage = some next) :
    ∃ running' stage', Advanced env server running id request stage next running' stage' := by
  obtain ⟨running', stage', hrunning, hrequests, husers, htake, hlocks, -⟩ := advance_moved h
  refine ⟨running', stage', hrunning, hrequests, husers, ?_, ?_, ?_⟩
  · generalize next.registry = registry, next.tokens = tokens, next.groups = groups at htake
    generalize running'.holder = holder, running'.bootstrap = bootstrap at hlocks ⊢
    cases htake with
    | goes hgoes =>
      cases hgoes with
      | refused | fileDeleted => trivial
      | signed hsigned => exact hsigned
      | password hauth => exact ⟨hok, hauth⟩
      | noPassword htoken =>
        exact withoutPassword_ok hok fun t ht => presents_of_presentedToken (htoken ▸ ht)
      | verified hverified => exact ⟨hok.1, provesPassword_of_authenticate hok.2 hverified⟩
      | @account signed =>
        refine ⟨hok.1, hok.2, Bool.eq_false_iff.2 fun hadmin => ?_⟩
        -- The administrator is answered at this stage.
        simp only [advance, ne_eq, not_true_eq_false, if_false, hadmin, if_true] at h
        cases h
        cases hrunning
        have hstage := congrArg (·[id]?) hrequests
        simp at hstage
      | bootstrapAdmitted => exact ⟨hok.1, hok.2.1, hok.2.2 _ rfl⟩
      | tokenLocked =>
        cases hlocks with
        | kept hstage => cases hstage
        | taken _ hmatch => exact ⟨hok.1, hok.2.1, rfl, _, hmatch, hok.2.2⟩
      | tokenCleared => cases hlocks <;> exact hok
      | _ => exact hok
    | adminEnrolled =>
      cases hlocks
      exact hok.2.2.1
    | inviteConsumed => exact hok
    | _ => trivial
  · generalize running'.holder = holder, running'.bootstrap = bootstrap at hlocks
    intro other hother hheld
    have hnot : running.holder ≠ some id := fun hid =>
      hother (Option.some.inj (hheld.symm.trans hid))
    cases hlocks with
    | kept | refused => exact ⟨hheld, rfl⟩
    | taken hfree => cases hfree.symm.trans hheld
    | failed => exact absurd hok.2.2.1 hnot
    | cleared | released => exact absurd hok hnot
  · generalize next.registry = registry, next.tokens = tokens, next.groups = groups at htake ⊢
    cases htake with
    | rotated => exact .inr ⟨_, rfl, .inl ⟨_, rfl⟩⟩
    | adminEnrolled hnew => exact .inr ⟨_, rfl, .inr ⟨hnew, .inl rfl⟩⟩
    | enrolledNew hnew => exact .inr ⟨_, rfl, .inr ⟨hnew, .inr ⟨_, rfl⟩⟩⟩
    | _ => exact .inl rfl

end Server

/-! ### The registry over a run -/

/-- The registry is what its log says, knows every name the log enrolls, and has enrolled the
administrator at most once. -/
structure RegistryInv (env : Env) (registry : DeviceRegistry) : Prop where
  faithful : registry.Faithful
  known : ∀ commonName, registry.log.countP (·.enrolls commonName) ≠ 0 →
    (registry.state.find commonName).isSome
  once : ∀ admin ∈ env.adminCommonName, registry.log.countP (·.enrolls admin) ≤ 1

theorem RegistryInv.record {before after : DeviceRegistry} {event : RegistryEvent}
    (h : RegistryInv env before) (hrecord : before.record true event = .ok after)
    (hadmin : ∀ admin ∈ env.adminCommonName, event.enrolls admin = true →
      before.state.find admin = none) :
    RegistryInv env after := by
  have hfaithful := h.faithful.record hrecord
  obtain ⟨-, rfl⟩ := record_eq_ok.1 hrecord
  refine ⟨hfaithful, fun commonName hcount => ?_, fun admin hmem => ?_⟩
  · cases henrolls : event.enrolls commonName with
    | true =>
      cases event with
      | enrolled name certPem atUnix clientUid =>
        obtain rfl : name = commonName := by simpa [RegistryEvent.enrolls] using henrolls
        simp [Registry.applyEvent, find]
      | revoked name | unblocked name | certRevoked name atUnix | uidBound name uid
      | certDeleted id => cases henrolls
    | false =>
      have hbefore : before.log.countP (·.enrolls commonName) ≠ 0 := by
        simpa [henrolls] using hcount
      have hknown := h.known commonName hbefore
      rw [← Option.isSome_map (f := DeviceRecord.certPem)] at hknown ⊢
      rwa [certPem_applyEvent henrolls]
  · have honce := h.once admin hmem
    cases henrolls : event.enrolls admin with
    | true =>
      -- The name is free, so the log has not enrolled it.
      have hzero : before.log.countP (·.enrolls admin) = 0 := by
        by_contra hcount
        have hknown := h.known admin hcount
        rw [hadmin admin hmem henrolls] at hknown
        cases hknown
      simp [hzero, henrolls]
    | false => simpa [henrolls] using honce

/-- A change of the registry that enrolls nobody. -/
def QuietChange (before after : DeviceRegistry) : Prop :=
  after = before ∨ ∃ event : RegistryEvent, (∀ commonName, event.enrolls commonName = false) ∧
    before.record true event = .ok after

theorem QuietChange.currentCert {before after : DeviceRegistry} (h : QuietChange before after)
    (commonName : String) : after.currentCert commonName = before.currentCert commonName := by
  rcases h with rfl | ⟨event, hquiet, hrecord⟩
  · rfl
  · obtain ⟨-, rfl⟩ := record_eq_ok.1 hrecord
    exact certPem_applyEvent (hquiet commonName)

theorem QuietChange.count {before after : DeviceRegistry} (h : QuietChange before after)
    (commonName : String) : after.log.countP (·.enrolls commonName) = before.log.countP
    (·.enrolls commonName) := by
  rcases h with rfl | ⟨event, hquiet, hrecord⟩
  · rfl
  · obtain ⟨-, rfl⟩ := record_eq_ok.1 hrecord
    simp [hquiet]

theorem RegistryInv.quiet {before after : DeviceRegistry} (h : RegistryInv env before)
    (hquiet : QuietChange before after) : RegistryInv env after := by
  rcases hquiet with rfl | ⟨event, hnone, hrecord⟩
  · exact h
  · exact h.record hrecord fun admin _ henrolls => absurd henrolls (by simp [hnone])

theorem currentCert_enrolledRegistry (registry : DeviceRegistry) (request : SignRequest)
    (signed : Signed) (commonName : String) :
    (enrolledRegistry registry request signed).currentCert commonName =
      if signed.commonName = commonName then some signed.certPem
      else registry.currentCert commonName := by
  by_cases hname : signed.commonName = commonName
  · simp [currentCert, enrolledRegistry, Registry.applyEvent, find, hname]
  · rw [if_neg hname]
    exact certPem_applyEvent (by simp [RegistryEvent.enrolls, hname])

namespace Server

variable {server next : Server} {id : Nat} {stage : Stage}

theorem quiet_of_admin {call : AdminCall} (h : server.admin env call = some next) :
    QuietChange server.registry next.registry := by
  cases call with
  | revoke =>
    obtain ⟨registry, hregistry, rfl⟩ := ok_of_toOption_map h
    exact changes_revoke hregistry fun _ => rfl
  | revokeCert =>
    obtain ⟨registry, hregistry, rfl⟩ := ok_of_toOption_map h
    exact changes_revokeCert hregistry fun _ _ => rfl
  | unblock =>
    obtain ⟨registry, hregistry, rfl⟩ := ok_of_toOption_map h
    exact changes_unblock hregistry fun _ => rfl
  | deleteCert =>
    obtain ⟨registry, hregistry, rfl⟩ := ok_of_toOption_map h
    exact changes_deleteCert hregistry fun _ => rfl
  | changeGroups =>
    cases h
    exact .inl rfl
  | _ =>
    simp only [admin] at h
    obtain ⟨_, -, rfl⟩ := ok_of_toOption_map h
    exact .inl rfl

/-! ### The invariant -/

def At (server : Server) (running : Running) (id : Nat) (request : SignRequest)
    (stage : Stage) : Prop :=
  server.running = some running ∧ running.requests[id]? = some (request, stage)

variable {running running' current : Running} {other : Nat} {stage' : Stage} {action : Action}

theorem At.of_insert {request' : SignRequest}
    (hrunning : server.running = some running) (hrunning' : next.running = some running')
    (hrequests : running'.requests = running.requests.insert id (request, stage))
    (h : next.At current other request' stage') :
    other = id ∧ request' = request ∧ stage' = stage ∨
    other ≠ id ∧ server.At running other request' stage' := by
  obtain ⟨hcurrent, hfound⟩ := h
  cases hrunning'.symm.trans hcurrent
  rw [hrequests] at hfound
  rcases Dict.of_insert hfound with ⟨hid, heq⟩ | ⟨hid, hold⟩
  · obtain ⟨rfl, rfl⟩ := Prod.mk.inj heq
    exact .inl ⟨hid.symm, rfl, rfl⟩
  · exact .inr ⟨Ne.symm hid, hrunning, hold⟩

theorem At.of_erase (hrunning : server.running = some running)
    (hrunning' : next.running = some running')
    (hrequests : running'.requests = running.requests.erase id)
    (h : next.At current other request stage) : other ≠ id ∧
    server.At running other request stage := by
  obtain ⟨hcurrent, hfound⟩ := h
  cases hrunning'.symm.trans hcurrent
  rw [hrequests] at hfound
  obtain ⟨hid, hold⟩ := Dict.of_erase hfound
  exact ⟨Ne.symm hid, hrunning, hold⟩

/-- Where the request stood that takes a step, where it goes and what it does. -/
theorem took_of_step {input : Input} (h : server.step env (.advance id input) = some next) :
    ∃ running request stage running' stage', server.At running id request stage ∧
    next.At running' id request stage' ∧
      running'.requests = running.requests.insert id (request, stage') ∧ next.users = server.users ∧
      Take env server id request input stage next.registry next.tokens next.groups stage' := by
  obtain ⟨running, request, stage, hrunning, hfound, hadvance⟩ := step_advance h
  obtain ⟨running', stage', hrunning', hrequests, husers, htake, -⟩ := advance_moved hadvance
  refine ⟨running, request, stage, running', stage', ⟨hrunning, hfound⟩, ⟨hrunning', ?_⟩, hrequests,
    husers, htake⟩
  rw [hrequests, Dict.getElem?_insert_self]

structure Inv (env : Env) (server : Server) : Prop where
  registry : RegistryInv env server.registry
  ok : ∀ running id request stage, server.At running id request stage →
    stage.Ok env server.users running.bootstrap running.holder id request

theorem inv_start : Inv env {} where
  registry := ⟨rfl, fun _ h => absurd rfl h, fun _ _ => Nat.zero_le 1⟩
  ok _ _ _ _ h := by cases h.1

theorem Inv.boot (h : Inv env server) (random : String) : Inv env (server.boot env random) := by
  have hreplayed : (server.boot env random).registry = server.registry :=
    h.registry.faithful.loadOrCreate_log
  refine ⟨hreplayed ▸ h.registry, fun running id request stage hat => ?_⟩
  obtain rfl := Option.some.inj hat.1
  have hnone := hat.2
  simp at hnone

private theorem Inv.advance {running : Running} {input : Input} (h : Inv env server)
    (hat : server.At running id request stage)
    (hstep : server.advance env running id request input stage = some next) : Inv env next ∧
    RegistryEffect server.registry next.registry request stage := by
  obtain ⟨running', stage', hadvanced⟩ := advance_spec (h.ok _ _ _ _ hat) hstep
  refine ⟨⟨?_, ?_⟩, hadvanced.registry⟩
  · rcases hadvanced.registry with hsame | ⟨signed, hrecorded, hpath⟩
    · exact hsame ▸ h.registry
    · have hrecord : server.registry.record true
          (.enrolled signed.commonName signed.certPem signed.now request.clientUid) =
          .ok (enrolledRegistry server.registry request signed) := rfl
      rw [hrecorded]
      refine h.registry.record hrecord fun admin hadmin henrolls => ?_
      obtain rfl : signed.commonName = admin := by simpa [RegistryEvent.enrolls] using henrolls
      rcases hpath with ⟨grants, rfl⟩ | ⟨hnew, -⟩
      · -- A rotation is never of the administrator.
        exact absurd hadmin (of_decide_eq_false (h.ok _ _ _ _ hat).2.2)
      · exact hnew
  · intro current other otherRequest otherStage hother
    cases hadvanced.running_eq.symm.trans hother.1
    rw [hadvanced.users_eq]
    rcases hother.of_insert hat.1 hadvanced.running_eq hadvanced.requests_eq with ⟨rfl, rfl,
      rfl⟩ | ⟨hid, hbefore⟩
    · exact hadvanced.ok
    · exact (h.ok _ _ _ _ hbefore).mono (keepsAccounts_refl _) (hadvanced.lock other hid)

theorem Inv.step (h : Inv env server) (hstep : server.step env action = some next) :
    Inv env next ∧ (QuietChange server.registry next.registry ∨
      ∃ id input running request stage, action = .advance id input ∧
      server.At running id request stage ∧
        RegistryEffect server.registry next.registry request stage) := by
  cases action with
  | boot random =>
    obtain ⟨-, rfl⟩ := step_boot hstep
    exact ⟨h.boot random, .inl (.inl h.registry.faithful.loadOrCreate_log)⟩
  | crash =>
    cases hstep
    exact ⟨⟨h.registry, fun _ _ _ _ hat => by cases hat.1⟩, .inl (.inl rfl)⟩
  | receive id request =>
    obtain ⟨running, hrunning, -, rfl⟩ := step_receive hstep
    refine ⟨⟨h.registry, fun current other otherRequest otherStage hat => ?_⟩, .inl (.inl rfl)⟩
    obtain rfl := Option.some.inj hat.1
    rcases hat.of_insert hrunning rfl rfl with ⟨rfl, rfl, rfl⟩ | ⟨-, hbefore⟩
    · trivial
    · exact h.ok running other otherRequest otherStage hbefore
  | advance id input =>
    obtain ⟨running, request, stage, hrunning, hfound, hstep⟩ := step_advance hstep
    have hat : server.At running id request stage := ⟨hrunning, hfound⟩
    obtain ⟨hinv, heffect⟩ := h.advance hat hstep
    exact ⟨hinv, .inr ⟨id, input, running, request, stage, rfl, hat, heffect⟩⟩
  | drop id =>
    obtain ⟨running, hrunning, rfl⟩ := step_drop hstep
    refine ⟨⟨h.registry, fun current other otherRequest otherStage hat => ?_⟩, .inl (.inl rfl)⟩
    obtain rfl := Option.some.inj hat.1
    exact h.ok running other otherRequest otherStage (hat.of_erase hrunning rfl rfl).2
  | admin call =>
    have hrunning := admin_running hstep
    have hquiet := quiet_of_admin hstep
    refine ⟨⟨h.registry.quiet hquiet, fun current other otherRequest otherStage hat => ?_⟩,
      .inl hquiet⟩
    have hbefore := h.ok current other otherRequest otherStage ⟨hrunning ▸ hat.1, hat.2⟩
    exact hbefore.mono (fun _ _ hrecord => ⟨_, (kept_of_admin hstep hrecord).choose_spec, rfl⟩)
      fun hheld => ⟨hheld, rfl⟩

/-- A certificate is replaced only by a request that proves the password of its name. -/
theorem Inv.replaced {commonName cert : String} (h : Inv env server)
    (hstep : server.step env action = some next)
    (hcert : server.registry.currentCert commonName = some cert)
    (hchanged : next.registry.currentCert commonName ≠ some cert) :
    ∃ id input running request stage signed, action = .advance id input ∧
    server.At running id request stage ∧
      SignedFor env id request signed ∧ signed.commonName = commonName ∧
      next.registry.currentCert commonName = some signed.certPem ∧
      ProvesPassword env server.users request commonName := by
  rcases (h.step hstep).2 with hquiet | ⟨id, input, running, request, stage, rfl, hat, heffect⟩
  · exact absurd (hquiet.currentCert commonName ▸ hcert) hchanged
  · rcases heffect with hsame | ⟨signed, hrecorded, hpath⟩
    · exact absurd (hsame ▸ hcert) hchanged
    · have hnew := currentCert_enrolledRegistry server.registry request signed commonName
      rw [← hrecorded] at hnew
      by_cases hname : signed.commonName = commonName
      · rw [if_pos hname] at hnew
        rcases hpath with ⟨grants, rfl⟩ | ⟨hfree, -⟩
        · obtain ⟨hsigned, hproof, -⟩ := h.ok _ _ _ _ hat
          exact ⟨id, input, running, request, _, signed, rfl, hat, hsigned, hname, hnew,
            hname ▸ hproof⟩
        · -- A new name holds no certificate yet.
          rw [currentCert, ← hname, hfree] at hcert
          cases hcert
      · rw [if_neg hname] at hnew
        exact absurd (hnew.trans hcert) hchanged

/-- In every run from an empty data directory, whatever the next step is: a certificate of an
enrolled name is replaced only by a request signed for that name that proves its account's password;
and the administrator's name is enrolled at most once, by a request that presents the outstanding
bootstrap token. -/
theorem no_takeover (env : Env) {actions : List Action} {action : Action}
    (hrun : run (step env) {} actions = some server) (hstep : server.step env action = some next) :
    (∀ commonName cert, server.registry.currentCert commonName = some cert →
      next.registry.currentCert commonName ≠ some cert →
      ∃ id input running request stage signed, action = .advance id input ∧
      server.At running id request stage ∧
        SignedFor env id request signed ∧ signed.commonName = commonName ∧
        next.registry.currentCert commonName = some signed.certPem ∧
        ProvesPassword env server.users request commonName) ∧
    ∀ admin ∈ env.adminCommonName,
      next.registry.log.countP (·.enrolls admin) ≤ 1 ∧
      (server.registry.log.countP (·.enrolls admin) < next.registry.log.countP (·.enrolls admin) →
        ∃ id input running request stage token, action = .advance id input ∧
        server.At running id request stage ∧
          running.bootstrap = some token ∧ Presents env request token) := by
  have hinv := run_preserves (Inv env) hrun inv_start fun _ _ _ hs hstep => (hs.step hstep).1
  refine ⟨fun commonName cert hcert hchanged => hinv.replaced hstep hcert hchanged,
    fun admin hadmin => ⟨?_, ?_⟩⟩
  · exact (hinv.step hstep).1.registry.once admin hadmin
  · intro hmore
    rcases (hinv.step hstep).2 with hquiet | ⟨id, input, running, request, stage, rfl, hat, heffect⟩
    · exact absurd hmore (by rw [hquiet.count]; exact Nat.lt_irrefl _)
    · rcases heffect with hsame | ⟨signed, hrecorded, hpath⟩
      · exact absurd hmore (by rw [hsame]; exact Nat.lt_irrefl _)
      · have hname : signed.commonName = admin := by
          by_contra hother
          rw [hrecorded] at hmore
          simp [enrolledRegistry, RegistryEvent.enrolls, hother] at hmore
        have hok := hinv.ok _ _ _ _ hat
        have hisAdmin : env.isAdminCn signed.commonName = true := decide_eq_true (hname ▸ hadmin)
        rcases hpath with ⟨grants, rfl⟩ | ⟨-, rfl | ⟨grants, rfl⟩⟩
        · exact absurd hisAdmin (Bool.eq_false_iff.1 hok.2.2)
        · obtain ⟨-, -, -, token, htoken, hpresents⟩ := hok
          exact ⟨id, input, running, request, _, token, rfl, hat, htoken, hpresents⟩
        · exact absurd hisAdmin (Bool.eq_false_iff.1 hok.2)

end Server

end

/-! ### A rotation -/

namespace Rotation

/-- Requests name their identity in the clear, and the header is not encoded. -/
def plainEnv : Env :=
  .signing fun serial csrPem => .ok (if Text.contains csrPem "CN=admin" then "admin" else "jz",
    if serial = 0 then "CERT-0" else "CERT-1")

def request : SignRequest :=
  { ipKey := "ip:10.0.0.1", authorization := some "Basic jz:pw", body := utf8 "CN=jz" }

def actions : List Action :=
  [.boot "0", .admin (.mintUser "s" "jz" "pw" [] 0), .receive 0 request] ++
    List.replicate 9 (.advance 0 {}) ++ .receive 1 request :: List.replicate 7 (.advance 1 {})

def before : Server := (run (Server.step plainEnv) {} actions).get (by decide)

def after : Server := (before.step plainEnv (.advance 1 {})).get (by decide)

end Rotation

open Rotation in
theorem rotation_proves_password :
    before.registry.currentCert "jz" = some "CERT-0" ∧ after.registry.currentCert "jz" =
    some "CERT-1" ∧
      ∃ id input running request stage signed, Action.advance 1 {} = .advance id input ∧
        before.At running id request stage ∧ SignedFor plainEnv id request signed ∧
        signed.commonName = "jz" ∧ after.registry.currentCert "jz" = some signed.certPem ∧
        ProvesPassword plainEnv before.users request "jz" := by
  have hrun : run (Server.step plainEnv) {} actions = some before := (Option.some_get _).symm
  have hstep : before.step plainEnv (.advance 1 {}) = some after := (Option.some_get _).symm
  have hbefore : before.registry.currentCert "jz" = some "CERT-0" := by decide
  have hafter : after.registry.currentCert "jz" = some "CERT-1" := by decide
  exact ⟨hbefore, hafter, (Server.no_takeover plainEnv hrun hstep).1 "jz" "CERT-0" hbefore
    (by rw [hafter]; decide)⟩

end MicroTak.Enrollment
