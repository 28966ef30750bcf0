import MicroTak.Enrollment.SignClient

/-!
# The steps of a request

What a step of a request can do, in one relation: where it goes, and what it leaves of the stores,
of the lock of the bootstrap token and of the limiter.
-/

namespace MicroTak.Enrollment

open Std Registry Users Groups Lines DeviceRegistry

def SignedFor (env : Env) (id : Nat) (request : SignRequest) (signed : Signed) : Prop :=
  ∃ csrPem, normalizeCsrBody request.body = .ok csrPem ∧
    env.signCsr id csrPem = .ok (signed.commonName, signed.certPem)

def enrolledRegistry (registry : DeviceRegistry) (request : SignRequest) (signed : Signed) :
    DeviceRegistry :=
  let event := RegistryEvent.enrolled signed.commonName signed.certPem signed.now request.clientUid
  { state := applyEvent registry.state event, log := registry.log ++ [event] }

variable {appended : Bool} {signed : Signed}

theorem enroll_eq_ok {registry after : DeviceRegistry} {request : SignRequest}
    (h : registry.commit appended
      (enrollWithClientUid signed.commonName signed.certPem signed.now request.clientUid) =
      .ok after) : after = enrolledRegistry registry request signed :=
  (record_eq_ok.1 h).2

theorem enrollNew_eq {registry after : DeviceRegistry} {request : SignRequest}
    (h : registry.commit appended
      (enrollNewWithClientUid signed.commonName signed.certPem signed.now request.clientUid) =
      .ok after) :
    registry.state.find signed.commonName = none ∧
    after = enrolledRegistry registry request signed := by
  obtain ⟨hfree, hrecord⟩ := enrollNew_eq_ok.1 h
  exact ⟨hfree, (record_eq_ok.1 hrecord).2⟩

/-- The token a request carries: in place of a password, or as a parameter. -/
def presentedToken (env : Env) (request : SignRequest) : Option String :=
  match basicAuthCredentials env request with
  | some (_, token) => some token
  | none => request.token

/-- A request may be refused without further ado until it has used up its token. -/
def Stage.mayRefuse : Stage → Bool
  | .enrollsNew _ _ | .clearsToken _ | .deletesFile _ | .grants _ _ | .responded _ => false
  | _ => true

/-- The steps of a request that leave the stores alone. -/
inductive Goes (env : Env) (server : Server) (id : Nat) (request : SignRequest) :
    Stage → Stage → Prop where
  | refused {stage : Stage} {code : Nat} {message : String} (hstage : stage.mayRefuse = true) :
      Goes env server id request stage (.responded (.error code message))
  | signed {signed : Signed} (hsigned : SignedFor env id request signed) :
      Goes env server id request .received (.chooses signed)
  | password {signed : Signed} {username password : String}
      (hauth : basicAuthCredentials env request = some (username, password)) :
      Goes env server id request (.chooses signed) (.limitsPassword signed username password)
  | noPassword {signed : Signed} {token : Option String}
    (htoken : token = presentedToken env request) :
      Goes env server id request (.chooses signed) (Server.withoutPassword env signed token)
  | passwordAdmitted {signed : Signed} {username password : String} :
      Goes env server id request (.limitsPassword signed username password)
        (.verifies signed username password)
  | verified {signed : Signed} {username password : String}
      (hverified : server.users.authenticate env.argon2 username password = true) :
      Goes env server id request (.verifies signed username password)
        (.readsAccount signed username)
  | account {signed : Signed} :
      Goes env server id request (.readsAccount signed signed.commonName)
        (.checksGroups signed (server.users.groupsOf signed.commonName))
  | groupsThere {signed : Signed} {grants : List GroupGrant}
    (hthere : server.groups.state.firstMissing grants = none) :
      Goes env server id request (.checksGroups signed grants) (.checksBlock signed grants)
  | notBlocked {signed : Signed} {grants : List GroupGrant}
    (hopen : server.registry.state.isRevoked signed.commonName = false) :
      Goes env server id request (.checksBlock signed grants) (.rotates signed grants)
  | bootstrapAdmitted {signed : Signed} {token : String} :
      Goes env server id request (.limitsBootstrap signed (some token)) (.locksToken signed token)
  | tokenLocked {signed : Signed} {token : String} :
      Goes env server id request (.locksToken signed token) (.enrollsAdmin signed)
  | tokenCleared {signed : Signed} : Goes env server id request (.clearsToken signed)
    (.deletesFile signed)
  | fileDeleted {signed : Signed} : Goes env server id request (.deletesFile signed)
    (.grants signed [])
  | newName {signed : Signed} {token : String} (hlocked : env.isLockedDown = true)
      (hnew : server.registry.state.find signed.commonName = none) :
      Goes env server id request (.findsDevice signed (some token)) (.limitsInvite signed token)
  | openName {signed : Signed} {token : Option String} (hopen : env.isLockedDown = false)
      (hnew : server.registry.state.find signed.commonName = none) :
      Goes env server id request (.findsDevice signed token) (.enrollsNew signed [])
  | inviteAdmitted {signed : Signed} {token : String} :
      Goes env server id request (.limitsInvite signed token) (.looksUpInvite signed token)
  | inviteKnown {signed : Signed} {token : String} {minted : EnrollmentToken}
      (hminted : server.tokens.tokens[token]? = some minted) :
      Goes env server id request (.looksUpInvite signed token)
        (.checksInviteGroups signed token minted.groups)
  | inviteUnknown {signed : Signed} {token : String}
    (hunknown : server.tokens.tokens[token]? = none) :
      Goes env server id request (.looksUpInvite signed token) (.consumesInvite signed token [])
  | inviteGroupsThere {signed : Signed} {token : String} {grants : List GroupGrant}
      (hthere : server.groups.state.firstMissing grants = none) :
      Goes env server id request (.checksInviteGroups signed token grants)
        (.consumesInvite signed token grants)

/-- The steps of a request, with what they leave of the registry, the tokens and the groups. -/
inductive Take (env : Env) (server : Server) (id : Nat) (request : SignRequest) (input : Input) :
    Stage → DeviceRegistry → EnrollmentTokenStore → GroupStore → Stage → Prop where
  | goes {stage stage' : Stage} (hgoes : Goes env server id request stage stage') :
      Take env server id request input stage server.registry server.tokens server.groups stage'
  | rotated {signed : Signed} {grants : List GroupGrant} :
      Take env server id request input (.rotates signed grants)
        (enrolledRegistry server.registry request signed) server.tokens server.groups
          (.grants signed grants)
  | adminEnrolled {signed : Signed} (hnew : server.registry.state.find signed.commonName = none) :
      Take env server id request input (.enrollsAdmin signed)
        (enrolledRegistry server.registry request signed) server.tokens server.groups
          (.clearsToken signed)
  | inviteConsumed {signed : Signed} {token : String} {grants : List GroupGrant}
    {tokens : EnrollmentTokenStore}
      (hconsumed : server.tokens.validateAndConsume input.appended token
        signed.commonName signed.now = .ok tokens) :
      Take env server id request input (.consumesInvite signed token grants) server.registry tokens
        server.groups (.enrollsNew signed grants)
  | enrolledNew {signed : Signed} {grants : List GroupGrant}
    (hnew : server.registry.state.find signed.commonName = none) :
      Take env server id request input (.enrollsNew signed grants)
        (enrolledRegistry server.registry request signed) server.tokens server.groups
          (.grants signed grants)
  | notEnrolled {signed : Signed} {grants : List GroupGrant} {code : Nat} {message : String}
      (hfailed : (server.registry.state.find signed.commonName).isSome = true ∨
        input.appended = false) :
      Take env server id request input (.enrollsNew signed grants) server.registry server.tokens
        server.groups (.responded (.error code message))
  | granted {signed : Signed} {grants : List GroupGrant} {response : Response}
      (hshaped : response = .signed signed.certPem ∨ response = .badRequest) :
      Take env server id request input (.grants signed grants) server.registry server.tokens
        (server.groups.after (GroupStore.grant signed.commonName grants) input.disk)
          (.responded response)

def Stage.locks : Stage → Bool
  | .locksToken _ _ => true
  | _ => false

/-- What a step leaves of the lock of the bootstrap token, and of the token. -/
inductive Locks (running : Running) (id : Nat) : Stage → Stage → Option Nat →
    Option String → Prop where
  | kept {stage stage' : Stage} (hstage : stage.locks = false) :
      Locks running id stage stage' running.holder running.bootstrap
  | refused {stage : Stage} {response : Response} :
      Locks running id stage (.responded response) running.holder running.bootstrap
  | taken {signed : Signed} {token : String} (hfree : running.holder = none)
    (hmatch : running.bootstrap = some token) :
      Locks running id (.locksToken signed token) (.enrollsAdmin signed) (some id) running.bootstrap
  | failed {signed : Signed} {response : Response} :
      Locks running id (.enrollsAdmin signed) (.responded response) none running.bootstrap
  | cleared {signed : Signed} :
    Locks running id (.clearsToken signed) (.deletesFile signed) running.holder none
  | released {signed : Signed} :
    Locks running id (.deletesFile signed) (.grants signed []) none running.bootstrap

/-- A step of the request `id` from `stage`, with what it leaves of the lock and of the limiter. -/
def Moved (env : Env) (server : Server) (running : Running) (id : Nat) (request : SignRequest)
    (input : Input) (stage : Stage) (next : Server) : Prop :=
  ∃ running' stage', next.running = some running' ∧ running'.requests = running.requests.insert id
    (request, stage') ∧ next.users = server.users ∧
      Take env server id request input stage next.registry next.tokens next.groups stage' ∧
    Locks running id stage stage' running'.holder running'.bootstrap ∧
    (running'.limiter = running.limiter ∨
      ∃ keys : List String, running'.limiter = keys.foldl (fun limiter key =>
        limiter.recordFailure key input.clock) running.limiter)

namespace Server

variable {env : Env} {server next : Server} {running : Running} {id : Nat} {request : SignRequest}
  {input : Input} {stage : Stage}

variable {registry : DeviceRegistry} {tokens : EnrollmentTokenStore} {stage' : Stage}
  {commonName : String} {nowUnix : Int} {error : RegistryError}

theorem moved_goto {groups : GroupStore}
    (htake : Take env server id request input stage registry tokens groups stage')
    (hstage : stage.locks = false := by rfl) : Moved env server running id request input stage
      ({ server with registry, tokens, groups }.goto running id request stage') :=
  ⟨_, stage', rfl, rfl, rfl, htake, .kept hstage, .inl rfl⟩

theorem moved_goes (hgoes : Goes env server id request stage stage')
    (hstage : stage.locks = false := by rfl) :
    Moved env server running id request input stage (server.goto running id request stage') :=
  moved_goto (.goes hgoes) hstage

theorem moved_refuse {keys : List String} {code : Nat} {message : String}
    (hstage : stage.mayRefuse = true) : Moved env server running id request input stage
      (server.refuse running id request keys input.clock (.error code message)) :=
  ⟨_, _, rfl, rfl, rfl, .goes (.refused hstage), .refused, .inr ⟨keys, rfl⟩⟩

theorem goes_ofRegistryError (hstage : stage.mayRefuse = true) :
    Goes env server id request stage (.responded (.ofRegistryError commonName error)) := by
  unfold Response.ofRegistryError
  split <;> exact .refused hstage

theorem goes_sign : Goes env server id request .received (sign env id request nowUnix) := by
  unfold sign
  dsimp only
  split
  · exact .refused rfl
  · split
    · exact .refused rfl
    · next csrPem hcsr =>
      split
      · exact .refused rfl
      · next pair hsign => exact .signed ⟨csrPem, hcsr, hsign⟩

private theorem failed_of_enrollNew {certPem : String} {clientUid : Option String}
    (h : registry.commit appended (enrollNewWithClientUid commonName certPem nowUnix clientUid) =
      .error error) :
    (registry.state.find commonName).isSome = true ∨ appended = false := by
  cases hfound : registry.state.find commonName with
  | some device => exact .inl rfl
  | none =>
    cases appended with
    | false => exact .inr rfl
    | true =>
      rw [enrollNew_eq_ok.2 ⟨hfound, record_eq_ok.2 ⟨rfl, rfl⟩⟩] at h
      cases h

theorem advance_moved (h : server.advance env running id request input stage = some next) :
    Moved env server running id request input stage next := by
  cases stage with
  | received =>
    simp only [advance, Option.some.injEq] at h
    subst h
    exact moved_goes goes_sign
  | chooses signed =>
    cases h
    refine moved_goes ?_
    split
    · next username password hauth =>
      split
      · exact .password hauth
      · split
        · exact .refused rfl
        · refine .noPassword ?_
          rw [presentedToken, hauth]
    · next hauth =>
      refine .noPassword ?_
      rw [presentedToken, hauth]
  | verifies signed username password =>
    simp only [advance] at h
    split at h
    · next hverified =>
      cases h
      exact moved_goes (.verified (Bool.and_eq_true_iff.1 hverified).2)
    · cases h
      exact moved_refuse rfl
  | readsAccount signed username =>
    cases h
    refine moved_goes ?_
    split
    · exact .refused rfl
    · next hname =>
      rw [not_not] at hname
      subst hname
      split
      · exact .refused rfl
      · exact .account
  | rotates signed grants =>
    simp only [advance] at h
    split at h
    · next registry hregistry =>
      cases h
      rw [enroll_eq_ok hregistry]
      exact moved_goto .rotated
    · cases h
      exact moved_goes (goes_ofRegistryError rfl)
  | limitsBootstrap signed token =>
    cases h
    refine moved_goes ?_
    split
    · exact .refused rfl
    · split
      · exact .refused rfl
      · exact .bootstrapAdmitted
  | locksToken signed token =>
    simp only [advance] at h
    split at h
    · cases h
    · next hfree =>
      split at h
      · next hmatch =>
        obtain ⟨expected, hexpected, hequal⟩ := (Option.any_eq_true _ _).1 hmatch
        obtain rfl : expected = token := utf8_injective (constantTimeEq_iff.1 hequal)
        cases h
        exact ⟨_, _, rfl, rfl, rfl, .goes .tokenLocked, .taken hfree hexpected, .inl rfl⟩
      · cases h
        exact moved_refuse rfl
  | enrollsAdmin signed =>
    simp only [advance] at h
    split at h
    · next registry hregistry =>
      obtain ⟨hnew, rfl⟩ := enrollNew_eq hregistry
      cases h
      exact moved_goto (.adminEnrolled hnew)
    · cases h
      exact ⟨_, _, rfl, rfl, rfl, .goes (goes_ofRegistryError rfl), .failed, .inl rfl⟩
  | clearsToken signed =>
    cases h
    exact ⟨_, _, rfl, rfl, rfl, .goes .tokenCleared, .cleared, .inl rfl⟩
  | deletesFile signed =>
    cases h
    exact ⟨_, _, rfl, rfl, rfl, .goes .fileDeleted, .released, .inl rfl⟩
  | findsDevice signed token =>
    cases h
    refine moved_goes ?_
    split
    · exact .refused rfl
    · next hfree =>
      have hnew := Option.not_isSome_iff_eq_none.1 hfree
      split
      · next hlocked =>
        split
        · exact .refused rfl
        · exact .newName hlocked hnew
      · next hopen => exact .openName (Bool.eq_false_iff.2 hopen) hnew
  | looksUpInvite signed token =>
    cases h
    refine moved_goes ?_
    split
    · next minted hminted => exact .inviteKnown hminted
    · next hunknown => exact .inviteUnknown hunknown
  | limitsPassword | checksGroups | checksBlock | limitsInvite | checksInviteGroups =>
    cases h
    refine moved_goes ?_
    split
    · exact .refused rfl
    · next hpassed => constructor <;> simpa using hpassed
  | consumesInvite signed token grants =>
    simp only [advance] at h
    split at h
    · next tokens hconsumed =>
      cases h
      exact moved_goto (.inviteConsumed hconsumed)
    · cases h
      exact moved_refuse rfl
  | enrollsNew signed grants =>
    simp only [advance] at h
    split at h
    · next registry hregistry =>
      obtain ⟨hnew, rfl⟩ := enrollNew_eq hregistry
      cases h
      exact moved_goto (.enrolledNew hnew)
    · next error hregistry =>
      cases h
      have hfailed := failed_of_enrollNew hregistry
      refine moved_goto ?_
      unfold Response.ofRegistryError
      split <;> exact .notEnrolled hfailed
  | grants signed grants =>
    cases h
    exact moved_goto (.granted (shapedSuccessResponse_cases request signed.certPem))
  | responded response => cases h

/-! ### What a call of the administrator can do -/

variable {call : AdminCall}

theorem ok_of_toOption_map {ε α : Type} {answer : Except ε α} {f : α → Server}
    (h : answer.toOption.map f = some next) : ∃ value, answer = .ok value ∧ next = f value := by
  cases answer with
  | error error => cases h
  | ok value => exact ⟨value, rfl, (Option.some.inj h).symm⟩

theorem admin_running (h : server.admin env call = some next) : next.running = server.running := by
  cases call <;>
  · simp only [admin, Option.map_eq_some_iff] at h
    obtain ⟨_, -, rfl⟩ := h
    rfl

theorem kept_of_admin {name : String} {record : UserRecord} (h : server.admin env call = some next)
    (hrecord : server.users.users[name]? = some record) :
    ∃ revoked, next.users.users[name]? = some { record with revoked } := by
  cases call with
  | mintUser =>
    obtain ⟨users, husers, rfl⟩ := ok_of_toOption_map h
    exact ⟨record.revoked, UserStore.kept_of_mint husers hrecord⟩
  | revokeUser =>
    obtain ⟨users, husers, rfl⟩ := ok_of_toOption_map h
    exact UserStore.kept_of_revoke husers hrecord
  | changeGroups =>
    cases h
    exact ⟨record.revoked, hrecord⟩
  | _ =>
    simp only [admin] at h
    obtain ⟨_, -, rfl⟩ := ok_of_toOption_map h
    exact ⟨record.revoked, hrecord⟩

end Server

end MicroTak.Enrollment
