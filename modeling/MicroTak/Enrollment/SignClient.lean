import MicroTak.Lib.Transition
import MicroTak.Registry.State
import MicroTak.Users.Store
import MicroTak.Enrollment.Credentials

/-!
# `signClient/v2`

A device sends a certificate request and gets it signed if one of four paths lets it: the password
of the account with the requested name, the bootstrap token for the administrator's name, an invite
token, or nothing in open mode.  Requests run side by side on stores with a lock each; a request is
a state machine here that takes one lock, or makes one change on disk, per step.  The server may
stop at any point and start again from what is on disk.
-/

namespace MicroTak.Enrollment

open Std Registry Users Groups Lines Transition DeviceRegistry

inductive EnrollmentMode where
  | «open»
  | auto
  deriving DecidableEq

/-- A signed certificate with the common name of its request, and the time the request goes by. -/
structure Signed where
  commonName : String
  certPem : String
  now : Int
  deriving DecidableEq

/-- The configuration, and the libraries the endpoint is built on.  A certificate authority draws a
serial number for each signature; `toolFile` is what the directories of a tool have for some groups,
or the status of the answer without it. -/
structure Env where
  enrollmentMode : EnrollmentMode
  adminCommonName : Option String
  argon2 : Argon2
  signCsr : (serial : Nat) → (csrPem : String) → Except String (String × String)
  base64Decode : String → Option Bytes
  toolFile : (tool : String) → (groups : Finset String) → Except Nat Bytes := fun _ _ => .error 404

/-- A server for worked examples, whose header is not encoded. -/
def Env.signing (signCsr : Nat → String → Except String (String × String)) : Env where
  enrollmentMode := .auto
  adminCommonName := some "admin"
  argon2 := .sample
  signCsr
  base64Decode text := some (utf8 text)

namespace Env

variable (env : Env)

def isLockedDown : Bool :=
  match env.enrollmentMode with
  | .open => false
  | .auto => true

def isAdminCn (commonName : String) : Bool :=
  env.adminCommonName = some commonName

end Env

structure SignRequest where
  ipKey : String
  contentType : Option String := none
  authorization : Option String := none
  accept : Option String := none
  token : Option String := none
  clientUid : Option String := none
  body : Bytes

def isAcceptableCsrContentType (contentType : String) : Bool :=
  Text.trim (String.ofList (contentType.toList.takeWhile (· ≠ ';'))) ∈
    ["application/octet-stream", "application/pkcs10", "text/plain", ""]

def normalizeCsrBody (body : Bytes) : Except String String :=
  match decodeUtf8 body with
  | none => .error "CSR body is not valid UTF-8 text"
  | some text =>
      let trimmed := Text.trim text
      if trimmed = "" then .error "CSR body is empty"
      else if Text.contains trimmed "BEGIN CERTIFICATE REQUEST" then .ok trimmed
      else .ok ("-----BEGIN CERTIFICATE REQUEST-----\n" ++ trimmed ++
        "\n-----END CERTIFICATE REQUEST-----\n")

def basicAuthCredentials (env : Env) (request : SignRequest) : Option (String × String) := do
  let value ← request.authorization
  let encoded ← Text.stripPrefix "Basic " value
  let decoded ← env.base64Decode encoded
  let text ← decodeUtf8 decoded
  Text.splitOnce ':' text

inductive Response where
  | error (status : Nat) (message : String)
  | signed (certPem : String)
  /-- A bare 400. -/
  | badRequest
  deriving DecidableEq

namespace Response

def nameMismatch : Response := .error 403 "CSR Common Name must match the authenticated username"

def tooManyAttempts : Response := .error 429 "too many failed attempts, try again later"

def adminRequiresBootstrap : Response :=
  .error 403 "the admin identity can only be enrolled with the server's bootstrap token"

def alreadyEnrolled (commonName : String) : Response :=
  .error 409 ("'" ++ commonName ++
    "' is already enrolled; re-enrolling an existing identity requires that identity's own " ++
    "password credentials")

def missingGroup (group : String) : Response :=
  .error 409 ("group '" ++ group ++ "' this enrollment would add the device to no longer exists")

def ofRegistryError (commonName : String) : RegistryError → Response
  | .alreadyEnrolled _ => alreadyEnrolled commonName
  | _ => .error 500 "failed to record device"

end Response

/-- The certificate, as text, JSON or XML; a client that accepts none of these is enrolled and not
given it. -/
def shapedSuccessResponse (request : SignRequest) (certPem : String) : Response :=
  let accept := request.accept.getD ""
  if Text.contains accept "text/plain" || accept = "" || Text.contains accept "application/json" ||
      Text.contains accept "*/*" ||
        Text.contains (Text.toAsciiLowercase accept) "application/xml" then .signed certPem
  else .badRequest

theorem shapedSuccessResponse_cases (request : SignRequest) (certPem : String) :
    shapedSuccessResponse request certPem = .signed certPem ∨
    shapedSuccessResponse request certPem = .badRequest :=
  ite_eq_or_eq ..

/-- Where a request stands, named after what it does next. -/
inductive Stage where
  | received
  | chooses (signed : Signed)
  -- The password path.
  | limitsPassword (signed : Signed) (username password : String)
  | verifies (signed : Signed) (username password : String)
  | readsAccount (signed : Signed) (username : String)
  | checksGroups (signed : Signed) (grants : List GroupGrant)
  | checksBlock (signed : Signed) (grants : List GroupGrant)
  | rotates (signed : Signed) (grants : List GroupGrant)
  -- The bootstrap path; from `enrollsAdmin` to `deletesFile` it holds the token's lock.
  | limitsBootstrap (signed : Signed) (token : Option String)
  | locksToken (signed : Signed) (token : String)
  | enrollsAdmin (signed : Signed)
  | clearsToken (signed : Signed)
  | deletesFile (signed : Signed)
  -- The invite and open paths.
  | findsDevice (signed : Signed) (token : Option String)
  | limitsInvite (signed : Signed) (token : String)
  | looksUpInvite (signed : Signed) (token : String)
  | checksInviteGroups (signed : Signed) (token : String) (grants : List GroupGrant)
  | consumesInvite (signed : Signed) (token : String) (grants : List GroupGrant)
  | enrollsNew (signed : Signed) (grants : List GroupGrant)
  -- All paths.
  | grants (signed : Signed) (grants : List GroupGrant)
  | responded (response : Response)
  deriving DecidableEq

/-- What is in memory while the server runs; `holder` is the request that holds the lock of the
bootstrap token. -/
structure Running where
  bootstrap : Option String
  holder : Option Nat := none
  limiter : AuthLimiter := {}
  requests : TreeMap Nat (SignRequest × Stage) := ∅

structure Server where
  registry : DeviceRegistry := {}
  users : UserStore := {}
  tokens : EnrollmentTokenStore := {}
  groups : GroupStore := {}
  tokenFile : TokenFile := none
  running : Option Running := none

/-- What a step of a request meets: the clocks, how many records its event log takes, whether the
password check could run, and whether the token file could be removed. -/
structure Input where
  nowUnix : Int := 0
  clock : Nat := 0
  disk : Option Nat := none
  checked : Bool := true
  removed : Bool := true

def Input.appended (input : Input) : Bool := input.disk ≠ some 0

namespace Server

variable (env : Env) (server : Server)

def goto (running : Running) (id : Nat) (request : SignRequest) (stage : Stage) : Server :=
  { server with
    running := some { running with requests := running.requests.insert id (request, stage) } }

/-- The request is refused, and counts as a failed attempt under these keys. -/
def refuse (running : Running) (id : Nat) (request : SignRequest) (keys : List String) (clock : Nat)
    (response : Response) : Server :=
  server.goto { running with
    limiter := keys.foldl (fun limiter key => limiter.recordFailure key clock) running.limiter } id
      request (.responded response)

def withoutPassword (signed : Signed) (token : Option String) : Stage :=
  if env.isAdminCn signed.commonName then .limitsBootstrap signed token
    else .findsDevice signed token

/-- The checks of a certificate request, up to its signature. -/
def sign (id : Nat) (request : SignRequest) (nowUnix : Int) : Stage :=
  let contentType := request.contentType.getD ""
  if !isAcceptableCsrContentType contentType then
    .responded (.error 400
      ("Content-Type must be application/octet-stream or application/pkcs10 (got '" ++
        contentType ++ "')"))
  else
    match normalizeCsrBody request.body with
    | .error message => .responded (.error 400 message)
    | .ok csrPem =>
        match env.signCsr id csrPem with
        | .error error => .responded (.error 400 ("failed to sign CSR: " ++ error))
        | .ok (commonName, certPem) => .chooses { commonName, certPem, now := nowUnix }

/-- One step of the request `id`; `none` while it waits for the lock of the bootstrap token, and
when it is done. -/
def advance (running : Running) (id : Nat) (request : SignRequest) (input : Input) :
    Stage → Option Server
  | .received => some (server.goto running id request (sign env id request input.nowUnix))
  | .chooses signed =>
      some (server.goto running id request
        (match basicAuthCredentials env request with
        | some (username, password) =>
            if server.users.userExists username then .limitsPassword signed username password
            else if signed.commonName ≠ username then .responded .nameMismatch
            else withoutPassword env signed (some password)
        | none => withoutPassword env signed request.token))
  | .limitsPassword signed username password =>
      some (server.goto running id request
        (if running.limiter.isBlocked request.ipKey input.clock || running.limiter.isBlocked
          (userKey username) input.clock
        then .responded .tooManyAttempts else .verifies signed username password))
  | .verifies signed username password =>
      if input.checked && server.users.authenticate env.argon2 username password then
        some (server.goto running id request (.readsAccount signed username))
      else some (server.refuse running id request [request.ipKey, userKey username] input.clock
        (.error 401 "invalid username or password"))
  | .readsAccount signed username =>
      some (server.goto running id request
        (if signed.commonName ≠ username then .responded .nameMismatch
        else if env.isAdminCn signed.commonName then .responded .adminRequiresBootstrap
        else .checksGroups signed (server.users.groupsOf username)))
  | .checksGroups signed grants =>
      some (server.goto running id request
        (match server.groups.state.firstMissing grants with
        | some missing => .responded (.missingGroup missing)
        | none => .checksBlock signed grants))
  | .checksBlock signed grants =>
      some (server.goto running id request
        (if server.registry.state.isRevoked signed.commonName then .responded
          (.error 403 "this identity is blocked")
        else .rotates signed grants))
  | .rotates signed grants =>
      match server.registry.commit input.appended
        (enrollWithClientUid signed.commonName signed.certPem signed.now
          request.clientUid) with
      | .ok registry =>
        some ({ server with registry }.goto running id request (.grants signed grants))
      | .error error =>
        some (server.goto running id request
          (.responded (.ofRegistryError signed.commonName error)))
  | .limitsBootstrap signed token =>
      some (server.goto running id request
        (match token with
        | none => .responded .adminRequiresBootstrap
        | some token =>
            if running.limiter.isBlocked request.ipKey input.clock then .responded .tooManyAttempts
            else .locksToken signed token))
  | .locksToken signed token =>
      match running.holder with
      | some _ => none
      | none =>
          if running.bootstrap.any fun expected => constantTimeEq (utf8 expected) (utf8 token) then
            some (server.goto { running with holder := some id } id request (.enrollsAdmin signed))
          else some (server.refuse running id request
            [request.ipKey] input.clock .adminRequiresBootstrap)
  | .enrollsAdmin signed =>
      match server.registry.commit input.appended
        (enrollNewWithClientUid signed.commonName signed.certPem
          signed.now request.clientUid) with
      | .ok registry =>
        some ({ server with registry }.goto running id request (.clearsToken signed))
      | .error error =>
          some (server.goto { running with holder := none } id request
            (.responded (.ofRegistryError signed.commonName error)))
  | .clearsToken signed =>
    some (server.goto { running with bootstrap := none } id request (.deletesFile signed))
  | .deletesFile signed =>
      some ({ server with tokenFile := if input.removed then none else server.tokenFile }.goto
        { running with holder := none } id request (.grants signed []))
  | .findsDevice signed token =>
      some (server.goto running id request
        (if (server.registry.state.find signed.commonName).isSome then .responded
          (.alreadyEnrolled signed.commonName)
        else if env.isLockedDown then
          match token with
          | none => .responded (.error 403 "a valid enrollment token is required")
          | some token => .limitsInvite signed token
        else .enrollsNew signed []))
  | .limitsInvite signed token =>
      some (server.goto running id request
        (if running.limiter.isBlocked request.ipKey input.clock then .responded .tooManyAttempts
        else .looksUpInvite signed token))
  | .looksUpInvite signed token =>
      some (server.goto running id request
        (match server.tokens.tokens[token]? with
        | some minted => .checksInviteGroups signed token minted.groups
        | none => .consumesInvite signed token []))
  | .checksInviteGroups signed token grants =>
      some (server.goto running id request
        (match server.groups.state.firstMissing grants with
        | some missing => .responded (.missingGroup missing)
        | none => .consumesInvite signed token grants))
  | .consumesInvite signed token grants =>
      match server.tokens.validateAndConsume input.appended token signed.commonName signed.now with
      | .ok tokens =>
        some ({ server with tokens }.goto running id request (.enrollsNew signed grants))
      | .error error => some (server.refuse running id request [request.ipKey] input.clock
          (.error 403 ("invalid enrollment token: " ++ error.message)))
  | .enrollsNew signed grants =>
      match server.registry.commit input.appended
        (enrollNewWithClientUid signed.commonName signed.certPem
          signed.now request.clientUid) with
      | .ok registry =>
        some ({ server with registry }.goto running id request (.grants signed grants))
      | .error error =>
        some (server.goto running id request
          (.responded (.ofRegistryError signed.commonName error)))
  | .grants signed grants =>
      some ({ server with
        groups := server.groups.after (GroupStore.grant signed.commonName grants) input.disk }.goto
          running id request (.responded (shapedSuccessResponse request signed.certPem)))
  | .responded _ => none

/-- `App::bind`: every store is replayed from its log, and the bootstrap token is loaded, created or
dropped.  `random` is the token drawn if one is created. -/
def boot (random : String) : Server :=
  let registry := loadOrCreate server.registry.log
  let (bootstrap, tokenFile) :=
    match env.adminCommonName with
    | some adminCn => loadOrCreateToken server.tokenFile (registry.state.find adminCn).isSome random
    | none => (none, server.tokenFile)
  { server with
    registry
    users := .loadOrCreate server.users.log
    tokens := .loadOrCreate server.tokens.log
    tokenFile
    running := some { bootstrap } }

end Server

inductive AdminCall where
  | revoke (commonName : String)
  | revokeCert (fingerprint : String) (atUnix : Int)
  | unblock (commonName : String)
  | deleteCert (id : Int)
  | mintUser (salt username password : String) (groups : List GroupGrant) (nowUnix : Int)
  | revokeUser (username : String)
  | mintToken (random : String) (expiresInSecs : Option Int) (note commonName : Option String)
      (groups : List GroupGrant) (nowUnix : Int)
  | revokeToken (token : String)
  | changeGroups (event : GroupEvent)

inductive Action where
  | boot (random : String)
  | crash
  | receive (id : Nat) (request : SignRequest)
  | advance (id : Nat) (input : Input)
  /-- The client went away while the request was waiting. -/
  | drop (id : Nat)
  | admin (call : AdminCall)

namespace Server

variable (env : Env) (server : Server)

/-- A call that fails changes nothing, so only the others are steps. -/
def admin : AdminCall → Option Server
  | .revoke commonName =>
    (server.registry.commit true (revoke commonName)).toOption.map ({ server with registry := · })
  | .revokeCert fingerprint atUnix =>
      (server.registry.commit true (revokeCert fingerprint atUnix)).toOption.map
        ({ server with registry := · })
  | .unblock commonName =>
    (server.registry.commit true (unblock commonName)).toOption.map ({ server with registry := · })
  | .deleteCert id =>
    (server.registry.commit true (deleteCert id)).toOption.map ({ server with registry := · })
  | .mintUser salt username password groups nowUnix =>
      (server.users.mintWithGroups env.argon2 true salt username password groups
        nowUnix).toOption.map ({ server with users := · })
  | .revokeUser username =>
    (server.users.revoke true username).toOption.map ({ server with users := · })
  | .mintToken random expiresInSecs note commonName groups nowUnix =>
      (server.tokens.mintWith true random expiresInSecs note commonName groups nowUnix).toOption.map
        ({ server with tokens := · })
  | .revokeToken token =>
    (server.tokens.revoke true token).toOption.map ({ server with tokens := · })
  | .changeGroups event => some { server with groups := server.groups.after (.put event) none }

def step : Action → Option Server
  | .boot random =>
      match server.running with
      | some _ => none
      | none => some (server.boot env random)
  | .crash => some { server with running := none }
  | .receive id request =>
      match server.running with
      | none => none
      | some running =>
          match running.requests[id]? with
          | some _ => none
          | none => some (server.goto running id request .received)
  | .advance id input =>
      match server.running with
      | none => none
      | some running =>
          match running.requests[id]? with
          | none => none
          | some (request, stage) => server.advance env running id request input stage
  | .drop id =>
      match server.running with
      | none => none
      | some running =>
          -- `consume_with` does not wait for anything the client sends.
          if running.holder = some id then none
          else some { server with
            running := some { running with requests := running.requests.erase id } }
  | .admin call => server.admin env call

variable {env server} {next : Server} {id : Nat}

theorem step_boot {random : String} (h : server.step env (.boot random) = some next) :
    server.running = none ∧ next = server.boot env random := by
  unfold step at h
  grind

theorem step_receive {request : SignRequest}
    (h : server.step env (.receive id request) = some next) :
    ∃ running, server.running = some running ∧ running.requests[id]? = none ∧
    next = server.goto running id request .received := by
  unfold step at h
  grind

theorem step_advance {input : Input} (h : server.step env (.advance id input) = some next) :
    ∃ running request stage, server.running = some running ∧
    running.requests[id]? = some (request, stage) ∧
      server.advance env running id request input stage = some next := by
  unfold step at h
  grind

theorem step_drop (h : server.step env (.drop id) = some next) :
    ∃ running, server.running = some running ∧
      next = { server with
        running := some { running with requests := running.requests.erase id } } := by
  unfold step at h
  grind

end Server

end MicroTak.Enrollment
