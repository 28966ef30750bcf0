import MicroTak.Content.Profiles
import MicroTak.Enrollment.SignClient

/-!
# The enrollment port

`signClient/v2` shares its listener, its accounts and its limiter with two more routers: the OAuth
login, and the profiles and tool files a device may fetch before it has a certificate.  Those sign
in with a password, or with the invite token that enrolled the name.  A password check runs apart
from the request that waits for it, and goes on when that request's client goes away.
-/

namespace MicroTak.Enrollment

open Std Registry Users Groups Content

def AuthLimiter.recordFailures (limiter : AuthLimiter) (keys : List String) (now : Nat) :
    AuthLimiter :=
  keys.foldl (fun limiter key => limiter.recordFailure key now) limiter

inductive Endpoint where
  | token (username password : String)
  | enrollment (clientUid : Option String)
  | toolFile (tool : String)
  deriving DecidableEq

structure LoginRequest where
  ipKey : String
  endpoint : Endpoint
  authorization : Option String := none
  deriving DecidableEq

/-- The OAuth login has its credentials in the form, the others in the header. -/
def LoginRequest.credentials (env : Env) (request : LoginRequest) : Option (String × String) :=
  match request.endpoint with
  | .token username password => some (username, password)
  | .enrollment _ | .toolFile _ =>
      basicAuthCredentials env
        { ipKey := request.ipKey, authorization := request.authorization, body := [] }

inductive Answer where
  | status (code : Nat)
  | accessToken (username : String)
  | profile (files : List ProfileFile)
  | toolFile (content : Lines.Bytes)
  deriving DecidableEq

inductive LoginStage where
  | limits
  | chooses (username secret : String)
  | verifies (username password : String)
  | looksUpInvite (username secret : String)
  | serves (username : String)
  | answered (answer : Answer)
  deriving DecidableEq

/-- A password check on the blocking pool, with the keys its request is limited by. -/
structure Check where
  keys : List String
  username : String
  password : String
  deriving DecidableEq

def Stage.check (request : SignRequest) : Stage → Option Check
  | .verifies _ username password =>
    some { keys := [request.ipKey, userKey username], username, password }
  | _ => none

def LoginStage.check (request : LoginRequest) : LoginStage → Option Check
  | .verifies username password =>
    some { keys := [request.ipKey, userKey username], username, password }
  | _ => none

/-- `detached` are the checks whose request is gone. -/
structure Port where
  server : Server := {}
  profiles : ProfileState := {}
  logins : TreeMap Nat (LoginRequest × LoginStage) := ∅
  detached : List Check := []
  clock : Nat := 0

inductive PortAction where
  | enroll (action : Action)
  | login (id : Nat) (request : LoginRequest)
  | proceed (id : Nat) (input : Input)
  | leave (id : Nat)
  | finish (check : Check)
  | tick (elapsed : Nat)

def Action.at (clock : Nat) : Action → Action
  | .advance id input => .advance id { input with clock }
  | action => action

namespace Port

variable (env : Env) (port : Port)

def goto (id : Nat) (request : LoginRequest) (stage : LoginStage) : Port :=
  { port with logins := port.logins.insert id (request, stage) }

/-- The login is refused, and counts as a failed attempt under these keys. -/
def refuse (running : Running) (id : Nat) (request : LoginRequest) (keys : List String) : Port :=
  { port with
    server := { port.server with
      running := some { running with limiter := running.limiter.recordFailures keys port.clock } }
        }.goto id request
    (.answered (.status 401))

def serve (username : String) : Endpoint → Answer
  | .token _ _ => .accessToken username
  | .enrollment none => .status 400
  | .enrollment (some _) =>
      match port.profiles.filesFor .onEnrollment
        (port.server.groups.state.allGroupNames username) none with
      | [] => .status 204
      | files => .profile files
  | .toolFile tool =>
      match env.toolFile tool (port.server.groups.state.allGroupNames username) with
      | .ok content => .toolFile content
      | .error code => .status code

def proceed (running : Running) (id : Nat) (request : LoginRequest) (input : Input) :
    LoginStage → Option Port
  | .limits =>
      some (port.goto id request
        (match request.credentials env with
        | none => .answered (.status 401)
        | some (username, secret) =>
            if running.limiter.isBlocked request.ipKey port.clock || running.limiter.isBlocked
              (userKey username) port.clock
            then .answered (.status 429)
            else
              match request.endpoint with
              | .token _ _ => .verifies username secret
              | .enrollment _ | .toolFile _ => .chooses username secret))
  | .chooses username secret =>
      some (port.goto id request
        (if port.server.users.userExists username then .verifies username secret
          else .looksUpInvite username secret))
  | .verifies username password =>
      if input.checked && port.server.users.authenticate env.argon2 username password then
        some (port.goto id request (.serves username))
      else some (port.refuse running id request [request.ipKey, userKey username])
  | .looksUpInvite username secret =>
      if (port.server.tokens.tokens[secret]?).any fun t => !t.revoked && t.usedByCommonName =
        some username then
        some (port.goto id request (.serves username))
      else some (port.refuse running id request [request.ipKey, userKey username])
  | .serves username =>
    some (port.goto id request (.answered (port.serve env username request.endpoint)))
  | .answered _ => none

/-- The check of a request of `signClient`, if one is running. -/
def enrollCheck (id : Nat) : Option Check := do
  let running ← port.server.running
  let (request, stage) ← running.requests[id]?
  stage.check request

def loginCheck (id : Nat) : Option Check := do
  let (request, stage) ← port.logins[id]?
  stage.check request

def step : PortAction → Option Port
  | .enroll .crash =>
    some { port with server := { port.server with running := none }, logins := ∅, detached := [] }
  | .enroll (.drop id) =>
      (port.server.step env (.drop id)).map fun server =>
        { port with server, detached := port.detached ++ (port.enrollCheck id).toList }
  | .enroll action => (port.server.step env (action.at port.clock)).map ({ port with server := · })
  | .login id request =>
      match port.server.running, port.logins[id]? with
      | some _, none => some (port.goto id request .limits)
      | _, _ => none
  | .proceed id input =>
      match port.server.running, port.logins[id]? with
      | some running, some (request, stage) => port.proceed env running id request input stage
      | _, _ => none
  | .leave id =>
      some { port with
        logins := port.logins.erase id
        detached := port.detached ++ (port.loginCheck id).toList }
  | .finish check =>
    if check ∈ port.detached then some { port with detached := port.detached.erase check } else none
  | .tick elapsed => some { port with clock := port.clock + elapsed }

end Port

end MicroTak.Enrollment
