import MicroTak.Lib.Transition
import MicroTak.Registry.State
import MicroTak.Transport.Hub
import MicroTak.Users.Store

/-!
# Revoking a live session

A TLS connection is checked against the registry after its handshake, and its session then watches a
counter that every revocation moves.  The check and the start of the watch are two steps, with the
calls of an administrator running in between: the model has one action for each access to the
registry, to the counter, or to the watch.
-/

namespace MicroTak.Transport.Revocation

open Std Registry Users Transition DeviceRegistry

/-- What a call revokes: an identity, or the certificate with this fingerprint. -/
inductive Target where
  | identity (commonName : String)
  | certificate (fingerprint : String)
  deriving DecidableEq

/-- Where a session stands.  `seen` is the counter value its watch has taken note of. -/
inductive Phase where
  | handshaken
  /-- Past the access check of `run`, not yet subscribed. -/
  | allowed
  /-- `handle_client` holds its receiver and writes its greeting. -/
  | subscribed (seen : Nat)
  /-- In the event loop, waiting in `select!`. -/
  | waiting (seen : Nat)
  /-- In the event loop, woken by `changed` and about to check its access again. -/
  | rechecking (seen : Nat)
  deriving DecidableEq

structure TlsSession where
  commonName : String
  cert : Der
  phase : Phase := .handshaken
  deriving DecidableEq

inductive Call where
  | revoke (commonName : String)
  | revokeCert (fingerprint : String)
  | unblock (commonName : String)
  | revokeUser (username : String)
  /-- `revoke_user` after the account: is there a device? -/
  | revokeDevice (username : String)
  | revokeCurrentCert (commonName : String)
  /-- The registry lock is released and the counter not yet moved. -/
  | signalling (target : Option Target)
  | signalled (target : Option Target)
  | returned
  | failed
  deriving DecidableEq

inductive Request where
  | revoke (commonName : String)
  | revokeCert (fingerprint : String)
  | unblock (commonName : String)
  | revokeUser (username : String)
  deriving DecidableEq

def Request.begin : Request → Call
  | .revoke commonName => .revoke commonName
  | .revokeCert fingerprint => .revokeCert fingerprint
  | .unblock commonName => .unblock commonName
  | .revokeUser username => .revokeUser username

structure System where
  registry : DeviceRegistry := {}
  users : UserStore := {}
  generation : Nat := 0
  sessions : TreeMap SocketAddr TlsSession := ∅
  calls : TreeMap Nat Call := ∅
  /-- The revocations in force and the calls that made them; a block is in force until it is
  lifted. -/
  inForce : List (Nat × Target) := []

inductive Move where
  | check
  | subscribe
  | enterLoop
  | wake
  | recheck
  | leave
  deriving DecidableEq

/-- Where a step takes a session: `none` if it cannot be taken, `some none` if the session ends. -/
def TlsSession.next (pki : Pki) (registry : RegistryState) (generation : Nat)
    (session : TlsSession) : Move → Option (Option Phase)
  | .check =>
      match session.phase with
      | .handshaken =>
          if registry.access pki session.commonName session.cert =
            .allowed then some (some .allowed) else some none
      | _ => none
  | .subscribe =>
      match session.phase with
      | .allowed => some (some (.subscribed generation))
      | _ => none
  | .enterLoop =>
      match session.phase with
      | .subscribed seen => some (some (.waiting seen))
      | _ => none
  | .wake =>
      match session.phase with
      | .waiting seen => if seen = generation then none else some (some (.rechecking generation))
      | _ => none
  | .recheck =>
      match session.phase with
      | .rechecking seen =>
          if registry.access pki session.commonName session.cert =
            .allowed then some (some (.waiting seen))
          else some none
      | _ => none
  | .leave => some none

inductive Action where
  | connect (peer : SocketAddr) (commonName : String) (cert : Der)
  | move (peer : SocketAddr) (move : Move)
  | call (id : Nat) (request : Request)
  /-- The next step of a call; `appended` is the answer of the event log, if it is asked. -/
  | advance (id : Nat) (appended : Bool) (now : Int)
  | enroll (commonName certPem : String) (now : Int) (clientUid : Option String)
  | deleteCert (certId : Int)

namespace System

variable (pki : Pki) (system : System)

def setCall (id : Nat) (call : Call) : System :=
  { system with calls := system.calls.insert id call }

/-- The registry has revoked the target under its lock, and the call goes on to signal it. -/
def revokes (id : Nat) (registry : DeviceRegistry) (target : Target) : System :=
  { system with
    registry
    calls := system.calls.insert id (.signalling (some target))
    inForce := (id, target) :: system.inForce }

/-- The registry has lifted a block under its lock. -/
def unblocks (id : Nat) (registry : DeviceRegistry) (commonName : String) : System :=
  { system with
    registry
    calls := system.calls.insert id (.signalling none)
    inForce := system.inForce.filter (·.2 ≠ .identity commonName) }

/-- `signal_revocation`. -/
def signals (id : Nat) (target : Option Target) : System :=
  { system with
    generation := system.generation + 1
    calls := system.calls.insert id (.signalled target) }

/-- The next step of a call: one lock taken and released, or one signal. -/
def advance (id : Nat) (appended : Bool) (now : Int) : Call → Option System
  | .revoke commonName =>
      match system.registry.commit appended (revoke commonName) with
      | .ok registry => some (system.revokes id registry (.identity commonName))
      | .error _ => some (system.setCall id .failed)
  | .revokeCert fingerprint =>
      match system.registry.commit appended (revokeCert fingerprint now) with
      | .ok registry =>
          some (system.revokes id registry
            (.certificate ((normalizeFingerprint fingerprint).getD fingerprint)))
      | .error _ => some (system.setCall id .failed)
  | .unblock commonName =>
      match system.registry.commit appended (unblock commonName) with
      | .ok registry => some (system.unblocks id registry commonName)
      | .error _ => some (system.setCall id .failed)
  | .revokeUser username =>
      match system.users.revoke appended username with
      | .ok users => some { system.setCall id (.revokeDevice username) with users }
      | .error _ => some (system.setCall id .failed)
  | .revokeDevice username =>
      if (system.registry.state.find username).isSome then some
        (system.setCall id (.revokeCurrentCert username))
      else some (system.setCall id .returned)
  | .revokeCurrentCert commonName =>
      match (system.registry.state.find commonName).bind fun device =>
          pki.fingerprintSha256ColonHex device.certPem with
      | some fingerprint => some (system.setCall id (.revokeCert fingerprint))
      | none => some (system.setCall id .failed)
  | .signalling target => some (system.signals id target)
  | .signalled _ => some (system.setCall id .returned)
  | .returned | .failed => none

def move (peer : SocketAddr) (move : Move) : Option System :=
  match system.sessions[peer]? with
  | none => none
  | some session =>
      match session.next pki system.registry.state system.generation move with
      | none => none
      | some none => some { system with sessions := system.sessions.erase peer }
      | some (some phase) =>
        some { system with sessions := system.sessions.insert peer { session with phase } }

def step : Action → Option System
  | .connect peer commonName cert =>
      match system.sessions[peer]? with
      | some _ => none
      | none => some { system with sessions := system.sessions.insert peer { commonName, cert } }
  | .move peer move => system.move pki peer move
  | .call id request =>
      match system.calls[id]? with
      | some _ => none
      | none => some (system.setCall id request.begin)
  | .advance id appended now =>
      match system.calls[id]? with
      | some call => system.advance pki id appended now call
      | none => none
  | .enroll commonName certPem now clientUid =>
      match system.registry.commit true (enrollWithClientUid commonName certPem now clientUid) with
      | .ok registry => some { system with registry }
      | .error _ => none
  | .deleteCert certId =>
      match system.registry.commit true (deleteCert certId) with
      | .ok registry => some { system with registry }
      | .error _ => none

def start (registry : DeviceRegistry) (users : UserStore) : System :=
  { registry, users }

end System

end MicroTak.Transport.Revocation
