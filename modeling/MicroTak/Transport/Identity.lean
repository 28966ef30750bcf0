import MicroTak.Cot.Event
import MicroTak.Registry.State

/-!
# The identity checks of a TLS connection

`validateClientUid` compares a position report with the `clientUid` the connecting certificate was
enrolled for.  `impersonation` drops an event that claims, as its uid or its producer, the enrolled
uid of another device.
-/

namespace MicroTak.Transport

open Cot Registry

inductive Verdict where
  | relay
  | drop (reason : String)
  | disconnect (reason : String)
  deriving DecidableEq

def validateClientUid (enrolled : Option (Option String)) (event : Event) : Verdict :=
  if !event.isSituationalAwareness then .relay
  else
    match enrolled with
    | none => .relay
    | some none => .drop "certificate enrolled without a clientUid"
    | some (some clientUid) =>
        if clientUid = event.uid then .relay
        else .disconnect
          ("SA uid '" ++ event.uid ++ "' doesn't match the certificate's enrollment '" ++
            clientUid ++ "'")

/-- The first producer of the event that belongs to another device, with its owner. -/
def foreignProducer (registry : RegistryState) (mine : Option String) :
    List String → Option (String × String)
  | [] => none
  | producer :: rest =>
      match registry.otherOwnerOfEnrolledUid producer mine with
      | some owner => some (producer, owner)
      | none => foreignProducer registry mine rest

def impersonation (registry : RegistryState) (mine : Option String) (event : Event) : Verdict :=
  match registry.otherOwnerOfEnrolledUid event.uid mine with
  | some owner => .drop ("uid '" ++ event.uid ++ "' belongs to device '" ++ owner ++ "'")
  | none =>
      match foreignProducer registry mine event.producerUids with
      | some (producer, owner) =>
          .drop ("claims to be produced by '" ++ producer ++ "', which belongs to device '" ++
            owner ++ "'")
      | none => .relay

/-- The event is one the impersonation rule drops. -/
def Impersonates (registry : RegistryState) (mine : Option String) (event : Event) : Prop :=
  impersonation registry mine event ≠ .relay

instance (registry : RegistryState) (mine : Option String) (event : Event) :
    Decidable (Impersonates registry mine event) :=
  inferInstanceAs (Decidable (_ ≠ _))

/-- The checks in the order the TLS loop makes them. -/
def identityVerdict (registry : RegistryState) (validate : Bool) (enrolled : Option (Option String))
    (event : Event) : Verdict :=
  match if validate then validateClientUid enrolled event else .relay with
  | .relay => impersonation registry enrolled.join event
  | verdict => verdict

variable {registry : RegistryState} {mine : Option String} {event : Event} {reason : String}

theorem impersonation_ne_disconnect : impersonation registry mine event ≠ .disconnect reason := by
  unfold impersonation
  split
  · simp
  · split <;> simp

theorem isSituationalAwareness_of_disconnect {validate : Bool} {enrolled : Option (Option String)}
    (h : identityVerdict registry validate enrolled event = .disconnect reason) :
    event.isSituationalAwareness = true := by
  by_contra hsa
  have hrelay : validateClientUid enrolled event = .relay := by simp [validateClientUid, hsa]
  simp only [identityVerdict, hrelay, ite_self] at h
  exact impersonation_ne_disconnect h

end MicroTak.Transport
