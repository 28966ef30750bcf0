import Mathlib.Data.List.Perm.Basic
import MicroTak.Lib.Dict
import MicroTak.Lib.Transition
import MicroTak.Marti.ClientIp

/-!
# Connection admission

One count of open connections for all listeners, and one for each client address.  A connection
holds a permit for its lifetime, and its slot is free again when the permit is dropped.  Both happen
under one lock, so an interleaving of them is a sequence.
-/

namespace MicroTak.Marti.IpAddr

open Std

/-- Addresses in an order, for a map keyed by them. -/
def code : IpAddr → Nat
  | .v4 bits => 2 * bits.toNat
  | .v6 bits => 2 * bits.toNat + 1

theorem code_injective {a b : IpAddr} (h : a.code = b.code) : a = b := by
  cases a with
  | v4 x =>
    cases b with
    | v4 y => exact congrArg v4 (BitVec.eq_of_toNat_eq (by simp only [code] at h; omega))
    | v6 y => simp only [code] at h; omega
  | v6 x =>
    cases b with
    | v4 y => simp only [code] at h; omega
    | v6 y => exact congrArg v6 (BitVec.eq_of_toNat_eq (by simp only [code] at h; omega))

instance : Ord IpAddr := ⟨compareOn code⟩

instance : TransOrd IpAddr := inferInstanceAs (TransCmp (compareOn code))

instance : LawfulEqOrd IpAddr where
  eq_of_compare h := code_injective (LawfulEqOrd.eq_of_compare h)

end MicroTak.Marti.IpAddr

namespace MicroTak.Transport

open Std Transition Marti

/-- The values of a counter, `usize`. -/
def counterSize : Nat := UInt64.size

structure AdmissionLimits where
  maxConnections : Nat := 1024
  maxConnectionsPerIp : Nat := 64
  total_fits : maxConnections < counterSize := by decide
  perIp_fits : maxConnectionsPerIp < counterSize := by decide

/-- A counter wraps around at both ends. -/
def increment (count : Nat) : Nat := (count + 1) % counterSize

def decrement (count : Nat) : Nat := (count + counterSize - 1) % counterSize

structure Open where
  total : Nat := 0
  perIp : TreeMap IpAddr Nat := ∅

/-- A slot for an address, or `none` where the total or the limit of the address is reached. -/
def Open.admitIp (limits : AdmissionLimits) (slots : Open) (ip : IpAddr) : Option Open :=
  let fromIp := (slots.perIp[ip]?).getD 0
  if limits.maxConnections ≤ slots.total ∨ limits.maxConnectionsPerIp ≤ fromIp then none
  else some { total := increment slots.total, perIp := slots.perIp.insert ip (increment fromIp) }

def Open.release (slots : Open) (ip : IpAddr) : Open where
  total := decrement slots.total
  perIp :=
    match slots.perIp[ip]? with
    | none => slots.perIp
    | some count =>
        if decrement count = 0 then slots.perIp.erase ip
          else slots.perIp.insert ip (decrement count)

/-- The counters, and the address of each permit that has not been dropped. -/
structure Gate where
  slots : Open := {}
  permits : List IpAddr := []

inductive GateAction where
  | admitIp (ip : IpAddr)
  /-- The permit at this place among the live ones is dropped. -/
  | drop (permit : Nat)

def Gate.step (limits : AdmissionLimits) (gate : Gate) : GateAction → Option Gate
  | .admitIp ip =>
      match gate.slots.admitIp limits ip with
      | none => some gate
      | some slots => some { slots, permits := ip :: gate.permits }
  | .drop permit =>
      (gate.permits[permit]?).map fun ip =>
        { slots := gate.slots.release ip, permits := gate.permits.eraseIdx permit }

/-- The counters say what is open, within the limits. -/
structure Gate.Exact (limits : AdmissionLimits) (gate : Gate) : Prop where
  total : gate.slots.total = gate.permits.length
  sum : Dict.total gate.slots.perIp = gate.permits.length
  perIp : ∀ ip, gate.slots.perIp[ip]? = if gate.permits.count ip = 0 then none
    else some (gate.permits.count ip)
  total_le : gate.permits.length ≤ limits.maxConnections
  perIp_le : ∀ ip, gate.permits.count ip ≤ limits.maxConnectionsPerIp

variable {limits : AdmissionLimits} {gate next : Gate}

theorem increment_of_lt {count limit : Nat} (hcount : count < limit)
    (hlimit : limit < counterSize) : increment count = count + 1 :=
  Nat.mod_eq_of_lt (by omega)

theorem decrement_of_pos {count : Nat} (hpos : 0 < count) (hcount : count < counterSize) :
    decrement count = count - 1 := by
  have hsplit : count + counterSize - 1 = (count - 1) + counterSize := by omega
  rw [decrement, hsplit, Nat.add_mod_right]
  exact Nat.mod_eq_of_lt (by omega)

section

variable (h : gate.Exact limits) {ip : IpAddr}

include h

theorem Gate.Exact.fromIp (ip : IpAddr) :
    (gate.slots.perIp[ip]?).getD 0 = gate.permits.count ip := by
  rw [h.perIp]
  split
  · next hzero => exact hzero.symm
  · rfl

theorem Gate.Exact.admitIp {slots : Open}
    (hadmits : gate.slots.admitIp limits ip = some slots) :
    Gate.Exact limits { slots, permits := ip :: gate.permits } := by
  simp only [Open.admitIp, h.fromIp, h.total] at hadmits
  split at hadmits
  · cases hadmits
  · next hroom =>
    rw [not_or, Nat.not_le, Nat.not_le] at hroom
    cases hadmits
    have hcount := increment_of_lt hroom.2 limits.perIp_fits
    refine ⟨?_, ?_, fun other => ?_, ?_, fun other => ?_⟩
    · exact increment_of_lt hroom.1 limits.total_fits
    · have hsum := Dict.total_insert gate.slots.perIp ip (increment (gate.permits.count ip))
      rw [h.fromIp, h.sum, hcount] at hsum
      show Dict.total (gate.slots.perIp.insert ip (increment (gate.permits.count ip))) =
        gate.permits.length + 1
      rw [hcount]
      omega
    · rw [Dict.getElem?_insert, h.perIp, hcount]
      by_cases hip : ip = other
      · subst hip
        simp
      · simp [hip]
    · exact hroom.1
    · rw [List.count_cons]
      have hother := h.perIp_le other
      split
      · next hip =>
        rw [beq_iff_eq] at hip
        subst hip
        exact hroom.2
      · exact hother

private theorem Gate.Exact.release {permit : Nat} (hpermit : gate.permits[permit]? = some ip) :
    Gate.Exact limits
    { slots := gate.slots.release ip, permits := gate.permits.eraseIdx permit } := by
  have hperm : (ip :: gate.permits.eraseIdx permit).Perm gate.permits := by
    obtain ⟨hlt, rfl⟩ := List.getElem?_eq_some_iff.1 hpermit
    exact List.getElem_cons_eraseIdx_perm hlt
  generalize gate.permits.eraseIdx permit = rest at hperm ⊢
  have hlength : gate.permits.length = rest.length + 1 := hperm.length_eq.symm
  have hcount : ∀ other, gate.permits.count other = rest.count other + if ip = other then 1
      else 0 := by
    intro other
    rw [← hperm.count_eq, List.count_cons]
    simp
  have hself : gate.permits.count ip = rest.count ip + 1 := by
    rw [hcount, if_pos rfl]
  have hperIp := h.perIp_le ip
  have hfits := limits.perIp_fits
  have hfound : gate.slots.perIp[ip]? = some (gate.permits.count ip) := by
    rw [h.perIp, if_neg (by omega)]
  have hdecrement : decrement (gate.permits.count ip) = rest.count ip := by
    rw [decrement_of_pos (by omega) (by omega)]
    omega
  have htotal := h.total_le
  have hsum := h.sum
  refine ⟨?_, ?_, fun other => ?_, ?_, fun other => ?_⟩
  · show decrement gate.slots.total = rest.length
    have hlimit := limits.total_fits
    rw [h.total, decrement_of_pos (by omega) (by omega)]
    omega
  · simp only [Open.release, hfound, hdecrement]
    split
    · next hlast =>
      have herase := Dict.total_erase gate.slots.perIp ip
      rw [hfound, Option.getD_some] at herase
      omega
    · have hinsert := Dict.total_insert gate.slots.perIp ip (rest.count ip)
      rw [hfound, Option.getD_some] at hinsert
      omega
  · simp only [Open.release, hfound, hdecrement]
    have hother := hcount other
    by_cases hip : ip = other
    · subst hip
      split
      · next hlast => rw [Dict.getElem?_erase, if_pos rfl]
      · rw [Dict.getElem?_insert, if_pos rfl]
    · rw [if_neg hip, Nat.add_zero] at hother
      rw [← hother, ← h.perIp]
      split
      · rw [Dict.getElem?_erase_of_ne hip]
      · rw [Dict.getElem?_insert_of_ne hip]
  · show rest.length ≤ limits.maxConnections
    omega
  · show rest.count other ≤ limits.maxConnectionsPerIp
    have hother := hcount other
    have hle := h.perIp_le other
    omega

private theorem Gate.Exact.step {action : GateAction}
    (hstep : gate.step limits action = some next) : next.Exact limits := by
  cases action with
  | admitIp ip =>
    rw [Gate.step] at hstep
    split at hstep
    · cases hstep
      exact h
    · next slots hadmits =>
      cases hstep
      exact h.admitIp hadmits
  | drop permit =>
    obtain ⟨ip, hpermit, rfl⟩ := Option.map_eq_some_iff.1 hstep
    exact h.release hpermit

end

/-- Wherever admissions and drops lead, the counters are the numbers of live permits, in all and for
each address, within the limits; a slot is refused exactly at a limit, and a drop takes one off
counters that are above zero. -/
theorem admission_exact {actions : List GateAction}
    (hrun : run (Gate.step limits) {} actions = some gate) :
    gate.slots.total = gate.permits.length ∧ Dict.total gate.slots.perIp = gate.slots.total ∧
      (∀ ip count, gate.slots.perIp[ip]? = some count → count = gate.permits.count ip ∧ 0 < count) ∧
      (∀ ip ∈ gate.permits, ∃ count, gate.slots.perIp[ip]? = some count ∧ 0 < count ∧
        0 < gate.slots.total) ∧
      gate.slots.total ≤ limits.maxConnections ∧
      (∀ ip, gate.permits.count ip ≤ limits.maxConnectionsPerIp) ∧ ∀ ip,
      gate.slots.admitIp limits ip = none ↔
        gate.permits.length = limits.maxConnections ∨
        gate.permits.count ip = limits.maxConnectionsPerIp := by
  have h : gate.Exact limits := run_preserves (Gate.Exact limits) hrun
    ⟨rfl, rfl, fun _ => rfl, Nat.zero_le _, fun _ => Nat.zero_le _⟩ fun _ _ _ h hstep =>
      h.step hstep
  have htotal := h.total_le
  refine ⟨h.total, h.sum.trans h.total.symm, fun ip count hcount => ?_, fun ip hip =>
    ?_, ?_, h.perIp_le, fun ip => ?_⟩
  · rw [h.perIp] at hcount
    split at hcount
    · cases hcount
    · next hpos =>
      cases hcount
      exact ⟨rfl, Nat.pos_of_ne_zero hpos⟩
  · have hpos := List.count_pos_iff.2 hip
    refine ⟨gate.permits.count ip, ?_, hpos, ?_⟩
    · rw [h.perIp, if_neg (by omega)]
    · rw [h.total]
      exact List.length_pos_of_mem hip
  · rw [h.total]
    exact htotal
  · have hperIp := h.perIp_le ip
    simp only [Open.admitIp, h.fromIp, h.total]
    split
    · next hfull => exact iff_of_true rfl (by omega)
    · next hroom => exact iff_of_false (Option.some_ne_none _) (by omega)

theorem admission_exact_two_addresses :
    ∃ gate, run (Gate.step { maxConnections := 2, maxConnectionsPerIp := 1 }) {}
        [.admitIp (.v4 1), .admitIp (.v4 1), .admitIp (.v4 2), .drop 1] = some gate ∧
      gate.permits = [.v4 2] ∧ gate.slots.total = gate.permits.length := by
  refine exists_end_and (fun _ => True) (by decide +kernel) fun gate hrun _ _ => ?_
  exact (admission_exact hrun).1

end MicroTak.Transport
