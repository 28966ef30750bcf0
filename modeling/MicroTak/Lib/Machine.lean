import Mathlib.Algebra.Ring.Int.Defs
import Mathlib.Algebra.Ring.Nat

/-!
# 64-bit arithmetic

The integers of a 64-bit type start at `low`: at `0` if the type is unsigned, at `-2 ^ 63` if it is
signed.  An operation whose exact result is not among them panics in a build with overflow checks,
and wraps around in one without.
-/

namespace Machine

def i64 : Int := -2 ^ 63

def u64 : Int := 0

def Fits (low n : Int) : Prop := low ≤ n ∧ n < low + 2 ^ 64

instance (low n : Int) : Decidable (Fits low n) := inferInstanceAs (Decidable (_ ∧ _))

inductive Build where
  | checked
  | wrapping

variable {low n : Int}

/-- What an operation gives whose exact result is `n`; `none` is a panic. -/
def Build.result (build : Build) (low n : Int) : Option Int :=
  if Fits low n then some n
  else match build with
    | .checked => none
    | .wrapping => some (low + (n - low) % 2 ^ 64)

/-- The integer of the type next to `n`. -/
def saturate (low n : Int) : Int := max low (min n (low + 2 ^ 64 - 1))

theorem Build.result_of_fits (h : Fits low n) (build : Build) : build.result low n = some n :=
  if_pos h

theorem Build.result_checked (h : ¬ Fits low n) : Build.checked.result low n = none := if_neg h

theorem saturate_of_fits (h : Fits low n) : saturate low n = n := by
  simp only [Fits, saturate] at *
  omega

end Machine
