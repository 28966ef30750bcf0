import MicroTak.Lib.Journal
import MicroTak.Lib.Transition

/-!
# Stores that come back from their journal

A store takes calls, each on a journal that may stop taking appends, and is restarted: its state is
then what the journal replays to.  An append that fails may leave its record in the journal all the
same.  Where none does, what every call keeps, every such store keeps.
-/

namespace Journal

open Transition

variable {S E ε Call α : Type}

/-- A state, and the journal of the events that made it. -/
structure Kept (S E : Type) where
  state : S
  log : List E := []

/-- A call, on a journal that takes `disk` more appends, or a restart.  `left` is whether the append
that fails leaves its record. -/
inductive Turn (Call : Type) where
  | call (call : Call) (disk : Option Nat := none) (left : Bool := false)
  | restart

def Turn.made : Turn Call → Option Call
  | .call made _ _ => some made
  | .restart => none

def Turn.left : Turn Call → Bool
  | .call _ _ left => left
  | .restart => false

/-- The condition on a call, in the state it finds, and no record left behind. -/
def Turn.meets (c : S → Call → Bool) (store : Kept S E) : Turn Call → Bool
  | .call made _ left => c store.state made && !left
  | .restart => true

def Answer.leftover (left : Bool) : Answer E ε α → List E
  | .failed event => if left then [event] else []
  | _ => []

@[simp] theorem Answer.leftover_false (answer : Answer E ε α) : answer.leftover false = [] := by
  cases answer <;> rfl

namespace Kept

variable (apply : S → E → S) (init : S) (op : Call → Op S E ε Unit)

/-- Whether a turn succeeds, and what it leaves. -/
def take (store : Kept S E) : Turn Call → Bool × Kept S E
  | .call call disk left =>
      let result := (op call).run apply disk store.state
      (result.answer.isDone,
        { state := result.state,
          log := store.log ++ result.recorded ++ result.answer.leftover left })
  | .restart => (true, { store with state := store.log.foldl apply init })

def step (store : Kept S E) (turn : Turn Call) : Option (Kept S E) :=
  some (store.take apply init op turn).2

/-- The state is what the journal replays to. -/
def Faithful (store : Kept S E) : Prop := store.state = store.log.foldl apply init

variable {apply init op} {store next : Kept S E} {turns : List (Turn Call)} {turn : Turn Call}
variable {c : S → Call → Bool}

theorem Faithful.step (h : store.Faithful apply init) (hleft : turn.left = false)
    (hstep : store.step apply init op turn = some next) : next.Faithful apply init := by
  cases turn with
  | call call disk left =>
    cases hstep
    obtain rfl : left = false := hleft
    simp only [Faithful, take]
    rw [Answer.leftover_false, List.append_nil, List.foldl_append, ← h]
    exact Op.run_state ..
  | restart =>
    cases hstep
    rfl

theorem step_keeps (Inv : S → Prop)
    (hcall : ∀ state call disk, Inv state → c state call = true →
      Inv ((op call).run apply disk state).state)
    (h : store.Faithful apply init ∧ Inv store.state) (hmeets : turn.meets c store = true)
    (hstep : store.step apply init op turn = some next) : next.Faithful apply init ∧
    Inv next.state := by
  cases turn with
  | call call disk left =>
    obtain ⟨hmade, hleft⟩ := Bool.and_eq_true_iff.1 hmeets
    obtain rfl : left = false := by simpa using hleft
    refine ⟨h.1.step rfl hstep, ?_⟩
    cases hstep
    exact hcall store.state call disk h.2 hmade
  | restart =>
    refine ⟨h.1.step rfl hstep, ?_⟩
    cases hstep
    have hreplay : store.log.foldl apply init = store.state := h.1.symm
    simpa only [take, hreplay] using h.2

/-- What every call that meets the condition keeps, a store keeps through such calls and
restarts. -/
theorem run_keeps (Inv : S → Prop) (hrun : run (Kept.step apply init op) store turns = some next)
    (halong : Along (Kept.step apply init op) (fun store turn =>
      turn.meets c store = true) store turns)
    (hfaithful : store.Faithful apply init) (hstate : Inv store.state)
    (hcall : ∀ state call disk, Inv state → c state call = true →
      Inv ((op call).run apply disk state).state) :
    next.Faithful apply init ∧ Inv next.state :=
  run_invariant (fun store => store.Faithful apply init ∧ Inv store.state) hrun halong
    ⟨hfaithful, hstate⟩ fun _ _ _ h hmeets => step_keeps Inv hcall h hmeets

end Kept

end Journal
