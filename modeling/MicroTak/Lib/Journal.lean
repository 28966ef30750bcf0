import Mathlib.Data.List.Basic

/-!
# Operations on a journaled state

A store holds a state and a journal of the events that made it.  An operation looks at the state,
may be refused, and records events: each is appended to the journal and, once the append has
returned, applied to the state.  An append that fails ends the operation and keeps what it recorded
before.
-/

namespace Journal

variable {S E ε α β : Type}

inductive Op (S E ε α : Type) where
  | done (a : α)
  | refuse (error : ε)
  | look (next : S → Op S E ε α)
  | record (event : E) (next : Op S E ε α)

namespace Op

def bind : Op S E ε α → (α → Op S E ε β) → Op S E ε β
  | .done a, f => f a
  | .refuse error, _ => .refuse error
  | .look next, f => .look fun state => (next state).bind f
  | .record event next, f => .record event (next.bind f)

instance : Monad (Op S E ε) where
  pure := .done
  bind := bind

/-- The state as it is at this point. -/
def get : Op S E ε S := .look .done

def put (event : E) : Op S E ε Unit := .record event (.done ())

def putIf (c : Prop) [Decidable c] (event : E) : Op S E ε Unit :=
  if c then put event else .done ()

def ensure (c : Prop) [Decidable c] (error : ε) : Op S E ε Unit :=
  if c then .done () else .refuse error

def orRefuse (o : Option α) (error : ε) : Op S E ε α :=
  match o with
  | some a => .done a
  | none => .refuse error

/-- An event for each element, in order. -/
def putAll : List E → Op S E ε Unit
  | [] => .done ()
  | event :: rest => .record event (putAll rest)

end Op

inductive Answer (E ε α : Type) where
  | done (a : α)
  | refused (error : ε)
  /-- The append of this event failed. -/
  | failed (event : E)
  deriving DecidableEq

def Answer.isDone : Answer E ε α → Bool
  | .done _ => true
  | _ => false

/-- How an operation ends: `disk` is what the journal takes from then on. -/
structure Result (S E ε α : Type) where
  answer : Answer E ε α
  state : S
  recorded : List E := []
  disk : Option Nat

def Result.push (event : E) (result : Result S E ε α) : Result S E ε α :=
  { result with recorded := event :: result.recorded }

@[simp] theorem Result.push_state (event : E) (result : Result S E ε α) :
    (result.push event).state = result.state := rfl

/-- An operation on a journal that takes `disk` more appends before one fails, or any number. -/
def Op.run (apply : S → E → S) : Op S E ε α → Option Nat → S → Result S E ε α
  | .done a, disk, state => { answer := .done a, state, disk }
  | .refuse error, disk, state => { answer := .refused error, state, disk }
  | .look next, disk, state => (next state).run apply disk state
  | .record event _, some 0, state => { answer := .failed event, state, disk := some 0 }
  | .record event next, some (n + 1), state =>
    (next.run apply (some n) (apply state event)).push event
  | .record event next, none, state => (next.run apply none (apply state event)).push event

variable {apply : S → E → S} {op : Op S E ε α} {disk : Option Nat} {state : S}

variable {c : Prop} {event : E} {events : List E} {error : ε}

section Rules

variable {f : α → Op S E ε β}

instance : LawfulMonad (Op S E ε) := LawfulMonad.mk' _
  (by
    intro α op
    induction op with
    | done a => rfl
    | refuse error => rfl
    | look next ih => exact congrArg Op.look (funext ih)
    | record event next ih => exact congrArg (Op.record event) ih)
  (fun _ _ => rfl)
  (by
    intro α β γ op f g
    induction op with
    | done a => rfl
    | refuse error => rfl
    | look next ih => exact congrArg Op.look (funext ih)
    | record event next ih => exact congrArg (Op.record event) ih)

@[simp] theorem Op.run_get_bind (f : S → Op S E ε β) :
    (get >>= f).run apply disk state = (f state).run apply disk state := rfl

@[simp] theorem Op.run_ensure_bind [Decidable c] {f : Unit → Op S E ε β} :
    (ensure c error >>= f).run apply disk state =
      if c then (f ()).run apply disk state else { answer := .refused error, state, disk } := by
  by_cases hc : c <;> simp [hc] <;> rfl

@[simp] theorem Op.run_orRefuse_bind {o : Option α} :
    (orRefuse o error >>= f).run apply disk state =
      match o with
      | some a => (f a).run apply disk state
      | none => { answer := .refused error, state, disk } := by
  cases o <;> rfl

theorem Op.run_put : (put event : Op S E ε Unit).run apply disk state =
      if disk = some 0 then { answer := .failed event, state, disk }
      else
        { answer := .done (), state := apply state event, recorded := [event],
          disk := disk.map (· - 1) } := by
  match disk with
  | none | some 0 | some (n + 1) => rfl

theorem Op.answer_put_bind {f : Unit → Op S E ε β} :
    ((put event >>= f).run apply disk state).answer =
      match disk with
      | some 0 => .failed event
      | disk => ((f ()).run apply (disk.map (· - 1)) (apply state event)).answer := by
  match disk with
  | none | some 0 | some (n + 1) => rfl

/-- What holds where the append fails, and after whatever follows it, holds of the state in the
end. -/
theorem Op.state_put_bind (Inv : S → Prop) {f : Unit → Op S E ε β} (hstop : Inv state)
    (hgo : ∀ disk, Inv ((f ()).run apply disk (apply state event)).state) :
    Inv ((put event >>= f).run apply disk state).state := by
  match disk with
  | none => exact hgo none
  | some 0 => exact hstop
  | some (n + 1) => exact hgo (some n)

end Rules

theorem Op.run_state (op : Op S E ε α) (disk : Option Nat) (state : S) :
    (op.run apply disk state).state = (op.run apply disk state).recorded.foldl apply state := by
  induction op generalizing disk state with
  | done a => rfl
  | refuse error => rfl
  | look next ih => exact ih state disk state
  | record event next ih =>
    match disk with
    | none => exact ih none (apply state event)
    | some 0 => rfl
    | some (n + 1) => exact ih (some n) (apply state event)

/-- Every event the operation may record satisfies `p`. -/
def Op.Only (p : E → Prop) : Op S E ε α → Prop
  | .done _ | .refuse _ => True
  | .look next => ∀ state, (next state).Only p
  | .record event next => p event ∧ next.Only p

section Only

variable {p : E → Prop}

theorem Op.only_true (op : Op S E ε α) : op.Only fun _ => True := by
  induction op with
  | done a => trivial
  | refuse error => trivial
  | look next ih => exact ih
  | record event next ih => exact ⟨trivial, ih⟩

theorem Op.only_get : (get : Op S E ε S).Only p := fun _ => trivial

theorem Op.only_put (h : p event) : (put event : Op S E ε Unit).Only p := ⟨h, trivial⟩

theorem Op.only_putIf [Decidable c] (h : p event) : (putIf c event : Op S E ε Unit).Only p := by
  by_cases hc : c
  · simpa [putIf, hc] using only_put h
  · simp [putIf, hc, Only]

theorem Op.only_ensure [Decidable c] : (ensure c error : Op S E ε Unit).Only p := by
  by_cases hc : c <;> simp [ensure, hc, Only]

theorem Op.only_orRefuse {o : Option α} : (orRefuse o error : Op S E ε α).Only p := by
  cases o <;> trivial

theorem Op.Only.bind {f : α → Op S E ε β} (h : op.Only p) (hf : ∀ a, (f a).Only p) :
    (op >>= f).Only p := by
  induction op with
  | done a => exact hf a
  | refuse error => trivial
  | look next ih => exact fun state => ih state (h state)
  | record event next ih => exact ⟨h.1, ih h.2⟩

theorem Op.Only.mono {q : E → Prop} (h : op.Only p) (hpq : ∀ event, p event → q event) :
    op.Only q := by
  induction op with
  | done a => trivial
  | refuse error => trivial
  | look next ih => exact fun state => ih state (h state)
  | record event next ih => exact ⟨hpq event h.1, ih h.2⟩

theorem Op.only_putAll (h : ∀ event ∈ events, p event) :
    (putAll events : Op S E ε Unit).Only p := by
  induction events with
  | nil => trivial
  | cons event rest ih =>
    exact ⟨h event List.mem_cons_self, ih fun e he => h e (List.mem_cons_of_mem _ he)⟩

theorem Op.Only.run (h : op.Only p) (Inv : S → Prop)
    (hkeep : ∀ state event, p event → Inv state → Inv (apply state event)) (hstate : Inv state) :
    Inv (op.run apply disk state).state := by
  induction op generalizing disk state with
  | done a => exact hstate
  | refuse error => exact hstate
  | look next ih => exact ih state (h state) hstate
  | record event next ih =>
    match disk with
    | none => exact ih h.2 (hkeep state event h.1 hstate)
    | some 0 => exact hstate
    | some (n + 1) => exact ih h.2 (hkeep state event h.1 hstate)

theorem Op.Only.state_eq (h : op.Only fun _ => False) : (op.run apply disk state).state = state :=
  h.run (· = state) (fun _ _ hfalse => hfalse.elim) rfl

end Only

/-- No state in which `I` holds makes the operation refuse. -/
def Op.Accepts (I : S → Prop) : Op S E ε α → Prop
  | .done _ => True
  | .refuse _ => False
  | .look next => ∀ state, I state → (next state).Accepts I
  | .record _ next => next.Accepts I

section Accepts

variable {I : S → Prop}

theorem Op.accepts_get_bind {f : S → Op S E ε β} (h : ∀ state, I state → (f state).Accepts I) :
    (get >>= f).Accepts I := h

theorem Op.accepts_put : (put event : Op S E ε Unit).Accepts I := trivial

theorem Op.accepts_putIf [Decidable c] : (putIf c event : Op S E ε Unit).Accepts I := by
  by_cases hc : c <;> simp [putIf, hc, put, Accepts]

theorem Op.accepts_putAll : (putAll events : Op S E ε Unit).Accepts I := by
  induction events with
  | nil => trivial
  | cons event rest ih => exact ih

theorem Op.Accepts.bind {f : α → Op S E ε β} (h : op.Accepts I) (hf : ∀ a, (f a).Accepts I) :
    (op >>= f).Accepts I := by
  induction op with
  | done a => exact hf a
  | refuse error => exact h.elim
  | look next ih => exact fun state hstate => ih state (h state hstate)
  | record event next ih => exact ih h

end Accepts

end Journal
