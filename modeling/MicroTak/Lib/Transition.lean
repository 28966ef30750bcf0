import Mathlib.Data.List.Basic

/-!
# Runs of a computed transition system

A system is given by a partial step function: `step s a` is the state the action `a` leads to
from `s`, or `none` where `a` is not enabled there.  `run` follows a list of actions, and
`Along C` says that every step of it starts in a state and takes an action related by `C`.  The
rules here turn what one step preserves into what every run preserves.
-/

namespace Transition

variable {State Action : Type*}

/-- The state reached by taking the actions in order, `none` once one of them is not enabled. -/
def run (step : State → Action → Option State) : State → List Action → Option State
  | s, [] => some s
  | s, a :: rest => (step s a).bind fun next => run step next rest

/-- Every step of the run is taken from a state and with an action that `C` relates. -/
def Along (step : State → Action → Option State) (C : State → Action → Prop) :
    State → List Action → Prop
  | _, [] => True
  | s, a :: rest => C s a ∧ ∀ next ∈ step s a, Along step C next rest

variable {step : State → Action → Option State} {C D : State → Action → Prop}
variable {s t u : State} {a : Action} {actions more : List Action}

@[simp] theorem run_nil : run step s [] = some s := rfl

theorem run_cons_eq_some : run step s (a :: actions) = some t ↔ ∃ next, step s a = some next ∧
    run step next actions = some t :=
  Option.bind_eq_some_iff

theorem run_append_eq_some :
    run step s (actions ++ more) = some u ↔ ∃ t, run step s actions = some t ∧
    run step t more = some u := by
  induction actions generalizing s with
  | nil => simp
  | cons a rest ih =>
    simp only [List.cons_append, run_cons_eq_some, ih]
    constructor
    · rintro ⟨next, hstep, t, hrest, hmore⟩
      exact ⟨t, ⟨next, hstep, hrest⟩, hmore⟩
    · rintro ⟨t, ⟨next, hstep, hrest⟩, hmore⟩
      exact ⟨next, hstep, t, hrest, hmore⟩

theorem run_concat_eq_some : run step s (actions ++ [a]) = some u ↔ ∃ t,
    run step s actions = some t ∧ step t a = some u := by
  rw [run_append_eq_some]
  simp [run_cons_eq_some]

@[simp] theorem along_nil : Along step C s [] := trivial

theorem along_cons (hstep : step s a = some t) : Along step C s (a :: actions) ↔
    C s a ∧ Along step C t actions := by
  simp [Along, hstep]

instance Along.decidable [∀ s a, Decidable (C s a)] :
    ∀ s actions, Decidable (Along step C s actions)
  | _, [] => isTrue trivial
  | s, a :: rest =>
      match hstep : step s a with
      | none => decidable_of_iff (C s a) (by simp [Along, hstep])
      | some next =>
          have := Along.decidable next rest
          decidable_of_iff (C s a ∧ Along step C next rest) (along_cons hstep).symm

theorem Along.and (h : Along step C s actions) (h' : Along step D s actions) :
    Along step (fun s a => C s a ∧ D s a) s actions := by
  induction actions generalizing s with
  | nil => trivial
  | cons a rest ih => exact ⟨⟨h.1, h'.1⟩, fun next hnext => ih (h.2 next hnext) (h'.2 next hnext)⟩

theorem along_true : Along step (fun _ _ => True) s actions := by
  induction actions generalizing s with
  | nil => trivial
  | cons a rest ih => exact ⟨trivial, fun next _ => ih⟩

/-- A condition met by every step of a run is met at each point of it. -/
theorem along_append (hrun : run step s actions = some t) :
    Along step C s (actions ++ more) ↔ Along step C s actions ∧ Along step C t more := by
  induction actions generalizing s with
  | nil =>
    obtain rfl : s = t := by simpa using hrun
    simp
  | cons a rest ih =>
    obtain ⟨next, hstep, hrest⟩ := run_cons_eq_some.1 hrun
    rw [List.cons_append, along_cons hstep, along_cons hstep, ih hrest, and_assoc]

/-- What is found where a run ends gives what follows there. -/
theorem exists_end (P : State → Prop) {R : State → Prop}
    (hend : ∃ t, run step s actions = some t ∧ P t)
    (h : ∀ t, run step s actions = some t → P t → R t) :
    ∃ t, run step s actions = some t ∧ R t := by
  obtain ⟨t, hrun, hfound⟩ := hend
  exact ⟨t, hrun, h t hrun hfound⟩

theorem exists_end_and (P : State → Prop) {Q R : State → Prop}
    (hend : ∃ t, run step s actions = some t ∧ Q t ∧ P t)
    (h : ∀ t, run step s actions = some t → Q t → P t → R t) :
    ∃ t, run step s actions = some t ∧ Q t ∧ R t :=
  exists_end _ hend fun t hrun hfound => ⟨hfound.1, h t hrun hfound.1 hfound.2⟩

/-- The invariant rule: what holds at the start, and is kept by every step that meets the
condition, holds wherever a run of such steps leads. -/
theorem run_invariant (Inv : State → Prop) (hrun : run step s actions = some t)
    (halong : Along step C s actions) (hinit : Inv s)
    (hkeep : ∀ s a t, Inv s → C s a → step s a = some t → Inv t) : Inv t := by
  induction actions generalizing s with
  | nil =>
    obtain rfl : s = t := by simpa using hrun
    exact hinit
  | cons a rest ih =>
    obtain ⟨next, hstep, hrest⟩ := run_cons_eq_some.1 hrun
    obtain ⟨hhead, htail⟩ := (along_cons hstep).1 halong
    exact ih hrest htail (hkeep s a next hinit hhead hstep)

theorem run_preserves (Inv : State → Prop) (hrun : run step s actions = some t) (hinit : Inv s)
    (hkeep : ∀ s a t, Inv s → step s a = some t → Inv t) : Inv t :=
  run_invariant Inv hrun along_true hinit fun s a t h _ => hkeep s a t h

end Transition
