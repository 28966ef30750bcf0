import Mathlib.Data.List.Infix

/-!
# Histories of a store

A store takes one call at a time.  A call succeeds or not, and leaves a state either way.  A trace
keeps, beside the state, the calls that have succeeded, in order.
-/

namespace History

variable {σ κ ε : Type*} {result : Except ε σ}

structure Trace (σ κ : Type*) where
  state : σ
  done : List κ

/-- `call s c` says whether the call succeeds, and what it leaves. -/
def next (call : σ → κ → Bool × σ) (trace : Trace σ κ) (c : κ) : Trace σ κ :=
  { state := (call trace.state c).2
    done := if (call trace.state c).1 then trace.done ++ [c] else trace.done }

def play (call : σ → κ → Bool × σ) (init : σ) (calls : List κ) : Trace σ κ :=
  calls.foldl (next call) { state := init, done := [] }

/-- A call that fails with an error leaves the state as it was. -/
def ofExcept {ε : Type*} (result : Except ε σ) (s : σ) : Bool × σ :=
  match result with
  | .ok next => (true, next)
  | .error _ => (false, s)

theorem ofExcept_ok {s : σ} (h : (ofExcept result s).1 = true) :
    result = .ok (ofExcept result s).2 := by
  cases result with
  | ok => rfl
  | error => cases h

theorem ofExcept_error {s : σ} (h : (ofExcept result s).1 = false) : (ofExcept result s).2 = s := by
  cases result with
  | ok => cases h
  | error => rfl

variable {call : σ → κ → Bool × σ} {init : σ} {calls : List κ}

theorem play_concat (c : κ) :
    play call init (calls ++ [c]) = next call (play call init calls) c := by
  rw [play, List.foldl_append]
  rfl

/-- The invariant rule: what a call that succeeds and one that fails keep holds after any calls. -/
theorem play_invariant (Inv : σ → List κ → Prop) (hinit : Inv init []) (calls : List κ)
    (hdone : ∀ s done, ∀ c ∈ calls, Inv s done → (call s c).1 = true →
      Inv (call s c).2 (done ++ [c]))
    (hfailed : ∀ s done, ∀ c ∈ calls, Inv s done → (call s c).1 = false → Inv (call s c).2 done) :
    Inv (play call init calls).state (play call init calls).done := by
  induction calls using List.reverseRecOn with
  | nil => exact hinit
  | append_singleton calls c ih =>
    have hbefore := ih (fun s done c hc => hdone s done c (List.mem_append_left _ hc))
      fun s done c hc => hfailed s done c (List.mem_append_left _ hc)
    have hlast : c ∈ calls ++ [c] := List.mem_append_right _ (List.mem_singleton.2 rfl)
    rw [play_concat]
    cases hok : (call (play call init calls).state c).1 with
    | true =>
      have hkeep := hdone _ _ c hlast hbefore hok
      rw [next, hok]
      exact hkeep
    | false =>
      have hkeep := hfailed _ _ c hlast hbefore hok
      rw [next, hok]
      exact hkeep

/-- What every call keeps in a relation to the state it starts from holds between any two
moments. -/
theorem play_append_related (R : σ → σ → Prop) (hrefl : ∀ s, R s s)
    (htrans : ∀ {a b c}, R a b → R b c → R a c) (before after : List κ)
    (hcall : ∀ s, ∀ c ∈ after, R s (call s c).2) :
    R (play call init before).state (play call init (before ++ after)).state := by
  induction after using List.reverseRecOn with
  | nil =>
    rw [List.append_nil]
    exact hrefl _
  | append_singleton after c ih =>
    rw [← List.append_assoc, play_concat]
    exact htrans (ih fun s c hc => hcall s c (List.mem_append_left _ hc))
      (hcall _ c (List.mem_append_right _ (List.mem_singleton.2 rfl)))

end History
