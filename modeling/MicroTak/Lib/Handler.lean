import Mathlib.Data.List.Basic

/-!
# Request handlers

A handler runs on a state, answers with a value or an error, and keeps what it changed before an
error.  `wp` is its weakest precondition for a condition on each of the two outcomes.  The rules
below read a handler off line by line, and `bind_eq` compares two handlers the same way.
-/

namespace Handler

variable {ε σ α β : Type} {e : ε} {a : α} {s t : σ} {c : Prop} {o : Option α}

/-- The early return of a check that fails. -/
def ensure (c : Prop) [Decidable c] (e : ε) : EStateM ε σ Unit :=
  if c then pure () else throw e

def orThrow (o : Option α) (e : ε) : EStateM ε σ α :=
  match o with
  | some a => pure a
  | none => throw e

def whenever (c : Prop) [Decidable c] (m : EStateM ε σ Unit) : EStateM ε σ Unit :=
  if c then m else pure ()

/-- A handler that only looks at the state. -/
def reads (f : σ → Except ε α) : EStateM ε σ α := fun s =>
  match f s with
  | .ok a => .ok a s
  | .error e => .error e s

def wp (m : EStateM ε σ α) (Q : α → σ → Prop) (E : ε → σ → Prop) (s : σ) : Prop :=
  match m s with
  | .ok a t => Q a t
  | .error e t => E e t

/-- The state a handler leaves, whatever it answers. -/
def after (m : EStateM ε σ α) (s : σ) : σ :=
  match m s with
  | .ok _ t => t
  | .error _ t => t

/-- The error a handler ends with, and the state it leaves then. -/
def fault (m : EStateM ε σ α) (s : σ) : Option (ε × σ) :=
  match m s with
  | .ok _ _ => none
  | .error e t => some (e, t)

variable {m : EStateM ε σ α}

theorem exists_ok_of_fault (h : fault m s = none) : ∃ a, m s = .ok a (after m s) := by
  rw [fault] at h
  split at h
  · next a t hok =>
    rw [after, hok]
    exact ⟨a, rfl⟩
  · cases h

theorem eq_error_of_fault (h : fault m s = some (e, t)) : m s = .error e t := by
  rw [fault] at h
  split at h
  · cases h
  · next hm =>
    cases h
    exact hm

section Rules

variable {Q Q' : α → σ → Prop} {E E' : ε → σ → Prop}

@[simp] theorem wp_pure : wp (pure a : EStateM ε σ α) Q E s ↔ Q a s := Iff.rfl

@[simp] theorem wp_throw : wp (throw e : EStateM ε σ α) Q E s ↔ E e s := Iff.rfl

@[simp] theorem wp_bind {m : EStateM ε σ β} {f : β → EStateM ε σ α} :
    wp (m >>= f) Q E s ↔ wp m (fun b t => wp (f b) Q E t) E s := by
  show wp (EStateM.bind m f) Q E s ↔ _
  simp only [wp, EStateM.bind]
  cases m s <;> rfl

@[simp] theorem wp_get {Q : σ → σ → Prop} : wp (get : EStateM ε σ σ) Q E s ↔ Q s s := Iff.rfl

@[simp] theorem wp_modify {f : σ → σ} {Q : PUnit → σ → Prop} : wp
    (modify f : EStateM ε σ PUnit) Q E s ↔ Q ⟨⟩ (f s) := Iff.rfl

@[simp] theorem wp_ensure [Decidable c] {Q : Unit → σ → Prop} :
    wp (ensure c e : EStateM ε σ Unit) Q E s ↔ (c → Q () s) ∧ (¬ c → E e s) := by
  by_cases hc : c <;> simp [ensure, hc]

@[simp] theorem wp_orThrow :
    wp (orThrow o e : EStateM ε σ α) Q E s ↔ (∀ a, o = some a → Q a s) ∧ (o = none → E e s) := by
  cases o <;> simp [orThrow]

@[simp] theorem wp_whenever [Decidable c] {m : EStateM ε σ Unit} {Q : Unit → σ → Prop} :
    wp (whenever c m) Q E s ↔ (c → wp m Q E s) ∧ (¬ c → Q () s) := by
  by_cases hc : c <;> simp [whenever, hc]

@[simp] theorem wp_reads {f : σ → Except ε α} :
    wp (reads f) Q E s ↔ (∀ a, f s = .ok a → Q a s) ∧ (∀ e, f s = .error e → E e s) := by
  cases hf : f s <;> simp [wp, reads, hf]

theorem wp_trivial : wp m (fun _ _ => True) (fun _ _ => True) s := by
  rw [wp]
  split <;> trivial

/-- What a handler leaves when it succeeds does not depend on where it may fail before. -/
theorem wp_then {m : EStateM ε σ β} {f : β → EStateM ε σ α}
    (h : ∀ b t, wp (f b) Q (fun _ _ => True) t) : wp (m >>= f) Q (fun _ _ => True) s := by
  rw [wp_bind, wp]
  split
  · exact h _ _
  · trivial

theorem wp.mono (h : wp m Q E s) (hQ : ∀ a t, Q a t → Q' a t) (hE : ∀ e t, E e t → E' e t) :
    wp m Q' E' s := by
  show (match m s with | .ok a t => Q' a t | .error e t => E' e t)
  have h' : (match m s with | .ok a t => Q a t | .error e t => E e t) := h
  cases hm : m s with
  | ok a t =>
    rw [hm] at h'
    exact hQ a t h'
  | error e t =>
    rw [hm] at h'
    exact hE e t h'

theorem wp.and (h : wp m Q E s) (h' : wp m Q' E' s) :
    wp m (fun a t => Q a t ∧ Q' a t) (fun e t => E e t ∧ E' e t) s := by
  revert h h'
  simp only [wp]
  cases m s <;> exact fun h h' => ⟨h, h'⟩

/-- The loop rule: what every round keeps holds at the end, and at the round that failed. -/
theorem wp_forM {xs : List β} {f : β → EStateM ε σ PUnit} (Inv : σ → Prop)
    (hround : ∀ x ∈ xs, ∀ t, Inv t → wp (f x) (fun _ => Inv) (fun _ => Inv) t) (hs : Inv s) :
    wp (xs.forM f) (fun _ => Inv) (fun _ => Inv) s := by
  induction xs generalizing s with
  | nil => exact hs
  | cons x rest ih =>
    show wp (f x >>= fun _ => rest.forM f) _ _ s
    rw [wp_bind]
    refine (hround x List.mem_cons_self s hs).mono (fun _ t ht => ?_) (fun _ _ ht => ht)
    exact ih (fun y hy => hround y (List.mem_cons_of_mem _ hy)) ht

/-- Whatever a handler answers, it keeps `I`. -/
structure Keeps (I : σ → Prop) (m : EStateM ε σ α) : Prop where
  run : ∀ {s}, I s → wp m (fun _ => I) (fun _ => I) s

section Keeps

variable {I : σ → Prop} {m : EStateM ε σ β} {f : β → EStateM ε σ α}

theorem keeps_pure : Keeps I (pure a : EStateM ε σ α) := ⟨id⟩

theorem keeps_throw : Keeps I (throw e : EStateM ε σ α) := ⟨id⟩

theorem keeps_get : Keeps I (get : EStateM ε σ σ) := ⟨id⟩

theorem keeps_modify {f : σ → σ} (h : ∀ s, I s → I (f s)) : Keeps I
    (modify f : EStateM ε σ PUnit) := ⟨h _⟩

theorem keeps_ensure [Decidable c] : Keeps I (ensure c e : EStateM ε σ Unit) :=
  ⟨fun h => wp_ensure.2 ⟨fun _ => h, fun _ => h⟩⟩

theorem keeps_orThrow : Keeps I (orThrow o e : EStateM ε σ α) :=
  ⟨fun h => wp_orThrow.2 ⟨fun _ _ => h, fun _ => h⟩⟩

theorem keeps_reads {f : σ → Except ε α} : Keeps I (reads f) :=
  ⟨fun h => wp_reads.2 ⟨fun _ _ => h, fun _ _ => h⟩⟩

theorem Keeps.wp_bind {Q : α → σ → Prop} {E : ε → σ → Prop} (h : Keeps I m) (hs : I s)
    (hf : ∀ b t, I t → wp (f b) Q E t) (hE : ∀ e t, I t → E e t) : wp (m >>= f) Q E s :=
  Handler.wp_bind.2 ((h.run hs).mono hf hE)

theorem Keeps.bind (h : Keeps I m) (hf : ∀ b, Keeps I (f b)) : Keeps I (m >>= f) :=
  ⟨fun hs => h.wp_bind hs (fun b _ => (hf b).run) fun _ _ ht => ht⟩

theorem keeps_orThrow_bind {o : Option β} (h : ∀ b, o = some b → Keeps I (f b)) :
    Keeps I (orThrow o e >>= f) :=
  ⟨fun hs => Handler.wp_bind.2 (wp_orThrow.2 ⟨fun b hb => (h b hb).run hs, fun _ => hs⟩)⟩

theorem keeps_whenever [Decidable c] {m : EStateM ε σ Unit} (h : Keeps I m) :
    Keeps I (whenever c m) :=
  ⟨fun hs => wp_whenever.2 ⟨fun _ => h.run hs, fun _ => hs⟩⟩

theorem keeps_forM {xs : List β} {f : β → EStateM ε σ PUnit} (h : ∀ x ∈ xs, Keeps I (f x)) :
    Keeps I (xs.forM f) :=
  ⟨wp_forM I fun x hx _ => (h x hx).run⟩

end Keeps

/-- A condition on both outcomes is one on the state a handler leaves. -/
theorem wp.after {I : σ → Prop} (h : wp m (fun _ => I) (fun _ => I) s) : I (after m s) := by
  revert h
  simp only [wp, Handler.after]
  cases m s <;> exact id

theorem wp.of_ok (h : wp m Q E s) (hm : m s = .ok a t) : Q a t := by
  have h' : (match m s with | .ok a t => Q a t | .error e t => E e t) := h
  rwa [hm] at h'

theorem eq_ok_iff_wp : m s = .ok a t ↔ wp m (fun b u => b = a ∧ u = t) (fun _ _ => False) s := by
  simp only [wp]
  cases m s <;> simp

/-- What a handler answers, from whatever state it answers. -/
structure Answers (Q : α → Prop) (m : EStateM ε σ α) : Prop where
  reply : ∀ s, wp m (fun a _ => Q a) (fun _ _ => True) s

theorem Answers.mono {Q Q' : α → Prop} (h : Answers Q m) (hQ : ∀ a, Q a → Q' a) : Answers Q' m :=
  ⟨fun s => (h.reply s).mono (fun a _ => hQ a) (fun _ _ h => h)⟩

theorem answers_pure {Q : α → Prop} (h : Q a) : Answers Q (pure a : EStateM ε σ α) := ⟨fun _ => h⟩

theorem answers_bind {Q : α → Prop} {m : EStateM ε σ β} {f : β → EStateM ε σ α}
    (h : ∀ b, Answers Q (f b)) : Answers Q (m >>= f) := by
  refine ⟨fun s => ?_⟩
  rw [wp_bind]
  exact wp_trivial.mono (fun b t _ => (h b).reply t) (fun _ _ h => h)

theorem after_of_ok (hm : m s = .ok a t) : after m s = t := by
  simp [after, hm]

end Rules

theorem bind_eq {m m' : EStateM ε σ β} {f f' : β → EStateM ε σ α} (hm : m s = m' s)
    (hf : ∀ b t, m s = .ok b t → f b t = f' b t) : (m >>= f) s = (m' >>= f') s := by
  show EStateM.bind m f s = EStateM.bind m' f' s
  simp only [EStateM.bind, ← hm]
  cases h : m s with
  | ok b t => exact hf b t h
  | error e t => rfl

theorem bind_eq_of_wp {m m' : EStateM ε σ β} {f f' : β → EStateM ε σ α} (Inv : σ → Prop)
    (hm : m s = m' s) (hInv : wp m (fun _ => Inv) (fun _ _ => True) s)
    (hf : ∀ b t, Inv t → f b t = f' b t) : (m >>= f) s = (m' >>= f') s :=
  bind_eq hm fun b t hok => hf b t (hInv.of_ok hok)

theorem get_bind (f : σ → EStateM ε σ α) (s : σ) : ((get : EStateM ε σ σ) >>= f) s = f s s := rfl

theorem reads_eq_ok {f : σ → Except ε α} : reads f s = .ok a t ↔ f s = .ok a ∧ t = s := by
  cases hf : f s <;> simp [reads, hf, eq_comm]

end Handler
