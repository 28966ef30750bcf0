import MicroTak.Lib.Refusal

/-!
# Handlers that spend

A handler may use up room of which there is only so much: `fund k s` is the state `s` with room for
`k` more units.  With enough room it goes the same way however much is left, so what it answers, and
how much it spends on the way, can be read off line by line.
-/

namespace Handler

variable {ε σ α β : Type}

/-- With enough room the handler answers, and spends at least `n`. -/
def Spends (fund : Nat → σ → σ) (m : EStateM ε σ α) (n : Nat) (Q : α → σ → Prop) (s : σ) : Prop :=
  ∃ cost a t, n ≤ cost ∧ Q a t ∧ ∀ k, m (fund (cost + k) s) = .ok a (fund k t)

/-- With enough room the handler refuses, when it has spent at least `n`. -/
def Refused (fund : Nat → σ → σ) (refusal : ε → Prop) (m : EStateM ε σ α) (n : Nat)
    (s : σ) : Prop :=
  ∃ cost e t, n ≤ cost ∧ refusal e ∧ ∀ k, m (fund (cost + k) s) = .error e (fund k t)

/-- With enough room the handler answers, and spends at least `n`; with any room it refuses
nothing. -/
structure Pays (fund : Nat → σ → σ) (refusal : ε → Prop) (m : EStateM ε σ α) (n : Nat)
    (Q : α → σ → Prop) (s : σ) : Prop where
  spends : Spends fund m n Q s
  firm : wp m Q (fun e _ => ¬ refusal e) s

variable {fund : Nat → σ → σ} {refusal : ε → Prop} {n l : Nat} {s : σ} {e : ε} {g : σ → Except ε β}
variable {m : EStateM ε σ β} {f : β → EStateM ε σ α}

theorem run_bind {cost d : Nat} {b : β} {t : σ} (hm : ∀ k, m (fund (cost + k) s) = .ok b (fund k t))
    (k : Nat) : (m >>= f) (fund (cost + d + k) s) = f b (fund (d + k) t) := by
  show EStateM.bind m f _ = _
  rw [EStateM.bind, Nat.add_assoc, hm]

section Pays

variable {Q Q' : α → σ → Prop}

theorem pays_pure {a : α} (h : Q a s) : Pays fund refusal (pure a : EStateM ε σ α) 0 Q s :=
  ⟨⟨0, a, s, Nat.le_refl 0, h, fun k => by rw [Nat.zero_add]; rfl⟩, h⟩

theorem pays_ensure {c : Prop} [Decidable c] {Q : Unit → σ → Prop} (hc : c) (h : Q () s) :
    Pays fund refusal (ensure c e : EStateM ε σ Unit) 0 Q s := by
  rw [ensure, if_pos hc]
  exact pays_pure h

theorem pays_orThrow {o : Option α} {a : α} (ho : o = some a) (h : Q a s) :
    Pays fund refusal (orThrow o e : EStateM ε σ α) 0 Q s := by
  rw [ho]
  exact pays_pure h

theorem pays_modify {f : σ → σ} {Q : PUnit → σ → Prop} (hf : ∀ k, f (fund k s) = fund k (f s))
    (h : Q ⟨⟩ (f s)) : Pays fund refusal (modify f : EStateM ε σ PUnit) 0 Q s :=
  ⟨⟨0, ⟨⟩, f s, Nat.le_refl 0, h, fun k => by rw [Nat.zero_add, ← hf]; rfl⟩, h⟩

theorem Pays.mono {m : EStateM ε σ α} (h : Pays fund refusal m n Q s) (hl : l ≤ n)
    (hQ : ∀ a t, Q a t → Q' a t) : Pays fund refusal m l Q' s := by
  obtain ⟨cost, a, t, hcost, ha, hrun⟩ := h.spends
  exact ⟨⟨cost, a, t, Nat.le_trans hl hcost, hQ a t ha, hrun⟩, h.firm.mono hQ fun _ _ he => he⟩

theorem Pays.wp_bind (h : Pays fund refusal m l (fun b t => Pays fund refusal (f b) n Q t) s) :
    wp (m >>= f) Q (fun e _ => ¬ refusal e) s :=
  Handler.wp_bind.2 (h.firm.mono (fun _ _ hf => hf.firm) fun _ _ he => he)

theorem Pays.bind (h : Pays fund refusal m 0 (fun b t => Pays fund refusal (f b) n Q t) s) :
    Pays fund refusal (m >>= f) n Q s := by
  obtain ⟨cost, b, t, -, ⟨⟨d, a, u, hd, ha, hf⟩, -⟩, hm⟩ := h.spends
  exact ⟨⟨cost + d, a, u, Nat.le_add_left_of_le hd, ha, fun k => (run_bind hm k).trans (hf k)⟩,
    h.wp_bind⟩

theorem Pays.bind_first (h : Pays fund refusal m n (fun b t => Pays fund refusal (f b) 0 Q t) s) :
    Pays fund refusal (m >>= f) n Q s := by
  obtain ⟨cost, b, t, hcost, ⟨⟨d, a, u, -, ha, hf⟩, -⟩, hm⟩ := h.spends
  exact ⟨⟨cost + d, a, u, Nat.le_add_right_of_le hcost, ha, fun k => (run_bind hm k).trans (hf k)⟩,
    h.wp_bind⟩

theorem pays_get_bind {f : σ → EStateM ε σ α} (hf : ∀ k, f (fund k s) = f s)
    (h : Pays fund refusal (f s) n Q s) : Pays fund refusal (get >>= f) n Q s := by
  obtain ⟨cost, a, t, hcost, ha, hrun⟩ := h.spends
  refine ⟨⟨cost, a, t, hcost, ha, fun k => ?_⟩, h.firm⟩
  rw [get_bind, hf, hrun]

end Pays

theorem refused_throw (he : refusal e) : Refused fund refusal (throw e : EStateM ε σ α) 0 s :=
  ⟨0, e, s, Nat.le_refl 0, he, fun k => by rw [Nat.zero_add]; rfl⟩

theorem refused_ensure {c : Prop} [Decidable c] (hc : ¬ c) (he : refusal e) :
    Refused fund refusal (ensure c e : EStateM ε σ Unit) 0 s := by
  rw [ensure, if_neg hc]
  exact refused_throw he

theorem refused_orThrow {o : Option α} (ho : o = none) (he : refusal e) :
    Refused fund refusal (orThrow o e : EStateM ε σ α) 0 s := by
  rw [ho]
  exact refused_throw he

theorem Refused.bind (h : Refused fund refusal m n s) : Refused fund refusal (m >>= f) n s := by
  obtain ⟨cost, e, t, hcost, he, hrun⟩ := h
  refine ⟨cost, e, t, hcost, he, fun k => ?_⟩
  show EStateM.bind m f _ = _
  rw [EStateM.bind, hrun]

theorem Pays.refused (h : Pays fund refusal m 0 (fun b t => Refused fund refusal (f b) n t) s) :
    Refused fund refusal (m >>= f) n s := by
  obtain ⟨cost, b, t, -, ⟨d, e, u, hd, he, hf⟩, hm⟩ := h.spends
  exact ⟨cost + d, e, u, Nat.le_add_left_of_le hd, he, fun k => (run_bind hm k).trans (hf k)⟩

theorem Pays.refused_first
    (h : Pays fund refusal m n (fun b t => Refused fund refusal (f b) 0 t) s) :
    Refused fund refusal (m >>= f) n s := by
  obtain ⟨cost, b, t, hcost, ⟨d, e, u, -, he, hf⟩, hm⟩ := h.spends
  exact ⟨cost + d, e, u, Nat.le_add_right_of_le hcost, he, fun k => (run_bind hm k).trans (hf k)⟩

theorem refused_get_bind {f : σ → EStateM ε σ α} (hf : ∀ k, f (fund k s) = f s)
    (h : Refused fund refusal (f s) n s) : Refused fund refusal (get >>= f) n s := by
  obtain ⟨cost, e, t, hcost, he, hrun⟩ := h
  refine ⟨cost, e, t, hcost, he, fun k => ?_⟩
  rw [get_bind, hf, hrun]

theorem refused_reads_bind {b : β} (hg : ∀ k, g (fund k s) = .ok b)
    (h : Refused fund refusal (f b) n s) : Refused fund refusal (reads g >>= f) n s := by
  obtain ⟨cost, e, t, hcost, he, hrun⟩ := h
  refine ⟨cost, e, t, hcost, he, fun k => ?_⟩
  show EStateM.bind (reads g) f _ = _
  rw [EStateM.bind, reads, hg]
  exact hrun k

/-- A refusal that has cost something has changed the state, if the room is part of it. -/
theorem Refused.changed {m : EStateM ε σ α} (room : σ → Nat) (hroom : ∀ k s, room (fund k s) = k)
    (h : Refused fund refusal m n s) (hn : 0 < n) :
    ∃ k e t, m (fund k s) = .error e t ∧ refusal e ∧ room t ≠ room (fund k s) := by
  obtain ⟨cost, e, t, hcost, he, hrun⟩ := h
  refine ⟨cost + 0, e, fund 0 t, hrun 0, he, ?_⟩
  rw [hroom, hroom]
  omega

/-! ### Refused late or not -/

/-- If `late`, the handler refuses, with enough room, when it has spent at least `n`; else it
refuses only where `P` holds. -/
structure Decided (fund : Nat → σ → σ) (refusal : ε → Prop) (P : σ → Prop) (m : EStateM ε σ α)
    (n : Nat) (late : Prop) (s : σ) : Prop where
  clean : ¬ late → wp m (fun _ _ => True) (fun e t => refusal e → P t) s
  refused : late → Refused fund refusal m n s

section Decided

variable {P : σ → Prop} {late late' : Prop}

theorem Decided.congr (h : Decided fund refusal P m n late s) (hiff : late ↔ late') :
    Decided fund refusal P m n late' s :=
  propext hiff ▸ h

theorem Decided.of_clean (h : wp m (fun _ _ => True) (fun e t => refusal e → P t) s)
    (hnot : ¬ late) : Decided fund refusal P m n late s :=
  ⟨fun _ => h, fun hlate => absurd hlate hnot⟩

theorem Decided.of_refused (h : Refused fund refusal m n s) (hlate : late) :
    Decided fund refusal P m n late s :=
  ⟨fun hnot => absurd hlate hnot, fun _ => h⟩

theorem Decided.bind_firm (h : Decided fund refusal P m n late s)
    (hf : ∀ b t, wp (f b) (fun _ _ => True) (fun e _ => ¬ refusal e) t) :
    Decided fund refusal P (m >>= f) n late s where
  clean hnot := wp_bind.2 ((h.clean hnot).mono
    (fun b t _ => (hf b t).mono (fun _ _ h => h) fun _ _ he hrefused => absurd hrefused he)
      fun _ _ he => he)
  refused hlate := (h.refused hlate).bind

theorem Pays.decided
    (h : Pays fund refusal m 0 (fun b t => Decided fund refusal P (f b) n late t) s) :
    Decided fund refusal P (m >>= f) n late s where
  clean hnot := Handler.wp_bind.2
    (h.firm.mono (fun _ _ hf => hf.clean hnot) fun _ _ he hrefused => absurd hrefused he)
  refused hlate := Pays.refused (h.mono (Nat.le_refl 0) fun _ _ hf => hf.refused hlate)

/-- Once something is spent, nothing may be refused but late. -/
theorem Pays.decided_first
    (h : Pays fund refusal m n (fun b t => Decided fund refusal (fun _ => False) (f b) 0 late t)
      s) : Decided fund refusal P (m >>= f) n late s where
  clean hnot := Handler.wp_bind.2 (h.firm.mono
    (fun _ _ hf => (hf.clean hnot).mono (fun _ _ h => h) fun _ _ he hrefused => (he hrefused).elim)
    fun _ _ he hrefused => absurd hrefused he)
  refused hlate := Pays.refused_first (h.mono (Nat.le_refl n) fun _ _ hf => hf.refused hlate)

theorem decided_ensure {c : Prop} [Decidable c] {f : Unit → EStateM ε σ α} (hP : P s)
    (h : c → Decided fund refusal P (f ()) n late s) :
    Decided fund refusal P (ensure c e >>= f) n (c ∧ late) s where
  clean hnot :=
    wp_bind.2 (wp_ensure.2 ⟨fun hc => (h hc).clean fun hlate => hnot ⟨hc, hlate⟩, fun _ _ => hP⟩)
  refused := fun ⟨hc, hlate⟩ => Pays.refused (pays_ensure hc ((h hc).refused hlate))

theorem decided_orThrow {o : Option β} {late : β → Prop} (hP : P s)
    (h : ∀ b, o = some b → Decided fund refusal P (f b) n (late b) s) :
    Decided fund refusal P (orThrow o e >>= f) n (∃ b, o = some b ∧ late b) s where
  clean hnot :=
    wp_bind.2 (wp_orThrow.2 ⟨fun b hb => (h b hb).clean fun hlate => hnot ⟨b, hb, hlate⟩,
      fun _ _ => hP⟩)
  refused := fun ⟨b, hb, hlate⟩ => Pays.refused (pays_orThrow hb ((h b hb).refused hlate))

theorem decided_get_bind {f : σ → EStateM ε σ α} (hf : ∀ k, f (fund k s) = f s)
    (h : Decided fund refusal P (f s) n late s) : Decided fund refusal P (get >>= f) n late s :=
  ⟨h.clean, fun hlate => refused_get_bind hf (h.refused hlate)⟩

theorem decided_reads_bind (late : β → Prop) (hP : P s) (hg : ∀ k, g (fund k s) = g s)
    (h : ∀ b, g s = .ok b → Decided fund refusal P (f b) n (late b) s) :
    Decided fund refusal P (reads g >>= f) n (∃ b, g s = .ok b ∧ late b) s where
  clean hnot :=
    wp_bind.2 (wp_reads.2 ⟨fun b hb => (h b hb).clean fun hlate => hnot ⟨b, hb, hlate⟩, fun _ _ _ =>
      hP⟩)
  refused := fun ⟨b, hb, hlate⟩ =>
    refused_reads_bind (fun k => (hg k).trans hb) ((h b hb).refused hlate)

end Decided

end Handler
