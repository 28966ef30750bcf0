import MicroTak.Lib.Handler

/-!
# Handlers that refuse before they change anything

Some errors are refusals, and part of the state, its `view`, is not to change in a request that is
refused.  A handler is `Still` if it changes no view at all, `Firm` if it never refuses, and `Clean`
if whatever it refuses it has not touched: so a clean handler may look first, change something next,
and be firm from then on.
-/

namespace Handler

variable {ε σ τ α β : Type} {f : β → EStateM ε σ α} {m : EStateM ε σ β} {c : Prop} {e : ε}

/-- The view is the same after the handler, whatever it answers. -/
structure Still (view : σ → τ) (m : EStateM ε σ α) : Prop where
  run : ∀ s, wp m (fun _ t => view t = view s) (fun _ t => view t = view s) s

/-- The handler refuses nothing, and keeps what holds of the view. -/
structure Firm (refusal : ε → Prop) (view : σ → τ) (I : τ → Prop) (m : EStateM ε σ α) : Prop where
  run : ∀ s, I (view s) → wp m (fun _ t => I (view t)) (fun e _ => ¬ refusal e) s

/-- A refusal leaves the view as it was. -/
structure Clean (refusal : ε → Prop) (view : σ → τ) (I : τ → Prop) (m : EStateM ε σ α) : Prop where
  run : ∀ s, I (view s) → wp m (fun _ t => I (view t)) (fun e t => refusal e → view t = view s) s

variable {refusal : ε → Prop} {view : σ → τ} {I : τ → Prop}

theorem still_pure {a : α} : Still view (pure a : EStateM ε σ α) := ⟨fun _ => rfl⟩

theorem still_get : Still view (get : EStateM ε σ σ) := ⟨fun _ => rfl⟩

theorem still_modify {f : σ → σ} (h : ∀ s, view (f s) = view s) : Still view
    (modify f : EStateM ε σ PUnit) := ⟨h⟩

theorem still_ensure [Decidable c] : Still view (ensure c e : EStateM ε σ Unit) :=
  ⟨fun _ => wp_ensure.2 ⟨fun _ => rfl, fun _ => rfl⟩⟩

theorem still_orThrow {o : Option α} : Still view (orThrow o e : EStateM ε σ α) :=
  ⟨fun _ => wp_orThrow.2 ⟨fun _ _ => rfl, fun _ => rfl⟩⟩

theorem still_reads {f : σ → Except ε α} : Still view (reads f) :=
  ⟨fun _ => wp_reads.2 ⟨fun _ _ => rfl, fun _ _ => rfl⟩⟩

theorem Still.bind (h : Still view m) (hf : ∀ b, Still view (f b)) : Still view (m >>= f) := by
  refine ⟨fun s => wp_bind.2 ((h.run s).mono (fun b t ht => ?_) fun _ _ ht => ht)⟩
  exact ((hf b).run t).mono (fun _ _ hu => hu.trans ht) fun _ _ hu => hu.trans ht

theorem still_whenever [Decidable c] {m : EStateM ε σ Unit} (h : Still view m) :
    Still view (whenever c m) :=
  ⟨fun s => wp_whenever.2 ⟨fun _ => h.run s, fun _ => rfl⟩⟩

theorem still_forM {xs : List β} {f : β → EStateM ε σ PUnit} (h : ∀ x, Still view (f x)) :
    Still view (xs.forM f) := by
  refine ⟨fun s => wp_forM (fun t => view t = view s) (fun x _ t ht => ?_) rfl⟩
  exact ((h x).run t).mono (fun _ _ hu => hu.trans ht) fun _ _ hu => hu.trans ht

theorem firm_pure {a : α} : Firm refusal view I (pure a : EStateM ε σ α) := ⟨fun _ h => h⟩

theorem firm_get : Firm refusal view I (get : EStateM ε σ σ) := ⟨fun _ h => h⟩

theorem firm_modify {f : σ → σ} (hf : ∀ s, view (f s) = view s) : Firm refusal view I
    (modify f : EStateM ε σ PUnit) :=
  ⟨fun s h => show I (view (f s)) from (hf s).symm ▸ h⟩

theorem firm_ensure [Decidable c] (he : ¬ refusal e) : Firm refusal view I
    (ensure c e : EStateM ε σ Unit) :=
  ⟨fun _ h => wp_ensure.2 ⟨fun _ => h, fun _ => he⟩⟩

theorem firm_orThrow {o : Option α} (he : ¬ refusal e) : Firm refusal view I
    (orThrow o e : EStateM ε σ α) :=
  ⟨fun _ h => wp_orThrow.2 ⟨fun _ _ => h, fun _ => he⟩⟩

theorem Firm.bind (h : Firm refusal view I m) (hf : ∀ b, Firm refusal view I (f b)) :
    Firm refusal view I (m >>= f) :=
  ⟨fun s hs => wp_bind.2 ((h.run s hs).mono (fun b t ht => (hf b).run t ht) fun _ _ he => he)⟩

theorem firm_whenever [Decidable c] {m : EStateM ε σ Unit} (h : Firm refusal view I m) :
    Firm refusal view I (whenever c m) :=
  ⟨fun s hs => wp_whenever.2 ⟨fun _ => h.run s hs, fun _ => hs⟩⟩

theorem firm_forM {xs : List β} {f : β → EStateM ε σ PUnit}
    (h : ∀ x ∈ xs, Firm refusal view I (f x)) : Firm refusal view I (xs.forM f) := by
  induction xs with
  | nil => exact firm_pure
  | cons x rest ih =>
    exact (h x List.mem_cons_self).bind fun _ => ih fun y hy => h y (List.mem_cons_of_mem x hy)

theorem Still.clean {m : EStateM ε σ α} (h : Still view m) : Clean refusal view I m :=
  ⟨fun s hs => (h.run s).mono (fun _ t ht => show I (view t) from ht.symm ▸ hs) fun _ _ ht _ => ht⟩

theorem Firm.clean {m : EStateM ε σ α} (h : Firm refusal view I m) : Clean refusal view I m :=
  ⟨fun s hs => (h.run s hs).mono (fun _ _ ht => ht) fun _ _ he hrefused => absurd hrefused he⟩

theorem clean_whenever [Decidable c] {m : EStateM ε σ Unit} (h : Clean refusal view I m) :
    Clean refusal view I (whenever c m) :=
  ⟨fun s hs => wp_whenever.2 ⟨fun _ => h.run s hs, fun _ => hs⟩⟩

theorem Still.bind_clean (h : Still view m) (hf : ∀ b, Clean refusal view I (f b)) :
    Clean refusal view I (m >>= f) := by
  refine ⟨fun s hs => wp_bind.2 ((h.run s).mono (fun b t ht => ?_) fun _ _ ht _ => ht)⟩
  have hI : I (view t) := ht.symm ▸ hs
  exact ((hf b).run t hI).mono (fun _ _ hu => hu) fun _ _ hu hrefused => (hu hrefused).trans ht

/-- Nothing is refused once something may have changed. -/
theorem Clean.bind_firm (h : Clean refusal view I m)
    (hf : ∀ b, Firm refusal view I (f b)) : Clean refusal view I (m >>= f) := by
  refine ⟨fun s hs => wp_bind.2 ((h.run s hs).mono (fun b t ht => ?_) fun _ _ ht => ht)⟩
  exact ((hf b).run t ht).mono (fun _ _ hu => hu) fun _ _ he hrefused => absurd hrefused he

end Handler
