import MicroTak.Lib.Chain

/-!
# The order of a chain

A chain has one order in which each element comes right after the one it names.  The exchanges end
in it.  A list in that order is a chain; putting an element in, or taking one out, changes where one
other element points.
-/

namespace Chain

open Relation List

variable {α κ : Type*}

/-! ### The exchanges end in order -/

section Ranks

variable {n : Nat} {r sorted : List Nat}

theorem eq_range_of_lead (hr : Ranks n r) (h : Lead n r n) : r = List.range n := by
  rcases Nat.eq_zero_or_pos n with rfl | hpos
  · exact perm_nil.1 hr.perm
  · obtain ⟨k, hk⟩ := hr.exists_place hpos
    have hup : ∀ d, d < n → r[k + d]? = some d := by
      intro d
      induction d with
      | zero => exact fun _ => hk
      | succ d ih =>
        intro hd
        have hrank := ih (by omega)
        exact h (k + d) d (hr.place_lt hrank) hrank hd
    have hlast := hr.place_lt (hup (n - 1) (by omega))
    have hzero : k = 0 := by omega
    subst hzero
    refine ext_getElem? fun j => ?_
    by_cases hj : j < n
    · rw [getElem?_range hj, ← hup j hj, Nat.zero_add]
    · rw [getElem?_eq_none (hr.length_eq ▸ Nat.le_of_not_lt hj), getElem?_eq_none]
      rw [length_range]
      exact Nat.le_of_not_lt hj

theorem settle_isNext (rounds : Nat) (hr : Ranks n r) (h : settle isNext rounds r = some sorted) :
    sorted = List.range n := by
  induction rounds generalizing r with
  | zero => cases h
  | succ rounds ih =>
    rw [settle] at h
    split at h
    · exact ih (hr.exchange _) h
    · next hnone =>
      cases h
      exact eq_range_of_lead hr (lead_of_none hr hnone)

theorem Follows.map_settle {follows : α → α → Bool} {rank : α → Nat} {l sorted : List α}
    (hfollows : Follows follows rank l) (hranks : Ranks l.length (l.map rank)) {rounds : Nat}
    (h : settle follows rounds l = some sorted) : sorted.map rank = List.range l.length := by
  refine settle_isNext rounds hranks ?_
  rw [hfollows.settle_map, h, Option.map_some]

end Ranks

section Keys

variable [DecidableEq κ] (key : α → κ) (after : α → Option κ)

/-- Each element names the one before it, and the first one `prev`. -/
def InOrder : Option κ → List α → Prop
  | _, [] => True
  | prev, x :: rest => after x = prev ∧ InOrder (some (key x)) rest

/-- `x` comes right after `y`. -/
def Precedes (l : List α) (x y : α) : Prop := x ∈ l ∧ y ∈ l ∧ after x = some (key y)

/-- One chain: no key twice, no two after one, everyone after one that is there, and no cycle. -/
structure OneChain (l : List α) : Prop where
  keys : (l.map key).Nodup
  afters : (l.map after).Nodup
  closed : ∀ x ∈ l, ∀ k, after x = some k → k ∈ l.map key
  acyclic : ∀ x, ¬ TransGen (Precedes key after l) x x

variable {key after} {l : List α} {x y : α}

theorem inOrder_of_ranks {rank : α → Nat} {sorted : List α} {s : Nat} {prev : Option κ}
    (hfollows : Follows (comesAfter key after) rank l) (hsub : sorted ⊆ l)
    (hranks : sorted.map rank = List.range' s sorted.length)
    (hhead : ∀ x ∈ l, rank x = 0 → after x = none) (hzero : s = 0 → prev = none)
    (hprev : ∀ t, s = t + 1 → ∃ y ∈ l, rank y = t ∧ prev = some (key y)) :
    InOrder key after prev sorted := by
  induction sorted generalizing s prev with
  | nil => trivial
  | cons x rest ih =>
    obtain ⟨hx, hrest⟩ := cons_subset.1 hsub
    obtain ⟨hrank, hranks⟩ := List.cons.inj hranks
    refine ⟨?_, ih hrest hranks (fun h => by omega) ?_⟩
    · rcases s with _ | t
      · rw [hzero rfl]
        exact hhead x hx hrank
      · obtain ⟨y, hy, hyrank, rfl⟩ := hprev t rfl
        have hnext := hfollows x hx y hy
        rw [comesAfter, isNext, hrank, hyrank, decide_eq_decide] at hnext
        exact hnext.2 rfl
    · intro t ht
      exact ⟨x, hx, by omega, rfl⟩

theorem IsChain.inOrder (h : IsChain key after l) {rounds : Nat} {sorted : List α}
    (hsettle : settle (comesAfter key after) rounds l = some sorted) :
    InOrder key after none sorted := by
  obtain ⟨rank, hfollows, hranks⟩ := h.exists_rank
  have hperm := settle_perm hsettle
  have hmap := hfollows.map_settle hranks hsettle
  have hhead : ∀ x ∈ l, rank x = 0 → after x = none := by
    intro x hx hzero
    cases hafter : after x with
    | none => rfl
    | some k =>
      obtain ⟨y, hy, rfl⟩ := mem_map.1 (h.closed x hx k hafter)
      have hnext := hfollows x hx y hy
      rw [comesAfter, isNext, decide_eq_decide] at hnext
      have := hnext.1 hafter
      omega
  refine inOrder_of_ranks (s := 0) hfollows hperm.subset ?_ hhead (fun _ => rfl) fun t ht => by
    omega
  rw [hmap, range_eq_range', hperm.length_eq]

/-! ### One chain -/

omit [DecidableEq κ] in
theorem acyclic_of_place (place : α → Nat) (h : ∀ a b, Precedes key after l a b → place b < place a)
    (x : α) : ¬ TransGen (Precedes key after l) x x := by
  have hless : ∀ a b, TransGen (Precedes key after l) a b → place b < place a := by
    intro a b hab
    induction hab using TransGen.trans_induction_on with
    | single hstep => exact h _ _ hstep
    | trans _ _ hfirst hsecond => exact hsecond.trans hfirst
  exact fun hcycle => Nat.lt_irrefl _ (hless x x hcycle)

theorem IsChain.oneChain (h : IsChain key after l) : OneChain key after l := by
  choose! rank hrank using h.ends
  refine ⟨h.keys, h.afters, h.closed, acyclic_of_place rank ?_⟩
  -- Going back, the distance from the head gets smaller.
  rintro a b ⟨ha, hb, hafter⟩
  have hdepth := (hrank _ ha).unique (.next (h.before_of_after hb hafter) (hrank _ hb))
  omega

theorem exists_cycle (hkeys : (l.map key).Nodup) {steps : Nat} {seen : List κ} (hx : x ∈ l)
    (hseen : ∀ k ∈ seen, ∃ z ∈ l, key z = k ∧ ReflTransGen (Precedes key after l) z x)
    (h : loops key after l steps seen x = some true) :
    ∃ z, TransGen (Precedes key after l) z z := by
  induction steps generalizing seen x with
  | zero => cases h
  | succ steps ih =>
    rw [loops] at h
    split at h
    · cases h
    · next y hy =>
      obtain ⟨hyl, hafter⟩ := before_spec hy
      have hstep : Precedes key after l x y := ⟨hx, hyl, hafter⟩
      split at h
      · next hagain =>
        obtain ⟨z, hz, hkey, hpath⟩ := hseen _ hagain
        have hsame : z = y := inj_on_of_nodup_map hkeys hz hyl hkey
        exact ⟨y, .tail' (hsame ▸ hpath) hstep⟩
      · refine ih hyl (forall_mem_cons.2 ⟨⟨y, hyl, rfl, .refl⟩, fun k hk => ?_⟩) h
        obtain ⟨z, hz, hkey, hpath⟩ := hseen k hk
        exact ⟨z, hz, hkey, hpath.tail hstep⟩

theorem OneChain.loops_eq (h : OneChain key after l) (hx : x ∈ l) :
    loops key after l (l.length + 1) [key x] x = some false := by
  have hsub : [key x] ⊆ l.map key := cons_subset.2 ⟨mem_map_of_mem hx, nil_subset _⟩
  have hseen : ∀ k ∈ [key x], ∃ z ∈ l, key z = k ∧ ReflTransGen (Precedes key after l) z x :=
    forall_mem_singleton.2 ⟨x, hx, rfl, .refl⟩
  have hsteps : l.length < l.length + 1 + [key x].length := by
    omega
  obtain ⟨b, hb⟩ : ∃ b, loops key after l (l.length + 1) [key x] x = some b :=
    exists_loops (nodup_singleton (key x)) hsub hsteps
  cases b with
  | false => exact hb
  | true =>
    obtain ⟨z, hcycle⟩ := exists_cycle h.keys hx hseen hb
    exact absurd hcycle (h.acyclic z)

end Keys

end Chain
