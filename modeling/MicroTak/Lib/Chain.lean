import Mathlib.Data.List.Nodup
import Mathlib.Data.List.Perm.Subperm
import Mathlib.Data.List.Range

/-!
# Putting a chain in order by exchanges

Each element but the first says which one it comes right after.  The first element whose follower is
not next to it gets it: the follower changes places with the element that is there, or goes to the
end if nothing is.  This is repeated until nothing is out of place.

An exchange can tear apart what was together, so the number of neighbours in order does not grow
with every round.  What shows that the rounds end is the rank of the head of the list, then how far
the part in order reaches; once only a rotation is left, the head moves the other way.
-/

namespace Chain

open List

variable {α β : Type*}

def swap (l : List α) (i j : Nat) : List α :=
  match l[i]?, l[j]? with
  | some x, some y => (l.set i y).set j x
  | _, _ => l

def toEnd (l : List α) (i : Nat) : List α :=
  match l[i]? with
  | some x => l.eraseIdx i ++ [x]
  | none => l

section Settle

variable (follows : α → α → Bool)

/-- The element at `inner` should come right after the one at `outer`, and does not. -/
def isMisplaced (l : List α) (outer inner : Nat) : Bool :=
  match l[inner]?, l[outer]? with
  | some x, some y => inner ≠ outer && follows x y && inner ≠ outer + 1
  | _, _ => false

/-- A loop over the places, and inside it one over the places of the follower. -/
def misplaced (l : List α) : Option (Nat × Nat) :=
  (List.range l.length).findSome? fun outer =>
    ((List.range l.length).find? fun inner => isMisplaced follows l outer inner).map fun inner =>
      (outer, inner)

def exchange (l : List α) (place : Nat × Nat) : List α :=
  if place.1 + 1 = l.length then toEnd l place.2 else swap l place.2 (place.1 + 1)

/-- Nothing, if the rounds do not suffice. -/
def settle : Nat → List α → Option (List α)
  | 0, _ => none
  | rounds + 1, l =>
      match misplaced follows l with
      | some place => settle rounds (exchange l place)
      | none => some l

end Settle

theorem swap_perm (l : List α) (i j : Nat) : (swap l i j).Perm l := by
  unfold swap
  split
  · next x y hx hy =>
    obtain ⟨hi, rfl⟩ := List.getElem?_eq_some_iff.1 hx
    obtain ⟨hj, rfl⟩ := List.getElem?_eq_some_iff.1 hy
    exact set_set_perm hi hj
  · exact .refl l

theorem toEnd_perm (l : List α) (i : Nat) : (toEnd l i).Perm l := by
  unfold toEnd
  split
  · next x hx =>
    obtain ⟨hi, rfl⟩ := List.getElem?_eq_some_iff.1 hx
    exact (perm_append_singleton _ _).trans (getElem_cons_eraseIdx_perm hi)
  · exact .refl l

theorem exchange_perm (l : List α) (place : Nat × Nat) : (exchange l place).Perm l := by
  unfold exchange
  split
  · exact toEnd_perm l _
  · exact swap_perm l _ _

theorem settle_perm {follows : α → α → Bool} {rounds : Nat} {l sorted : List α}
    (h : settle follows rounds l = some sorted) : sorted.Perm l := by
  induction rounds generalizing l with
  | zero => cases h
  | succ rounds ih =>
    rw [settle] at h
    split at h
    · exact (ih h).trans (exchange_perm l _)
    · cases h
      exact .refl _

/-! ### Ranks -/

/-- The rounds on the ranks of the elements. -/
def isNext (x y : Nat) : Bool := x = y + 1

/-- The ranks `0 .. n - 1` in some order. -/
structure Ranks (n : Nat) (r : List Nat) : Prop where
  perm : r.Perm (List.range n)

/-- Below `i`, every element that has a follower has it next to it. -/
def Lead (n : Nat) (r : List Nat) (i : Nat) : Prop :=
  ∀ (j y : Nat), j < i → r[j]? = some y → y + 1 < n → r[j + 1]? = some (y + 1)

variable {n a b j y i outer inner : Nat} {r : List Nat}

theorem mem_of_range_eq {xs ys : List Nat} (h : List.range n = xs ++ a :: ys)
    (hj : j < a) : j ∈ xs := by
  have hsorted : (xs ++ a :: ys).Pairwise (· < ·) := h ▸ pairwise_lt_range
  have ha : a < n := mem_range.1 (h ▸ mem_append_right _ mem_cons_self)
  have hmem : j ∈ xs ++ a :: ys := h ▸ mem_range.2 (hj.trans ha)
  rcases mem_append.1 hmem with hmem | hmem
  · exact hmem
  · rcases mem_cons.1 hmem with rfl | hmem
    · exact absurd hj (lt_irrefl _)
    · have hlt := rel_of_pairwise_cons (pairwise_append.1 hsorted).2.1 hmem
      omega

namespace Ranks

variable (h : Ranks n r)

include h

theorem length_eq : r.length = n := h.perm.length_eq.trans length_range

theorem lt (hy : r[j]? = some y) : y < n :=
  mem_range.1 (h.perm.subset (mem_of_getElem? hy))

theorem exists_place (hy : y < n) : ∃ j : Nat, r[j]? = some y :=
  mem_iff_getElem?.1 (h.perm.symm.subset (mem_range.2 hy))

theorem place_unique (hi : r[i]? = some y) (hj : r[j]? = some y) : i = j := by
  have hlt : i < r.length := (List.getElem?_eq_some_iff.1 hi).1
  exact (getElem?_inj hlt (h.perm.nodup_iff.2 nodup_range)).1 (hi.trans hj.symm)

theorem place_lt (hy : r[j]? = some y) : j < n := by
  rw [← h.length_eq]
  exact (List.getElem?_eq_some_iff.1 hy).1

theorem exists_rank (hj : j < n) : ∃ y, r[j]? = some y := by
  rw [← h.length_eq] at hj
  exact ⟨r[j], getElem?_eq_getElem hj⟩

theorem exchange (place : Nat × Nat) : Ranks n (exchange r place) :=
  ⟨(exchange_perm r place).trans h.perm⟩

end Ranks

theorem isMisplaced_isNext : isMisplaced isNext r outer inner = true ↔
      ∃ y, r[outer]? = some y ∧ r[inner]? = some (y + 1) ∧ inner ≠ outer ∧ inner ≠ outer + 1 := by
  unfold isMisplaced
  split
  · next x y hx hy =>
    simp only [isNext, Bool.and_eq_true, decide_eq_true_eq, hx, hy, Option.some.injEq]
    constructor
    · rintro ⟨⟨hne, rfl⟩, hnext⟩
      exact ⟨y, rfl, rfl, hne, hnext⟩
    · rintro ⟨_, rfl, rfl, hne, hnext⟩
      exact ⟨⟨hne, rfl⟩, hnext⟩
  · next hnone =>
    constructor
    · intro hfalse
      cases hfalse
    · rintro ⟨y, hy, hx, -⟩
      exact absurd hy (hnone _ _ hx)

theorem misplaced_spec (h : misplaced isNext r = some (outer, inner)) :
    ∃ y, r[outer]? = some y ∧ r[inner]? = some (y + 1) ∧ inner ≠ outer ∧ inner ≠ outer + 1 := by
  obtain ⟨xs, found, ys, hrange, hfound, hbefore⟩ := findSome?_eq_some_iff.1 h
  obtain ⟨inner', hinner, heq⟩ := Option.map_eq_some_iff.1 hfound
  rw [Prod.mk.injEq] at heq
  rw [← heq.1, ← heq.2]
  exact isMisplaced_isNext.1 (find?_some hinner)

theorem next_of_not_misplaced (hr : Ranks n r) (hy : r[j]? = some y) (hnext : y + 1 < n)
    (hnone : ∀ k ∈ List.range r.length, ¬ isMisplaced isNext r j k = true) :
    r[j + 1]? = some (y + 1) := by
  obtain ⟨k, hk⟩ := hr.exists_place hnext
  by_cases hkj : k = j + 1
  · rw [← hkj]
    exact hk
  · have hne : k ≠ j := by
      intro heq
      rw [heq, hy, Option.some.injEq] at hk
      omega
    have hmem : k ∈ List.range r.length := mem_range.2 (hr.length_eq ▸ hr.place_lt hk)
    exact absurd (isMisplaced_isNext.2 ⟨y, hy, hk, hne, hkj⟩) (hnone k hmem)

theorem lead_of_misplaced (hr : Ranks n r) (h : misplaced isNext r = some (outer, inner)) :
    Lead n r outer := by
  intro j y hj hy hnext
  obtain ⟨xs, found, ys, hrange, hfound, hbefore⟩ := findSome?_eq_some_iff.1 h
  obtain ⟨inner', -, heq⟩ := Option.map_eq_some_iff.1 hfound
  rw [Prod.mk.injEq] at heq
  have hnone := hbefore j (mem_of_range_eq hrange (heq.1 ▸ hj))
  rw [Option.map_eq_none_iff, find?_eq_none] at hnone
  exact next_of_not_misplaced hr hy hnext hnone

theorem lead_of_none (hr : Ranks n r) (h : misplaced isNext r = none) : Lead n r n := by
  intro j y hj hy hnext
  have hnone := findSome?_eq_none_iff.1 h j (mem_range.2 (hr.length_eq ▸ hj))
  rw [Option.map_eq_none_iff, find?_eq_none] at hnone
  exact next_of_not_misplaced hr hy hnext hnone

theorem inner_eq_zero_or_lt (hr : Ranks n r) (h : misplaced isNext r = some (outer, inner)) :
    inner = 0 ∨ outer + 1 < inner := by
  obtain ⟨y, hy, hnext, hne, hnot⟩ := misplaced_spec h
  have hlead := lead_of_misplaced hr h
  by_contra! hcon
  have hbefore : inner - 1 < outer := by omega
  obtain ⟨z, hz⟩ := hr.exists_rank (hbefore.trans (hr.place_lt hy))
  have hsucc : inner - 1 + 1 = inner := by omega
  -- What stands before it has no follower, as that would be this one.
  have hlast : ¬ z + 1 < n := by
    intro hlt
    have hfollower := hlead _ z hbefore hz hlt
    rw [hsucc, hnext, Option.some.injEq] at hfollower
    have hsame := hr.place_unique (hz.trans (by rw [show z = y by omega])) hy
    omega
  have hz' := hr.lt hz
  -- So the ranks go up by one from there to the element out of place.
  have hup : ∀ d, inner + d ≤ outer → r[inner + d]? = some (y + 1 + d) := by
    intro d
    induction d with
    | zero => exact fun _ => hnext
    | succ d ih =>
      intro hd
      have hrank := ih (by omega)
      have hlt : y + 1 + d + 1 < n := by
        by_contra hge
        have := hr.lt hrank
        have := hr.place_unique hrank (hz.trans (by rw [show z = y + 1 + d by omega]))
        omega
      exact hlead (inner + d) (y + 1 + d) (by omega) hrank hlt
  have houter := hup (outer - inner) (by omega)
  rw [show inner + (outer - inner) = outer by omega, hy, Option.some.injEq] at houter
  omega

theorem lt_head (hr : Ranks n r) (h : misplaced isNext r = some (outer, 0)) {b : Nat}
    (ha : r[0]? = some a) (hb : r[outer + 1]? = some b) : b < a := by
  obtain ⟨y, hy, hnext, -, -⟩ := misplaced_spec h
  have hlead := lead_of_misplaced hr h
  rw [ha, Option.some.injEq] at hnext
  by_contra! hle
  have hbn := hr.lt hb
  have hup : ∀ d, d ≤ outer → a + d ≤ b → r[d]? = some (a + d) := by
    intro d
    induction d with
    | zero => exact fun _ _ => ha
    | succ d ih =>
      intro hd hdb
      exact hlead d (a + d) (by omega) (ih (by omega) (by omega)) (by omega)
  by_cases hfar : b - a ≤ outer
  · have hplace := hup (b - a) hfar (by omega)
    have := hr.place_unique (hplace.trans (by rw [show a + (b - a) = b by omega])) hb
    omega
  · have hplace := hup outer le_rfl (by omega)
    rw [hy, Option.some.injEq] at hplace
    omega

theorem getElem?_swap {l : List α} {x y : α} (hx : l[i]? = some x) (hy : l[j]? = some y) (k : Nat) :
    (swap l i j)[k]? = if k = j then some x else if k = i then some y else l[k]? := by
  simp only [swap]
  grind

theorem getElem?_toEnd {l : List α} {a : α} (ha : l[0]? = some a) (k : Nat) :
    (toEnd l 0)[k]? = if k + 1 = l.length then some a else l[k + 1]? := by
  cases l with
  | nil => cases ha
  | cons head tail =>
    simp only [toEnd]
    grind

/-! ### The rounds end -/

/-- How many rounds are left at most, with `a` at the head and the list in order up to `i`. -/
def work (n a i : Nat) : Nat :=
  if n ≤ i then 0 else if i + 1 = n then n - a else (n + 1) + a * (n + 1) + (n - i)

theorem work_pos (hi : i < n) (ha : a < n) : 0 < work n a i := by
  rw [work, if_neg (by omega)]
  split <;> omega

theorem work_rotate (hi : i ≤ outer) (houter : outer + 1 = n) (ha : a + 1 < n) :
    work n (a + 1) outer < work n a i := by
  rw [work, work, if_neg (by omega : ¬ n ≤ outer), if_pos houter, if_neg (by omega : ¬ n ≤ i)]
  split <;> omega

theorem work_lead (hi : i ≤ outer) (houter : outer + 1 < n) :
    work n a (outer + 1) < work n a i := by
  rw [work, work, if_neg (by omega : ¬ n ≤ outer + 1), if_neg (by omega : ¬ n ≤ i),
    if_neg (by omega : ¬ i + 1 = n)]
  split <;> omega

theorem work_head (hba : b < a) (hi : i + 1 < n) : work n b 0 < work n a i := by
  have hmul := Nat.mul_le_mul_right (n + 1) (Nat.succ_le_of_lt hba)
  rw [Nat.succ_mul] at hmul
  rw [work, work, if_neg (by omega : ¬ n ≤ 0), if_neg (by omega : ¬ 0 + 1 = n),
    if_neg (by omega : ¬ n ≤ i), if_neg (by omega : ¬ i + 1 = n)]
  omega

theorem work_lt (ha : a < n) : work n a 0 < (n + 1) * (n + 1) := by
  have hmul := Nat.mul_le_mul_right (n + 1) (Nat.succ_le_of_lt ha)
  rw [Nat.succ_mul] at hmul
  have hsquare : (n + 1) * (n + 1) = n * (n + 1) + (n + 1) := Nat.succ_mul n (n + 1)
  rw [work, if_neg (by omega)]
  split <;> omega

theorem Lead.le_outer (hlead : Lead n r i) (hr : Ranks n r)
    (h : misplaced isNext r = some (outer, inner)) : i ≤ outer := by
  obtain ⟨y, hy, hnext, -, hnot⟩ := misplaced_spec h
  by_contra! hlt
  exact hnot (hr.place_unique hnext (hlead outer y hlt hy (hr.lt hnext)))

theorem lead_swap (hr : Ranks n r) (h : misplaced isNext r = some (outer, inner))
    (hinner : outer + 1 < inner) (houter : outer + 1 < n) :
    Lead n (swap r inner (outer + 1)) (outer + 1) := by
  obtain ⟨y, hy, hnext, -, -⟩ := misplaced_spec h
  obtain ⟨b, hb⟩ := hr.exists_rank houter
  intro j z hj hz hlt
  rw [getElem?_swap hnext hb, if_neg (by omega), if_neg (by omega)] at hz
  rw [getElem?_swap hnext hb]
  by_cases hjo : j = outer
  · rw [if_pos (by omega)]
    rw [hjo, hy, Option.some.injEq] at hz
    rw [hz]
  · rw [if_neg (by omega), if_neg (by omega)]
    exact lead_of_misplaced hr h j z (by omega) hz hlt

/-- Nothing but a rotation is left, and it goes on by one. -/
theorem lead_toEnd (hr : Ranks n r) (h : misplaced isNext r = some (outer, 0))
    (houter : outer + 1 = n) (ha : r[0]? = some a) : Lead n (toEnd r 0) outer := by
  obtain ⟨y, hy, hnext, -, -⟩ := misplaced_spec h
  intro j z hj hz hlt
  rw [getElem?_toEnd ha, hr.length_eq, if_neg (by omega)] at hz
  rw [getElem?_toEnd ha, hr.length_eq]
  by_cases hjo : j + 1 = outer
  · rw [hjo, hy, Option.some.injEq] at hz
    rw [if_pos (by omega), ← ha, hnext, hz]
  · rw [if_neg (by omega)]
    exact lead_of_misplaced hr h (j + 1) z (by omega) hz hlt

theorem exists_settle_of_lead :
    ∀ (rounds : Nat) (r : List Nat) (a i : Nat), Ranks n r → r[0]? = some a → Lead n r i →
    work n a i < rounds →
      ∃ sorted, settle isNext rounds r = some sorted := by
  intro rounds
  induction rounds with
  | zero => exact fun _ _ _ _ _ _ hlt => absurd hlt (Nat.not_lt_zero _)
  | succ rounds ih =>
    intro r a i hr ha hlead hwork
    rw [settle]
    split
    · next place hplace =>
      obtain ⟨outer, inner⟩ := place
      obtain ⟨y, hy, hnext, -, -⟩ := misplaced_spec hplace
      have hle := hlead.le_outer hr hplace
      have houter := hr.place_lt hy
      have han := hr.lt ha
      have hranks := hr.exchange (outer, inner)
      simp only [exchange, hr.length_eq] at hranks ⊢
      rcases inner_eq_zero_or_lt hr hplace with rfl | hinner
      · split
        · next hlast =>
          rw [if_pos hlast] at hranks
          have hrotated := lead_toEnd hr hplace hlast ha
          by_cases hlt : a + 1 < n
          · have hsecond := lead_of_misplaced hr hplace 0 a (by omega) ha hlt
            refine ih _ (a + 1) outer hranks ?_ hrotated
              ((work_rotate hle hlast hlt).trans_le (Nat.le_of_lt_succ hwork))
            rw [getElem?_toEnd ha, hr.length_eq, if_neg (by omega)]
            exact hsecond
          · -- The highest rank has come to the end, so everything is in order.
            obtain ⟨c, hc⟩ := hranks.exists_rank (show 0 < n by omega)
            refine ih _ c n hranks hc ?_ ?_
            · intro j z hj hz hzn
              by_cases hjo : j < outer
              · exact hrotated j z hjo hz hzn
              · rw [getElem?_toEnd ha, hr.length_eq, if_pos (by omega), Option.some.injEq] at hz
                omega
            · rw [work, if_pos le_rfl]
              exact (work_pos (hle.trans_lt houter) han).trans_le (Nat.le_of_lt_succ hwork)
        · next hlast =>
          -- The head goes down.
          rw [if_neg hlast] at hranks
          obtain ⟨b, hb⟩ := hr.exists_rank (show outer + 1 < n by omega)
          have hlt := lt_head hr hplace ha hb
          refine ih _ b 0 hranks ?_ (fun j y hj => absurd hj (Nat.not_lt_zero j))
            ((work_head hlt (by omega)).trans_le (Nat.le_of_lt_succ hwork))
          rw [getElem?_swap ha hb, if_neg (by omega), if_pos rfl]
      · have hlast : ¬ outer + 1 = n := by
          have := hr.place_lt hnext
          omega
        -- The head stays, and the part in order grows.
        rw [if_neg hlast] at hranks ⊢
        obtain ⟨b, hb⟩ := hr.exists_rank (show outer + 1 < n by omega)
        refine ih _ a (outer + 1) hranks ?_ (lead_swap hr hplace hinner (by omega))
          ((work_lead hle (by omega)).trans_le (Nat.le_of_lt_succ hwork))
        rw [getElem?_swap hnext hb, if_neg (by omega), if_neg (by omega), ha]
    · exact ⟨r, rfl⟩

/-! ### From ranks to the elements -/

section Map

variable {follows : α → α → Bool} {rank : α → Nat} {l : List α}

theorem map_exchange (f : α → β) (l : List α) (place : Nat × Nat) :
    (exchange l place).map f = exchange (l.map f) place := by
  have hswap : ∀ i j, (swap l i j).map f = swap (l.map f) i j := by
    intro i j
    simp only [swap, getElem?_map]
    cases l[i]? <;> cases l[j]? <;> simp
  have hend : ∀ i, (toEnd l i).map f = toEnd (l.map f) i := by
    intro i
    simp only [toEnd, getElem?_map]
    cases l[i]? <;> simp [eraseIdx_map]
  simp only [exchange, length_map]
  split
  · exact hend _
  · exact hswap _ _

/-- `rank` tells who follows whom. -/
def Follows (follows : α → α → Bool) (rank : α → Nat) (l : List α) : Prop :=
  ∀ x ∈ l, ∀ y ∈ l, follows x y = isNext (rank x) (rank y)

variable (h : Follows follows rank l)

include h

theorem Follows.misplaced_map : misplaced isNext (l.map rank) = misplaced follows l := by
  have hplace : ∀ outer inner, isMisplaced isNext (l.map rank) outer inner =
      isMisplaced follows l outer inner := by
    intro outer inner
    simp only [isMisplaced, getElem?_map]
    cases hx : l[inner]? with
    | none => rfl
    | some x =>
      cases hy : l[outer]? with
      | none => rfl
      | some y =>
        simp only [Option.map_some]
        rw [h x (mem_of_getElem? hx) y (mem_of_getElem? hy)]
  simp [misplaced, hplace]

theorem Follows.exchange (place : Nat × Nat) : Follows follows rank (exchange l place) := by
  have hmem : ∀ x, x ∈ Chain.exchange l place → x ∈ l := fun x hx =>
    (exchange_perm l place).subset hx
  exact fun x hx y hy => h x (hmem x hx) y (hmem y hy)

theorem Follows.settle_map (rounds : Nat) :
    settle isNext rounds (l.map rank) = (settle follows rounds l).map (List.map rank) := by
  induction rounds generalizing l with
  | zero => rfl
  | succ rounds ih =>
    rw [settle, settle, h.misplaced_map]
    cases misplaced follows l with
    | none => rfl
    | some place =>
      simp only
      rw [← map_exchange]
      exact ih (h.exchange place)

theorem Follows.exists_settle (hranks : Ranks l.length (l.map rank)) :
    ∃ sorted, settle follows ((l.length + 1) * (l.length + 1)) l = some sorted := by
  cases l with
  | nil => exact ⟨[], rfl⟩
  | cons x rest =>
    have hhead : ((x :: rest).map rank)[0]? = some (rank x) := rfl
    obtain ⟨sorted, hsorted⟩ := exists_settle_of_lead _ _ _ 0 hranks hhead
      (fun j y hj => absurd hj (Nat.not_lt_zero j)) (work_lt (hranks.lt hhead))
    rw [h.settle_map] at hsorted
    obtain ⟨found, hfound, -⟩ := Option.map_eq_some_iff.1 hsorted
    exact ⟨found, hfound⟩

end Map

/-! ### Chains by keys

An element names the one it comes after by its key. -/

section Keys

variable {κ : Type*} [DecidableEq κ] (key : α → κ) (after : α → Option κ)

def comesAfter (x y : α) : Bool := after x = some (key y)

def before (l : List α) (x : α) : Option α := (after x).bind fun k => l.find? fun y => key y = k

/-- Whether going back from `x` comes to an element again; nothing, if the steps do not suffice. -/
def loops (l : List α) : Nat → List κ → α → Option Bool
  | 0, _, _ => none
  | steps + 1, seen, x =>
      match before key after l x with
      | none => some false
      | some y => if key y ∈ seen then some true else loops l steps (key y :: seen) y

/-- `x` is reached from the head of its chain by `d` steps. -/
inductive Depth (l : List α) : α → Nat → Prop where
  | head {x : α} (hx : before key after l x = none) : Depth l x 0
  | next {x y : α} {d : Nat} (hx : before key after l x = some y) (hy : Depth l y d) :
    Depth l x (d + 1)

variable {key after} {l : List α} {x y : α}

theorem before_spec (h : before key after l x = some y) : y ∈ l ∧ after x = some (key y) := by
  obtain ⟨k, hk, hfound⟩ := Option.bind_eq_some_iff.1 h
  have hkey := find?_some hfound
  rw [decide_eq_true_eq] at hkey
  exact ⟨mem_of_find?_eq_some hfound, by rw [hk, hkey]⟩

variable {steps d e : Nat} {seen : List κ}

/-- Each step back comes to a key not seen before, so there are no more of them than elements. -/
theorem exists_loops (hseen : seen.Nodup) (hkeys : seen ⊆ l.map key)
    (hsteps : l.length < steps + seen.length) : ∃ b, loops key after l steps seen x = some b := by
  induction steps generalizing seen x with
  | zero =>
    have hlength := (hseen.subperm hkeys).length_le
    rw [length_map] at hlength
    omega
  | succ steps ih =>
    rw [loops]
    split
    · exact ⟨false, rfl⟩
    · next y hy =>
      split
      · exact ⟨true, rfl⟩
      · next hnew =>
        refine ih (nodup_cons.2 ⟨hnew, hseen⟩) ?_ (by rw [length_cons]; omega)
        exact cons_subset.2 ⟨mem_map_of_mem (before_spec hy).1, hkeys⟩

theorem exists_depth (h : loops key after l steps seen x = some false) :
    ∃ d, Depth key after l x d := by
  induction steps generalizing seen x with
  | zero => cases h
  | succ steps ih =>
    rw [loops] at h
    split at h
    · next hx => exact ⟨0, .head hx⟩
    · next y hy =>
      split at h
      · cases h
      · obtain ⟨d, hd⟩ := ih h
        exact ⟨d + 1, .next hy hd⟩

theorem Depth.unique (hd : Depth key after l x d) (he : Depth key after l x e) : d = e := by
  induction hd generalizing e with
  | head hx =>
    cases he with
    | head _ => rfl
    | next hy _ => cases hx.symm.trans hy
  | next hx _ ih =>
    cases he with
    | head hy => cases hx.symm.trans hy
    | next hy hrest =>
      cases Option.some.inj (hx.symm.trans hy)
      rw [ih hrest]

theorem Depth.exists_le (hx : x ∈ l) (hd : Depth key after l x d) (he : e ≤ d) :
    ∃ y ∈ l, Depth key after l y e := by
  induction hd with
  | @head x hhead =>
    obtain rfl := Nat.le_zero.1 he
    exact ⟨x, hx, .head hhead⟩
  | @next x y d hnext hy ih =>
    rcases Nat.lt_or_eq_of_le he with hlt | rfl
    · exact ih (before_spec hnext).1 (Nat.le_of_lt_succ hlt)
    · exact ⟨x, hx, .next hnext hy⟩

variable (key after) in
/-- Everyone comes after another one that is there, and going back comes to an end. -/
structure IsChain (l : List α) : Prop where
  keys : (l.map key).Nodup
  afters : (l.map after).Nodup
  closed : ∀ x ∈ l, ∀ k, after x = some k → k ∈ l.map key
  ends : ∀ x ∈ l, ∃ d, Depth key after l x d

namespace IsChain

variable (h : IsChain key after l)

include h

theorem before_of_after (hy : y ∈ l) (hafter : after x = some (key y)) :
    before key after l x = some y := by
  rw [before, hafter, Option.bind_some]
  cases hfound : l.find? fun z => key z = key y with
  | none => exact absurd (decide_eq_true rfl) (find?_eq_none.1 hfound y hy)
  | some z =>
    have hkey := find?_some hfound
    rw [decide_eq_true_eq] at hkey
    rw [inj_on_of_nodup_map h.keys (mem_of_find?_eq_some hfound) hy hkey]

theorem after_of_before (hx : x ∈ l) (hnone : before key after l x = none) : after x = none := by
  cases hafter : after x with
  | none => rfl
  | some k =>
    obtain ⟨y, hy, rfl⟩ := mem_map.1 (h.closed x hx k hafter)
    cases hnone.symm.trans (h.before_of_after hy hafter)

theorem depth_injective (hx : x ∈ l) (hy : y ∈ l) (hxd : Depth key after l x d)
    (hyd : Depth key after l y d) : x = y := by
  induction d generalizing x y with
  | zero =>
    cases hxd with
    | head hxn =>
      cases hyd with
      | head hyn =>
        exact inj_on_of_nodup_map h.afters hx hy
          ((h.after_of_before hx hxn).trans (h.after_of_before hy hyn).symm)
  | succ d ih =>
    cases hxd with
    | next hxn hxd =>
      cases hyd with
      | next hyn hyd =>
        obtain ⟨hxm, hxa⟩ := before_spec hxn
        obtain ⟨hym, hya⟩ := before_spec hyn
        rw [ih hxm hym hxd hyd, ← hya] at hxa
        exact inj_on_of_nodup_map h.afters hx hy hxa

/-- The number of steps from the head ranks the elements. -/
theorem exists_rank : ∃ rank : α → Nat, Follows (comesAfter key after) rank l ∧
    Ranks l.length (l.map rank) := by
  choose! rank hrank using h.ends
  have hinj : ∀ x ∈ l, ∀ y ∈ l, rank x = rank y → x = y := by
    intro x hx y hy heq
    exact h.depth_injective hx hy (hrank x hx) (heq ▸ hrank y hy)
  refine ⟨rank, ?_, ⟨?_⟩⟩
  · intro x hx y hy
    rw [comesAfter, isNext, decide_eq_decide]
    constructor
    · intro hafter
      exact (hrank x hx).unique (.next (h.before_of_after hy hafter) (hrank y hy))
    · intro heq
      have hdepth := hrank x hx
      rw [heq] at hdepth
      cases hdepth with
      | next hnext hz =>
        obtain ⟨hzm, hafter⟩ := before_spec hnext
        rw [hafter, h.depth_injective hzm hy hz (hrank y hy)]
  · have hnodup : (l.map rank).Nodup := (h.keys.of_map key).map_on fun x hx y hy => hinj x hx y hy
    refine (hnodup.subperm ?_).perm_of_length_le (by simp)
    -- Every rank below one of them is another of them, so each is below their number.
    intro v hv
    obtain ⟨x, hx, rfl⟩ := mem_map.1 hv
    have hbelow : List.range (rank x + 1) ⊆ l.map rank := by
      intro u hu
      obtain ⟨y, hy, hdepth⟩ := (hrank x hx).exists_le hx (Nat.le_of_lt_succ (mem_range.1 hu))
      exact mem_map.2 ⟨y, hy, (hrank y hy).unique hdepth⟩
    have hlength := (nodup_range.subperm hbelow).length_le
    rw [length_range, length_map] at hlength
    exact mem_range.2 hlength

theorem exists_settle :
    ∃ sorted, settle (comesAfter key after) ((l.length + 1) * (l.length + 1)) l = some sorted := by
  obtain ⟨rank, hfollows, hranks⟩ := h.exists_rank
  exact hfollows.exists_settle hranks

end IsChain

end Keys

end Chain
