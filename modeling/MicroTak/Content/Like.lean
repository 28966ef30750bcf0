import Mathlib.Data.Nat.Choose.Basic
import MicroTak.Content.FileManager

/-!
# Matching with wildcards

`like` tries every end of a `%`, and what follows the `%` again after each.  It decides the relation
of SQL, in a number of calls that is exponential in the number of the `%` alone.
-/

namespace MicroTak.Content

open List

/-- `LIKE`: a `%` stands for any characters, a `_` for one. -/
inductive Likes : (value pattern : List Char) → Prop
  | done : Likes [] []
  | percent (skipped : List Char) {value pattern : List Char} : Likes value pattern →
    Likes (skipped ++ value) ('%' :: pattern)
  | underscore (c : Char) {value pattern : List Char} : Likes value pattern →
    Likes (c :: value) ('_' :: pattern)
  | literal {c : Char} (h : c ≠ '%' ∧ c ≠ '_') {value pattern : List Char} :
      Likes value pattern → Likes (c :: value) (c :: pattern)

/-- What `any` costs, which stops at the first that is found. -/
def anyCost {α : Type} (found : α → Bool) (cost : α → Nat) : List α → Nat
  | [] => 0
  | a :: rest => cost a + if found a then 0 else anyCost found cost rest

/-- The calls of the recursion, the first one included. -/
def likeCalls : (value pattern : List Char) → Nat
  | _, [] => 1
  | value, '%' :: pattern => 1 + anyCost (like · pattern) (likeCalls · pattern) value.tails
  | [], _ :: _ => 1
  | c :: value, p :: pattern => 1 + if p = '_' ∨ c = p then likeCalls value pattern else 0

variable {value pattern : List Char}

theorem like_iff : like value pattern = true ↔ Likes value pattern := by
  constructor
  · intro h
    fun_induction like value pattern with
    | case1 value =>
      rw [isEmpty_iff.1 h]
      exact .done
    | case2 value pattern ih =>
      obtain ⟨rest, hrest, hlike⟩ := any_eq_true.1 h
      obtain ⟨skipped, rfl⟩ := (mem_tails _ _).1 hrest
      exact .percent skipped (ih rest hlike)
    | case3 => cases h
    | case4 c value p pattern hp ih =>
      obtain ⟨hchar, hlike⟩ := Bool.and_eq_true_iff.1 h
      by_cases hp' : p = '_'
      · subst hp'
        exact .underscore c (ih hlike)
      · obtain rfl : c = p := by simpa [hp'] using hchar
        exact .literal ⟨fun heq => hp heq, hp'⟩ (ih hlike)
  · intro h
    induction h with
    | done => rfl
    | percent skipped _ ih =>
      rw [like, any_eq_true]
      exact ⟨_, (mem_tails _ _).2 (suffix_append _ _), ih⟩
    | underscore c _ ih => simpa [like] using ih
    | literal h _ ih =>
      rw [like]
      · simpa using ih
      · exact h.1

theorem anyCost_le {α : Type} {found : α → Bool} {cost : α → Nat} {b : Nat} {l : List α}
    (h : ∀ a ∈ l, cost a ≤ b) : anyCost found cost l ≤ l.length * b := by
  induction l with
  | nil => exact Nat.zero_le _
  | cons a rest ih =>
    have ha := h a mem_cons_self
    have hrest := ih fun x hx => h x (mem_cons_of_mem a hx)
    rw [anyCost, length_cons, Nat.succ_mul]
    split <;> omega

theorem Likes.mem (h : Likes value pattern) {c : Char} (hc : c ≠ '%' ∧ c ≠ '_')
    (hmem : c ∈ pattern) : c ∈ value := by
  induction h with
  | done => exact hmem
  | percent skipped _ ih => exact mem_append_right _ (ih ((mem_cons.1 hmem).resolve_left hc.1))
  | underscore _ _ ih => exact mem_cons_of_mem _ (ih ((mem_cons.1 hmem).resolve_left hc.2))
  | literal _ _ ih => exact mem_cons.2 ((mem_cons.1 hmem).imp_right ih)

/-- The pattern of a client that filters by wildcards and a letter. -/
def starred (m : Nat) : List Char := List.replicate m '%' ++ ['b', '%']

private theorem like_starred (h : 'b' ∉ value) (m : Nat) : like value (starred m) = false :=
  Bool.eq_false_iff.2 fun hlike => h ((like_iff.1 hlike).mem (by decide) (by simp [starred]))

/-- Where the letter does not occur, every way to share out the value among the wildcards is
tried. -/
theorem likeCalls_starred (h : 'b' ∉ value) (m : Nat) :
    (value.length + m).choose m ≤ likeCalls value (starred m) := by
  induction m generalizing value with
  | zero =>
    cases value with
    | nil => decide
    | cons c value => exact Nat.le_add_right 1 _
  | succ m ih =>
    have hcalls : ∀ v, likeCalls v (starred (m + 1)) = 1 + anyCost (like · (starred m))
        (likeCalls · (starred m)) v.tails :=
      fun _ => rfl
    induction value with
    | nil =>
      rw [length_nil, Nat.zero_add, Nat.choose_self]
      exact Nat.le_add_right 1 _
    | cons c value ihv =>
      have hrest := ihv fun hb => h (mem_cons_of_mem c hb)
      have hfirst := ih h
      rw [hcalls] at hrest
      rw [hcalls, tails_cons, anyCost, like_starred h, if_neg Bool.false_ne_true, ← Nat.add_assoc,
        Nat.choose_succ_succ']
      rw [length_cons, Nat.add_right_comm] at hfirst ⊢
      rw [← Nat.add_assoc] at hrest
      omega

/-- No polynomial in the two lengths bounds the calls: with one wildcard more than its degree they
outgrow it. -/
theorem like_not_polynomial :
    ¬ ∃ c k : Nat, ∀ value pattern,
    likeCalls value pattern ≤ c * (value.length + pattern.length + 1) ^ k := by
  rintro ⟨c, k, h⟩
  set n := c * 2 ^ k * (k + 1).factorial + k + 3 with hn
  have hcalls := (@likeCalls_starred (List.replicate n 'a') (by simp) (k + 1)).trans (h _ _)
  simp only [starred, length_append, length_replicate] at hcalls
  have hgrow : (n + 1) ^ (k + 1) ≤ (k + 1).factorial * (n + (k + 1)).choose (k + 1) := by
    rw [← Nat.ascFactorial_eq_factorial_mul_choose]
    exact Nat.pow_succ_le_ascFactorial (n + 1) (k + 1)
  have hbase : n + (k + 1 + 2) + 1 ≤ 2 * (n + 1) := by omega
  have hlt : (k + 1).factorial * (c * (n + (k + 1 + 2) + 1) ^ k) < (n + 1) ^ (k + 1) := calc
    _ ≤ (k + 1).factorial * (c * (2 ^ k * (n + 1) ^ k)) := by
      rw [← Nat.mul_pow]
      exact Nat.mul_le_mul_left _ (Nat.mul_le_mul_left _ (Nat.pow_le_pow_left hbase k))
    _ = c * 2 ^ k * (k + 1).factorial * (n + 1) ^ k := by ac_rfl
    _ < (n + 1) * (n + 1) ^ k :=
      Nat.mul_lt_mul_of_pos_right (by omega) (Nat.pow_pos (Nat.succ_pos n))
    _ = (n + 1) ^ (k + 1) := (Nat.pow_succ' ..).symm
  exact absurd (hgrow.trans (Nat.mul_le_mul_left _ hcalls)) hlt.not_ge

/-- The matcher decides `LIKE`, with a number of calls that is bounded by the length of the pattern
and, for each wildcard, the length of the value. -/
theorem like_spec (value pattern : List Char) :
    (like value pattern = true ↔ Likes value pattern) ∧
      likeCalls value pattern ≤ (pattern.length + 1) * (value.length + 1) ^ pattern.count '%' := by
  refine ⟨like_iff, ?_⟩
  have hpos : ∀ n w : Nat, 1 ≤ (n + 1) ^ w := fun n w => Nat.one_le_pow _ _ (Nat.succ_pos n)
  fun_induction likeCalls value pattern with
  | case1 => simp
  | case2 value pattern ih =>
    have htails : ∀ rest ∈ value.tails,
        likeCalls rest pattern ≤ (pattern.length + 1) * (value.length + 1) ^ pattern.count '%' :=
          fun rest hrest =>
      (ih rest).trans (Nat.mul_le_mul_left _ (Nat.pow_le_pow_left
        (Nat.succ_le_succ ((mem_tails _ _).1 hrest).length_le) _))
    have hle := @anyCost_le _ (like · pattern) _ _ _ htails
    have hone := hpos value.length (pattern.count '%' + 1)
    rw [length_tails, Nat.mul_left_comm, ← Nat.pow_succ', Nat.succ_eq_add_one] at hle
    rw [count_cons_self, length_cons, Nat.succ_mul]
    omega
  | case3 p pattern _ => exact Nat.one_le_iff_ne_zero.2 (by simp)
  | case4 c value p pattern hp ih =>
    have hone := hpos (c :: value).length (pattern.count '%')
    have hle : likeCalls value pattern ≤ (pattern.length + 1) *
        ((c :: value).length + 1) ^ pattern.count '%' :=
      ih.trans (Nat.mul_le_mul_left _ (Nat.pow_le_pow_left (by simp) _))
    rw [count_cons_of_ne hp, length_cons, Nat.succ_mul]
    split <;> omega

end MicroTak.Content
