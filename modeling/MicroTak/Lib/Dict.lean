import Std.Data.TreeMap.Lemmas
import Mathlib.Order.Compare
import Mathlib.Tactic.Common

/-!
# Lookups in ordered maps

The ordered maps of the standard library, read through `m[k]?`.  Their lemmas speak of the
comparison of two keys; over a type whose comparison decides equality the lookups after an
update are stated here with `=`, which is the form the proofs about stores rewrite with.
-/

namespace Dict

open Std List

variable {κ ν : Type*} [Ord κ] [TransOrd κ] [LawfulEqOrd κ] [DecidableEq κ]

variable {m : TreeMap κ ν} {k k' : κ} {v w : ν}

@[simp] theorem getElem?_insert (m : TreeMap κ ν) (k k' : κ) (v : ν) :
    (m.insert k v)[k']? = if k = k' then some v else m[k']? := by
  rw [TreeMap.getElem?_insert]
  simp

theorem getElem?_insert_self (m : TreeMap κ ν) (k : κ) (v : ν) : (m.insert k v)[k]? = some v := by
  rw [getElem?_insert, if_pos rfl]

@[simp] theorem getElem?_erase (m : TreeMap κ ν) (k k' : κ) : (m.erase k)[k']? = if k = k' then none
    else m[k']? := by
  rw [TreeMap.getElem?_erase]
  simp

theorem getElem?_insert_of_ne (h : k ≠ k') : (m.insert k v)[k']? = m[k']? := by
  rw [getElem?_insert, if_neg h]

theorem getElem?_erase_self (m : TreeMap κ ν) (k : κ) : (m.erase k)[k]? = none := by
  rw [getElem?_erase, if_pos rfl]

theorem getElem?_erase_of_ne (h : k ≠ k') : (m.erase k)[k']? = m[k']? := by
  rw [getElem?_erase, if_neg h]

theorem of_insert (h : (m.insert k v)[k']? = some w) : k = k' ∧ v = w ∨
    k ≠ k' ∧ m[k']? = some w := by
  rw [getElem?_insert] at h
  split at h
  · next hkey => exact .inl ⟨hkey, Option.some.inj h⟩
  · next hkey => exact .inr ⟨hkey, h⟩

theorem of_erase (h : (m.erase k)[k']? = some w) : k ≠ k' ∧ m[k']? = some w := by
  rw [getElem?_erase] at h
  split at h
  · cases h
  · next hkey => exact ⟨hkey, h⟩

/-! ### How many values have a property -/

def count (p : ν → Bool) (m : TreeMap κ ν) : Nat := m.toList.countP fun entry => p entry.2

/-- The share of one key. -/
def share (p : ν → Bool) (found : Option ν) : Nat := (found.any p).toNat

omit [DecidableEq κ] in
theorem toList_nodup (m : TreeMap κ ν) : m.toList.Nodup :=
  TreeMap.distinct_keys_toList.imp fun h => by
    rintro rfl
    exact h (LawfulEqOrd.compare_eq_iff_eq.2 rfl)

omit [DecidableEq κ] in
theorem toList_perm {m n : TreeMap κ ν} (h : ∀ k : κ, m[k]? = n[k]?) : m.toList.Perm n.toList := by
  refine (perm_ext_iff_of_nodup (toList_nodup m) (toList_nodup n)).2 fun ⟨k, v⟩ => ?_
  rw [TreeMap.mem_toList_iff_getElem?_eq_some, TreeMap.mem_toList_iff_getElem?_eq_some, h]

theorem toList_perm_cons_erase (h : m[k]? = some v) :
    m.toList.Perm ((k, v) :: (m.erase k).toList) := by
  refine (perm_ext_iff_of_nodup (toList_nodup _) (nodup_cons.2 ⟨?_, toList_nodup _⟩)).2
    fun ⟨key, w⟩ => ?_
  · simp
  · by_cases hkey : k = key
    · subst hkey
      simp [h, eq_comm]
    · simp [hkey, Ne.symm hkey]

theorem count_erase (p : ν → Bool) (m : TreeMap κ ν) (k : κ) :
    count p (m.erase k) + share p m[k]? = count p m := by
  cases h : m[k]? with
  | none =>
    refine (toList_perm fun key => ?_).countP_eq _
    rw [getElem?_erase]
    split
    · next hkey => rw [← hkey, h]
    · rfl
  | some v =>
    unfold count share
    rw [(toList_perm_cons_erase h).countP_eq, countP_cons, Option.any_some]
    cases p v <;> rfl

theorem count_insert (p : ν → Bool) (m : TreeMap κ ν) (k : κ) (v : ν) :
    count p (m.insert k v) + share p m[k]? = count p m + share p (some v) := by
  have herase : count p ((m.insert k v).erase k) = count p (m.erase k) := by
    refine (toList_perm fun key => ?_).countP_eq _
    simp only [getElem?_erase, getElem?_insert]
    split <;> rfl
  have hinsert := count_erase p (m.insert k v) k
  rw [getElem?_insert_self] at hinsert
  have hm := count_erase p m k
  omega

/-! ### The sum of the values -/

def total (m : TreeMap κ Nat) : Nat := m.toList.foldr (fun entry sum => entry.2 + sum) 0

omit [TransOrd κ] [LawfulEqOrd κ] [DecidableEq κ] in
theorem total_of_perm {m : TreeMap κ Nat} {entries : List (κ × Nat)} (h : m.toList.Perm entries) :
    total m = entries.foldr (fun entry sum => entry.2 + sum) 0 := by
  refine h.foldr_eq' (fun one _ other _ sum => ?_) 0
  exact Nat.add_left_comm other.2 one.2 sum

theorem total_erase (m : TreeMap κ Nat) (k : κ) : total (m.erase k) + (m[k]?).getD 0 = total m := by
  cases h : m[k]? with
  | none =>
    refine total_of_perm (toList_perm fun key => ?_)
    rw [getElem?_erase]
    split
    · next hkey => rw [← hkey, h]
    · rfl
  | some v =>
    rw [total_of_perm (toList_perm_cons_erase h), foldr_cons, Option.getD_some, Nat.add_comm, total]

theorem total_insert (m : TreeMap κ Nat) (k : κ) (v : Nat) :
    total (m.insert k v) + (m[k]?).getD 0 = total m + v := by
  have herase : total ((m.insert k v).erase k) = total (m.erase k) := by
    refine total_of_perm (toList_perm fun key => ?_)
    simp only [getElem?_erase, getElem?_insert]
    split <;> rfl
  have hinsert := total_erase (m.insert k v) k
  rw [getElem?_insert_self, Option.getD_some] at hinsert
  have hm := total_erase m k
  omega

/-! ### Maps keyed by their values -/

/-- A map whose values are each kept under their own key. -/
structure Keyed (key : ν → κ) where
  map : TreeMap κ ν := ∅
  keyed : ∀ (k : κ) (v : ν), map[k]? = some v → key v = k := by simp

namespace Keyed

variable {key : ν → κ} (m : Keyed key)

def get? (k : κ) : Option ν := m.map[k]?

def values : List ν := m.map.toList.map Prod.snd

def insert (v : ν) : Keyed key where
  map := m.map.insert (key v) v
  keyed := by
    intro k found hfound
    rw [getElem?_insert] at hfound
    split at hfound
    · next hkey => exact Option.some.inj hfound ▸ hkey
    · exact m.keyed k found hfound

def erase (k : κ) : Keyed key where
  map := m.map.erase k
  keyed := by
    intro other found hfound
    rw [getElem?_erase] at hfound
    split at hfound
    · cases hfound
    · exact m.keyed other found hfound

/-- A change to every value that leaves its key alone. -/
def mapValues (f : ν → ν) (hf : ∀ v, key (f v) = key v) : Keyed key where
  map := m.map.map fun _ v => f v
  keyed := by
    intro k found hfound
    rw [TreeMap.getElem?_map] at hfound
    obtain ⟨v, hv, rfl⟩ := Option.map_eq_some_iff.1 hfound
    rw [hf]
    exact m.keyed k v hv

variable {m}

theorem get?_insert (v : ν) (k : κ) : (m.insert v).get? k = if key v = k then some v
    else m.get? k :=
  getElem?_insert m.map (key v) k v

theorem get?_erase (k k' : κ) : (m.erase k).get? k' = if k = k' then none else m.get? k' :=
  getElem?_erase m.map k k'

theorem filter_get?_insert (v : ν) (k : κ) {p : ν → Bool} :
    ((m.insert v).get? k).filter p = if key v = k then (some v).filter p
    else (m.get? k).filter p := by
  rw [get?_insert, apply_ite (Option.filter p)]

theorem filter_get?_erase (k k' : κ) {p : ν → Bool} :
    ((m.erase k).get? k').filter p = if k = k' then none else (m.get? k').filter p := by
  rw [get?_erase, apply_ite (Option.filter p), Option.filter_none]

omit [DecidableEq κ] in
theorem get?_mapValues (f : ν → ν) (hf : ∀ v, key (f v) = key v) (k : κ) :
    (m.mapValues f hf).get? k = (m.get? k).map f :=
  TreeMap.getElem?_map

omit [DecidableEq κ] in
theorem mem_values {v : ν} : v ∈ m.values ↔ m.get? (key v) = some v := by
  simp only [values, mem_map]
  constructor
  · rintro ⟨⟨k, found⟩, hmem, rfl⟩
    have hfound := TreeMap.mem_toList_iff_getElem?_eq_some.1 hmem
    rw [m.keyed k found hfound]
    exact hfound
  · intro h
    exact ⟨(key v, v), TreeMap.mem_toList_iff_getElem?_eq_some.2 h, rfl⟩

omit [DecidableEq κ] in
theorem get?_eq_none {k : κ} (h : k ∉ m.values.map key) : m.get? k = none := by
  refine Option.eq_none_iff_forall_ne_some.2 fun v hv => h ?_
  have hkey := m.keyed k v hv
  subst hkey
  exact mem_map_of_mem (m.mem_values.2 hv)

end Keyed

/-! ### A list with its first entry of a kind changed -/

section Update

variable {α β : Type} {p : α → Prop} [DecidablePred p] {f : α → α} {l : List α}
  {update : List α → List α} (hnil : update [] = [])
  (hcons : ∀ a rest, update (a :: rest) = if p a then f a :: rest else a :: update rest)

include hnil hcons

theorem mem_of_update {b : α} (h : b ∈ update l) : b ∈ l ∨ ∃ a ∈ l, p a ∧ b = f a := by
  induction l with
  | nil => exact .inl (hnil ▸ h)
  | cons a rest ih =>
    rw [hcons] at h
    split at h
    · next ha =>
      rcases mem_cons.1 h with rfl | h
      · exact .inr ⟨a, mem_cons_self, ha, rfl⟩
      · exact .inl (mem_cons_of_mem _ h)
    · rcases mem_cons.1 h with rfl | h
      · exact .inl mem_cons_self
      · rcases ih h with h | ⟨c, hc, hchanged⟩
        · exact .inl (mem_cons_of_mem _ h)
        · exact .inr ⟨c, mem_cons_of_mem _ hc, hchanged⟩

theorem map_update {g : α → β} (hg : ∀ a, g (f a) = g a) : (update l).map g = l.map g := by
  induction l with
  | nil => rw [hnil]
  | cons a rest ih =>
    rw [hcons]
    split
    · rw [map_cons, map_cons, hg]
    · rw [map_cons, map_cons, ih]

end Update

end Dict
