import Mathlib.Data.List.Nodup
import Mathlib.Data.List.Perm.Subperm

/-!
# Forests given by parents

A list of nodes, each with the parent it names, is a forest if no node occurs twice, every parent is
a node, and a rank goes down from each node to its parent.  Adding a node under one that is there,
moving one to where it is not above, and removing one without children keep it.  The trees of a
forest are built by a recursion that ends, and hold every node once.
-/

namespace Forest

open Relation List

variable {α κ : Type*}

abbrev Edge (κ : Type*) := κ × Option κ

def Parent (es : List (Edge κ)) (x p : κ) : Prop := (x, some p) ∈ es

/-- `a` is `x`, or above it. -/
abbrev Within (es : List (Edge κ)) : κ → κ → Prop := ReflTransGen (Parent es)

/-- `a` is above `x`. -/
abbrev Below (es : List (Edge κ)) : κ → κ → Prop := TransGen (Parent es)

structure IsForest (es : List (Edge κ)) : Prop where
  nodup : (es.map Prod.fst).Nodup
  rooted : ∃ rank : κ → Nat, ∀ x p, Parent es x p → p ∈ es.map Prod.fst ∧ rank p < rank x

section Order

variable {es : List (Edge κ)} {x y z p : κ}

variable (h : IsForest es)

include h

theorem IsForest.edge_unique {p q : Option κ} (hp : (x, p) ∈ es) (hq : (x, q) ∈ es) : p = q :=
  congrArg Prod.snd (inj_on_of_nodup_map h.nodup hp hq rfl)

theorem IsForest.exists_rank : ∃ rank : κ → Nat, ∀ x a, Below es x a → rank a < rank x := by
  obtain ⟨rank, hrank⟩ := h.rooted
  refine ⟨rank, fun x a hbelow => ?_⟩
  induction hbelow with
  | single hstep => exact (hrank _ _ hstep).2
  | tail _ hstep ih => exact Nat.lt_trans (hrank _ _ hstep).2 ih

theorem IsForest.not_below_self : ¬ Below es x x := by
  obtain ⟨rank, hrank⟩ := h.exists_rank
  exact fun hbelow => Nat.lt_irrefl _ (hrank x x hbelow)

theorem IsForest.within_of_below (hbelow : Below es x z) (hp : Parent es x p) : Within es p z := by
  obtain ⟨q, hq, hwithin⟩ := TransGen.head'_iff.1 hbelow
  cases h.edge_unique hp hq
  exact hwithin

theorem IsForest.not_below_sibling {q : Option κ} (hx : (x, q) ∈ es) (hy : (y, q) ∈ es) :
    ¬ Below es x y := by
  intro hbelow
  obtain ⟨p, hp, -⟩ := TransGen.head'_iff.1 hbelow
  cases h.edge_unique hx hp
  exact h.not_below_self (TransGen.head' hy (h.within_of_below hbelow hp))

theorem IsForest.in_line (hx : Within es z x) (hy : Within es z y) : Within es x y ∨
    Within es y x := by
  induction hx using ReflTransGen.head_induction_on with
  | refl => exact .inl hy
  | head hstep hrest ih =>
    rcases ReflTransGen.cases_head hy with rfl | ⟨q, hq, hwithin⟩
    · exact .inr (.head hstep hrest)
    · cases h.edge_unique hstep hq
      exact ih hwithin

end Order

/-! ### Changes of a forest -/

section Change

variable [DecidableEq κ] {es es' : List (Edge κ)} {x y a : κ} {p : Option κ}

def move (es : List (Edge κ)) (x : κ) (p : Option κ) : List (Edge κ) :=
  es.map fun e => if e.1 = x then (x, p) else e

theorem map_fst_move : (move es x p).map Prod.fst = es.map Prod.fst := by
  rw [move, List.map_map]
  refine List.map_congr_left fun e _ => ?_
  simp only [Function.comp]
  split
  · next heq => exact heq.symm
  · rfl

theorem mem_move {e : Edge κ} : e ∈ move es x p ↔ e ∈ es ∧ e.1 ≠ x ∨ x ∈ es.map Prod.fst ∧
    e = (x, p) := by
  simp only [move, mem_map]
  constructor
  · rintro ⟨f, hf, rfl⟩
    split
    · next heq => exact .inr ⟨⟨f, hf, heq⟩, rfl⟩
    · next hne => exact .inl ⟨hf, hne⟩
  · rintro (⟨he, hne⟩ | ⟨⟨f, hf, hfx⟩, rfl⟩)
    · exact ⟨e, he, if_neg hne⟩
    · exact ⟨f, hf, if_pos hfx⟩

omit [DecidableEq κ] in
theorem below_of_below_changed (hsame : ∀ y q, y ≠ x → Parent es' y q → Parent es y q)
    (hy : ¬ Within es y x) (hbelow : Below es' y a) : Below es y a := by
  induction hbelow using TransGen.head_induction_on with
  | single hstep => exact .single (hsame _ _ (fun heq => hy (heq ▸ .refl)) hstep)
  | head hstep _ ih =>
    have hold := hsame _ _ (fun heq => hy (heq ▸ .refl)) hstep
    exact .head hold (ih fun hwithin => hy (.head hold hwithin))

omit [DecidableEq κ] in
theorem not_within_changed {b : κ} (hsame : ∀ y q, y ≠ x → Parent es' y q → Parent es y q)
    (hy : ¬ Within es y x) (hb : ¬ Within es y b) : ¬ Within es' y b := by
  intro hwithin
  rcases reflTransGen_iff_eq_or_transGen.1 hwithin with heq | hbelow
  · exact hb (heq ▸ .refl)
  · exact hb (below_of_below_changed hsame hy hbelow).to_reflTransGen

theorem IsForest.add (h : IsForest es) (hx : x ∉ es.map Prod.fst)
    (hp : ∀ q, p = some q → q ∈ es.map Prod.fst) : IsForest (es ++ [(x, p)]) := by
  obtain ⟨rank, hrank⟩ := h.rooted
  have hmem : ∀ q, q ∈ es.map Prod.fst → q ∈ (es ++ [(x, p)]).map Prod.fst := by
    intro q hq
    rw [map_append]
    exact mem_append_left _ hq
  refine ⟨?_, ?_⟩
  · rw [map_append]
    exact List.Nodup.append h.nodup (nodup_singleton x) (by simpa using hx)
  · -- The new node ranks above its parent; nobody has it as a parent yet.
    refine ⟨fun y => if y = x then (p.elim 0 rank) + 1 else rank y, fun y q hedge => ?_⟩
    have hq : q ∈ es.map Prod.fst := by
      rcases mem_append.1 hedge with hold | hnew
      · exact (hrank y q hold).1
      · cases mem_singleton.1 hnew
        exact hp q rfl
    have hqx : q ≠ x := fun heq => hx (heq ▸ hq)
    refine ⟨hmem q hq, ?_⟩
    simp only [if_neg hqx]
    rcases mem_append.1 hedge with hold | hnew
    · have hyx : y ≠ x := fun heq => hx (heq ▸ mem_map.2 ⟨_, hold, rfl⟩)
      rw [if_neg hyx]
      exact (hrank y q hold).2
    · cases mem_singleton.1 hnew
      rw [if_pos rfl]
      exact Nat.lt_succ_self _

theorem IsForest.remove (h : IsForest es) (hleaf : ∀ y, ¬ Parent es y x) :
    IsForest (es.filter (·.1 ≠ x)) := by
  obtain ⟨rank, hrank⟩ := h.rooted
  refine ⟨h.nodup.sublist (filter_sublist.map _), rank, fun y q hedge => ?_⟩
  have hold := (mem_filter.1 hedge).1
  obtain ⟨hq, hlt⟩ := hrank y q hold
  refine ⟨?_, hlt⟩
  obtain ⟨e, he, rfl⟩ := mem_map.1 hq
  refine mem_map.2 ⟨e, mem_filter.2 ⟨he, ?_⟩, rfl⟩
  rw [decide_eq_true_eq]
  rintro rfl
  exact hleaf y hold

open Classical in
theorem IsForest.move (h : IsForest es)
    (hp : ∀ q, p = some q → q ∈ es.map Prod.fst ∧ ¬ Within es q x) : IsForest (move es x p) := by
  obtain ⟨rank, hrank⟩ := h.rooted
  refine ⟨by rw [map_fst_move]; exact h.nodup,
    fun y => if Within es y x then rank y + (p.elim 0 rank + 1) else rank y, fun y q hedge => ?_⟩
  rw [map_fst_move]
  rcases mem_move.1 hedge with ⟨hold, hne⟩ | ⟨-, hnew⟩
  · obtain ⟨hq, hlt⟩ := hrank y q hold
    have hsame : Within es y x ↔ Within es q x := by
      constructor
      · intro hwithin
        rcases ReflTransGen.cases_head hwithin with rfl | ⟨q', hq', hrest⟩
        · exact absurd rfl hne
        · cases h.edge_unique hold hq'
          exact hrest
      · exact fun hwithin => .head hold hwithin
    refine ⟨hq, ?_⟩
    simp only [hsame]
    split <;> omega
  · obtain ⟨rfl, rfl⟩ := hnew
    obtain ⟨hq, hnot⟩ := hp q rfl
    refine ⟨hq, ?_⟩
    beta_reduce
    rw [if_neg hnot, if_pos .refl, Option.elim_some]
    omega

end Change

/-! ### The trees -/

inductive Tree (α : Type*) where
  | node (value : α) (children : List (Tree α))

def Tree.value : Tree α → α
  | .node value _ => value

mutual

def Tree.flatten : Tree α → List α
  | .node value children => value :: flattenAll children

def flattenAll : List (Tree α) → List α
  | [] => []
  | tree :: rest => tree.flatten ++ flattenAll rest

end

/-- A tree for each value, with the children that `grow` gives it. -/
def plant (grow : α → Option (List (Tree α))) : List α → Option (List (Tree α))
  | [] => some []
  | value :: rest =>
      match grow value, plant grow rest with
      | some children, some trees => some (.node value children :: trees)
      | _, _ => none

/-- With each node the tree has every child of it. -/
inductive Covers (key : α → κ) (es : List (Edge κ)) : Tree α → Prop where
  | node (value : α) (children : List (Tree α))
      (hchildren : ∀ y, Parent es y (key value) → ∃ tree ∈ children, key tree.value = y)
      (hall : ∀ tree ∈ children, Covers key es tree) : Covers key es (.node value children)

theorem Covers.mono {key : α → κ} {es es' : List (Edge κ)} {tree : Tree α} (h : Covers key es tree)
    (hsub : es' ⊆ es) : Covers key es' tree := by
  induction h with
  | node value children hchildren hall ih =>
    exact .node value children (fun y hy => hchildren y (hsub hy)) ih

section Build

variable [DecidableEq κ] (edge : α → Edge κ) (arrange : List α → Option (List α)) (nodes : List α)

/-- The trees under a parent, each level arranged; nothing, if they are deeper than `depth`. -/
def build : Nat → Option κ → Option (List (Tree α))
  | 0, _ => none
  | depth + 1, p =>
      match arrange (nodes.filter fun x => (edge x).2 = p) with
      | some level => plant (fun x => build depth (some (edge x).1)) level
      | none => none

end Build

section Plant

variable {grow : α → Option (List (Tree α))} {values : List α} {trees : List (Tree α)} {x : α}

theorem exists_plant (h : ∀ x ∈ values, ∃ children, grow x = some children) :
    ∃ trees, plant grow values = some trees := by
  induction values with
  | nil => exact ⟨[], rfl⟩
  | cons value rest ih =>
    obtain ⟨children, hchildren⟩ := h value mem_cons_self
    obtain ⟨trees, htrees⟩ := ih fun x hx => h x (mem_cons_of_mem _ hx)
    exact ⟨.node value children :: trees, by rw [plant, hchildren, htrees]⟩

theorem plant_cons_eq_some {value : α} {rest : List α}
    (h : plant grow (value :: rest) = some trees) : ∃ children others, grow value = some children ∧
    plant grow rest = some others ∧
      trees = .node value children :: others := by
  rw [plant] at h
  split at h
  · next children others hchildren hothers =>
      exact ⟨children, others, hchildren, hothers, (Option.some.inj h).symm⟩
  · cases h

theorem exists_grow (h : plant grow values = some trees) (hx : x ∈ values) :
    ∃ children, grow x = some children := by
  induction values generalizing trees with
  | nil => cases hx
  | cons value rest ih =>
    obtain ⟨children, others, hgrow, hothers, -⟩ := plant_cons_eq_some h
    rcases mem_cons.1 hx with rfl | hx
    · exact ⟨children, hgrow⟩
    · exact ih hothers hx

theorem mem_flattenAll_plant (h : plant grow values = some trees) :
    x ∈ flattenAll trees ↔ ∃ value ∈ values, x = value ∨ ∃ children, grow value = some children ∧
    x ∈ flattenAll children := by
  induction values generalizing trees with
  | nil =>
    cases h
    simp [flattenAll]
  | cons value rest ih =>
    obtain ⟨children, others, hgrow, hothers, rfl⟩ := plant_cons_eq_some h
    simp only [flattenAll, Tree.flatten, cons_append, mem_cons, mem_append, ih hothers]
    constructor
    · rintro (rfl | hmem | ⟨other, hother, hx⟩)
      · exact ⟨x, .inl rfl, .inl rfl⟩
      · exact ⟨value, .inl rfl, .inr ⟨children, hgrow, hmem⟩⟩
      · exact ⟨other, .inr hother, hx⟩
    · rintro ⟨other, rfl | hother, hx⟩
      · rcases hx with rfl | ⟨found, hfound, hmem⟩
        · exact .inl rfl
        · cases hgrow.symm.trans hfound
          exact .inr (.inl hmem)
      · exact .inr (.inr ⟨other, hother, hx⟩)

theorem mem_plant {tree : Tree α} (h : plant grow values = some trees) :
    tree ∈ trees ↔ ∃ value ∈ values, ∃ children, grow value = some children ∧
    tree = .node value children := by
  induction values generalizing trees with
  | nil =>
    cases h
    simp
  | cons value rest ih =>
    obtain ⟨children, others, hgrow, hothers, rfl⟩ := plant_cons_eq_some h
    rw [mem_cons, ih hothers]
    constructor
    · rintro (rfl | ⟨other, hother, htree⟩)
      · exact ⟨value, mem_cons_self, children, hgrow, rfl⟩
      · exact ⟨other, mem_cons_of_mem _ hother, htree⟩
    · rintro ⟨other, hother, found, hfound, rfl⟩
      rcases mem_cons.1 hother with rfl | hother
      · cases hgrow.symm.trans hfound
        exact .inl rfl
      · exact .inr ⟨other, hother, found, hfound, rfl⟩

end Plant

section Trees

variable [DecidableEq κ] {edge : α → Edge κ} {arrange : List α → Option (List α)} {nodes : List α}
variable {depth : Nat} {p : Option κ} {trees : List (Tree α)} {x y : α}
variable (harrange : ∀ l, ∃ sorted, arrange l = some sorted ∧ sorted.Perm l) {level : List α}

include harrange

theorem exists_level (htrees : build edge arrange nodes depth p = some trees) :
    ∃ d level, depth = d + 1 ∧ level.Perm (nodes.filter fun x => (edge x).2 = p) ∧
      plant (fun x => build edge arrange nodes d (some (edge x).1)) level = some trees := by
  cases depth with
  | zero => cases htrees
  | succ d =>
    obtain ⟨level, hlevel, hperm⟩ := harrange (nodes.filter fun x => (edge x).2 = p)
    rw [build, hlevel] at htrees
    exact ⟨d, level, rfl, hperm, htrees⟩

omit harrange in
theorem mem_level (hperm : level.Perm (nodes.filter fun x => (edge x).2 = p)) :
    x ∈ level ↔ x ∈ nodes ∧ (edge x).2 = p := by
  rw [hperm.mem_iff, mem_filter, decide_eq_true_eq]

theorem exists_build (h : IsForest (nodes.map edge)) {path : List κ} (hpath : path.Nodup)
    (hkeys : path ⊆ (nodes.map edge).map Prod.fst)
    (hbelow : ∀ x ∈ nodes, (edge x).2 = p → ∀ a ∈ path, Below (nodes.map edge) (edge x).1 a)
    (hdepth : nodes.length < depth + path.length) :
    ∃ trees, build edge arrange nodes depth p = some trees := by
  induction depth generalizing p path with
  | zero =>
    have hlength := (hpath.subperm hkeys).length_le
    rw [length_map, length_map] at hlength
    omega
  | succ depth ih =>
    obtain ⟨level, hlevel, hperm⟩ := harrange (nodes.filter fun x => (edge x).2 = p)
    rw [build, hlevel]
    refine exists_plant fun x hx => ?_
    obtain ⟨hx, hparent⟩ := (mem_level hperm).1 hx
    have hmem : edge x ∈ nodes.map edge := mem_map_of_mem hx
    have hnew : (edge x).1 ∉ path := fun hin => h.not_below_self (hbelow x hx hparent _ hin)
    refine ih (nodup_cons.2 ⟨hnew, hpath⟩) (cons_subset.2 ⟨mem_map_of_mem hmem, hkeys⟩) ?_ ?_
    · intro y hy hyparent a ha
      have hstep : Parent (nodes.map edge) (edge y).1 (edge x).1 := by
        rw [Parent, ← hyparent]
        exact mem_map_of_mem hy
      rcases mem_cons.1 ha with rfl | ha
      · exact .single hstep
      · exact .head hstep (hbelow x hx hparent a ha)
    · rw [length_cons]
      omega

section

variable (htrees : build edge arrange nodes depth p = some trees)

include htrees

/-- What the trees under a parent hold is below one of its children. -/
theorem within_of_mem_build (hx : x ∈ flattenAll trees) :
    x ∈ nodes ∧ ∃ y ∈ nodes, (edge y).2 = p ∧ Within (nodes.map edge) (edge x).1 (edge y).1 := by
  induction depth generalizing p trees with
  | zero => cases htrees
  | succ depth ih =>
    obtain ⟨d, level, hd, hperm, hplant⟩ := exists_level harrange htrees
    cases hd
    obtain ⟨y, hy, hcase⟩ := (mem_flattenAll_plant hplant).1 hx
    obtain ⟨hy, hparent⟩ := (mem_level hperm).1 hy
    rcases hcase with rfl | ⟨children, hchildren, hmem⟩
    · exact ⟨hy, x, hy, hparent, .refl⟩
    · obtain ⟨hxn, z, hz, hzparent, hwithin⟩ := ih hchildren hmem
      refine ⟨hxn, y, hy, hparent, hwithin.tail ?_⟩
      rw [Parent, ← hzparent]
      exact mem_map_of_mem hz

theorem mem_build (hx : x ∈ nodes) (hparent : (edge x).2 = p) : x ∈ flattenAll trees := by
  obtain ⟨d, level, -, hperm, hplant⟩ := exists_level harrange htrees
  exact (mem_flattenAll_plant hplant).2 ⟨x, (mem_level hperm).2 ⟨hx, hparent⟩, .inl rfl⟩

theorem mem_build_of_parent (hy : y ∈ flattenAll trees)
    (hx : x ∈ nodes) (hparent : (edge x).2 = some (edge y).1) : x ∈ flattenAll trees := by
  induction depth generalizing p trees with
  | zero => cases htrees
  | succ depth ih =>
    obtain ⟨d, level, hd, hperm, hplant⟩ := exists_level harrange htrees
    cases hd
    rw [mem_flattenAll_plant hplant] at hy ⊢
    obtain ⟨z, hz, hcase⟩ := hy
    refine ⟨z, hz, .inr ?_⟩
    rcases hcase with rfl | ⟨children, hchildren, hmem⟩
    · obtain ⟨children, hchildren⟩ := exists_grow hplant hz
      exact ⟨children, hchildren, mem_build harrange hchildren hx hparent⟩
    · exact ⟨children, hchildren, ih hchildren hmem⟩

/-- The trees under a parent have every child of it and of each of their nodes. -/
theorem covers_build : (∀ y, (y, p) ∈ nodes.map edge → ∃ tree ∈ trees, (edge tree.value).1 = y) ∧
      ∀ tree ∈ trees, Covers (fun x => (edge x).1) (nodes.map edge) tree := by
  induction depth generalizing p trees with
  | zero => cases htrees
  | succ depth ih =>
    obtain ⟨d, level, hd, hperm, hplant⟩ := exists_level harrange htrees
    cases hd
    constructor
    · intro y hy
      obtain ⟨x, hx, hedge⟩ := mem_map.1 hy
      have hparent : (edge x).2 = p := by rw [hedge]
      have hlevel : x ∈ level := (mem_level hperm).2 ⟨hx, hparent⟩
      obtain ⟨children, hchildren⟩ := exists_grow hplant hlevel
      refine ⟨.node x children, (mem_plant hplant).2 ⟨x, hlevel, children, hchildren, rfl⟩, ?_⟩
      rw [Tree.value, hedge]
    · intro tree htree
      obtain ⟨x, -, children, hchildren, rfl⟩ := (mem_plant hplant).1 htree
      exact .node x children (ih hchildren).1 (ih hchildren).2

end

variable (h : IsForest (nodes.map edge))

include h

omit harrange [DecidableEq κ] in
theorem IsForest.eq_of_key (hx : x ∈ nodes) (hy : y ∈ nodes) (hkey : (edge x).1 = (edge y).1) :
    x = y := by
  have hnodup := h.nodup
  rw [List.map_map] at hnodup
  exact inj_on_of_nodup_map hnodup hx hy hkey

omit harrange [DecidableEq κ] in
theorem IsForest.eq_of_within {z : κ} (hx : x ∈ nodes) (hy : y ∈ nodes)
    (hparent : (edge x).2 = (edge y).2) (hzx : Within (nodes.map edge) z (edge x).1)
    (hzy : Within (nodes.map edge) z (edge y).1) : x = y := by
  have hedgex : ((edge x).1, (edge x).2) ∈ nodes.map edge := mem_map_of_mem hx
  have hedgey : ((edge y).1, (edge x).2) ∈ nodes.map edge := by
    rw [hparent]
    exact mem_map_of_mem hy
  rcases h.in_line hzx hzy with hline | hline
  · rcases reflTransGen_iff_eq_or_transGen.1 hline with heq | hbelow
    · exact h.eq_of_key hx hy heq.symm
    · exact absurd hbelow (h.not_below_sibling hedgex hedgey)
  · rcases reflTransGen_iff_eq_or_transGen.1 hline with heq | hbelow
    · exact h.eq_of_key hx hy heq
    · exact absurd hbelow (h.not_below_sibling hedgey hedgex)

omit h in
theorem below_of_mem_children
    (hchildren : build edge arrange nodes depth (some (edge x).1) = some trees)
    (hy : y ∈ flattenAll trees) : Below (nodes.map edge) (edge y).1 (edge x).1 := by
  obtain ⟨-, z, hz, hparent, hwithin⟩ := within_of_mem_build harrange hchildren hy
  refine TransGen.tail' hwithin ?_
  rw [Parent, ← hparent]
  exact mem_map_of_mem hz

theorem nodup_plant (hlevel : level.Nodup) (hmem : ∀ x ∈ level, x ∈ nodes ∧ (edge x).2 = p)
    (hgrow : ∀ x ∈ level, ∀ children, build edge arrange nodes depth (some (edge x).1) =
      some children → (flattenAll children).Nodup)
    (hplant : plant (fun x => build edge arrange nodes depth (some (edge x).1)) level =
      some trees) :
    (flattenAll trees).Nodup := by
  induction level generalizing trees with
  | nil =>
    cases hplant
    exact nodup_nil
  | cons x rest ih =>
    obtain ⟨children, others, hchildren, hothers, rfl⟩ := plant_cons_eq_some hplant
    obtain ⟨hxrest, hrest⟩ := nodup_cons.1 hlevel
    obtain ⟨hx, hxparent⟩ := hmem x mem_cons_self
    have htree : ∀ z ∈ x :: flattenAll children, Within (nodes.map edge) (edge z).1 (edge x).1 := by
      intro z hz
      rcases mem_cons.1 hz with rfl | hz
      · exact .refl
      · exact (below_of_mem_children harrange hchildren hz).to_reflTransGen
    have hroot : x ∉ flattenAll children := fun hin =>
      h.not_below_self (below_of_mem_children harrange hchildren hin)
    refine nodup_append.2 ⟨nodup_cons.2 ⟨hroot, hgrow x mem_cons_self children hchildren⟩,
      ih hrest (fun y hy => hmem y (mem_cons_of_mem _ hy)) (fun y hy =>
        hgrow y (mem_cons_of_mem _ hy)) hothers, ?_⟩
    -- A node of both would be below two children of `p`.
    rintro z hz _ hother rfl
    obtain ⟨y, hy, hcase⟩ := (mem_flattenAll_plant hothers).1 hother
    obtain ⟨hynode, hyparent⟩ := hmem y (mem_cons_of_mem _ hy)
    have hzy : Within (nodes.map edge) (edge z).1 (edge y).1 := by
      rcases hcase with rfl | ⟨found, hfound, hin⟩
      · exact .refl
      · exact (below_of_mem_children harrange hfound hin).to_reflTransGen
    cases h.eq_of_within hx hynode (hxparent.trans hyparent.symm) (htree z hz) hzy
    exact hxrest hy

theorem nodup_build (htrees : build edge arrange nodes depth p = some trees) :
    (flattenAll trees).Nodup := by
  induction depth generalizing p trees with
  | zero => cases htrees
  | succ depth ih =>
    obtain ⟨d, level, hd, hperm, hplant⟩ := exists_level harrange htrees
    cases hd
    have hnodes : nodes.Nodup := (h.nodup.of_map _).of_map _
    exact nodup_plant harrange h (hperm.nodup_iff.2 (hnodes.filter _)) (fun x hx =>
      (mem_level hperm).1 hx) (fun _ _ _ hchildren => ih hchildren) hplant

theorem build_perm (htrees : build edge arrange nodes depth none = some trees) :
    (flattenAll trees).Perm nodes := by
  obtain ⟨rank, hrank⟩ := h.rooted
  have hall : ∀ (r : Nat) (x : α), x ∈ nodes → rank (edge x).1 = r → x ∈ flattenAll trees := by
    intro r
    induction r using Nat.strongRecOn with
    | ind r ih =>
      intro x hx hr
      have hedge : edge x ∈ nodes.map edge := mem_map_of_mem hx
      cases hparent : (edge x).2 with
      | none => exact mem_build harrange htrees hx hparent
      | some q =>
        obtain ⟨hq, hlt⟩ := hrank (edge x).1 q (by rw [Parent, ← hparent]; exact hedge)
        rw [List.map_map] at hq
        obtain ⟨y, hy, rfl⟩ := mem_map.1 hq
        exact mem_build_of_parent harrange htrees (ih _ (hr ▸ hlt) y hy rfl) hx hparent
  refine (perm_ext_iff_of_nodup (nodup_build harrange h htrees) ((h.nodup.of_map _).of_map _)).2
    fun x => ?_
  exact ⟨fun hx => (within_of_mem_build harrange htrees hx).1, fun hx => hall _ x hx rfl⟩

end Trees

end Forest
