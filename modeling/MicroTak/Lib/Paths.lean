import Mathlib.Data.List.Infix
import MicroTak.Lib.Text

/-!
# Paths of a request

Two ways to read a path as a list of segments.  An ant pattern is matched as a whole, `**` standing
for any number of segments and `*` for any characters of one.  A route table is searched one segment
at a time: a route that names the segment comes before one that takes it as a parameter, and where
the search gets stuck it goes back to the parameter.
-/

namespace Paths

open List

/-! ### Ant patterns -/

/-- A segment of a pattern: two stars, or the texts around its single stars. -/
inductive Ant where
  | stars
  | pieces (texts : List String)
  deriving DecidableEq

namespace Ant

def literal (text : String) : Ant := .pieces [text]

instance : Coe String Ant := ⟨literal⟩

def star : Ant := .pieces ["", ""]

def parse (segment : String) : Ant :=
  if segment = "**" then .stars else .pieces (Text.split '*' segment)

/-- The segment as it is written. -/
def text : Ant → String
  | .stars => "**"
  | .pieces texts => String.ofList (['*'].intercalate (texts.map String.toList))

end Ant

/-- What is left of a text after each number of characters. -/
def suffixes (text : String) : List String :=
  text.toList.tails.map String.ofList

def matchSegment : List String → String → Bool
  | [], segment => segment = ""
  | [text], segment => text = segment
  | text :: rest, segment =>
      match Text.stripPrefix text segment with
      | none => false
      | some afterPrefix => (suffixes afterPrefix).any (matchSegment rest)

def matchSegments : List Ant → List String → Bool
  | [], path => path.isEmpty
  | .stars :: pattern, path => path.tails.any (matchSegments pattern)
  | .pieces _ :: _, [] => false
  | .pieces texts :: pattern, s :: rest => matchSegment texts s && matchSegments pattern rest

def segments (path : String) : List String :=
  (Text.split '/' path).filter (· ≠ "")

def antMatch (pattern path : String) : Bool :=
  matchSegments ((segments pattern).map Ant.parse) (segments path)

/-- Whether a pattern matches some path that starts with these segments. -/
def reaches : List Ant → List String → Bool
  | _, [] => true
  | [], _ :: _ => false
  | .stars :: _, _ :: _ => true
  | .pieces texts :: pattern, s :: known => matchSegment texts s && reaches pattern known

variable {text s : String} {rest known more : List String} {pattern : List Ant}

@[simp] theorem matchSegments_literal :
    matchSegments (.literal text :: pattern)
    (s :: rest) = (decide (text = s) && matchSegments pattern rest) :=
  rfl

@[simp] theorem matchSegments_literal_nil : matchSegments (.literal text :: pattern) [] = false :=
  rfl

@[simp] theorem matchSegments_star : matchSegments (.star :: pattern)
    (s :: rest) = matchSegments pattern rest := by
  have hstar : matchSegment ["", ""] s = true := by
    have hstrip : Text.stripPrefix "" s = some s := by simp [Text.stripPrefix]
    rw [matchSegment]
    · exact any_eq_true.2 ⟨"", mem_map.2 ⟨[], by simp, rfl⟩, rfl⟩
    · exact cons_ne_nil _ _
  rw [Ant.star, matchSegments, hstar, Bool.true_and]

@[simp] theorem matchSegments_stars (path : List String) : matchSegments [.stars] path = true := by
  rw [matchSegments, any_eq_true]
  exact ⟨[], by simp, rfl⟩

theorem matchSegments_literals :
    matchSegments (known.map .literal ++ pattern) (known ++ more) = matchSegments pattern more := by
  induction known with
  | nil => rfl
  | cons s known ih =>
    rw [map_cons, cons_append, cons_append, matchSegments_literal, ih, decide_eq_true rfl,
      Bool.true_and]

theorem reaches_of_matchSegments (h : matchSegments pattern (known ++ more) = true) :
    reaches pattern known = true := by
  induction known generalizing pattern with
  | nil => cases pattern <;> rfl
  | cons s known ih =>
    cases pattern with
    | nil => cases h
    | cons segment pattern =>
      cases segment with
      | stars => rfl
      | pieces texts =>
        rw [cons_append, matchSegments, Bool.and_eq_true] at h
        rw [reaches, h.1, ih h.2]
        rfl

/-! ### What an ant pattern says -/

/-- A segment, with each `*` in it standing for any characters. -/
inductive Covers : (pattern text : List Char) → Prop
  | nil : Covers [] []
  | star (run : List Char) {pattern text : List Char} : Covers pattern text →
    Covers ('*' :: pattern) (run ++ text)
  | char {c : Char} (h : c ≠ '*') {pattern text : List Char} : Covers pattern text →
    Covers (c :: pattern) (c :: text)

/-- A path, with each `**` standing for any segments and each other segment for one. -/
inductive Spans : (pattern path : List String) → Prop
  | nil : Spans [] []
  | stars (run : List String) {pattern path : List String} : Spans pattern path →
    Spans ("**" :: pattern) (run ++ path)
  | segment {p s : String} {pattern path : List String} (hp : p ≠ "**")
    (hs : Covers p.toList s.toList) :
      Spans pattern path → Spans (p :: pattern) (s :: path)

theorem covers_append {text pattern s : List Char} (htext : '*' ∉ text) :
    Covers (text ++ pattern) s ↔ ∃ rest, s = text ++ rest ∧ Covers pattern rest := by
  induction text generalizing s with
  | nil => simp
  | cons c text ih =>
    obtain ⟨hc, htext⟩ := not_or.1 (mt mem_cons.2 htext)
    constructor
    · intro h
      cases h with
      | star => exact absurd rfl hc
      | char _ h =>
        obtain ⟨rest, rfl, hrest⟩ := (ih htext).1 h
        exact ⟨rest, rfl, hrest⟩
    · rintro ⟨rest, rfl, hrest⟩
      exact .char (Ne.symm hc) ((ih htext).2 ⟨rest, rfl, hrest⟩)

theorem matchSegment_cons {text next s : String} {rest : List String} : matchSegment
    (text :: next :: rest) s = true ↔
      ∃ run more : List Char, s.toList = text.toList ++ (run ++ more) ∧ matchSegment
      (next :: rest) (String.ofList more) = true := by
  rw [matchSegment]
  · constructor
    · intro h
      split at h
      · cases h
      · next afterPrefix hafter =>
        obtain ⟨_, hsuffix, h⟩ := any_eq_true.1 h
        obtain ⟨more, hmore, rfl⟩ := mem_map.1 hsuffix
        obtain ⟨run, hrun⟩ := (mem_tails _ _).1 hmore
        exact ⟨run, more, hrun ▸ Text.stripPrefix_eq_some.1 hafter, h⟩
    · rintro ⟨run, more, hs, h⟩
      rw [Text.stripPrefix_eq_some.2 (hs.trans (by rw [String.toList_ofList]))]
      refine any_eq_true.2 ⟨_, mem_map_of_mem ((mem_tails _ _).2 ?_), h⟩
      exact String.toList_ofList ▸ suffix_append run more
  · exact cons_ne_nil _ _

theorem matchSegment_iff {texts : List String} {s : String} (hne : texts ≠ [])
    (htexts : ∀ t ∈ texts, '*' ∉ t.toList) : matchSegment texts s = true ↔
    Covers (['*'].intercalate (texts.map String.toList)) s.toList := by
  induction texts generalizing s with
  | nil => exact absurd rfl hne
  | cons text rest ih =>
    obtain ⟨htext, hrest⟩ := forall_mem_cons.1 htexts
    cases rest with
    | nil =>
      have hcovers := @covers_append text.toList [] s.toList htext
      have hnil {rest : List Char} : Covers [] rest ↔ rest = [] := by
        constructor
        · intro h
          cases h
          rfl
        · rintro rfl
          exact .nil
      simp [matchSegment, hnil, String.ext_iff, eq_comm] at hcovers ⊢
      exact hcovers.symm
    | cons next rest =>
      rw [matchSegment_cons, map_cons, map_cons, intercalate_cons_cons, ← map_cons, append_assoc,
        covers_append htext]
      constructor
      · rintro ⟨run, more, hs, h⟩
        refine ⟨_, hs, .star run ?_⟩
        simpa using (ih (cons_ne_nil _ _) hrest).1 h
      · rintro ⟨_, hs, h⟩
        cases h with
        | star run h => exact ⟨run, _, hs, (ih (cons_ne_nil _ _) hrest).2 (by simpa using h)⟩
        | char hc => exact absurd rfl hc

theorem spans_cons {p : String} (hp : p ≠ "**") {pattern path : List String} :
    Spans (p :: pattern) path ↔ ∃ s rest, path = s :: rest ∧ Covers p.toList s.toList ∧
    Spans pattern rest := by
  constructor
  · intro h
    cases h with
    | stars => exact absurd rfl hp
    | segment _ hs h => exact ⟨_, _, rfl, hs, h⟩
  · rintro ⟨s, rest, rfl, hs, h⟩
    exact .segment hp hs h

theorem matchSegments_parse {pattern path : List String} :
    matchSegments (pattern.map Ant.parse) path = true ↔ Spans pattern path := by
  induction pattern generalizing path with
  | nil =>
    constructor
    · intro h
      rw [isEmpty_iff.1 h]
      exact .nil
    · intro h
      cases h
      rfl
  | cons p pattern ih =>
    rw [map_cons, Ant.parse]
    split
    · next hp =>
      subst hp
      rw [matchSegments, any_eq_true]
      constructor
      · rintro ⟨rest, hrest, h⟩
        obtain ⟨run, rfl⟩ := (mem_tails _ _).1 hrest
        exact .stars run (ih.1 h)
      · intro h
        cases h with
        | stars run h => exact ⟨_, (mem_tails _ _).2 (suffix_append _ _), ih.2 h⟩
        | segment hp => exact absurd rfl hp
    · next hp =>
      have hsegment (s : String) : matchSegment (Text.split '*' p) s = true ↔
          Covers p.toList s.toList := by
        rw [matchSegment_iff]
        · simp [Text.split, intercalate_splitOn]
        · simp [Text.split, splitOn_ne_nil]
        · intro t ht
          obtain ⟨piece, hpiece, rfl⟩ := mem_map.1 ht
          simpa using (Text.of_mem_splitOn hpiece).1
      rw [spans_cons hp]
      cases path <;> simp [matchSegments, hsegment, ih]

/-! ### Route tables -/

section Routes

inductive Segment where
  | literal (text : String)
  | param
  deriving DecidableEq

instance : Coe String Segment := ⟨.literal⟩

/-- A parameter stands for a segment that is not empty. -/
def Segment.Takes : Segment → String → Prop
  | .literal text, s => text = s
  | .param, s => s ≠ ""

/-- The path has the segments of the pattern. -/
inductive Fits : List Segment → List String → Prop
  | nil : Fits [] []
  | cons {segment : Segment} {s : String} {pattern : List Segment} {path : List String} :
      segment.Takes s → Fits pattern path → Fits (segment :: pattern) (s :: path)

/-- The first pattern names a segment where the second one, equal so far, has a parameter. -/
inductive Preferred : List Segment → List Segment → Prop
  | here {text : String} {pattern other : List Segment} :
    Preferred (.literal text :: pattern) (.param :: other)
  | there {segment : Segment} {pattern other : List Segment} :
      Preferred pattern other → Preferred (segment :: pattern) (segment :: other)

variable {pattern : List Segment} {segment : Segment} {path : List String}

theorem fits_cons : Fits (segment :: pattern) path ↔ ∃ s rest, path = s :: rest ∧ segment.Takes s ∧
    Fits pattern rest := by
  constructor
  · intro h
    cases h with
    | cons htakes hrest => exact ⟨_, _, rfl, htakes, hrest⟩
  · rintro ⟨s, rest, rfl, htakes, hrest⟩
    exact .cons htakes hrest

@[simp] theorem fits_nil : Fits [] path ↔ path = [] := by
  constructor
  · intro h
    cases h
    rfl
  · rintro rfl
    exact .nil

@[simp] theorem fits_literal : Fits (.literal text :: pattern) path ↔ ∃ rest, path = text :: rest ∧
    Fits pattern rest := by
  rw [fits_cons]
  constructor
  · rintro ⟨s, rest, rfl, rfl, hrest⟩
    exact ⟨rest, rfl, hrest⟩
  · rintro ⟨rest, rfl, hrest⟩
    exact ⟨text, rest, rfl, rfl, hrest⟩

@[simp] theorem fits_param : Fits (.param :: pattern) path ↔ ∃ s rest, path = s :: rest ∧ s ≠ "" ∧
    Fits pattern rest :=
  fits_cons

theorem Fits.ne_empty (h : Fits pattern path) (hpattern : .literal "" ∉ pattern) :
    ∀ s ∈ path, s ≠ "" := by
  induction h with
  | nil => nofun
  | @cons segment s pattern path htakes hfits ih =>
    have hs : s ≠ "" := by
      cases segment with
      | literal text =>
        rintro rfl
        obtain rfl : text = "" := htakes
        exact hpattern mem_cons_self
      | param => exact htakes
    intro t ht
    rcases mem_cons.1 ht with rfl | ht
    · exact hs
    · exact ih (fun hmem => hpattern (mem_cons_of_mem _ hmem)) t ht

variable {α : Type*}

/-- The routes whose first segment is this one, without it. -/
def after (segment : Segment) (table : List (List Segment × α)) : List (List Segment × α) :=
  table.filterMap fun
    | (first :: pattern, target) => if first = segment then some (pattern, target) else none
    | ([], _) => none

def find : List (List Segment × α) → List String → Option α
  | table, [] => (table.find? (·.1.isEmpty)).map Prod.snd
  | table, s :: path =>
      match find (after (.literal s) table) path with
      | some target => some target
      | none => if s = "" then none else find (after .param table) path

variable {table : List (List Segment × α)} {target : α}

theorem mem_after : (pattern, target) ∈ after segment table ↔
    (segment :: pattern, target) ∈ table := by
  rw [after, mem_filterMap]
  constructor
  · rintro ⟨⟨route, found⟩, hmem, hroute⟩
    cases route with
    | nil => cases hroute
    | cons first rest =>
      dsimp only at hroute
      split at hroute
      · next hfirst =>
        cases hroute
        exact hfirst ▸ hmem
      · cases hroute
  · intro h
    exact ⟨_, h, if_pos rfl⟩

theorem find_isSome (hmem : (pattern, target) ∈ table) (hfits : Fits pattern path) :
    (find table path).isSome = true := by
  induction hfits generalizing table with
  | nil =>
    rw [find, Option.isSome_map, find?_isSome]
    exact ⟨_, hmem, rfl⟩
  | @cons segment s pattern path htakes hfits ih =>
    have hfound := ih (mem_after.2 hmem)
    rw [find]
    cases segment with
    | literal text =>
      obtain rfl : text = s := htakes
      obtain ⟨found, hfound⟩ := Option.isSome_iff_exists.1 hfound
      rw [hfound]
      rfl
    | param =>
      split
      · rfl
      · rwa [if_neg htakes]

theorem find_eq_some (h : find table path = some target) : ∃ pattern, (pattern, target) ∈ table ∧
    Fits pattern path ∧
      ∀ other found, (other, found) ∈ table → Fits other path → ¬ Preferred other pattern := by
  induction path generalizing table with
  | nil =>
    obtain ⟨⟨pattern, found⟩, hfind, rfl⟩ := Option.map_eq_some_iff.1 h
    obtain rfl : pattern = [] := isEmpty_iff.1 (find?_some hfind :)
    exact ⟨[], mem_of_find?_eq_some hfind, .nil, fun _ _ _ _ hpreferred => by cases hpreferred⟩
  | cons s path ih =>
    rw [find] at h
    split at h
    · next found hfound =>
      cases h
      obtain ⟨pattern, hmem, hfits, hfirst⟩ := ih hfound
      refine ⟨.literal s :: pattern, mem_after.1 hmem, .cons rfl hfits,
        fun other found hother hfits hpreferred => ?_⟩
      cases hpreferred with
      | there hpreferred =>
        cases hfits with
        | cons _ hfits => exact hfirst _ _ (mem_after.2 hother) hfits hpreferred
    · next hnone =>
      split at h
      · cases h
      · next hs =>
        obtain ⟨pattern, hmem, hfits, hfirst⟩ := ih h
        refine ⟨.param :: pattern, mem_after.1 hmem, .cons hs hfits,
          fun other found hother hfits hpreferred => ?_⟩
        cases hpreferred with
        | here =>
          cases hfits with
          | cons htakes hfits =>
            cases htakes
            exact absurd (find_isSome (mem_after.2 hother) hfits) (by simp [hnone])
        | there hpreferred =>
          cases hfits with
          | cons _ hfits => exact hfirst _ _ (mem_after.2 hother) hfits hpreferred

end Routes

end Paths
