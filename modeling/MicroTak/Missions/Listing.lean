import MicroTak.Lib.Sorting
import MicroTak.Missions.Server

/-!
# What a caller sees of the missions

The list of missions, and the lookup of one by name, against the same store without the missions
outside the caller's groups.  The list takes one mission of each name, the newest, before it asks
which ones the caller may see, so a newer mission of another group can hide one of the caller's.  A
lookup that finds nothing tells a deleted name from an unknown one by the missions of every group.
-/

namespace MicroTak.Missions

open Std Sorting Text List MissionMap State

structure ListQuery where
  passwordProtected : Bool := false
  defaultRole : Bool := false
  tool : Option String := none

def ListQuery.toolName (query : ListQuery) : String := (query.tool.filter (· ≠ "")).getD "public"

/-- No mission by invitation only, and those with a password or another default role only if they
are asked for. -/
def MissionRecord.listed (query : ListQuery) (mission : MissionRecord) : Bool :=
  !mission.inviteOnly && (query.passwordProtected || !mission.passwordProtected) &&
    (query.defaultRole || mission.defaultRole = none || mission.defaultRole = some .subscriber) &&
    mission.tool = query.toolName

structure MissionJson where
  name : String
  fields : MissionFields
  tool : String
  keywords : Finset String
  creatorUid : String
  createTimeMs : Int
  lastEditedMs : Int
  groups : Finset String
  externalData : List ExternalDataRecord
  feeds : List MissionFeedRecord
  mapLayers : List MapLayerRecord
  defaultRole : Option Role
  inviteOnly : Bool
  guid : String
  contents : List ContentAdd
  passwordProtected : Bool

def nameOrder (a b : MissionRecord) : Prop := a.name < b.name ∨
    (a.name = b.name ∧ a.createTimeMs ≤ b.createTimeMs)

instance : DecidableRel nameOrder := fun a b =>
  inferInstanceAs
    (Decidable (a.name < b.name ∨ (a.name = b.name ∧ a.createTimeMs ≤ b.createTimeMs)))

def newerFirst (a b : MissionRecord) : Prop := b.createTimeMs ≤ a.createTimeMs

instance : DecidableRel newerFirst := fun a b =>
    inferInstanceAs (Decidable (b.createTimeMs ≤ a.createTimeMs))

namespace State

variable (state : State)

def list : List MissionRecord := (state.missions.values.filter (!·.deleted)).insertionSort nameOrder

def candidates (query : ListQuery) : List MissionRecord :=
  (state.list.filter (·.listed query)).insertionSort newerFirst

end State

namespace Caller

variable (caller : Caller) (state : State)

def groupsSeen (mission : MissionRecord) : Finset String :=
  if caller.admin then mission.groups else mission.groups ∩ caller.groups

/-- The mission as the list shows it, without its content where it has a password. -/
def missionJson (mission : MissionRecord) : MissionJson where
  name := mission.name
  fields := mission.fields
  tool := mission.tool
  keywords := mission.keywords
  creatorUid := mission.creatorUid
  createTimeMs := mission.createTimeMs
  lastEditedMs := mission.lastEditedMs
  groups := caller.groupsSeen mission
  externalData := state.data.externalDataOf mission.guid
  feeds := state.data.missionFeedsOf mission.guid
  mapLayers := state.data.mapLayersOf mission.guid
  defaultRole := mission.defaultRole
  inviteOnly := mission.inviteOnly
  guid := mission.guid
  contents := if mission.passwordProtected then [] else mission.contents
  passwordProtected := mission.passwordProtected

/-- The missions of the list, one for each name in lower case, in the order of those names. -/
def listed (lower : String → String) (query : ListQuery) : List MissionRecord :=
  ((firsts (fun mission => lower mission.name) (state.candidates query)).toList.map Prod.snd).filter
    caller.visible

def listMissions (lower : String → String) (query : ListQuery) : List MissionJson :=
  (caller.listed state lower query).map (caller.missionJson state)

end Caller

private theorem MissionMap.keyed_empty (guid : String) (mission : MissionRecord)
    (h : (∅ : TreeMap String MissionRecord)[guid]? = some mission) : mission.guid = guid := by
  simp at h

def MissionMap.empty : MissionMap := ⟨∅, keyed_empty⟩

def MissionMap.only (p : MissionRecord → Bool) (missions : MissionMap) : MissionMap :=
  (missions.values.filter p).foldl insert .empty

/-- The store without the missions outside the caller's groups. -/
def State.within (caller : Caller) (state : State) : State :=
  { state with missions := state.missions.only caller.visible }

namespace MissionMap

variable {missions : MissionMap} {p : MissionRecord → Bool}

theorem getElem?_foldl_insert (l : List MissionRecord) (guid : String)
    (hnodup : l.Pairwise fun a b => a.guid ≠ b.guid) :
    (l.foldl insert missions).byGuid[guid]? =
    (l.find? (·.guid = guid)).or missions.byGuid[guid]? := by
  induction l generalizing missions with
  | nil => simp
  | cons mission rest ih =>
    obtain ⟨hhead, hrest⟩ := pairwise_cons.1 hnodup
    rw [foldl_cons, ih hrest, getElem?_insert]
    by_cases hguid : mission.guid = guid
    · have hnone : rest.find? (·.guid = guid) = none := by
        refine find?_eq_none.2 fun other hother => ?_
        simpa using fun h => hhead other hother (hguid.trans h.symm)
      simp [hguid, hnone]
    · simp [hguid]

theorem pairwise_values : missions.values.Pairwise fun a b => a.guid < b.guid := by
  refine pairwise_map.2 ?_
  refine (TreeMap.ordered_keys_toList (t := missions.byGuid)).imp_of_mem fun {a b} ha hb hlt => ?_
  rw [missions.keyed a.1 a.2 (TreeMap.mem_toList_iff_getElem?_eq_some.1 ha),
    missions.keyed b.1 b.2 (TreeMap.mem_toList_iff_getElem?_eq_some.1 hb)]
  exact compareOfLessAndEq_eq_lt.1 hlt

private theorem eq_of_guid {a b : MissionRecord} (ha : a ∈ missions.values)
    (hb : b ∈ missions.values) (h : a.guid = b.guid) : a = b := by
  rw [mem_values] at ha hb
  rw [h, hb] at ha
  exact (Option.some.inj ha).symm

theorem mem_values_only {mission : MissionRecord} :
    mission ∈ (missions.only p).values ↔ mission ∈ missions.values ∧ p mission = true := by
  have hnodup : (missions.values.filter p).Pairwise fun a b => a.guid ≠ b.guid :=
    (missions.pairwise_values.filter p).imp fun h heq => absurd (heq ▸ h) (String.lt_irrefl _)
  rw [mem_values, only, getElem?_foldl_insert _ _ hnodup, show (empty.byGuid[mission.guid]?) =
    none from TreeMap.getElem?_emptyc, Option.or_none, ← mem_filter]
  constructor
  · exact mem_of_find?_eq_some
  · intro hmem
    cases hfound : (missions.values.filter p).find? (·.guid = mission.guid) with
    | none => exact absurd (find?_eq_none.1 hfound mission hmem) (by simp)
    | some other =>
      have hother := mem_filter.1 (mem_of_find?_eq_some hfound)
      have hguid : other.guid = mission.guid := by simpa using find?_some hfound
      rw [missions.eq_of_guid hother.1 (mem_filter.1 hmem).1 hguid]

theorem values_only : (missions.only p).values = missions.values.filter p := by
  have hnodup {missions : MissionMap} : missions.values.Nodup :=
    missions.pairwise_values.imp fun h heq => absurd (heq ▸ h) (String.lt_irrefl _)
  refine List.Perm.eq_of_pairwise (fun a b _ _ hab hba => absurd hab (String.lt_asymm hba))
    pairwise_values (pairwise_values.filter p) ?_
  refine (perm_ext_iff_of_nodup hnodup (hnodup.filter p)).2 fun mission => ?_
  rw [mem_values_only, mem_filter]

end MissionMap

/-! ### The order of the list -/

/-- The order in which the list looks at the missions: the newer first, and of those as old by name
and guid. -/
def MissionRecord.Ahead (a b : MissionRecord) : Prop :=
  b.createTimeMs < a.createTimeMs ∨
    (a.createTimeMs = b.createTimeMs ∧ (a.name < b.name ∨ (a.name = b.name ∧ a.guid < b.guid)))

instance : DecidableRel MissionRecord.Ahead := fun a b =>
  inferInstanceAs (Decidable (b.createTimeMs < a.createTimeMs ∨
    (a.createTimeMs = b.createTimeMs ∧ (a.name < b.name ∨ (a.name = b.name ∧ a.guid < b.guid)))))

theorem MissionRecord.Ahead.asymm {a b : MissionRecord} (h : a.Ahead b) : ¬ b.Ahead a := by
  rintro (htime | ⟨htime, hname | ⟨hname, hguid⟩⟩)
  · rcases h with h | ⟨h, -⟩ <;> omega
  · rcases h with h | ⟨-, h | ⟨h, -⟩⟩
    · omega
    · exact String.lt_asymm h hname
    · exact absurd (h ▸ hname) (String.lt_irrefl _)
  · rcases h with h | ⟨-, h | ⟨-, h⟩⟩
    · omega
    · exact absurd (hname ▸ h) (String.lt_irrefl _)
    · exact String.lt_asymm h hguid

theorem MissionRecord.Ahead.trans {a b c : MissionRecord} (hab : a.Ahead b) (hbc : b.Ahead c) :
    a.Ahead c := by
  rcases hab with hab | ⟨hab, htie⟩ <;> rcases hbc with hbc | ⟨hbc, htie'⟩
  · exact .inl (by omega)
  · exact .inl (by omega)
  · exact .inl (by omega)
  · refine .inr ⟨hab.trans hbc, ?_⟩
    rcases htie with hname | ⟨hname, hguid⟩ <;> rcases htie' with hname' | ⟨hname', hguid'⟩
    · exact .inl (String.lt_trans hname hname')
    · exact .inl (hname' ▸ hname)
    · exact .inl (hname ▸ hname')
    · exact .inr ⟨hname.trans hname', String.lt_trans hguid hguid'⟩

instance : Std.Total nameOrder where
  total a b := by
    rcases Std.lt_trichotomy a.name b.name with h | h | h
    · exact .inl (.inl h)
    · exact (Int.le_total a.createTimeMs b.createTimeMs).imp (fun ht => .inr ⟨h, ht⟩) fun ht =>
        .inr ⟨h.symm, ht⟩
    · exact .inr (.inl h)

instance : IsTrans MissionRecord nameOrder where
  trans a b c hab hbc := by
    rcases hab with hab | ⟨hab, htab⟩ <;> rcases hbc with hbc | ⟨hbc, htbc⟩
    · exact .inl (String.lt_trans hab hbc)
    · exact .inl (hbc ▸ hab)
    · exact .inl (hab ▸ hbc)
    · exact .inr ⟨hab.trans hbc, htab.trans htbc⟩

instance : Std.Total newerFirst where
  total a b := Int.le_total b.createTimeMs a.createTimeMs

instance : IsTrans MissionRecord newerFirst where
  trans _ _ _ hab hbc := Int.le_trans hbc hab

/-- The missions of the list before the question which of them the caller may see. -/
def State.Offers (state : State) (query : ListQuery) (mission : MissionRecord) : Prop :=
  mission ∈ state.missions.values ∧ mission.deleted = false ∧ mission.listed query = true

theorem State.mem_candidates {state : State} {query : ListQuery} {mission : MissionRecord} :
    mission ∈ state.candidates query ↔ state.Offers query mission := by
  simp [candidates, list, Offers, and_assoc]

private theorem State.pairwise_candidates (state : State) (query : ListQuery) :
    (state.candidates query).Pairwise MissionRecord.Ahead := by
  have hlist : state.list.Pairwise (Then nameOrder fun a b => a.guid < b.guid) :=
    pairwise_insertionSort_stable (state.missions.pairwise_values.filter _)
  have hsorted : (state.candidates query).Pairwise
      (Then newerFirst (Then nameOrder fun a b => a.guid < b.guid)) :=
    pairwise_insertionSort_stable (hlist.filter _)
  refine hsorted.imp fun {a b} ⟨hnewer, htie⟩ => ?_
  by_cases htime : b.createTimeMs < a.createTimeMs
  · exact .inl htime
  · have heq : a.createTimeMs = b.createTimeMs := Int.le_antisymm (Int.not_lt.1 htime) hnewer
    obtain ⟨hname, hguid⟩ := htie (Int.le_of_eq heq)
    refine .inr ⟨heq, hname.imp id fun h => ⟨h.1, hguid (.inr ⟨h.1.symm, ?_⟩)⟩⟩
    exact Int.le_of_eq heq.symm

/-! ### The list -/

section List

variable {lower : String → String} {state : State} {query : ListQuery} {caller : Caller}
  {mission : MissionRecord}

/-- The mission the list keeps of a name: the one ahead of all others of that name. -/
theorem first_eq_some {k : String} :
    (firsts (fun mission => lower mission.name) (state.candidates query))[k]? = some mission ↔
      state.Offers query mission ∧ lower mission.name = k ∧
        ∀ other, state.Offers query other → lower other.name = k → other ≠ mission →
        mission.Ahead other := by
  rw [getElem?_firsts,
    find?_eq_some_iff_first (fun _ _ => MissionRecord.Ahead.asymm)
      (state.pairwise_candidates query)]
  simp [mem_candidates]

theorem exists_first (lower : String → String) (h : state.Offers query mission) :
    ∃ first, (firsts (fun mission => lower mission.name)
      (state.candidates query))[lower mission.name]? = some first := by
  rw [← Option.isSome_iff_exists, getElem?_firsts, find?_isSome]
  exact ⟨mission, mem_candidates.2 h, by simp⟩

theorem offers_within : (state.within caller).Offers query mission ↔ state.Offers query mission ∧
    caller.visible mission = true := by
  simp only [State.Offers, within, mem_values_only]
  tauto

/-- Whenever a mission outside the caller's groups shares its name with one inside, such a one comes
before it. -/
def State.Unhidden (lower : String → String) (state : State) (caller : Caller)
    (query : ListQuery) : Prop :=
  ∀ hidden, state.Offers query hidden → caller.visible hidden = false →
    ∀ mission, state.Offers query mission → caller.visible mission = true →
      lower mission.name = lower hidden.name → ∃ other, state.Offers query other ∧
        caller.visible other = true ∧ lower other.name = lower hidden.name ∧ other.Ahead hidden

/-- Name by name, the list shows the first mission the caller may see. -/
theorem firsts_within_iff : (∀ k : String,
      ((firsts (fun mission => lower mission.name)
        ((state.within caller).candidates query))[k]?).filter caller.visible =
        ((firsts (fun mission => lower mission.name) (state.candidates query))[k]?).filter
        caller.visible) ↔
      state.Unhidden lower caller query := by
  constructor
  · intro heq hidden hhidden hout mission hmission hin hname
    obtain ⟨first, hfirst⟩ := exists_first lower (offers_within.2 ⟨hmission, hin⟩)
    have hspec := first_eq_some.1 hfirst
    obtain ⟨hoffer, hvisible⟩ := offers_within.1 hspec.1
    have hfull := heq (lower mission.name)
    rw [hfirst, Option.filter_some, if_pos hvisible, eq_comm, Option.filter_eq_some_iff] at hfull
    have hahead := (first_eq_some.1 hfull.1).2.2
    refine ⟨first, hoffer, hvisible, hspec.2.1.trans hname, hahead hidden hhidden hname.symm ?_⟩
    rintro rfl
    rw [hout] at hvisible
    cases hvisible
  · intro hunhidden k
    refine Option.ext fun mission => ?_
    simp only [Option.filter_eq_some_iff, first_eq_some, offers_within]
    constructor
    · rintro ⟨⟨⟨hoffer, -⟩, hname, hahead⟩, hvisible⟩
      refine ⟨⟨hoffer, hname, fun other hother hsame hne => ?_⟩, hvisible⟩
      by_cases hin : caller.visible other = true
      · exact hahead other ⟨hother, hin⟩ hsame hne
      · obtain ⟨before, hbefore, hseen, hbeforeName, hbeforeAhead⟩ :=
          hunhidden other hother (by simpa using hin) mission hoffer hvisible
            (hname.trans hsame.symm)
        by_cases hfirst : before = mission
        · exact hfirst ▸ hbeforeAhead
        · exact (hahead before ⟨hbefore, hseen⟩ (hbeforeName.trans hsame) hfirst).trans hbeforeAhead
    · rintro ⟨⟨hoffer, hname, hahead⟩, hvisible⟩
      exact ⟨⟨⟨hoffer, hvisible⟩, hname, fun other hother => hahead other hother.1⟩, hvisible⟩

theorem mem_listed : mission ∈ caller.listed state lower query ↔
      (firsts (fun mission => lower mission.name) (state.candidates query))[lower mission.name]? =
      some mission ∧
        caller.visible mission = true := by
  simp only [Caller.listed, mem_filter, mem_map, Prod.exists, exists_eq_right,
    TreeMap.mem_toList_iff_getElem?_eq_some]
  refine and_congr_left' ⟨?_, fun h => ⟨_, h⟩⟩
  rintro ⟨k, hk⟩
  obtain rfl := (first_eq_some.1 hk).2.1
  exact hk

theorem listed_of_listMissions
    (h : caller.listMissions (state.within caller) lower query =
      caller.listMissions state lower query) :
    caller.listed (state.within caller) lower query = caller.listed state lower query := by
  have hguids : (caller.listed (state.within caller) lower query).map (·.guid) =
      (caller.listed state lower query).map (·.guid) := by
    simpa [Caller.listMissions, Function.comp_def, Caller.missionJson] using
      congrArg (List.map MissionJson.guid) h
  -- Every mission of either list is read off the store by its guid.
  have hread {l : List MissionRecord} (hl : ∀ mission ∈ l, mission ∈ state.missions.values) :
      l.map some = (l.map (·.guid)).map (state.missions.byGuid[·]?) := by
    rw [map_map]
    exact map_congr_left fun mission hmem => (state.missions.mem_values.1 (hl mission hmem)).symm
  have hoffers {other : State} {mission : MissionRecord}
      (hmem : mission ∈ caller.listed other lower query) : other.Offers query mission :=
    (first_eq_some.1 (mem_listed.1 hmem).1).1
  refine map_injective_iff.2 (Option.some_injective _) ?_
  rw [hread fun mission hmem => (offers_within.1 (hoffers hmem)).1.1, hread fun mission hmem =>
    (hoffers hmem).1, hguids]

end List

/-! ### The lookup by name -/

section Lookup

variable {state : State} {caller : Caller} {name : String}

def State.Named (state : State) (name : String) (mission : MissionRecord) : Prop :=
  mission ∈ state.missions.values ∧ mission.name = Text.trim (Text.trim name)

/-- The caller finds a mission of the name, or all that is left of the name in other groups agrees
with what the caller's own groups say: deleted where the caller's are, in use or unknown where the
caller has none. -/
def State.Settled (state : State) (caller : Caller) (name : String) : Prop :=
  Text.trim name = "" ∨
  (∃ mission, state.Named name mission ∧ caller.visible mission = true ∧ mission.deleted = false) ∨
  ((∃ mission, state.Named name mission ∧ caller.visible mission = true) ∧
    ∀ mission, state.Named name mission → caller.visible mission = false → mission.deleted = true) ∨
  ((∀ mission, state.Named name mission → caller.visible mission = false) ∧
    ((∀ mission, ¬ state.Named name mission) ∨ ∃ mission, state.Named name mission ∧
      mission.deleted = false))

theorem byName_within (name : String) :
    (state.within caller).byName name caller.visible = state.byName name caller.visible := by
  simp only [byName, within, values_only, filter_filter]
  refine congrArg newest (filter_congr fun mission _ => ?_)
  cases caller.visible mission <;> simp

theorem newest_eq_none {missions : List MissionRecord} : newest missions = none ↔
    missions = [] := by
  cases missions with
  | nil => simp [newest]
  | cons mission rest =>
    rw [newest]
    split
    · simp
    · split <;> simp

theorem byName_eq_none : state.byName (trim name) caller.visible = none ↔
      ∀ mission, state.Named name mission → caller.visible mission = true →
      mission.deleted = true := by
  simp only [byName, newest_eq_none, filter_eq_nil_iff]
  refine forall_congr' fun mission => ⟨fun h hnamed hvisible => ?_, fun h hmem hkept => ?_⟩
  · by_contra hdeleted
    exact h hnamed.1 (by simp [hdeleted, hnamed.2, hvisible])
  · simp only [Bool.and_eq_true, decide_eq_true_eq] at hkept
    rw [h ⟨hmem, hkept.1.2⟩ hkept.2] at hkept
    cases hkept.1.1

theorem isDeletedName_iff : state.isDeletedName (trim name) = true ↔
      (∃ mission, state.Named name mission) ∧ ∀ mission, state.Named name mission →
      mission.deleted = true := by
  simp only [isDeletedName, State.Named, Bool.and_eq_true, Bool.not_eq_true',
    isEmpty_eq_false_iff_exists_mem, all_eq_true, mem_filter, decide_eq_true_eq]

theorem named_within {mission : MissionRecord} :
    (state.within caller).Named name mission ↔ state.Named name mission ∧
    caller.visible mission = true := by
  simp only [State.Named, within, mem_values_only]
  tauto

/-- Every mission of the name is deleted, and there are some. -/
def State.AllGone (state : State) (name : String) : Prop :=
  (∃ mission, state.Named name mission) ∧ ∀ mission, state.Named name mission →
    mission.deleted = true

theorem settled_iff_of_seen {seen : MissionRecord} (hblank : trim name ≠ "")
    (hgone : ∀ mission, state.Named name mission → caller.visible mission = true →
      mission.deleted = true)
    (hnamed : state.Named name seen) (hvisible : caller.visible seen = true) :
    state.Settled caller name ↔ state.AllGone name := by
  constructor
  · rintro (h | ⟨mission, hm, hin, hdeleted⟩ | ⟨-, h⟩ | ⟨h, -⟩)
    · exact absurd h hblank
    · simp [hgone mission hm hin] at hdeleted
    · refine ⟨⟨seen, hnamed⟩, fun mission hm => ?_⟩
      cases hin : caller.visible mission with
      | true => exact hgone mission hm hin
      | false => exact h mission hm hin
    · simp [h seen hnamed] at hvisible
  · intro h
    exact .inr (.inr (.inl ⟨⟨seen, hnamed, hvisible⟩, fun mission hm _ => h.2 mission hm⟩))

theorem settled_iff_of_unseen (hblank : trim name ≠ "")
    (hnone : ∀ mission, state.Named name mission → caller.visible mission = false) :
    state.Settled caller name ↔ ¬ state.AllGone name := by
  constructor
  · rintro (h | ⟨mission, hm, hin, -⟩ | ⟨⟨mission, hm, hin⟩, -⟩ | ⟨-, h⟩)
    · exact absurd h hblank
    · simp [hnone mission hm] at hin
    · simp [hnone mission hm] at hin
    · rintro ⟨⟨mission, hm⟩, hdeleted⟩
      rcases h with h | ⟨other, hother, hundeleted⟩
      · exact h mission hm
      · simp [hdeleted other hother] at hundeleted
  · intro h
    refine .inr (.inr (.inr ⟨hnone, ?_⟩))
    by_contra hneither
    push Not at hneither
    exact h ⟨hneither.1, fun mission hm => by simpa using hneither.2 mission hm⟩

end Lookup

/-- What a caller sees of the missions does not depend on those of other groups, exactly as long as
no name is shared with them in a way that tells. -/
theorem unseen_missions_without_influence_iff (lower : String → String) (state : State)
    (caller : Caller) (query : ListQuery) (name : String) :
    (caller.listMissions (state.within caller) lower query = caller.listMissions state lower query ∧
      caller.lookupName (state.within caller) false name = caller.lookupName state false name) ↔
    (state.Unhidden lower caller query ∧ state.Settled caller name) := by
  refine and_congr ?_ ?_
  · rw [← firsts_within_iff]
    constructor
    · intro h k
      have hlisted := listed_of_listMissions h
      have hmem {mission : MissionRecord} := congrArg (mission ∈ ·) hlisted
      simp only [mem_listed, eq_iff_iff] at hmem
      refine Option.ext fun mission => ?_
      simp only [Option.filter_eq_some_iff]
      constructor
      · rintro ⟨hfirst, hvisible⟩
        obtain rfl := (first_eq_some.1 hfirst).2.1
        exact hmem.1 ⟨hfirst, hvisible⟩
      · rintro ⟨hfirst, hvisible⟩
        obtain rfl := (first_eq_some.1 hfirst).2.1
        exact hmem.2 ⟨hfirst, hvisible⟩
    · intro h
      have hlisted : caller.listed (state.within caller) lower query =
          caller.listed state lower query := filter_values_eq h
      simp only [Caller.listMissions, hlisted]
      rfl
  · unfold Caller.lookupName
    rw [byName_within]
    by_cases hblank : trim name = ""
    · simp [hblank, State.Settled]
    · rw [if_neg hblank, if_neg hblank]
      cases hfound : state.byName (trim name) caller.visible with
      | some mission =>
        obtain ⟨hthere, hdeleted, hname, hvisible⟩ := state.byName_spec hfound
        have hnamed : state.Named name mission := ⟨state.missions.mem_values.2 hthere, hname⟩
        simp only [true_iff]
        exact .inr (.inl ⟨mission, hnamed, hvisible, hdeleted⟩)
      | none =>
        -- Nothing is found; what remains is whether both answer 410 or both 404.
        have hgone := byName_eq_none.1 hfound
        have hwithin : (state.within caller).isDeletedName (trim name) = true ↔
            ∃ mission, state.Named name mission ∧ caller.visible mission = true := by
          rw [isDeletedName_iff]
          simp only [named_within, and_imp]
          exact and_iff_left hgone
        by_cases hseen : ∃ mission, state.Named name mission ∧ caller.visible mission = true
        · obtain ⟨seen, hnamed, hvisible⟩ := hseen
          rw [settled_iff_of_seen hblank hgone hnamed hvisible, State.AllGone, ← isDeletedName_iff]
          cases hfull : state.isDeletedName
            (trim name) <;> simp [hwithin.2 ⟨seen, hnamed, hvisible⟩]
        · have hnone : ∀ mission, state.Named name mission → caller.visible mission = false :=
            fun mission hm =>
            Bool.eq_false_iff.2 fun hin => hseen ⟨mission, hm, hin⟩
          rw [settled_iff_of_unseen hblank hnone, State.AllGone, ← isDeletedName_iff]
          have hfalse := Bool.eq_false_iff.2 (mt hwithin.1 hseen)
          cases hfull : state.isDeletedName (trim name) <;> simp [hfalse]

namespace TwoGroups

def mission (guid : String) (groups : Finset String) (createTimeMs : Int) (deleted : Bool) :
    MissionRecord :=
  { id := 1, guid, name := "Ops", fields := {}, tool := "public", creatorUid := "u", createTimeMs
    lastEditedMs := createTimeMs, groups, passwordHash := none, defaultRole := none, inviteOnly :=
      false, deleted }

def caller : Caller :=
  { username := "jz", admin := false, groups := {"Blue"}, token := none, apiVersion := 2 }

/-- One mission of the caller's group, and a newer one of the same name in another group. -/
def state : State :=
  { missions := (empty.insert (mission "a" {"Blue"} 1 false)).insert (mission "b" {"Red"} 2 false) }

def gone : State := { missions := empty.insert (mission "a" {"Red"} 1 true) }

end TwoGroups

open TwoGroups in
/-- The newer mission hides the caller's, and a deleted name of another group is told from an
unknown one. -/
theorem unseen_missions_tell : (caller.listMissions (state.within caller) toAsciiLowercase {}).map
    (·.guid) = ["a"] ∧ (caller.listMissions state toAsciiLowercase {}).map (·.guid) = [] ∧
    caller.lookupName (gone.within caller) false "Ops" = .error .noMission ∧
    caller.lookupName gone false "Ops" = .error .missionGone := by
  decide +kernel

end MicroTak.Missions
