import Mathlib.Data.List.Sort
import MicroTak.Lib.Grouping
import MicroTak.Missions.Invariants

/-!
# The squashed changes of a mission

The list of changes that a client is shown in place of all of them: of the changes of one kind to
one content by one creator a single row, and only where it agrees with the content the mission has
now.
-/

namespace MicroTak.Missions

open Std Journal Transition Grouping List ChangeRecord

/-- The rows that the loop of `changes` collects: as they are, by content or by external data. -/
inductive Lane where
  | lifecycle
  | squashed
  | external
  deriving DecidableEq

namespace ChangeRecord

def join (entry change : ChangeRecord) : ChangeRecord :=
  { entry with
    id := max entry.id change.id
    timestampMs := max entry.timestampMs change.timestampMs
    serverTimeMs := max entry.serverTimeMs change.serverTimeMs }

def contentKey (change : ChangeRecord) : Bool × Option Content × String :=
  (change.changeType = .addContent, change.content, change.creatorUid)

def externalKey (change : ChangeRecord) : Bool × Option ExternalDataChange × String :=
  (change.changeType = .addContent, change.externalData, change.creatorUid)

theorem contentKey_join (row change : ChangeRecord) :
    (row.join change).contentKey = row.contentKey := rfl

/-- The rows a change is collected in, if any. -/
def lane (mission : MissionRecord) (latestCreate : Option Int) (change : ChangeRecord) :
    Option Lane :=
  match change.changeType, change.content with
  | .createMission, _ | .deleteMission, _ =>
    if latestCreate.all (· ≤ change.timestampMs) then some .lifecycle else none
  | kind, none =>
      if change.timestampMs < mission.createTimeMs then none
      else if change.mapLayerUid.isSome then some .lifecycle
      else if (kind = .createDataFeed ∨ kind = .deleteDataFeed) ∧
        change.missionFeedUid.isSome then some .lifecycle
      else if change.externalData.isSome then some .external
      else none
  | kind, some content =>
      if change.timestampMs < mission.createTimeMs then none
      else if decide (kind = .addContent) ≠ mission.has content then none
      else some .squashed

end ChangeRecord

section Squash

variable (mission : MissionRecord) (latestCreate : Option Int) (mine : List ChangeRecord)

def collected (lane : Lane) : List ChangeRecord := mine.filter fun change =>
    change.lane mission latestCreate = some lane

def contentRows : List ChangeRecord :=
  group contentKey .join (collected mission latestCreate mine .squashed)

def externalRows : List ChangeRecord :=
  group externalKey .join (collected mission latestCreate mine .external)

/-- The three collections of the loop over `mine`. -/
def squash : List ChangeRecord :=
  collected mission latestCreate mine .lifecycle ++ contentRows mission latestCreate mine ++
    externalRows mission latestCreate mine

end Squash

/-- The mission's changes in the window, newest first. -/
def State.changes (state : State) (guid : String) (window : Window) (squashed : Bool) :
    Except MissionError (List ChangeRecord) :=
  match state.byGuid guid with
  | none => .error (.notFound guid)
  | some mission =>
      let mine := state.data.changes.filter fun c =>
        c.missionGuid = guid && window.contains c.serverTimeMs
      let latestCreate :=
        ((state.data.changes.filter fun c => c.missionGuid = guid && c.changeType =
          .createMission).map (·.timestampMs)).max?
      let result := if squashed then squash mission latestCreate mine else mine
      .ok (result.insertionSort fun a b => b.id ≤ a.id)

/-! ### What the rows say -/

/-- Changes of one kind, content and creator. -/
def ChangeRecord.Alike (change row : ChangeRecord) : Prop :=
  change.changeType = row.changeType ∧ change.content = row.content ∧
    change.creatorUid = row.creatorUid

/-- The row carries the largest value of the changes like it. -/
def ChangeRecord.HasLatest {β : Type} [LE β] (f : ChangeRecord → β) (log : List ChangeRecord)
    (row : ChangeRecord) : Prop :=
  (∃ change ∈ log, change.Alike row ∧ f change = f row) ∧ ∀ change ∈ log, change.Alike row →
    f change ≤ f row

def OnContent (kind : ChangeType) (content : Content) (changes : List ChangeRecord) : Prop :=
  ∃ change ∈ changes, change.changeType = kind ∧ change.content = some content

/-- The rows describe a mission with these changes. -/
structure MissionRecord.DescribedBy (mission : MissionRecord) (log rows : List ChangeRecord) :
    Prop where
  ids : rows.Pairwise (·.id > ·.id)
  added : ∀ content, OnContent .addContent content rows ↔ mission.has content = true
  removed : ∀ content, OnContent .removeContent content rows ↔
    OnContent .removeContent content log ∧ mission.has content = false
  latest : ∀ row ∈ rows, row.content ≠ none →
    row.HasLatest (·.id) log ∧ row.HasLatest (·.timestampMs) log ∧
      row.HasLatest (·.serverTimeMs) log

/-- A content is changed by its addition or its removal. -/
def ChangeRecord.Sorted (change : ChangeRecord) : Prop :=
  change.content ≠ none → change.changeType = .addContent ∨ change.changeType = .removeContent

section Log

variable {state : State} {change : ChangeRecord} {changes : List ChangeRecord} {guid : String}

theorem sorted_concat (h : ∀ change ∈ changes, change.Sorted) (hchange : change.Sorted) :
    ∀ other ∈ changes ++ [change], other.Sorted := by
  intro other hother
  rcases mem_append.1 hother with hother | hother
  · exact h other hother
  · exact mem_singleton.1 hother ▸ hchange

private theorem sorted_noteChange (h : ∀ change ∈ state.data.changes, change.Sorted)
    (hchange : change.Sorted) : ∀ other ∈ (state.noteChange change).data.changes, other.Sorted := by
  rw [State.noteChange]
  split
  · exact sorted_concat h hchange
  · exact h

theorem sorted_apply (h : ∀ change ∈ state.data.changes, change.Sorted) (event : Event) :
    ∀ change ∈ (state.apply event).data.changes, change.Sorted := by
  cases event with
  | created => exact sorted_concat h fun hcontent => (hcontent rfl).elim
  | deleted => exact sorted_noteChange h fun hcontent => (hcontent rfl).elim
  | contentAdded => exact sorted_noteChange h fun _ => .inl rfl
  | contentRemoved => exact sorted_noteChange h fun _ => .inr rfl
  | data event =>
    show ∀ change ∈ (state.data.apply _ event).changes, change.Sorted
    cases hid : event.changeId with
    | none =>
      rw [(state.data.apply_changeId_none hid _).1]
      exact h
    | some changeId =>
      obtain ⟨change, -, -, hcontent, hchanges, -⟩ := state.data.apply_changeId_some hid _
      rw [hchanges]
      exact sorted_concat h fun hne => (hne hcontent).elim
  | subscriptionRoleSet | unsubscribed =>
    rw [State.apply]
    split <;> exact h
  | _ => exact h

theorem onContent_of_mem {content : Content}
    (h : content ∈ (contentsAfter guid changes).map (·.content)) :
    OnContent .addContent content (changes.filter (·.missionGuid = guid)) := by
  induction changes using List.reverseRecOn with
  | nil => cases h
  | append_singleton changes change ih =>
    have hbefore (h : content ∈ (contentsAfter guid changes).map (·.content)) :
        OnContent .addContent content ((changes ++ [change]).filter (·.missionGuid = guid)) := by
      obtain ⟨old, hold, hadds⟩ := ih h
      exact ⟨old, filter_append .. ▸ mem_append_left _ hold, hadds⟩
    have hkept {added : Content}
        (h : content ∈ ((contentsAfter guid changes).filter (·.content ≠ added)).map (·.content)) :=
      hbefore (map_subset _ (filter_subset_self _) h)
    rw [contentsAfter_concat, onContents] at h
    split at h
    · exact hbefore h
    · next added hadded =>
      split at h
      · exact hbefore h
      · next hguid =>
        split at h
        · next hkind =>
          rw [map_append, mem_append] at h
          rcases h with h | h
          · exact hkept h
          · obtain rfl : content = added := by simpa using h
            exact ⟨change, mem_filter.2 ⟨by simp, by simpa using hguid⟩, hkind, hadded⟩
        · exact hkept h
        · exact hbefore h

end Log

section Rows

variable {mission : MissionRecord} {latestCreate : Option Int} {log : List ChangeRecord}
  {change row other : ChangeRecord}
variable {content : Content} {l : List ChangeRecord}

theorem exists_source {κ : Type} [DecidableEq κ] {key : ChangeRecord → κ}
    (hjoin : ∀ row a, key (.join row a) = key row) (h : row ∈ group key .join l) :
    ∃ change ∈ l, key change = key row ∧ change.id = row.id :=
  (greatest_group hjoin (f := ChangeRecord.id) (fun _ _ => rfl) h).1

private theorem pairwise_group {κ : Type} [DecidableEq κ] {key : ChangeRecord → κ}
    (hjoin : ∀ row a, key (.join row a) = key row) (hl : ∀ a ∈ l, ∀ b ∈ l, a.id = b.id → a = b) :
    (group key .join l).Pairwise (·.id ≠ ·.id) := by
  refine (pairwise_map.1 (map_group hjoin).1).imp_of_mem fun hrow hother hne hid => hne ?_
  obtain ⟨a, ha, hakey, haid⟩ := exists_source hjoin hrow
  obtain ⟨b, hb, hbkey, hbid⟩ := exists_source hjoin hother
  rw [← hakey, ← hbkey, hl a ha b hb (haid.trans (hid.trans hbid.symm))]

theorem pairwise_squash (hids : log.Pairwise (·.id < ·.id)) :
    (squash mission latestCreate log).Pairwise (·.id ≠ ·.id) := by
  have hinj : ∀ a ∈ log, ∀ b ∈ log, a.id = b.id → a = b :=
    inj_on_of_nodup_map (pairwise_map.2 (hids.imp Nat.ne_of_lt))
  have hcollected (lane : Lane) : ∀ a ∈ collected mission latestCreate log lane,
      ∀ b ∈ collected mission latestCreate log lane, a.id = b.id → a = b := fun a ha b hb =>
        hinj a (mem_of_mem_filter ha) b (mem_of_mem_filter hb)
  have hapart {one two : Lane} {a b : ChangeRecord}
      (ha : a ∈ collected mission latestCreate log one)
        (hb : b ∈ collected mission latestCreate log two) (hlanes : one ≠ two) : a.id ≠ b.id := by
    intro hid
    obtain ⟨hmem, hlane⟩ := mem_filter.1 ha
    obtain ⟨hmem', hlane'⟩ := mem_filter.1 hb
    rw [hinj a hmem b hmem' hid] at hlane
    exact hlanes (Option.some.inj ((of_decide_eq_true hlane).symm.trans (of_decide_eq_true hlane')))
  refine pairwise_append.2 ⟨pairwise_append.2 ⟨(hids.filter _).imp Nat.ne_of_lt,
    pairwise_group contentKey_join (hcollected .squashed), fun row hrow other hother => ?_⟩,
    pairwise_group (fun _ _ => rfl) (hcollected .external), fun row hrow other hother => ?_⟩
  · obtain ⟨a, ha, -, haid⟩ := exists_source contentKey_join hother
    exact haid ▸ hapart hrow ha (by decide)
  · obtain ⟨a, ha, -, haid⟩ := exists_source (fun _ _ => rfl) hother
    rcases mem_append.1 hrow with hrow | hrow
    · exact haid ▸ hapart hrow ha (by decide)
    · obtain ⟨b, hb, -, hbid⟩ := exists_source contentKey_join hrow
      exact haid ▸ hbid ▸ hapart hb ha (by decide)

variable (hsorted : ∀ change ∈ log, change.Sorted)
  (htimes : ∀ change ∈ log, change.content ≠ none → mission.createTimeMs ≤ change.timestampMs)

include hsorted htimes

theorem mem_collected_of_content (hmem : change ∈ log) (hcontent : change.content = some content)
    (lane : Lane) : change ∈ collected mission latestCreate log lane ↔
      lane = .squashed ∧ mission.has content = decide (change.changeType = .addContent) := by
  have hne : change.content ≠ none := by simp [hcontent]
  have hlane : change.lane mission latestCreate =
      if decide (change.changeType = .addContent) ≠ mission.has content then none
        else some .squashed := by
    rcases hsorted change hmem hne with hkind | hkind <;>
      simp [ChangeRecord.lane, hcontent, hkind, (htimes change hmem hne).not_gt]
  rw [collected, mem_filter, hlane]
  split
  · next hpresent => simpa using fun _ h => hpresent h.symm
  · next hpresent => simpa [hmem, eq_comm] using fun _ => not_not.1 hpresent

theorem mem_group_of_content (h : row ∈ squash mission latestCreate log)
    (hcontent : row.content ≠ none) : row ∈ contentRows mission latestCreate log := by
  have hlane {lane : Lane} (hne : lane ≠ .squashed) : ∀ a ∈ collected mission latestCreate log lane,
      a.content = none := by
    intro a ha
    by_contra hsome
    obtain ⟨content, hsome⟩ := Option.ne_none_iff_exists'.1 hsome
    exact hne ((mem_collected_of_content hsorted htimes (mem_of_mem_filter ha) hsome lane).1 ha).1
  rcases mem_append.1 h with h | h
  · refine (mem_append.1 h).resolve_left fun h =>
      hcontent (hlane (by decide : Lane.lifecycle ≠ .squashed) row h)
  · have hnone : ∀ row ∈ externalRows mission latestCreate log, row.content = none :=
      group_induction (hlane (by decide)) fun _ _ h => h
    exact (hcontent (hnone row h)).elim

theorem collected_iff_alike (h : row ∈ contentRows mission latestCreate log)
    (hcontent : row.content = some content) (hmem : change ∈ log) :
    change ∈ collected mission latestCreate log .squashed ∧ change.contentKey = row.contentKey ↔
    change.Alike row := by
  have hrows : ∀ row ∈ contentRows mission latestCreate log, row.Sorted :=
    group_induction (fun a ha => hsorted a (mem_of_mem_filter ha)) fun _ _ h => h
  obtain ⟨source, hsource, hkey, -⟩ := exists_source contentKey_join h
  obtain ⟨hadd, hsame, -⟩ : decide (source.changeType = .addContent) =
    decide (row.changeType = .addContent) ∧ source.content = row.content ∧
      source.creatorUid = row.creatorUid := by simpa [contentKey] using hkey
  have hpresent :=
    ((mem_collected_of_content hsorted htimes (mem_of_mem_filter hsource)
      (hsame.trans hcontent) _).1 hsource).2
  constructor
  · rintro ⟨-, hkey⟩
    obtain ⟨hadd, hsame, hcreator⟩ : decide (change.changeType = .addContent) =
      decide (row.changeType = .addContent) ∧ change.content = row.content ∧
        change.creatorUid = row.creatorUid := by simpa [contentKey] using hkey
    refine ⟨?_, hsame, hcreator⟩
    rcases hrows row h (by simp [hcontent]) with hrow | hrow <;>
      rcases hsorted change hmem (by simp [hsame, hcontent]) with hkind | hkind <;> simp [hrow,
        hkind] at hadd ⊢
  · rintro ⟨hkind, hsame, hcreator⟩
    refine ⟨(mem_collected_of_content hsorted htimes hmem (hsame.trans hcontent) _).2 ⟨rfl, ?_⟩, ?_⟩
    · rw [hpresent, hadd, hkind]
    · simp [contentKey, hkind, hsame, hcreator]

theorem hasLatest_of_mem (h : row ∈ squash mission latestCreate log) (hcontent : row.content ≠ none)
    {β : Type} [LinearOrder β] {f : ChangeRecord → β}
    (hf : ∀ row a, f (.join row a) = max (f row) (f a)) : row.HasLatest f log := by
  have hrow := mem_group_of_content hsorted htimes h hcontent
  obtain ⟨content, hsome⟩ := Option.ne_none_iff_exists'.1 hcontent
  obtain ⟨⟨a, ha, hkey, hfa⟩, hbound⟩ := greatest_group contentKey_join hf hrow
  have hmem := mem_of_mem_filter ha
  refine ⟨⟨a, hmem, (collected_iff_alike hsorted htimes hrow hsome hmem).1 ⟨ha, hkey⟩, hfa⟩,
    fun change hchange halike => ?_⟩
  obtain ⟨hin, hkey⟩ := (collected_iff_alike hsorted htimes hrow hsome hchange).2 halike
  exact hbound change hin hkey

theorem onContent_squash_iff {kind : ChangeType} :
    OnContent kind content (squash mission latestCreate log) ↔
      OnContent kind content log ∧ mission.has content = decide (kind = .addContent) := by
  constructor
  · rintro ⟨row, hrow, rfl, hcontent⟩
    obtain ⟨⟨a, ha, halike, -⟩, -⟩ := hasLatest_of_mem hsorted htimes hrow (by simp [hcontent])
      (f := ChangeRecord.id) fun _ _ => rfl
    have hgroup := mem_group_of_content hsorted htimes hrow (by simp [hcontent])
    have hin := ((collected_iff_alike hsorted htimes hgroup hcontent ha).2 halike).1
    refine ⟨⟨a, ha, halike.1, halike.2.1.trans hcontent⟩, ?_⟩
    rw [((mem_collected_of_content hsorted htimes ha (halike.2.1.trans hcontent) _).1 hin).2,
      halike.1]
  · rintro ⟨⟨a, ha, rfl, hcontent⟩, hpresent⟩
    have hin : a ∈ collected mission latestCreate log .squashed :=
      (mem_collected_of_content hsorted htimes ha hcontent _).2 ⟨rfl, hpresent⟩
    obtain ⟨row, hrow, hkey⟩ := mem_map.1
      (((map_group contentKey_join).2 _).2 (mem_map_of_mem (f := contentKey) hin))
    have hsome : row.content = some content := (congrArg (·.2.1) hkey).trans hcontent
    have halike := (collected_iff_alike hsorted htimes hrow hsome ha).1 ⟨hin, hkey.symm⟩
    exact ⟨row, mem_append_left _ (mem_append_right _ hrow), halike.1.symm, hsome⟩

end Rows

private theorem pairwise_newestFirst {rows : List ChangeRecord} (h : rows.Pairwise (·.id ≠ ·.id)) :
    (rows.insertionSort fun a b => b.id ≤ a.id).Pairwise (·.id > ·.id) := by
  have hdistinct : (rows.insertionSort fun a b => b.id ≤ a.id).Pairwise (·.id ≠ ·.id) :=
    h.perm (perm_insertionSort (fun a b => b.id ≤ a.id) rows).symm Ne.symm
  refine ((pairwise_insertionSort (fun a b : ChangeRecord => b.id ≤ a.id) rows).and hdistinct).imp
    ?_
  exact fun h => Nat.lt_of_le_of_ne h.1 h.2.symm

/-- In every store that calls and restarts lead to without a record left behind, the squashed
changes of a mission describe it, as long as no change of its content is timed before its
creation. -/
theorem squashed_changes_describe (turns : List (Turn MissionCall)) (store : Kept State Event)
    (hrun : run (storeStep {}) ⟨{}, []⟩ turns = some store)
    (hfresh : Along (storeStep {}) (fun store turn => turn.meets MissionCall.fresh store = true)
      ⟨{}, []⟩ turns)
    {guid : String} {mission : MissionRecord} (hmission : store.state.byGuid guid = some mission)
    (htimes : ∀ change ∈ store.state.data.changes, change.missionGuid = guid →
      change.content ≠ none → mission.createTimeMs ≤ change.timestampMs) :
    ∃ rows, store.state.changes guid {} true = .ok rows ∧
      mission.DescribedBy (store.state.data.changes.filter (·.missionGuid = guid)) rows := by
  obtain ⟨hfaithful, hsound⟩ := Kept.run_keeps State.Sound hrun hfresh rfl State.sound_empty
    fun state call disk hstate hmeets => MissionCall.sound hstate hmeets
  have hwell := hsound.listed.wellFormed hsound.subscribed
  have hsorted : ∀ change ∈ store.state.data.changes, change.Sorted := by
    rw [hfaithful]
    refine List.foldlRecOn store.log State.apply (motive := fun state =>
      ∀ change ∈ state.data.changes, change.Sorted) ?_ fun state h event _ => sorted_apply h event
    exact fun change hchange => (not_mem_nil hchange).elim
  obtain ⟨log, hlog⟩ : ∃ log, log = store.state.data.changes.filter (·.missionGuid = guid) :=
    ⟨_, rfl⟩
  have hmine :
      store.state.data.changes.filter (fun c =>
        c.missionGuid = guid && Window.contains {} c.serverTimeMs) = log := by
    simp [hlog, Window.contains]
  have hlogged : ∀ change ∈ log, change ∈ store.state.data.changes ∧ change.missionGuid = guid := by
    simp [hlog]
  have hids : log.Pairwise (·.id < ·.id) := hlog ▸ hwell.changes.filter _
  replace hsorted : ∀ change ∈ log, change.Sorted := fun change hchange =>
    hsorted change (hlogged change hchange).1
  replace htimes : ∀ change ∈ log, change.content ≠ none →
    mission.createTimeMs ≤ change.timestampMs :=
    fun change hchange => htimes change (hlogged change hchange).1 (hlogged change hchange).2
  rw [← hlog, State.changes, hmission]
  simp only [hmine]
  refine ⟨_, rfl, ?_, fun content => ?_, fun content => ?_, fun row hrow hcontent => ?_⟩
  · exact pairwise_newestFirst (pairwise_squash hids)
  · simp only [OnContent, mem_insertionSort]
    refine (onContent_squash_iff hsorted htimes).trans ⟨And.right, fun hpresent => ⟨?_, hpresent⟩⟩
    rw [MissionRecord.has, (hwell.contents guid mission hmission).2, any_eq_true] at hpresent
    obtain ⟨add, hadd, hcontent⟩ := hpresent
    exact hlog ▸ onContent_of_mem (mem_map.2 ⟨add, hadd, of_decide_eq_true hcontent⟩)
  · simp only [OnContent, mem_insertionSort]
    exact onContent_squash_iff hsorted htimes
  · rw [mem_insertionSort] at hrow
    exact ⟨hasLatest_of_mem hsorted htimes hrow hcontent fun _ _ =>
      rfl, hasLatest_of_mem hsorted htimes hrow hcontent fun _ _ =>
        rfl, hasLatest_of_mem hsorted htimes hrow hcontent fun _ _ => rfl⟩

open Refilled in
theorem squashed_changes_describe_refilled :
    ∃ store, run (storeStep {}) ⟨{}, []⟩ turns = some store ∧ ∃ mission,
    store.state.byGuid "m-1" = some mission ∧
      ∃ rows, store.state.changes "m-1" {} true = .ok rows ∧
        mission.DescribedBy (store.state.data.changes.filter (·.missionGuid = "m-1")) rows := by
  refine exists_end (fun store => ∃ mission, store.state.byGuid "m-1" = some mission ∧
    ∀ change ∈ store.state.data.changes, change.missionGuid = "m-1" → change.content ≠ none →
      mission.createTimeMs ≤ change.timestampMs) (by decide +kernel) fun store hrun hend => ?_
  obtain ⟨mission, hmission, htimes⟩ := hend
  exact ⟨mission, hmission, squashed_changes_describe turns store hrun
    (by decide +kernel) hmission htimes⟩

open Refilled in
/-- After a restart the item whose append failed and the one added after it are listed under one
id. -/
theorem left_record_repeats_squashed_id :
    ∃ store, run (storeStep {}) ⟨{}, []⟩ (leftBehind ++ [.restart]) = some store ∧
      (store.state.changes "m-1" {} true).toOption.map (·.map (·.id)) = some [1, 1, 0] := by
  decide +kernel

end MicroTak.Missions
