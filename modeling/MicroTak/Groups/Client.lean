import MicroTak.Groups.Invariants

/-!
# Groups as a client sees them

A client lists its groups, and may name those that are to stay on by the bit positions it has read.
The server looks up the names and switches the groups under two locks, at any time after the list
was read.
-/

namespace MicroTak.Groups

open Std Journal Transition

/-- The identity is in the group, given or by default, in this direction. -/
def State.IsMember (state : State) (identity name : String) (direction : Direction) : Prop :=
  ∃ membership, (name, membership) ∈ effectiveMemberships state identity ∧
    membership.includes direction = true

namespace State

variable {state found : State} {name identity : String} {direction : Direction}

theorem mem_activeGroups : name ∈ state.activeGroups (some identity) direction ↔
    state.IsMember identity name direction ∧ state.isInactive identity name = false := by
  simp [activeGroups, IsMember, ← and_assoc]

theorem mem_memberships {active : Bool} {record : GroupRecord} :
    ⟨name, direction, active, record⟩ ∈ state.memberships identity ↔
      state.IsMember identity name direction ∧ state.groups[name]? = some record ∧
      active = !state.isInactive identity name := by
  simp only [memberships, List.mem_flatMap, List.mem_filterMap, Option.map_eq_some_iff,
    MemberGroup.mk.injEq]
  constructor
  · rintro ⟨⟨_, membership⟩, hmember, direction, hdirection, record, hrecord, rfl, rfl, rfl, rfl⟩
    exact ⟨⟨membership, hmember, (List.mem_filter.1 hdirection).2⟩, hrecord, rfl⟩
  · rintro ⟨⟨membership, hmember, hdirection⟩, hrecord, rfl⟩
    have hlisted : direction ∈ [.incoming, .outgoing].filter membership.includes := by
      cases direction <;> simp [hdirection]
    exact ⟨_, hmember, direction, hlisted, record, hrecord, rfl, rfl, rfl, rfl⟩

private theorem pairwise_effectiveMemberships :
    (effectiveMemberships state identity).Pairwise fun a b => a.1 ≠ b.1 := by
  unfold effectiveMemberships
  split
  · split
    · exact List.pairwise_singleton ..
    · exact TreeMap.distinct_keys_toList.imp fun h heq => h (LawfulEqOrd.compare_eq_iff_eq.2 heq)
  · exact List.pairwise_singleton ..

theorem nodup_memberships : (state.memberships identity).Nodup := by
  refine List.nodup_flatMap.2 ⟨fun entry _ =>
    ?_, pairwise_effectiveMemberships.imp fun {a b} hname group ha hb => hname ?_⟩
  · refine (List.Nodup.filter _ (by decide)).filterMap fun d d' group h h' => ?_
    simp only [Option.mem_def, Option.map_eq_some_iff] at h h'
    obtain ⟨_, -, rfl⟩ := h
    obtain ⟨_, -, h'⟩ := h'
    exact (congrArg MemberGroup.direction h').symm
  · simp only [List.mem_filterMap, Option.map_eq_some_iff] at ha hb
    obtain ⟨_, -, _, -, rfl⟩ := ha
    obtain ⟨_, -, _, -, hb⟩ := hb
    exact (congrArg MemberGroup.name hb).symm

variable {bits : List Nat}

end State

/-- In every store that comes about without a record left behind, the list shows an identity each of
its groups once in each of its directions, and as active exactly where routing uses it. -/
theorem memberships_as_routed (turns : List (Turn GroupCall)) (store : Kept State GroupEvent)
    (hrun : run storeStep ⟨freshState, []⟩ turns = some store)
    (hnumbered : Along storeStep Numbered ⟨freshState, []⟩ turns) (identity : String) :
    (store.state.memberships identity).Nodup ∧ ∀ (name : String) (direction : Direction)
    (active : Bool),
      (∃ record, ⟨name, direction, active, record⟩ ∈ store.state.memberships identity) ↔
        store.state.IsMember identity name direction ∧
          (active = true ↔ name ∈ store.state.activeGroups (some identity) direction) := by
  obtain ⟨-, hstore⟩ := continues_run hrun hnumbered rfl State.wellFormed_freshState
  refine ⟨State.nodup_memberships, fun name direction active => ?_⟩
  simp only [State.mem_memberships, State.mem_activeGroups]
  constructor
  · rintro ⟨record, hmember, -, rfl⟩
    exact ⟨hmember, by simp [hmember]⟩
  · rintro ⟨hmember, hactive⟩
    -- A membership is in a group that is there.
    obtain ⟨membership, hmem, -⟩ := id hmember
    have hname : name ∈ store.state.allGroupNames identity :=
      List.mem_toFinset.2 (List.mem_map_of_mem hmem)
    obtain ⟨record, hrecord⟩ := State.mem_iff_getElem?.1 (hstore.wellFormed.allGroupNames hname)
    refine ⟨record, hmember, hrecord, ?_⟩
    rw [Bool.eq_iff_iff, hactive, Bool.not_eq_true']
    exact and_iff_right hmember

open TwoChannels in
theorem memberships_as_routed_recreated :
    ∃ store, run storeStep ⟨freshState, []⟩ (recreated ++ [.call (.grant "alpha" grants)]) =
    some store ∧
      ∃ record, ⟨"Blue", .incoming, true, record⟩ ∈ store.state.memberships "alpha" :=
  ⟨_, rfl, ((memberships_as_routed (recreated ++ [.call (.grant "alpha" grants)]) _ rfl
    (by decide +kernel) "alpha").2 "Blue" .incoming true).2 ⟨⟨.both, by
      decide +kernel⟩, by decide +kernel⟩⟩

end MicroTak.Groups
