import MicroTak.Groups.Store
import MicroTak.Lib.Kept

/-!
# Devices that go dark

An identity that has switched off every group it is in neither sends nor receives.  `setActive`
keeps one group on, and nothing else does: what an identity has switched off outlives its
memberships, so taking away the last active one, or giving a first one that is switched off, leaves
the device dark.
-/

namespace MicroTak.Groups

open Std Journal Transition

variable {disk : Option Nat}

namespace State

variable (state : State) (identity group : String)

/-- One of the groups the identity is in, given or by default, is not switched off. -/
def HasActive : Prop := ∃ group ∈ state.allGroupNames identity,
    state.isInactive identity group = false

instance : Decidable (state.HasActive identity) :=
  inferInstanceAs
    (Decidable (∃ group ∈ state.allGroupNames identity, state.isInactive identity group = false))

/-- Beside this group the identity has an active one, or none at all and the default is active. -/
def spared : Bool :=
  let others := (state.explicit identity).erase group
  if others.isEmpty then !state.isInactive identity anonGroup
  else others.keys.any fun other => !state.isInactive identity other

/-- A membership in this group does not end the default of an identity that has switched it off. -/
def mayJoin : Bool := !(state.explicit identity).isEmpty || !state.isInactive identity group

variable {state identity group}

theorem mem_allGroupNames : group ∈ state.allGroupNames identity ↔
      if (state.explicit identity).isEmpty then group = anonGroup
      else group ∈ state.explicit identity := by
  unfold allGroupNames effectiveMemberships explicit
  cases state.members[identity]? with
  | none => simp
  | some groups =>
    by_cases hempty : groups.isEmpty = true
    · simp [hempty]
    · simp [hempty]

theorem hasActive_iff : state.HasActive identity ↔
      if (state.explicit identity).isEmpty then state.isInactive identity anonGroup = false
      else ∃ group ∈ state.explicit identity, state.isInactive identity group = false := by
  simp only [HasActive, mem_allGroupNames]
  split <;> simp

variable {next : State} {name other : String} {membership : Membership}

/-- What is not spared is not needed: the memberships without this one still hold an active one. -/
theorem HasActive.of_erase (hspared : state.spared identity group = true)
    (hgroups : next.explicit identity = (state.explicit identity).erase group)
    (hoff : ∀ other, next.isInactive identity other = true →
      state.isInactive identity other = true) :
    next.HasActive identity := by
  have hon {other : String} (h : state.isInactive identity other = false) :
      next.isInactive identity other = false :=
    Bool.eq_false_of_not_eq_true fun hnext => absurd (hoff other hnext) (by simp [h])
  rw [hasActive_iff, hgroups]
  unfold spared at hspared
  split
  · next hempty =>
    rw [if_pos hempty] at hspared
    exact hon (by simpa using hspared)
  · next hothers =>
    rw [if_neg hothers] at hspared
    obtain ⟨other, hother, hactive⟩ := List.any_eq_true.1 hspared
    exact ⟨other, TreeMap.mem_keys.1 hother, hon (by simpa using hactive)⟩

/-! ### One event -/

theorem explicit_deleted (name : String) :
    (applyEvent state (.deleted name)).explicit identity =
    (state.explicit identity).erase name := by
  simp only [explicit, applyEvent, TreeMap.getElem?_map]
  cases state.members[identity]? <;> rfl

theorem isInactive_deleted (name : String) :
    (applyEvent state (.deleted name)).isInactive identity group = true →
    state.isInactive identity group = true := by
  simp only [isInactive, applyEvent, TreeMap.getElem?_map]
  cases state.inactive[identity]? <;> simp

theorem explicit_memberSet (other name : String) (membership : Option Membership) :
    (applyEvent state (.memberSet other name membership)).explicit identity =
      if other = identity then
        match membership with
        | some m => (state.explicit identity).insert name m
        | none => (state.explicit identity).erase name
      else state.explicit identity := by
  simp only [explicit, applyEvent, Dict.getElem?_insert]
  split
  · next heq =>
    subst heq
    rfl
  · rfl

section

variable (h : state.HasActive identity)

include h

theorem HasActive.congr (hgroups : next.explicit identity = state.explicit identity)
    (hoff : ∀ other, next.isInactive identity other = state.isInactive identity other) :
    next.HasActive identity := by
  rw [hasActive_iff] at h ⊢
  simpa [hgroups, hoff] using h

theorem HasActive.deleted
    (hspared : (state.members[identity]?).isSome = true → state.spared identity name = true) :
    (applyEvent state (.deleted name)).HasActive identity := by
  cases hmembers : state.members[identity]? with
  | some groups =>
    exact .of_erase (hspared (by rw [hmembers]; rfl)) (explicit_deleted name) fun _ =>
      isInactive_deleted name
  | none =>
    -- An identity without memberships is in the default group, before and after.
    have hnone : (state.explicit identity).isEmpty = true := by simp [explicit, hmembers]
    rw [hasActive_iff, if_pos hnone] at h
    rw [hasActive_iff, explicit_deleted, if_pos (by simp [explicit, hmembers])]
    exact Bool.eq_false_of_not_eq_true fun hoff =>
      absurd (isInactive_deleted name hoff) (by simp [h])

theorem HasActive.left (hspared : state.spared other name = true) :
    (applyEvent state (.memberSet other name none)).HasActive identity := by
  by_cases heq : other = identity
  · subst heq
    exact .of_erase hspared (by rw [explicit_memberSet, if_pos rfl]) fun _ => id
  · exact h.congr (by rw [explicit_memberSet, if_neg heq]) fun _ => rfl

theorem HasActive.joined (hjoin : state.mayJoin other name = true) :
    (applyEvent state (.memberSet other name (some membership))).HasActive identity := by
  by_cases heq : other = identity
  · subst heq
    rw [hasActive_iff] at h ⊢
    rw [explicit_memberSet, if_pos rfl, if_neg (by simp)]
    split at h
    · next hempty =>
      refine ⟨name, by simp, ?_⟩
      show state.isInactive other name = false
      simpa [mayJoin, hempty] using hjoin
    · obtain ⟨group, hgroup, hactive⟩ := h
      exact ⟨group, TreeMap.mem_insert.2 (.inr hgroup), hactive⟩
  · exact h.congr (by rw [explicit_memberSet, if_neg heq]) fun _ => rfl

theorem HasActive.switched {active : Finset String}
    (hactive : state.allGroupNames other ∩ active ≠ ∅) : (applyEvent state (.activeSet other
      (((effectiveMemberships state other).map Prod.fst).filter (· ∉ active)))).HasActive
      identity := by
  by_cases heq : other = identity
  · subst heq
    obtain ⟨group, hgroup⟩ := Finset.nonempty_iff_ne_empty.2 hactive
    obtain ⟨hmem, hon⟩ := Finset.mem_inter.1 hgroup
    exact ⟨group, hmem, by simp [isInactive, applyEvent, hon]⟩
  · exact h.congr rfl fun _ => by simp [isInactive, applyEvent, heq]

end

def NoneDark (state : State) : Prop := ∀ identity, state.HasActive identity

theorem noneDark_recordGrants {grants : List GroupGrant} (h : state.NoneDark)
    (hfirst : ∀ grant ∈ grants.head?, state.mayJoin identity grant.name = true) :
    ((GroupStore.recordGrants identity grants).run applyEvent disk state).state.NoneDark := by
  induction grants generalizing state disk with
  | nil => exact h
  | cons grant rest ih =>
    refine Op.state_put_bind NoneDark h fun disk => ?_
    exact ih (fun other => (h other).joined (hfirst grant rfl)) fun _ _ => by
      simp [mayJoin, explicit_memberSet]

end State

/-- A call that takes from no identity its last active group, and gives none a first group that it
has switched off. -/
def GroupCall.sparing (state : State) : GroupCall → Bool
  | .create _ _ _ => true
  | .delete name => state.members.keys.all fun identity => state.spared identity name
  | .setMember group identity none => state.spared identity group
  | .setMember group identity (some _) => state.mayJoin identity group
  | .grant identity grants => grants.head?.all fun grant => state.mayJoin identity grant.name
  | .setActive _ _ => true

theorem GroupCall.noneDark {state : State} (call : GroupCall) (h : state.NoneDark)
    (hsparing : call.sparing state = true) :
    (call.op.run applyEvent disk state).state.NoneDark := by
  have hput {event : GroupEvent} (hevent : (applyEvent state event).NoneDark) :
      ((Op.put event : GroupOp).run applyEvent disk state).state.NoneDark :=
    Op.state_put_bind (f := fun _ => pure ()) State.NoneDark h fun _ => hevent
  cases call with
  | create name description nowUnix =>
    simp only [op, GroupStore.create]
    cases validateName name with
    | error error => exact h
    | ok _ =>
      rw [Op.run_get_bind, Op.run_ensure_bind]
      split
      · exact hput fun identity => (h identity).congr rfl fun _ => rfl
      · exact h
  | delete name =>
    simp only [op, GroupStore.delete, Op.run_get_bind, Op.run_ensure_bind]
    split
    · split
      · refine hput fun identity => (h identity).deleted fun hmember => ?_
        refine List.all_eq_true.1 hsparing identity (TreeMap.mem_keys.2 ?_)
        exact TreeMap.mem_iff_isSome_getElem?.2 hmember
      · exact h
    · exact h
  | setMember group identity membership =>
    simp only [op, GroupStore.setMember, Op.run_get_bind, Op.run_ensure_bind]
    split
    · cases membership with
      | none => exact hput fun other => (h other).left hsparing
      | some membership => exact hput fun other => (h other).joined hsparing
    · exact h
  | grant identity grants =>
    simp only [op, GroupStore.grant, Op.run_get_bind]
    cases state.firstMissing grants with
    | some missing => exact h
    | none =>
      refine State.noneDark_recordGrants h fun grant hgrant => ?_
      simpa [sparing, Option.mem_def.1 hgrant] using hsparing
  | setActive identity active =>
    simp only [op, GroupStore.setActive, Op.run_get_bind, Op.run_ensure_bind]
    split
    · next hactive => exact hput fun other => (h other).switched hactive
    · exact h

/-! ### Runs -/

abbrev storeStep := Kept.step applyEvent freshState GroupCall.op

private theorem State.noneDark_freshState : freshState.NoneDark := by
  intro identity
  rw [hasActive_iff]
  simp [freshState, explicit, isInactive]

/-- As long as every call spares everyone, and no append that fails leaves its record, every
identity has an active group. -/
theorem active_group_of_sparing_run (turns : List (Turn GroupCall)) (store : Kept State GroupEvent)
    (hrun : run storeStep ⟨freshState, []⟩ turns = some store)
    (hsparing : Along storeStep (fun store turn => turn.meets GroupCall.sparing store = true)
      ⟨freshState, []⟩ turns)
    (identity : String) : store.state.HasActive identity := by
  obtain ⟨-, hlit⟩ := Kept.run_keeps State.NoneDark hrun hsparing rfl State.noneDark_freshState
    fun _ call _ => call.noneDark
  exact hlit identity

namespace TwoChannels

def selected : List (Turn GroupCall) :=
  [.call (.create "Red" none 0), .call (.create "Blue" none 0),
    .call (.setMember "Red" "alpha" (some .both)), .call (.setMember "Blue" "alpha" (some .both)),
      .call (.setActive "alpha" {"Red"})]

end TwoChannels

open TwoChannels in
/-- The device is taken out of its active group, and the other one stays off. -/
theorem last_active_group_taken :
    ∃ store, run storeStep ⟨freshState, []⟩ (selected ++ [.call (.setMember "Red" "alpha" none)]) =
    some store ∧
      ¬ store.state.HasActive "alpha" := by
  decide +kernel

open TwoChannels in
theorem active_group_kept :
    ∃ store, run storeStep ⟨freshState, []⟩
    (selected ++ [.call (.setMember "Blue" "alpha" none), .restart]) =
      some store ∧ store.state.HasActive "alpha" := by
  refine exists_end (fun _ => True) (by decide +kernel) fun store hrun _ => ?_
  exact active_group_of_sparing_run _ store hrun (by decide +kernel) "alpha"

end MicroTak.Groups
