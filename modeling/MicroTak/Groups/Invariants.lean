import MicroTak.Groups.Dark

/-!
# What every group store keeps

Over every sequence of calls and restarts in which no failed append leaves its record and the
counter of bit positions does not wrap: `__ANON__` is there with the first bit position, no two
groups share a position and none is given again, memberships and switched off groups are groups that
exist, and a grant joins what it gives to what there is, group by group and direction by direction.
-/

namespace MicroTak.Groups

open Std Journal Transition GroupStore

def Membership.directions : Membership → Finset Direction
  | .incoming => {.incoming}
  | .outgoing => {.outgoing}
  | .both => {.incoming, .outgoing}

namespace Membership

variable {m m' : Membership}

theorem mem_directions {direction : Direction} : direction ∈ m.directions ↔
    m.includes direction = true := by
  cases m <;> cases direction <;> decide

theorem directions_injective : Function.Injective directions := by
  intro m m' h
  cases m <;> cases m' <;> first | rfl | exact absurd h (by decide)

theorem directions_nonempty : m.directions ≠ ∅ := by
  cases m <;> decide

end Membership

namespace State

variable {state next : State} {identity group : String} {membership : Option Membership}

/-- The directions in which the identity was given a membership, none where there is none. -/
def given (state : State) (identity group : String) : Finset Direction :=
  ((state.explicit identity)[group]?).elim ∅ Membership.directions

def positions (state : State) : Set Nat :=
  { bit | ∃ (name : String) (record : GroupRecord),
    state.groups[name]? = some record ∧ record.bitpos = bit }

structure WellFormed (state : State) : Prop where
  anon : ∃ record, state.groups[anonGroup]? = some record ∧ record.bitpos = 0
  below : ∀ (name : String) (record : GroupRecord), state.groups[name]? = some record →
    record.bitpos < state.nextBitpos
  distinct : ∀ (name name' : String) (record record' : GroupRecord), state.groups[name]? =
    some record → state.groups[name']? = some record' → record.bitpos = record'.bitpos →
      name = name'
  members : ∀ identity group, group ∈ state.explicit identity → group ∈ state.groups
  inactive : ∀ identity group, state.isInactive identity group = true → group ∈ state.groups

/-- Two states that hold the same groups, with the same members. -/
structure Alike (state next : State) : Prop where
  groups : state.groups = next.groups
  nextBitpos : state.nextBitpos = next.nextBitpos
  inactive : state.inactive = next.inactive
  members : ∀ identity group : String, (state.explicit identity)[group]? =
    (next.explicit identity)[group]?

/-- The positions given out by now are those of the groups that had them, as they were. -/
structure Succeeds (state next : State) : Prop where
  grows : state.nextBitpos ≤ next.nextBitpos
  kept : ∀ (name : String) (record : GroupRecord), next.groups[name]? = some record →
    record.bitpos < state.nextBitpos → state.groups[name]? = some record

theorem Succeeds.trans {last : State} (h : state.Succeeds next) (h' : next.Succeeds last) :
    state.Succeeds last where
  grows := Nat.le_trans h.grows h'.grows
  kept := by
    intro name record hrecord hlt
    exact h.kept name record (h'.kept name record hrecord (Nat.lt_of_lt_of_le hlt h.grows)) hlt

/-! ### One event -/

/-- What the calls record: groups that are new, under a position after which the counter goes on, or
not the anonymous one, and memberships in groups that are there. -/
def Allows (state : State) : GroupEvent → Prop
  | .created name _ _ => name ∉ state.groups ∧ state.nextBitpos + 1 < 2 ^ 32
  | .deleted name => name ≠ anonGroup
  | .memberSet _ group membership => membership.isSome = true → group ∈ state.groups
  | .activeSet _ inactive => ∀ group ∈ inactive, group ∈ state.groups

theorem mem_iff_getElem? {groups : TreeMap String GroupRecord} {name : String} :
    name ∈ groups ↔ ∃ record, groups[name]? = some record := by
  rw [TreeMap.mem_iff_isSome_getElem?, Option.isSome_iff_exists]

theorem wellFormed_freshState : freshState.WellFormed := by
  have hanon : ∀ (name : String) (record : GroupRecord), freshState.groups[name]? = some record →
      name = anonGroup ∧ record.bitpos = 0 := by
    intro name record h
    simp only [freshState, Dict.getElem?_insert] at h
    split at h
    · next heq =>
      cases h
      exact ⟨heq.symm, rfl⟩
    · simp at h
  constructor
  case anon => exact ⟨_, Dict.getElem?_insert_self _ _ _, rfl⟩
  case below => exact fun name record h => (hanon name record h).2 ▸ Nat.one_pos
  case distinct => exact fun name name' record record' h h' _ =>
    (hanon name record h).1.trans (hanon name' record' h').1.symm
  case members => exact fun identity group h => by simp [freshState, explicit] at h
  case inactive => exact fun identity group h => by simp [freshState, isInactive] at h

theorem nextBitpos_created {name : String} {description : Option String} {createdAtUnix : Int}
    (hcounts : state.nextBitpos + 1 < 2 ^ 32) :
    (applyEvent state (.created name description createdAtUnix)).nextBitpos =
    state.nextBitpos + 1 :=
  Nat.mod_eq_of_lt hcounts

theorem mem_explicit_memberSet {other name : String} {group : String}
    (h : group ∈ (applyEvent state (.memberSet other name membership)).explicit identity) :
    group ∈ state.explicit identity ∨ group = name ∧ membership.isSome = true := by
  rw [explicit_memberSet] at h
  split at h
  · cases membership with
    | some m =>
      rcases TreeMap.mem_insert.1 h with heq | hthere
      · exact .inr ⟨(LawfulEqOrd.compare_eq_iff_eq.1 heq).symm, rfl⟩
      · exact .inl hthere
    | none => exact .inl (TreeMap.mem_of_mem_erase h)
  · exact .inl h

section

variable (h : state.WellFormed) {name : String}

include h

theorem WellFormed.created (description : Option String) (createdAtUnix : Int)
    (hnew : name ∉ state.groups) (hcounts : state.nextBitpos + 1 < 2 ^ 32) :
    (applyEvent state (.created name description createdAtUnix)).WellFormed := by
  have hgrows : ∀ group, group ∈ state.groups →
      group ∈ (applyEvent state (.created name description createdAtUnix)).groups :=
    fun group hgroup => TreeMap.mem_insert.2 (.inr hgroup)
  -- the new group is the only one at the new position
  have hlookup : ∀ (other : String) (record : GroupRecord),
      (applyEvent state (.created name description createdAtUnix)).groups[other]? = some record →
        other = name ∧ record.bitpos = state.nextBitpos ∨ state.groups[other]? = some record := by
    intro other record hother
    rcases Dict.of_insert hother with ⟨heq, rfl⟩ | ⟨-, hold⟩
    · exact .inl ⟨heq.symm, rfl⟩
    · exact .inr hold
  constructor
  case anon =>
    obtain ⟨record, hrecord, hzero⟩ := h.anon
    refine ⟨record, ?_, hzero⟩
    have hne : name ≠ anonGroup := fun heq => hnew (heq ▸ mem_iff_getElem?.2 ⟨record, hrecord⟩)
    simp [applyEvent, if_neg hne, hrecord]
  case below =>
    intro other record hother
    rw [nextBitpos_created hcounts]
    rcases hlookup other record hother with ⟨-, hbit⟩ | hold
    · exact hbit ▸ Nat.lt_succ_self _
    · exact Nat.lt_succ_of_lt (h.below other record hold)
  case distinct =>
    intro other other' record record' hother hother' hbit
    rcases hlookup other record hother with ⟨rfl, hnewbit⟩ | hold <;>
      rcases hlookup other' record' hother' with ⟨rfl, hnewbit'⟩ | hold'
    · rfl
    · exact absurd (hbit.symm.trans hnewbit) (Nat.ne_of_lt (h.below other' record' hold'))
    · exact absurd (hbit.trans hnewbit') (Nat.ne_of_lt (h.below other record hold))
    · exact h.distinct other other' record record' hold hold' hbit
  case members => exact fun identity group hgroup => hgrows group (h.members identity group hgroup)
  case inactive => exact fun identity group hoff => hgrows group (h.inactive identity group hoff)

theorem WellFormed.deleted (hname : name ≠ anonGroup) :
    (applyEvent state (.deleted name)).WellFormed := by
  have hlookup : ∀ (other : String) (record : GroupRecord),
      (applyEvent state (.deleted name)).groups[other]? = some record →
        state.groups[other]? = some record :=
    fun _ _ hother => (Dict.of_erase hother).2
  have hrest : ∀ group, group ≠ name → group ∈ state.groups →
      group ∈ (applyEvent state (.deleted name)).groups := by
    intro group hne hgroup
    exact TreeMap.mem_erase.2 ⟨fun heq => hne (LawfulEqOrd.compare_eq_iff_eq.1 heq).symm, hgroup⟩
  constructor
  case anon =>
    obtain ⟨record, hrecord, hzero⟩ := h.anon
    exact ⟨record, by simp [applyEvent, if_neg hname, hrecord], hzero⟩
  case below => exact fun other record hother => h.below other record (hlookup other record hother)
  case distinct =>
    intro other other' record record' hother hother' hbit
    exact h.distinct other other' record record' (hlookup other record hother)
      (hlookup other' record' hother') hbit
  case members =>
    intro identity group hgroup
    rw [explicit_deleted, TreeMap.mem_erase] at hgroup
    exact hrest group (fun heq => hgroup.1 (LawfulEqOrd.compare_eq_iff_eq.2 heq.symm))
      (h.members identity group hgroup.2)
  case inactive =>
    intro identity group hoff
    refine hrest group ?_ (h.inactive identity group (isInactive_deleted name hoff))
    rintro rfl
    simp only [isInactive, applyEvent] at hoff
    cases hinactive : state.inactive[identity]? <;> simp [hinactive] at hoff

theorem WellFormed.memberSet {group : String}
    (hgroup : membership.isSome = true → group ∈ state.groups) :
    (applyEvent state (.memberSet identity group membership)).WellFormed where
  __ := h
  members := by
    intro other there hthere
    rcases mem_explicit_memberSet hthere with hold | ⟨rfl, hsome⟩
    · exact h.members other there hold
    · exact hgroup hsome

private theorem WellFormed.activeSet {inactive : List String}
    (hinactive : ∀ group ∈ inactive, group ∈ state.groups) :
    (applyEvent state (.activeSet identity inactive)).WellFormed where
  __ := h
  inactive := by
    intro other group hoff
    simp only [isInactive, applyEvent, Dict.getElem?_insert] at hoff
    split at hoff
    · exact hinactive group (by simpa using hoff)
    · exact h.inactive other group hoff

theorem WellFormed.apply {event : GroupEvent} (hallows : state.Allows event) :
    (applyEvent state event).WellFormed := by
  cases event with
  | created name description createdAtUnix =>
    exact h.created description createdAtUnix hallows.1 hallows.2
  | deleted name => exact h.deleted hallows
  | memberSet identity group membership => exact h.memberSet hallows
  | activeSet identity inactive => exact h.activeSet hallows

end

theorem Succeeds.apply {event : GroupEvent} (hallows : state.Allows event) :
    state.Succeeds (applyEvent state event) := by
  cases event with
  | created name description createdAtUnix =>
    refine ⟨nextBitpos_created hallows.2 ▸ Nat.le_succ _, fun other record hrecord hlt => ?_⟩
    rcases Dict.of_insert hrecord with ⟨-, rfl⟩ | ⟨-, hold⟩
    · exact absurd hlt (Nat.lt_irrefl _)
    · exact hold
  | deleted name => exact ⟨Nat.le_refl _, fun _ _ hrecord _ => (Dict.of_erase hrecord).2⟩
  | memberSet | activeSet => exact ⟨Nat.le_refl _, fun _ _ hrecord _ => hrecord⟩

theorem Succeeds.not_reused {first last : State} (h : first.WellFormed)
    (hthen : first.Succeeds state) (hlast : state.Succeeds last) {bit : Nat}
    (hbit : bit ∈ first.positions) (hfree : bit ∉ state.positions) : bit ∉ last.positions := by
  rintro ⟨name, record, hrecord, rfl⟩
  obtain ⟨name', record', hrecord', hsame⟩ := hbit
  have hlt : record.bitpos < state.nextBitpos :=
    hsame ▸ Nat.lt_of_lt_of_le (h.below name' record' hrecord') hthen.grows
  exact hfree ⟨name, record, hlast.kept name record hrecord hlt, rfl⟩

end State

/-! ### One call -/

/-- Groups that are well formed and come after others. -/
structure State.Continues (state next : State) : Prop where
  wellFormed : next.WellFormed
  succeeds : state.Succeeds next

namespace State.Continues

variable {state next : State} {event : GroupEvent} {disk : Option Nat}

theorem apply (h : state.Continues next) (hallows : next.Allows event) :
    state.Continues (applyEvent next event) :=
  ⟨h.wellFormed.apply hallows, h.succeeds.trans (.apply hallows)⟩

theorem put (h : state.Continues next) (hallows : next.Allows event) :
    state.Continues ((Op.put event : GroupOp).run applyEvent disk next).state :=
  Op.state_put_bind (f := fun _ => pure ()) state.Continues h fun _ => h.apply hallows

theorem recordGrants {identity : String} {grants : List GroupGrant} (h : state.Continues next)
    (hgroups : ∀ grant ∈ grants, grant.name ∈ next.groups) :
    state.Continues ((recordGrants identity grants).run applyEvent disk next).state := by
  induction grants generalizing next disk with
  | nil => exact h
  | cons grant rest ih =>
    refine Op.state_put_bind state.Continues h fun disk => ?_
    exact ih (h.apply fun _ => hgroups grant List.mem_cons_self) fun other hother =>
      hgroups other (List.mem_cons_of_mem _ hother)

end State.Continues

theorem State.mem_of_firstMissing {state : State} {grants : List GroupGrant}
    (h : state.firstMissing grants = none) : ∀ grant ∈ grants, grant.name ∈ state.groups := by
  intro grant hgrant
  rw [firstMissing, Option.map_eq_none_iff, List.find?_eq_none] at h
  rw [TreeMap.mem_iff_isSome_getElem?, ← Option.not_isNone, Bool.not_eq_true', ← Bool.not_eq_true]
  exact h grant hgrant

theorem State.WellFormed.allGroupNames {state : State} {identity group : String}
    (h : state.WellFormed) (hgroup : group ∈ state.allGroupNames identity) :
    group ∈ state.groups := by
  rw [mem_allGroupNames] at hgroup
  split at hgroup
  · obtain ⟨record, hrecord, -⟩ := h.anon
    exact hgroup ▸ mem_iff_getElem?.2 ⟨record, hrecord⟩
  · exact h.members identity group hgroup

/-- A new group leaves the counter of positions one to go on with. -/
def GroupCall.numbered (state : State) : GroupCall → Bool
  | .create _ _ _ => state.nextBitpos + 1 < 2 ^ 32
  | _ => true

theorem GroupCall.continues (call : GroupCall) {disk : Option Nat} {state next : State}
    (h : state.Continues next) (hnumbered : call.numbered next = true) :
    state.Continues (call.op.run applyEvent disk next).state := by
  cases call with
  | create name description nowUnix =>
    simp only [op, GroupStore.create]
    cases validateName name with
    | error error => exact h
    | ok _ =>
      rw [Op.run_get_bind, Op.run_ensure_bind]
      split
      · next hnew =>
        refine h.put ⟨fun hthere => ?_, of_decide_eq_true hnumbered⟩
        rw [TreeMap.mem_iff_isSome_getElem?, Option.isNone_iff_eq_none.1 hnew] at hthere
        cases hthere
      · exact h
  | delete name =>
    simp only [op, GroupStore.delete, Op.run_get_bind, Op.run_ensure_bind]
    split
    · next hname =>
      split
      · exact h.put hname
      · exact h
    · exact h
  | setMember group identity membership =>
    simp only [op, GroupStore.setMember, Op.run_get_bind, Op.run_ensure_bind]
    split
    · next hgroup => exact h.put fun _ => TreeMap.mem_iff_isSome_getElem?.2 hgroup
    · exact h
  | grant identity grants =>
    simp only [op, GroupStore.grant, Op.run_get_bind]
    cases hmissing : next.firstMissing grants with
    | some missing => exact h
    | none => exact h.recordGrants (State.mem_of_firstMissing hmissing)
  | setActive identity active =>
    simp only [op, GroupStore.setActive, Op.run_get_bind, Op.run_ensure_bind]
    split
    · refine h.put fun group hgroup => ?_
      have hmember : group ∈ next.allGroupNames identity :=
        List.mem_toFinset.2 (List.mem_of_mem_filter hgroup)
      exact h.wellFormed.allGroupNames hmember
    · exact h

/-! ### Grants -/

namespace State

variable {state next : State} {identity other group : String} {grants : List GroupGrant}
  {grant : GroupGrant}

theorem given_memberSet {m : Membership} {name : String} :
    (applyEvent state (.memberSet identity name (some m))).given other group =
      if identity = other ∧ name = group then m.directions else state.given other group := by
  simp only [given, explicit_memberSet]
  by_cases hidentity : identity = other
  · by_cases hname : name = group
    · simp [hidentity, hname]
    · simp [hidentity, hname]
  · simp [hidentity]

theorem directions_merged :
    (merged state identity grant).directions =
    state.given identity grant.name ∪ grant.membership.directions := by
  unfold merged given
  cases (state.explicit identity)[grant.name]? with
  | some existing => cases existing <;> cases grant.membership <;> decide
  | none => simp

def granted (grants : List GroupGrant) (group : String) : Finset Direction :=
  grants.foldr (fun grant rest => if grant.name = group then grant.membership.directions ∪ rest
    else rest) ∅

theorem mem_granted {direction : Direction} :
    direction ∈ granted grants group ↔ ∃ grant ∈ grants, grant.name = group ∧
    grant.membership.includes direction = true := by
  induction grants with
  | nil => simp [granted]
  | cons grant rest ih =>
    rw [granted, List.foldr_cons, ← granted]
    split
    · next hname => simp [hname, ih, Membership.mem_directions]
    · next hname => simp [hname, ih]

/-- The outcome of a grant: everything is as it was but the identity's memberships, which are joined
with the grants. -/
structure Grants (state next : State) (identity : String) (grants : List GroupGrant) : Prop where
  groups : next.groups = state.groups
  nextBitpos : next.nextBitpos = state.nextBitpos
  inactive : next.inactive = state.inactive
  given : ∀ other group, next.given other group =
    if other = identity then state.given other group ∪ granted grants group
      else state.given other group

private theorem Grants.cons {rest : List GroupGrant}
    (h : Grants (applyEvent state
      (.memberSet identity grant.name (some (merged state identity grant)))) next identity rest) :
      state.Grants next identity (grant :: rest) where
  __ := h
  given := by
    intro other group
    rw [h.given, given_memberSet, directions_merged]
    by_cases hother : other = identity
    · subst hother
      by_cases hname : grant.name = group
      · simp [granted, hname]
      · simp [granted, hname]
    · simp [hother, Ne.symm hother]

private theorem grants_recordGrants {disk : Option Nat}
    (hdone : ((recordGrants identity grants).run applyEvent disk state).answer = .done ()) :
    state.Grants ((recordGrants identity grants).run applyEvent disk state).state
    identity grants := by
  induction grants generalizing state disk with
  | nil =>
    refine ⟨rfl, rfl, rfl, fun other group => ?_⟩
    show state.given other group = _
    simp [granted]
  | cons grant rest ih =>
    match disk with
    | none => exact (@ih _ none hdone).cons
    | some 0 => cases hdone
    | some (n + 1) => exact (@ih _ (some n) hdone).cons

theorem grants_of_done {disk : Option Nat}
    (hdone : ((GroupCall.grant identity grants).op.run applyEvent disk state).answer = .done ()) :
    state.Grants ((GroupCall.grant identity grants).op.run applyEvent disk state).state
    identity grants := by
  simp only [GroupCall.op, grant, Op.run_get_bind] at hdone ⊢
  cases hmissing : state.firstMissing grants with
  | some missing =>
    rw [hmissing] at hdone
    cases hdone
  | none =>
    rw [hmissing] at hdone
    exact grants_recordGrants hdone

theorem lookup_eq_of_given (h : state.given identity group = next.given identity group) :
    (state.explicit identity)[group]? = (next.explicit identity)[group]? := by
  unfold given at h
  cases hstate : (state.explicit identity)[group]? with
  | none =>
    cases hnext : (next.explicit identity)[group]? with
    | none => rfl
    | some m =>
      rw [hstate, hnext] at h
      exact absurd h.symm Membership.directions_nonempty
  | some m =>
    cases hnext : (next.explicit identity)[group]? with
    | none =>
      rw [hstate, hnext] at h
      exact absurd h Membership.directions_nonempty
    | some m' =>
      rw [hstate, hnext] at h
      exact congrArg some (Membership.directions_injective h)

private theorem granted_congr {grants grants' : List GroupGrant}
    (h : ∀ grant, grant ∈ grants ↔ grant ∈ grants') (group : String) :
    granted grants group = granted grants' group := by
  ext direction
  simp [mem_granted, h]

/-- Neither the order of the grants nor how often each is given matters. -/
theorem Grants.alike {next' : State} {grants grants' : List GroupGrant}
    (h : state.Grants next identity grants) (h' : state.Grants next' identity grants')
    (hsame : ∀ grant, grant ∈ grants ↔ grant ∈ grants') : next.Alike next' where
  groups := h.groups.trans h'.groups.symm
  nextBitpos := h.nextBitpos.trans h'.nextBitpos.symm
  inactive := h.inactive.trans h'.inactive.symm
  members := by
    intro other group
    apply lookup_eq_of_given
    rw [h.given, h'.given, granted_congr hsame]

theorem Grants.again {last : State} (h : state.Grants next identity grants)
    (hagain : next.Grants last identity grants) : next.Alike last where
  groups := hagain.groups.symm
  nextBitpos := hagain.nextBitpos.symm
  inactive := hagain.inactive.symm
  members := by
    intro other group
    apply lookup_eq_of_given
    rw [hagain.given, h.given]
    split
    · rw [Finset.union_assoc, Finset.union_self]
    · rfl

end State

/-! ### Runs -/

/-- A turn that leaves no record behind and does not make the counter of positions wrap. -/
abbrev Numbered (store : Kept State GroupEvent) (turn : Turn GroupCall) : Prop :=
  turn.meets GroupCall.numbered store = true

theorem continues_run {store next : Kept State GroupEvent} {turns : List (Turn GroupCall)}
    (hrun : run storeStep store turns = some next)
    (hnumbered : Along storeStep Numbered store turns)
    (hfaithful : store.Faithful applyEvent freshState) (hstore : store.state.WellFormed) :
    next.Faithful applyEvent freshState ∧ store.state.Continues next.state :=
  Kept.run_keeps store.state.Continues hrun hnumbered hfaithful ⟨hstore, Nat.le_refl _,
    fun _ _ h _ => h⟩ fun _ call _ => call.continues

/-- Every store that such calls and restarts lead to: it is what its log replays to, it is well
formed, a bit position that became free stays so, and a grant is the join of memberships. -/
theorem group_store_invariants (turns : List (Turn GroupCall)) (store : Kept State GroupEvent)
    (hrun : run storeStep ⟨freshState, []⟩ turns = some store)
    (hnumbered : Along storeStep Numbered ⟨freshState, []⟩ turns) :
    store.state = store.log.foldl applyEvent freshState ∧ store.state.WellFormed ∧
      (∀ (more most : List (Turn GroupCall)) (later last : Kept State GroupEvent) (bit : Nat),
        run storeStep store more = some later → run storeStep later most = some last →
          Along storeStep Numbered store (more ++ most) →
            bit ∈ store.state.positions → bit ∉ later.state.positions →
            bit ∉ last.state.positions) ∧
      ∀ (identity : String) (grants : List GroupGrant) (disk : Option Nat) (next : State),
        ((GroupCall.grant identity grants).op.run applyEvent disk store.state).answer = .done () →
        ((GroupCall.grant identity grants).op.run applyEvent disk store.state).state = next →
          store.state.Grants next identity grants ∧
          (∀ (grants' : List GroupGrant) (disk' : Option Nat),
            (∀ grant, grant ∈ grants ↔ grant ∈ grants') →
            ((GroupCall.grant identity grants').op.run applyEvent disk' store.state).answer =
            .done () →
              next.Alike ((GroupCall.grant identity grants').op.run applyEvent disk'
                store.state).state) ∧
          ∀ disk', ((GroupCall.grant identity grants).op.run applyEvent disk' next).answer =
          .done () →
            next.Alike ((GroupCall.grant identity grants).op.run applyEvent disk' next).state := by
  obtain ⟨hfaithful, hstore⟩ := continues_run hrun hnumbered rfl State.wellFormed_freshState
  refine ⟨hfaithful, hstore.wellFormed, ?_, ?_⟩
  · intro more most later last bit hmore hmost halong hbit hfree
    obtain ⟨hfirst, hthen⟩ := (along_append hmore).1 halong
    obtain ⟨hlater, hthen'⟩ := continues_run hmore hfirst hfaithful hstore.wellFormed
    obtain ⟨-, hlast⟩ := continues_run hmost hthen hlater hthen'.wellFormed
    exact hthen'.succeeds.not_reused hstore.wellFormed hlast.succeeds hbit hfree
  · rintro identity grants disk next hdone rfl
    have hgrants := State.grants_of_done hdone
    exact ⟨hgrants, fun grants' disk' hsame hdone' =>
      hgrants.alike (State.grants_of_done hdone') hsame, fun disk' hagain =>
        hgrants.again (State.grants_of_done hagain)⟩

namespace TwoChannels

def recreated : List (Turn GroupCall) :=
  [.call (.create "Red" none 0), .call (.create "Blue" none 0), .call (.delete "Blue"), .restart,
    .call (.create "Blue" none 0)]

def grants : List GroupGrant := [⟨"Red", .incoming⟩, ⟨"Blue", .both⟩, ⟨"Red", .outgoing⟩]

end TwoChannels

open TwoChannels in
theorem group_store_invariants_recreated :
    ∃ store, run storeStep ⟨freshState, []⟩ recreated = some store ∧ store.state.WellFormed ∧
      ((GroupCall.grant "alpha" grants).op.run applyEvent none store.state).state.Alike
        ((GroupCall.grant "alpha" grants.reverse).op.run applyEvent none store.state).state := by
  refine exists_end (fun store =>
    ((GroupCall.grant "alpha" grants).op.run applyEvent none store.state).answer = .done () ∧
      ((GroupCall.grant "alpha" grants.reverse).op.run applyEvent none store.state).answer =
        .done ()) (by decide +kernel)
    fun store hrun hdone => ?_
  obtain ⟨-, hwell, -, hgrant⟩ := group_store_invariants recreated store hrun (by decide +kernel)
  obtain ⟨-, horder, -⟩ := hgrant "alpha" grants none _ hdone.1 rfl
  exact ⟨hwell, horder grants.reverse none (fun _ => List.mem_reverse.symm) hdone.2⟩

/-- A group that could not be created is in the log all the same: after a restart it has the
position that the group after it had, and gave up.  A group that could not be deleted is gone after
a restart, and its new member is a member of nothing. -/
theorem left_record_moves_positions :
    (∃ store later last, run storeStep ⟨freshState, []⟩
        [.call (.create "Red" none 0) (some 0) true, .call (.create "Blue" none 0)] = some store ∧
      run storeStep store [.call (.delete "Blue")] = some later ∧
      run storeStep later [.restart] = some last ∧
        1 ∈ store.state.positions ∧ 1 ∉ later.state.positions ∧ 1 ∈ last.state.positions) ∧
    ∃ store, run storeStep ⟨freshState, []⟩ [.call (.create "Blue" none 0),
      .call (.delete "Blue") (some 0) true,
        .call (.setMember "Blue" "alpha" (some .both)), .restart] = some store ∧
        ¬ store.state.WellFormed := by
  refine ⟨⟨_, _, _, rfl, rfl, rfl, ⟨"Blue", ⟨none, 1, 0⟩, by decide +kernel, rfl⟩, ?_,
    ⟨"Red", ⟨none, 1, 0⟩, by decide +kernel, rfl⟩⟩, _, rfl, fun hwell => ?_⟩
  · rintro ⟨name, record, hrecord, hbit⟩
    have hall : (applyEvent (applyEvent freshState (.created "Blue" none 0))
        (.deleted "Blue")).groups.toList.all (fun entry => entry.2.bitpos ≠ 1) =
          true := by decide +kernel
    have hother := List.all_eq_true.1 hall _ (TreeMap.mem_toList_iff_getElem?_eq_some.2 hrecord)
    simp [hbit] at hother
  · exact absurd (hwell.members "alpha" "Blue" (by decide +kernel)) (by decide +kernel)

end MicroTak.Groups
