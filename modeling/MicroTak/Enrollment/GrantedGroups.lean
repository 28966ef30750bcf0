import MicroTak.Enrollment.Roll
import MicroTak.Groups.Invariants

/-!
# The groups of a new device

The groups an account or an invite token grants are checked before anything is spent, and granted
after the device is on record.  A grant that fails is only logged, and the certificate goes out all
the same.
-/

namespace MicroTak.Groups

open Std

namespace State

variable (state : State) (identity : String)

/-- The identity is a member of the group, in each direction that is granted. -/
def Holds (grant : GroupGrant) : Prop :=
  ∃ membership, (state.explicit identity)[grant.name]? = some membership ∧
    ∀ direction, grant.membership.includes direction = true → membership.includes direction = true

variable {state identity} {grant : GroupGrant}

theorem Holds.effectiveMemberships (h : state.Holds identity grant) :
    effectiveMemberships state identity = (state.explicit identity).toList := by
  obtain ⟨membership, hfound, -⟩ := h
  unfold Groups.effectiveMemberships explicit at *
  cases hmembers : state.members[identity]? with
  | none => simp [hmembers] at hfound
  | some groups =>
    rw [hmembers, Option.getD_some] at hfound
    have hthere : groups.isEmpty = false := by
      rw [TreeMap.isEmpty_eq_false_iff_exists_mem]
      exact ⟨grant.name, TreeMap.mem_iff_isSome_getElem?.2 (by rw [hfound]; rfl)⟩
    simp [hthere]

theorem Grants.holds {next : State} {grants : List GroupGrant}
    (h : state.Grants next identity grants) (hgrant : grant ∈ grants) :
    next.Holds identity grant := by
  have hincludes : ∀ direction, grant.membership.includes direction = true →
      direction ∈ next.given identity grant.name := by
    intro direction hdirection
    rw [h.given, if_pos rfl]
    exact Finset.mem_union_right _ (mem_granted.2 ⟨grant, hgrant, rfl, hdirection⟩)
  unfold Holds
  cases hfound : (next.explicit identity)[grant.name]? with
  | none =>
    -- some direction is granted
    have hnone : ∀ direction, grant.membership.includes direction = false := by
      simpa [State.given, hfound] using hincludes
    have hin := hnone .incoming
    have hout := hnone .outgoing
    cases hmembership : grant.membership <;> simp [hmembership, Membership.includes] at hin hout
  | some membership =>
    refine ⟨membership, rfl, fun direction hdirection => Membership.mem_directions.1 ?_⟩
    simpa [State.given, hfound] using hincludes direction hdirection

end State

private theorem GroupStore.answer_recordGrants {state : State} {identity : String}
    (grants : List GroupGrant) : ((recordGrants identity grants).run applyEvent none state).answer =
    .done () := by
  induction grants generalizing state with
  | nil => rfl
  | cons grant rest ih => exact ih

theorem GroupStore.holds_grant {store : GroupStore} {identity : String} {grants : List GroupGrant}
    (hthere : store.state.firstMissing grants = none) :
    ∀ grant ∈ grants,
    (store.after (GroupStore.grant identity grants) none).state.Holds identity grant := by
  intro given hgiven
  refine State.Grants.holds (State.grants_of_done ?_) hgiven
  simp only [GroupCall.op, GroupStore.grant, Journal.Op.run_get_bind, hthere]
  exact answer_recordGrants grants

end MicroTak.Groups

namespace MicroTak.Enrollment

open Std Registry Users Groups Transition

/-- The identity is in every group it was to be in, and not in the anonymous one for lack of any. -/
structure Placed (groups : State) (commonName : String) (due : List GroupGrant) : Prop where
  holds : ∀ grant ∈ due, ∃ membership, (grant.name, membership) ∈
    effectiveMemberships groups commonName ∧ ∀ direction, grant.membership.includes direction =
      true → membership.includes direction = true
  named : due ≠ [] → effectiveMemberships groups commonName = (groups.explicit commonName).toList

variable {commonName : String} {due : List GroupGrant} {tokens : EnrollmentTokenStore}

theorem placed_of_holds {groups : State}
    (h : ∀ grant ∈ due, groups.Holds commonName grant) : Placed groups commonName due where
  holds grant hgrant := by
    have hholds := h grant hgrant
    obtain ⟨membership, hfound, hincludes⟩ := hholds
    refine ⟨membership, ?_, hincludes⟩
    rw [(h grant hgrant).effectiveMemberships]
    exact TreeMap.mem_toList_iff_getElem?_eq_some.2 hfound
  named hdue := by
    obtain ⟨grant, hgrant⟩ := List.exists_mem_of_ne_nil due hdue
    exact (h grant hgrant).effectiveMemberships

theorem Credential.Grants.unique {users : UserStore}
    {other : List GroupGrant} {credential : Credential}
    (h : credential.Grants users tokens commonName due)
    (hother : credential.Grants users tokens commonName other) : due = other := by
  cases credential with
  | password =>
    obtain ⟨record, hrecord, rfl⟩ := h
    obtain ⟨record', hrecord', rfl⟩ := hother
    cases hrecord.symm.trans hrecord'
    rfl
  | invite token =>
    obtain ⟨record, hrecord, -, rfl⟩ := h
    obtain ⟨record', hrecord', -, rfl⟩ := hother
    cases hrecord.symm.trans hrecord'
    rfl
  | bootstrap | nothing => exact Eq.trans h (Eq.symm hother)

namespace Roll

/-- The group store has every group of a device when it gets to grant them, and its log takes every
record. -/
def grantable (env : Env) (roll : Roll) : Action → Bool
  | .advance id input =>
      match roll.server.stageOf id with
      | some (.grants _ due) =>
        (roll.server.groups.state.firstMissing due).isNone && input.disk.isNone
      | _ => true
  | action => roll.fresh env action

variable {env : Env} {roll next : Roll} {id : Nat} {input : Input}

theorem fresh_of_grantable {action : Action} (h : roll.grantable env action = true) :
    roll.fresh env action = true := by
  cases action with
  | admin | boot | receive | crash | drop => exact h
  | advance => rfl

private theorem granted_of_take {server : Server} {request : SignRequest} {stage : Stage}
    {registry : DeviceRegistry} {groups : GroupStore} {certPem : String}
    (h : Take env server id request input stage registry tokens groups
      (.responded (.signed certPem))) :
    ∃ signed due, stage = .grants signed due ∧ certPem = signed.certPem ∧ tokens = server.tokens ∧
      groups = server.groups.after (GroupStore.grant signed.commonName due) input.disk := by
  generalize hresponse : Stage.responded (.signed certPem) = response at h
  cases h with
  | granted hshaped =>
    cases hresponse
    rcases hshaped with hsigned | hbare
    · cases hsigned
      exact ⟨_, _, rfl, rfl, rfl, rfl⟩
    · cases hbare
  | goes hgoes =>
    cases hgoes with
    | noPassword =>
      unfold Server.withoutPassword at hresponse
      split at hresponse <;> cases hresponse
    | _ => cases hresponse
  | _ => cases hresponse

/-- In every run whose steps all find the groups they grant: a request that is answered with a
certificate was enrolled on some credential, which comes with groups, and leaves its identity in
every group of the account or the invite token. -/
theorem certificate_comes_with_groups (env : Env) {actions : List Action} {roll next : Roll}
    {id : Nat} {input : Input} (hrun : run (step env) {} actions = some roll)
    (hgrantable : Along (step env) (fun roll action => roll.grantable env action = true) {}
      (actions ++ [.advance id input]))
    (hstep : roll.step env (.advance id input) = some next) {certPem : String}
    (hanswered : next.server.stageOf id = some (.responded (.signed certPem))) :
    ∃ credential commonName, roll.shown[id]? = some credential ∧
    { credential, commonName, certPem } ∈ next.issued ∧
      (∃ due, credential.Grants next.server.users next.server.tokens commonName due) ∧
      ∀ due, credential.Grants next.server.users next.server.tokens commonName due →
        Placed next.server.groups.state commonName due := by
  obtain ⟨hbefore, hnow⟩ := (along_append hrun).1 hgrantable
  have hinv := run_invariant (Inv env) hrun hbefore (inv_start env)
    fun _ _ _ h hroll hstep => h.step (fresh_of_grantable hroll) hstep
  obtain ⟨running, request, stage, running', stage', hat, hat', -, hnext, husers, htake⟩ :=
    step_advance hstep
  cases hat'.stageOf.symm.trans hanswered
  obtain ⟨signed, due, rfl, rfl, htokens, hgroups⟩ := granted_of_take htake
  obtain ⟨credential, hshown, hgrants, hissue⟩ := hinv.stages _ _ _ _ hat
  refine ⟨credential, signed.commonName, hshown, ?_, ⟨due, ?_⟩, fun other hother => ?_⟩
  · rw [hnext]
    exact issued_subset_enter hissue
  · rw [husers, htokens]
    exact hgrants
  · rw [husers, htokens] at hother
    obtain rfl := hother.unique hgrants
    have hready : roll.grantable env (.advance id input) = true := hnow.1
    simp only [grantable, hat.stageOf, Bool.and_eq_true_iff, Option.isNone_iff_eq_none] at hready
    rw [hgroups, hready.2]
    exact placed_of_holds (GroupStore.holds_grant hready.1)

end Roll

/-! ### A group that goes away -/

namespace Placing

def env : Env := .signing fun _ _ => .ok ("alpha", "CERT-A")

def checked : List Action :=
  [.boot "0", .admin (.changeGroups (.created "Blue" none 0)),
    .admin (.mintToken "t" none none none [{ name := "Blue", membership := .both }] 0),
    .receive 0 { ipKey := "ip:10.0.0.1", token := some "t", body := [0x61] }] ++
      List.replicate 6 (.advance 0 {})

end Placing

open Placing in
/-- The group is deleted after the check: the device gets its certificate and is in the anonymous
group. -/
theorem certificate_without_groups :
    ∃ roll, run (Roll.step env) {} (checked ++ .admin (.changeGroups (.deleted "Blue")) ::
      List.replicate 3 (.advance 0 {})) =
        some roll ∧
      roll.server.stageOf 0 = some (.responded (.signed "CERT-A")) ∧
      roll.issued = [{ credential := .invite "t", commonName := "alpha", certPem := "CERT-A" }] ∧
      (∃ token, roll.server.tokens.tokens["t"]? = some token ∧
        token.groups = [{ name := "Blue", membership := .both }]) ∧
      effectiveMemberships roll.server.groups.state "alpha" = [(anonGroup, .both)] := by
  decide +kernel

open Placing in
theorem certificate_with_groups :
    ∃ roll, run (Roll.step env) {} (checked ++ List.replicate 2 (.advance 0 {})) = some roll ∧
      ∃ next, roll.step env (.advance 0 {}) = some next ∧ roll.shown[0]? = some (.invite "t") ∧
        ∃ commonName due, Credential.Grants next.server.users next.server.tokens commonName due
        (.invite "t") ∧
          Placed next.server.groups.state commonName due := by
  refine exists_end (fun roll => ∃ next, roll.step env (.advance 0 {}) = some next ∧
    roll.shown[0]? = some (.invite "t") ∧
      next.server.stageOf 0 = some (.responded (.signed "CERT-A"))) (by
        decide +kernel) fun roll hrun hend => ?_
  obtain ⟨next, hstep, hshown, hanswered⟩ := hend
  obtain ⟨credential, commonName, hcredential, -, ⟨due, hdue⟩, hplaced⟩ :=
    Roll.certificate_comes_with_groups env hrun (by decide +kernel) hstep hanswered
  cases hshown.symm.trans hcredential
  exact ⟨next, hstep, hshown, commonName, due, hdue, hplaced due hdue⟩

end MicroTak.Enrollment
