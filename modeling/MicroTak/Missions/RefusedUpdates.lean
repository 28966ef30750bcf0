import MicroTak.Missions.LateRefusals

/-!
# Updates that are refused

A `PUT` or `POST` of a mission that is there updates it in parts, each with a check of its own: the
fields, then the password, then the default role, then the groups.  A later check may fail when an
earlier part is stored.
-/

namespace MicroTak.Missions

open Std Handler Transition Refused

section Parts

variable (env : Env) (caller : Caller) (mission : MissionRecord) (request : CreateRequest)

def mayDefault (state : State) (role : Role) : Bool :=
  (if caller.admin then some .owner else env.roleFromToken state mission caller [.subscription]).any
    fun tokenRole =>
    tokenRole.has .setRole && tokenRole.hasAll role

/-- The first checks of an update pass, and one fails after a part is stored. -/
def CreateRequest.stopsLate (state : State) (groups : Finset String) (allowGroupChange : Bool) :
    Bool :=
  let role := env.roleFor state mission caller
  let password := request.password.any (· ≠ "")
  decide (groups ≠ mission.groups → (caller.admin ∨ role = some .owner) ∧ allowGroupChange) &&
    role.any (·.has .write) &&
      if password && !role.any (·.has .setPassword) then decide (request.newFields ≠ mission.fields)
      else (decide (request.newFields ≠ mission.fields) || password) &&
        request.defaultRole.any fun defaultRole =>
          mission.defaultRole ≠ some defaultRole && !mayDefault env caller mission state defaultRole

end Parts

variable {env : Env} {caller : Caller} {inputs : Inputs} {mission : MissionRecord}
  {request : CreateRequest} {server : Server}
variable {guid : String} {role : Option Role}
  {subscriptions : TreeMap String (List SubscriptionRecord)}

/-- The mission is there, and these are the subscriptions. -/
structure Granted (guid : String) (subscriptions : TreeMap String (List SubscriptionRecord))
    (state : State) : Prop where
  there : There guid state
  subscriptions : state.subscriptions = subscriptions

variable {state next : State}

/-! ### The parts one by one -/

section Updates

variable {groups : Finset String} {allowGroupChange : Bool} {P : Server → Prop} {rest : Api Reply}

/-- The caller gives a password but may not. -/
def PasswordDenied (request : CreateRequest) (role : Option Role) : Prop :=
  request.password.any (· ≠ "") = true ∧ ¬ role.any (·.has .setPassword) = true

/-- The request has another default role, which the caller may not give. -/
def DefaultDenied (env : Env) (caller : Caller) (mission : MissionRecord) (request : CreateRequest)
    (state : State) : Prop :=
  ∃ defaultRole, request.defaultRole = some defaultRole ∧ mission.defaultRole ≠ some defaultRole ∧
    ¬ mayDefault env caller mission state defaultRole = true

theorem costs_updateFields (h : Granted mission.guid subscriptions server.state) :
    Costs (updateFields inputs mission request) (if request.newFields ≠ mission.fields then 1
      else 0) (fun _ next => Granted mission.guid subscriptions next.state) server := by
  rw [updateFields, whenever]
  split
  · exact costs_recordExisting h.there fun _ => ⟨lasting_there _ _ h.there, h.subscriptions⟩
  · exact pays_pure h

theorem costs_updatePassword (h : Granted mission.guid subscriptions server.state)
    (hpassword : ¬ PasswordDenied request role) :
    Costs (updatePassword env caller inputs mission request role)
    (if request.password.any (· ≠ "") = true then 1 else 0)
      (fun _ next => Granted mission.guid subscriptions next.state) server := by
  rw [updatePassword, whenever]
  split
  · next hgiven =>
    have hset := not_not.1 fun hnot => hpassword ⟨hgiven, hnot⟩
    refine Pays.bind (Pays.bind (pays_ensure hset (pays_modify (fun _ => rfl) ?_)))
    exact costs_recordExisting h.there fun _ => ⟨lasting_there _ _ h.there, h.subscriptions⟩
  · exact pays_pure h

theorem stores_updateGroups :
    Stores (There mission.guid) (updateGroups caller inputs mission groups role) := by
  refine firm_whenever (Firm.bind ?_ fun _ => stores_recordExisting _)
  exact (firm_ensure (by decide)).bind fun _ => firm_modify fun _ => rfl

theorem told_updateDefaultRole (hthere : There mission.guid server.state)
    (hrest : Stores (There mission.guid) rest) :
    Told P (updateDefaultRole env caller inputs mission request >>= fun _ => rest) 0
      (DefaultDenied env caller mission request server.state) server := by
  have hfirm : ∀ next : Server, There mission.guid next.state →
      wp rest (fun _ _ => True) (fun e last => e.isRefusal = true → P last) next :=
        fun next hnext =>
    (hrest.run next hnext).mono (fun _ _ _ => trivial) fun _ _ he hrefused => absurd hrefused he
  rw [updateDefaultRole, whenever]
  split
  · next hchange =>
    obtain ⟨defaultRole, hrole⟩ := Option.isSome_iff_exists.1 hchange.1
    have hiff : DefaultDenied env caller mission request server.state ↔
        ¬ mayDefault env caller mission server.state defaultRole = true := by
      rw [DefaultDenied, hrole]
      simp [hrole ▸ hchange.2]
    rw [hiff, mayDefault]
    cases htoken : (if caller.admin then some Role.owner
      else env.roleFromToken server.state mission caller [.subscription]) with
    | none =>
      refine .of_refused
        (bind (refused_get_bind (fun _ => rfl) (Pays.refused (pays_orThrow hrole ?_)))) (by simp)
      exact bind (refused_orThrow htoken rfl)
    | some tokenRole =>
      rw [Option.any_some, Bool.and_eq_true]
      by_cases hset : tokenRole.has .setRole = true ∧ tokenRole.hasAll defaultRole = true
      · refine Pays.decided
          (pays_get_bind (fun _ => rfl)
            (Pays.bind (pays_orThrow hrole (Pays.bind (pays_orThrow htoken ?_)))))
        refine Pays.bind
          (Pays.bind (pays_ensure hset.1
            (pays_modify (fun _ => rfl) (Pays.bind (pays_ensure hset.2 ?_)))))
        refine Pays.mono (Q := fun _ next => There mission.guid next.state)
          (costs_recordExisting hthere fun _ => ?_) (Nat.zero_le 1) fun _ next hnext =>
            .of_clean (hfirm next hnext) (not_not.2 hset)
        exact lasting_there _ _ hthere
      · refine .of_refused
          (bind (refused_get_bind (fun _ => rfl) (Pays.refused (pays_orThrow hrole ?_)))) hset
        refine Pays.refused (pays_orThrow htoken ?_)
        by_cases hmay : tokenRole.has .setRole = true
        · refine Pays.refused (Pays.bind (pays_ensure hmay (pays_modify (fun _ => rfl) ?_)))
          exact bind (refused_ensure (fun hall => hset ⟨hmay, hall⟩) rfl)
        · exact bind (bind (refused_ensure hmay rfl))
  · next hsame =>
    refine Pays.decided (pays_pure (.of_clean (hfirm server hthere) ?_))
    rintro ⟨defaultRole, hrole, hne, -⟩
    exact hsame ⟨Option.isSome_iff_exists.2 ⟨defaultRole, hrole⟩, hrole ▸ hne⟩

theorem defaultDenied_of_subscriptions (h : next.subscriptions = state.subscriptions) :
    DefaultDenied env caller mission request next ↔
    DefaultDenied env caller mission request state := by
  have hrole : env.roleFromToken next mission caller [.subscription] =
      env.roleFromToken state mission caller [.subscription] := by
    simp only [Env.roleFromToken, State.subscriptionById, State.subscriptionsOf, h]
    refine Option.bind_congr fun token _ => Option.bind_congr fun claims _ => ?_
    split
    · rfl
    · next hclaims =>
      -- Only a token of a subscription gets here.
      have htype : claims.tokenType = .subscription :=
        List.mem_singleton.1 (not_not.1 fun hnot => hclaims (.inl hnot))
      rw [htype]
  simp [DefaultDenied, mayDefault, hrole]

/-- The password is refused after the fields, or the default role after the fields or the
password. -/
theorem stopsLate_iff : request.stopsLate env caller mission state groups allowGroupChange = true ↔
      (groups ≠ mission.groups → (caller.admin ∨ env.roleFor state mission caller = some .owner) ∧
        allowGroupChange) ∧
      (env.roleFor state mission caller).any (·.has .write) = true ∧
      (request.newFields ≠ mission.fields ∧
        PasswordDenied request (env.roleFor state mission caller) ∨
        ¬ PasswordDenied request (env.roleFor state mission caller) ∧
          (request.newFields ≠ mission.fields ∨ request.password.any (· ≠ "") = true) ∧
            DefaultDenied env caller mission request state) := by
  rw [CreateRequest.stopsLate, Bool.and_eq_true, Bool.and_eq_true, decide_eq_true_eq, and_assoc]
  refine and_congr_right fun _ => and_congr_right fun _ => ?_
  have hdefault : (request.defaultRole.any fun defaultRole =>
        mission.defaultRole ≠ some defaultRole &&
          !mayDefault env caller mission state defaultRole) = true ↔
      DefaultDenied env caller mission request state := by
    simp [DefaultDenied, Option.any_eq_true]
  rw [← hdefault, PasswordDenied]
  generalize request.password.any (· ≠ "") = password
  generalize (env.roleFor state mission caller).any (·.has .setPassword) = set
  cases password <;> cases set <;> simp

theorem told_updateExisting (hthere : There mission.guid server.state) :
    Told (·.store = server.store)
    (updateExisting env caller inputs mission request groups allowGroupChange) 1
      (request.stopsLate env caller mission server.state groups allowGroupChange =
        true) server := by
  unfold updateExisting
  refine Decided.congr (decided_get_bind (fun _ => rfl) (decided_ensure rfl fun _ =>
    told_check rfl fun _ => ?_)) stopsLate_iff.symm
  have hgranted : Granted mission.guid server.state.subscriptions
      (server.note caller.username mission.guid .write).state := ⟨hthere, rfl⟩
  have hrest : Stores (There mission.guid) (do
      updateGroups caller inputs mission groups (env.roleFor server.state mission caller)
      missionResponse mission) := stores_updateGroups.bind fun _ => stores_missionResponse
  have hdefault : ∀ last : Server, Granted mission.guid server.state.subscriptions last.state →
      Told (fun _ => False) (updateDefaultRole env caller inputs mission request >>= fun _ => do
          updateGroups caller inputs mission groups (env.roleFor server.state mission caller)
          missionResponse mission) 0
        (DefaultDenied env caller mission request server.state) last := fun last hlast =>
    (told_updateDefaultRole hlast.there hrest).congr
      (defaultDenied_of_subscriptions hlast.subscriptions)
  have hfields := @costs_updateFields inputs mission request _ _ hgranted
  by_cases hdenied : PasswordDenied request (env.roleFor server.state mission caller)
  · by_cases hne : request.newFields ≠ mission.fields
    · rw [if_pos hne] at hfields
      refine .of_refused (Pays.refused_first (hfields.mono (Nat.le_refl 1) fun _ _ _ => ?_))
        (.inl ⟨hne, hdenied⟩)
      rw [updatePassword, whenever, if_pos hdenied.1]
      exact bind (bind (bind (refused_ensure hdenied.2 rfl)))
    · refine .of_clean ?_ fun hlate => hlate.elim (fun h => hne h.1) fun h => h.1 hdenied
      rw [updateFields, whenever, if_neg hne, pure_bind, wp_bind, updatePassword, wp_whenever,
        wp_bind, wp_check]
      exact ⟨fun _ => ⟨fun hset => absurd hset hdenied.2, fun _ _ => rfl⟩, fun hnot =>
        absurd hdenied.1 hnot⟩
  · have hstored := fun next h =>
      @costs_updatePassword env caller inputs mission request next _ server.state.subscriptions h
        hdenied
    by_cases hne : request.newFields ≠ mission.fields
    · rw [if_pos hne] at hfields
      refine (Pays.decided_first (hfields.mono (Nat.le_refl 1) fun _ next hnext =>
        Pays.decided ((hstored next hnext).mono (Nat.zero_le _) fun _ => hdefault))).congr ?_
      simp [hdenied, hne]
    · rw [updateFields, whenever, if_neg hne]
      by_cases hgiven : request.password.any (· ≠ "") = true
      · have hpassword := hstored _ hgranted
        rw [if_pos hgiven] at hpassword
        refine (Pays.decided_first (hpassword.mono (Nat.le_refl 1) fun _ => hdefault)).congr ?_
        simp only [hdenied, hgiven, hne, false_and, not_false_eq_true, true_and, false_or]
      · rw [updatePassword, whenever, if_neg hgiven, pure_bind, pure_bind]
        refine .of_clean (Untouched.of_refuses (Clean.bind_firm ?_ fun _ => hrest) hthere) ?_
        · refine clean_whenever (still_get.bind_clean fun server =>
            still_orThrow.bind_clean fun defaultRole => ?_)
          refine still_orThrow.bind_clean fun tokenRole => looks_check.bind_clean fun _ =>
            still_ensure.bind_clean fun _ => ?_
          exact (stores_recordExisting _).clean
        exact fun hlate => hlate.elim (fun h => hne h.1) fun h => h.2.1.elim hne hgiven

end Updates

/-! ### The whole API -/

section Requests

variable (env : Env) (caller : Caller) (inputs : Inputs) (server : Server)

/-- The mission is there, and is updated in part before the request is refused. -/
def CreateRequest.updatesLate (request : CreateRequest) (name : String) (allowGroupChange : Bool)
    (dupe : Dupe) : Bool :=
  decide (Text.trim name ≠ "") &&
    match missionGroups caller server request.groups,
      caller.lookup server.state true (.name (Text.trim name)) with
    | .ok groups, .ok found =>
        (found.filter fun _ => !(dupe.allow && dupe.inDifferentGroups)).any fun mission =>
          request.stopsLate env caller mission server.state groups allowGroupChange
    | _, _ => false

def Request.refusedLate : Request → Bool
  | .put name request allowGroupChange =>
      request.updatesLate env caller server name allowGroupChange
        { allow := false, inDifferentGroups := false }
  | .post name request allowGroupChange allowDupe =>
      request.updatesLate env caller server name allowGroupChange
        { allow := allowDupe, inDifferentGroups := true }
  | .about key asked =>
      match caller.target server.state key with
      | .ok mission =>
        env.mayWrite server.state mission caller && asked.stopsLate inputs server.state mission
      | .error _ => false
  | _ => false

end Requests

theorem there_of_seen (h : Seen caller state mission) : There mission.guid state :=
  Option.isSome_iff_exists.2 ⟨mission, h.1⟩

section Create

variable {name : String} {allowGroupChange : Bool} {dupe : Dupe}

private theorem told_createImpl :
    Told (·.store = server.store) (createImpl env caller inputs name request allowGroupChange dupe)
    1
      (request.updatesLate env caller server name allowGroupChange dupe = true) server := by
  refine Decided.congr (decided_ensure rfl fun _ =>
    decided_reads_bind _ rfl (fun _ => rfl) fun groups _ =>
    decided_reads_bind (fun found : Option MissionRecord =>
      (found.filter fun _ => !(dupe.allow && dupe.inDifferentGroups)).any (fun mission =>
      request.stopsLate env caller mission server.state groups allowGroupChange) = true) rfl
        (fun _ => rfl) fun found hfound => ?_) ?_
  · cases hmission : found.filter fun _ => !(dupe.allow && dupe.inDifferentGroups) with
    | some mission =>
      have hseen :=
        Caller.lookup_spec
          (hfound.trans (congrArg Except.ok (Option.filter_eq_some_iff.1 hmission).1))
      exact told_updateExisting (there_of_seen hseen)
    | none =>
      refine .of_clean (Untouched.of_refuses (I := fun _ => True) ?_ trivial) Bool.false_ne_true
      exact Firm.clean (stores_created fun _ => stores_notify.bind fun _ => firm_pure)
  · rw [CreateRequest.updatesLate, Bool.and_eq_true, decide_eq_true_eq]
    refine and_congr_right fun _ => ?_
    split
    · next groups found hgroups hfound => simp [hgroups, hfound]
    · next hnone =>
        simpa using fun groups hgroups found hfound => (hnone groups found hgroups hfound).elim

end Create

variable {asked : Request}

private theorem told_handle : Told (·.store = server.store) (handle env caller inputs asked) 1
    (asked.refusedLate env caller inputs server = true) server := by
  have hlooks {m : Api Reply} (h : Looks m) :
      Told (·.store = server.store) m 1 (false = true) server :=
    .of_clean (Untouched.of_looks h) Bool.false_ne_true
  have hrefuses {m : Api Reply} (h : Refuses (fun _ => True) m) :
      Told (·.store = server.store) m 1 (false = true) server :=
    .of_clean (Untouched.of_refuses h trivial) Bool.false_ne_true
  cases asked with
  | put name request allowGroupChange | post name request allowGroupChange allowDupe =>
    exact told_createImpl
  | about key about =>
    refine Decided.congr (decided_reads_bind _ rfl (fun _ => rfl) fun mission hmission =>
      told_handleAbout (there_of_seen (Caller.target_spec hmission))) ?_
    rw [Request.refusedLate]
    cases caller.target server.state key <;> simp
  | get key password => exact hlooks getMissionImpl_looks
  | myInvitations clientUid =>
    exact hlooks (still_get.bind fun _ => still_orThrow.bind fun _ => still_pure)
  | allInvitationNames clientUid => exact hlooks (still_get.bind fun _ => still_pure)
  | postLogEntry content creatorUid missionNames =>
    refine hrefuses (looks_draw.bind_clean fun _ => looks_checkLogMissions.bind_clean fun _ => ?_)
    exact ((stores_saveLogEntry lasting_true).bind fun _ => firm_pure).clean
  | putLogEntry id content creatorUid missionNames =>
    refine hrefuses (looks_checkLogMissions.bind_clean fun _ => still_get.bind_clean fun _ =>
      still_ensure.bind_clean fun _ => ?_)
    exact ((stores_saveLogEntry lasting_true).bind fun _ => firm_pure).clean
  | getLogEntry id =>
    exact hlooks (still_get.bind fun _ => still_orThrow.bind fun _ =>
      looks_checkLogMissions.bind fun _ => still_pure)
  | deleteLogEntry id =>
    refine hrefuses (still_get.bind_clean fun _ => still_orThrow.bind_clean fun _ =>
      looks_checkLogMissions.bind_clean fun _ => ?_)
    exact ((stores_record lasting_true).bind fun _ => firm_pure).clean
  | allLogs => exact hlooks (still_ensure.bind fun _ => still_get.bind fun _ => still_pure)

/-- However much room the log has, a refused request leaves the store and its log as they were:
exactly the requests that make no check late. -/
theorem refused_requests_change_nothing (env : Env) (caller : Caller) (inputs : Inputs)
    (asked : Request) (server : Server) :
    (∀ disk e next, handle env caller inputs asked (server.onDisk disk) = .error e next →
      e.isRefusal = true →
        next.store = (server.onDisk disk).store) ↔
      asked.refusedLate env caller inputs server = false := by
  constructor
  · intro hsame
    by_contra hlate
    rw [Bool.not_eq_false] at hlate
    obtain ⟨room, e, next, hrun, hrefused, hroom⟩ :=
      changed (fun server => server.store.disk.getD 0) (fun _ _ => rfl)
        (told_handle.refused hlate) Nat.one_pos
    exact hroom (congrArg (·.disk.getD 0) (hsame (some room) e next hrun hrefused))
  · intro hearly disk e next hrun hrefused
    have hclean := (@told_handle env caller inputs (server.onDisk disk) asked).clean
      (ne_true_of_eq_false hearly)
    simp only [wp, hrun] at hclean
    exact hclean hrefused

/-- A subscriber's update of a mission with a password is refused, with the new fields stored. -/
theorem refused_update_stored :
    ∃ server, run (step Env.sample) {} [.request "admin" {} {} (.put "Plans" {} false)] =
    some server ∧
      ∃ e next, handle Env.sample (Env.sample.caller server "bob" {}) { now := 1 }
          (.put "Plans" { fields := { description := "taken over" }, password := some "secret" }
            false) server = .error e next ∧
        e.isRefusal = true ∧ next.store ≠ server.store := by
  refine exists_end (fun server => (server.state.byGuid "u").map (·.fields.description) = some "" ∧
    ∃ failed, fault (handle Env.sample (Env.sample.caller server "bob" {}) { now := 1 }
        (.put "Plans" { fields := { description := "taken over" }, password := some "secret" }
          false)) server = some failed ∧
      failed.1.isRefusal = true ∧ (failed.2.state.byGuid "u").map (·.fields.description) =
        some "taken over")
    (by decide +kernel) fun server _ hend => ?_
  obtain ⟨hold, failed, hfailed, hrefused, hnew⟩ := hend
  refine ⟨failed.1, failed.2, eq_error_of_fault hfailed, hrefused, fun hsame => ?_⟩
  rw [Server.state, hsame] at hnew
  exact absurd (hold.symm.trans hnew) (by decide)

end MicroTak.Missions
