import MicroTak.Enrollment.Roll

/-!
# What an invite token is spent on

A request consumes its token before its device goes on record, and these are two steps.  If the
second one fails the token is gone for nothing.
-/

namespace MicroTak.Enrollment

open Std Registry Users Groups Transition EnrollmentTokenStore Server Option

def UsedBy (tokens : TreeMap String EnrollmentToken) (token commonName : String) : Prop :=
  ∃ record, tokens[token]? = some record ∧ record.usedByCommonName = some commonName

variable {token commonName : String}

theorem UsedBy.of_applyTokenEvent {tokens : TreeMap String EnrollmentToken} {event : TokenEvent}
    (h : UsedBy (applyTokenEvent tokens event) token commonName) :
    UsedBy tokens token commonName ∨ ∃ atUnix, event = .consumed token commonName atUnix := by
  obtain ⟨record, hrecord, hby⟩ := h
  cases event with
  | minted random =>
    rcases Dict.of_insert hrecord with ⟨-, rfl⟩ | ⟨-, hold⟩
    · cases hby
    · exact .inl ⟨record, hold, hby⟩
  | consumed value name atUnix =>
    rw [applyTokenEvent, getElem?_modifyToken] at hrecord
    split at hrecord
    · next hvalue =>
      obtain ⟨found, -, rfl⟩ := map_eq_some_iff.1 hrecord
      cases hby
      exact .inr ⟨atUnix, by rw [hvalue]⟩
    · exact .inl ⟨record, hrecord, hby⟩
  | revoked value =>
    rw [applyTokenEvent, getElem?_modifyToken] at hrecord
    split at hrecord
    · obtain ⟨found, hfound, rfl⟩ := map_eq_some_iff.1 hrecord
      exact .inl ⟨found, hfound, hby⟩
    · exact .inl ⟨record, hrecord, hby⟩

/-- The request has consumed its token and its device is not on record yet. -/
def Stage.isPending : Stage → Bool
  | .enrollsNew _ _ => true
  | _ => false

namespace Roll

variable (env : Env) (roll : Roll)

/-- A request that has consumed the token is about to enroll the name. -/
def Pending (token commonName : String) : Prop :=
  ∃ running id request signed due, roll.server.At running id request (.enrollsNew signed due) ∧
    roll.shown[id]? = some (.invite token) ∧ signed.commonName = commonName

def EnrolledOn (token commonName : String) : Prop :=
  ∃ certPem, { credential := .invite token, commonName, certPem } ∈ roll.issued

/-- Tokens are spent exactly on enrollments. -/
structure Exact : Prop where
  used_iff : ∀ token commonName, ¬ roll.Pending token commonName →
    (UsedBy roll.server.tokens.tokens token commonName ↔ roll.EnrolledOn token commonName)
  refused : ∀ running id request code message,
    roll.server.At running id request (.responded (.error code message)) → code = 409 ∨ code = 500 →
      ∀ token, roll.shown[id]? ≠ some (.invite token)

/-- When a request that has consumed its token gets to enroll its device, the name is still free and
the log takes the record; the request is not dropped, nor the server stopped, before that. -/
def undisturbed : Action → Bool
  | .advance id input =>
      match roll.server.stageOf id with
      | some (.enrollsNew signed _) =>
        (roll.server.registry.state.find signed.commonName).isNone && input.appended
      | _ => true
  | .drop id => !(roll.server.stageOf id).any Stage.isPending
  | .crash =>
    roll.server.running.all fun running => running.requests.toList.all fun (_, _, stage) =>
      !stage.isPending
  | action => roll.fresh env action

/-- Every use of a token is an enrollment, or about to become one. -/
structure Spent : Prop where
  inv : Inv env roll
  used : ∀ token commonName, UsedBy roll.server.tokens.tokens token commonName →
    roll.EnrolledOn token commonName ∨ roll.Pending token commonName
  refused : ∀ running id request code message,
    roll.server.At running id request (.responded (.error code message)) → ∀ token,
      roll.shown[id]? ≠ some (.invite token)

variable {env roll} {next : Roll}

theorem Spent.exact (h : Spent env roll) : Exact roll where
  used_iff token commonName hdone := by
    refine ⟨fun hused => (h.used token commonName hused).resolve_right hdone, ?_⟩
    rintro ⟨certPem, hissue⟩
    obtain ⟨due, record, hrecord, hby, -⟩ := h.inv.invited _ hissue token rfl
    exact ⟨record, hrecord, hby⟩
  refused running id request code message hat _ := h.refused running id request code message hat

variable {action : Action}

theorem fresh_of_undisturbed (h : roll.undisturbed env action = true) :
    roll.fresh env action = true := by
  cases action with
  | admin | boot | receive => exact h
  | crash | advance | drop => rfl

theorem spent_start : Spent env {} where
  inv := inv_start env
  used token commonName h := by
    obtain ⟨record, hrecord, -⟩ := h
    simp at hrecord
  refused _ _ _ _ _ hat := absurd hat.1 (some_ne_none _).symm

section Steps

variable {id : Nat} {request : SignRequest} {stage stage' : Stage} {input : Input}
  {running running' : Running}

theorem shown_of_mayRefuse {users : UserStore} {tokens : EnrollmentTokenStore} {issued : List Issue}
    {shown : Option Credential} (hstage : stage.mayRefuse = true)
    (h : stage.Shown env users tokens issued request shown) : shown = none := by
  cases stage with
  | received | chooses | limitsPassword | verifies | limitsBootstrap | locksToken | enrollsAdmin =>
    exact h
  | readsAccount | checksGroups | checksBlock | rotates | findsDevice | limitsInvite | looksUpInvite
  | checksInviteGroups
  | consumesInvite => exact h.1
  | enrollsNew | clearsToken | deletesFile | grants | responded => cases hstage

variable {server : Server}

theorem mayRefuse_of_goes {code : Nat} {message : String}
    (hgoes : Goes env server id request stage (.responded (.error code message))) :
    stage.mayRefuse = true := by
  generalize hresponse : Stage.responded (.error code message) = response at hgoes
  cases hgoes with
  | refused hstage => exact hstage
  | noPassword =>
    unfold withoutPassword at hresponse
    split at hresponse <;> cases hresponse
  | _ => cases hresponse

theorem enrolls_of_undisturbed {signed : Signed} {due : List GroupGrant}
    (hat : roll.server.At running id request (.enrollsNew signed due))
    (h : roll.undisturbed env (.advance id input) = true) :
    roll.server.registry.state.find signed.commonName = none ∧ input.appended = true := by
  simp only [undisturbed, hat.stageOf, Bool.and_eq_true_iff, isNone_iff_eq_none] at h
  exact h

private theorem Pending.advance (hpending : roll.Pending token commonName)
    (hroll : roll.undisturbed env (.advance id input) = true)
    (hstep : roll.step env (.advance id input) = some next) : next.EnrolledOn token commonName ∨
    next.Pending token commonName := by
  obtain ⟨running, request, stage, running', stage', hat, hat', hrequests, hnext, -, htake⟩ :=
    step_advance hstep
  obtain ⟨current, other, request', signed, due, hpending, hshown, hname⟩ := hpending
  cases hat.1.symm.trans hpending.1
  by_cases hother : other = id
  · subst hother
    obtain ⟨rfl, rfl⟩ := Prod.mk.inj (Option.some.inj (hat.2.symm.trans hpending.2))
    obtain ⟨hfree, happended⟩ := enrolls_of_undisturbed hat hroll
    generalize next.server.registry = registry, next.server.tokens = tokens, next.server.groups =
      groups at htake
    cases htake with
    | goes hgoes =>
      cases hgoes with
      | refused hstage => cases hstage
    | enrolledNew =>
      have hissued : next.issued = roll.issued ++
          [{ credential := .invite token
             commonName := signed.commonName, certPem := signed.certPem }] := by
        rw [hnext]
        exact issued_enter rfl hshown
      refine .inl ⟨signed.certPem, ?_⟩
      rw [hissued, ← hname]
      exact List.mem_concat_self
    | notEnrolled hfailed =>
      rw [hfree, happended] at hfailed
      simp at hfailed
  · refine .inr ⟨running', other, request', signed, due, ⟨hat'.1, ?_⟩, ?_, hname⟩
    · rw [hrequests, Dict.getElem?_insert_of_ne (Ne.symm hother)]
      exact hpending.2
    · rw [hnext, shown_enter_of_ne hother]
      exact hshown

theorem Spent.advance (h : Spent env roll) (hroll : roll.undisturbed env (.advance id input) = true)
    (hstep : roll.step env (.advance id input) = some next) : Spent env next := by
  obtain ⟨running, request, stage, running', stage', hat, hat', hrequests, hnext, -, htake⟩ :=
    step_advance hstep
  have hbefore {token commonName : String}
      (hused : UsedBy roll.server.tokens.tokens token commonName) :
        next.EnrolledOn token commonName ∨ next.Pending token commonName := by
    rcases h.used token commonName hused with ⟨certPem, hissue⟩ | hwaits
    · refine .inl ⟨certPem, ?_⟩
      rw [hnext]
      exact issued_subset_enter hissue
    · exact hwaits.advance hroll hstep
  have hself : next.shown[id]? = (stage.shows stage').or roll.shown[id]? := by
    rw [hnext]
    exact shown_enter_self
  refine ⟨h.inv.advance hstep, fun token commonName hused =>
    ?_, fun current other request' code message hrefused token => ?_⟩
  · generalize next.server.registry = registry at htake
    generalize htokens : next.server.tokens = tokens at htake hused
    generalize next.server.groups = groups at htake
    cases htake with
    | @inviteConsumed signed value due tokens hconsumed =>
      obtain ⟨existing, -, -, -, hrecord⟩ := validateAndConsume_eq_ok.1 hconsumed
      obtain ⟨-, rfl⟩ := record_eq_ok.1 hrecord
      rcases hused.of_applyTokenEvent with hold | ⟨atUnix, hevent⟩
      · exact hbefore hold
      · obtain ⟨rfl, rfl, -⟩ := TokenEvent.consumed.inj hevent
        exact .inr ⟨running', id, request, signed, due, hat', hself, rfl⟩
    | _ => exact hbefore hused
  · rcases hrefused.of_insert hat.1 hat'.1 hrequests with ⟨rfl, rfl, rfl⟩ | ⟨hother, hbefore⟩
    · generalize next.server.registry = registry, next.server.tokens = tokens, next.server.groups =
        groups at htake
      rw [hself, Stage.shows_responded]
      cases htake with
      | goes hgoes =>
        rw [shown_of_mayRefuse (mayRefuse_of_goes hgoes) (h.inv.stages _ _ _ _ hat)]
        exact nofun
      | notEnrolled hfailed =>
        obtain ⟨hfree, happended⟩ := enrolls_of_undisturbed hat hroll
        rw [hfree, happended] at hfailed
        simp at hfailed
      | granted hshaped => rcases hshaped with hsigned | hbare <;> contradiction
    · rw [hnext, shown_enter_of_ne hother]
      exact h.refused _ _ _ _ _ hbefore token

theorem Spent.frame (h : Spent env roll) (hinv : Inv env next) (hissued : next.issued = roll.issued)
    (hused : ∀ token commonName, UsedBy next.server.tokens.tokens token commonName →
      UsedBy roll.server.tokens.tokens token commonName)
    (hpending : ∀ token commonName, roll.Pending token commonName → next.Pending token commonName)
    (hrefused : ∀ running id request code message,
      next.server.At running id request (.responded (.error code message)) → ∃ running',
      roll.server.At running' id request (.responded (.error code message)) ∧
      next.shown[id]? = roll.shown[id]?) :
    Spent env next where
  inv := hinv
  used token commonName hby := by
    rcases h.used token commonName (hused token commonName hby) with ⟨certPem, hissue⟩ | hwaits
    · exact .inl ⟨certPem, hissued ▸ hissue⟩
    · exact .inr (hpending token commonName hwaits)
  refused running id request code message hat := by
    obtain ⟨running', hbefore, hsame⟩ := hrefused running id request code message hat
    rw [hsame]
    exact h.refused running' id request code message hbefore

private theorem usedBy_of_admin {next : Server} {call : AdminCall}
    (h : server.admin env call = some next) (hused : UsedBy next.tokens.tokens token commonName) :
    UsedBy server.tokens.tokens token commonName := by
  cases call with
  | mintToken =>
    simp only [admin] at h
    obtain ⟨tokens, htokens, rfl⟩ := ok_of_toOption_map h
    obtain ⟨-, rfl⟩ := record_eq_ok.1 htokens
    exact hused.of_applyTokenEvent.resolve_right (by simp)
  | revokeToken value =>
    obtain ⟨tokens, htokens, rfl⟩ := ok_of_toOption_map h
    unfold revoke at htokens
    split at htokens
    · obtain ⟨-, rfl⟩ := record_eq_ok.1 htokens
      exact hused.of_applyTokenEvent.resolve_right (by simp)
    · cases htokens
  | changeGroups =>
    cases h
    exact hused
  | _ =>
    simp only [admin] at h
    obtain ⟨_, -, rfl⟩ := ok_of_toOption_map h
    exact hused

private theorem Spent.step (h : Spent env roll) (hroll : roll.undisturbed env action = true)
    (hstep : roll.step env action = some next) : Spent env next := by
  have hinv : Inv env next := h.inv.step (fresh_of_undisturbed hroll) hstep
  cases action with
  | advance id input => exact h.advance hroll hstep
  | boot random =>
    obtain ⟨server, hserver, rfl⟩ := map_eq_some_iff.1 hstep
    obtain ⟨hstopped, rfl⟩ := step_boot hserver
    refine h.frame hinv rfl (fun token commonName hused => ?_) ?_ ?_
    · have htokens : (loadOrCreate roll.server.tokens.log).tokens = roll.server.tokens.tokens := by
        rw [h.inv.tokens.faithful.loadOrCreate]
      exact htokens ▸ hused
    · rintro token commonName ⟨running, id, request, signed, due, hat, -⟩
      exact absurd (hstopped.symm.trans hat.1) (some_ne_none _).symm
    · rintro running id request code message ⟨hrunning, hfound⟩
      cases hrunning
      simp at hfound
  | crash =>
    cases hstep
    refine h.frame hinv rfl (fun _ _ hused => hused) ?_ ?_
    · rintro token commonName ⟨running, id, request, signed, due, hat, -⟩
      simp only [undisturbed, hat.1, all_some, List.all_eq_true] at hroll
      have hquiet := hroll (id, request, _) (TreeMap.mem_toList_iff_getElem?_eq_some.2 hat.2)
      cases hquiet
    · rintro running id request code message ⟨hrunning, -⟩
      cases hrunning
  | receive id request =>
    obtain ⟨server, hserver, rfl⟩ := map_eq_some_iff.1 hstep
    obtain ⟨running, hrunning, hfree, rfl⟩ := step_receive hserver
    refine h.frame hinv rfl (fun _ _ hused => hused) ?_ ?_
    · rintro token commonName ⟨current, other, request', signed, due, hat, hshown, hname⟩
      cases hrunning.symm.trans hat.1
      have hother : id ≠ other := by
        rintro rfl
        cases hfree.symm.trans hat.2
      refine ⟨_, other, request', signed, due, ⟨rfl, ?_⟩, ?_, hname⟩
      · exact (Dict.getElem?_insert_of_ne hother).trans hat.2
      · exact (Dict.getElem?_erase_of_ne hother).trans hshown
    · intro current other request' code message hat
      rcases hat.of_insert hrunning rfl rfl with ⟨-, -, hstage⟩ | ⟨hother, hbefore⟩
      · cases hstage
      · exact ⟨running, hbefore, Dict.getElem?_erase_of_ne (Ne.symm hother)⟩
  | drop id =>
    obtain ⟨server, hserver, rfl⟩ := map_eq_some_iff.1 hstep
    obtain ⟨running, hrunning, rfl⟩ := step_drop hserver
    refine h.frame hinv rfl (fun _ _ hused => hused) ?_ ?_
    · rintro token commonName ⟨current, other, request', signed, due, hat, hshown, hname⟩
      cases hrunning.symm.trans hat.1
      have hother : id ≠ other := by
        rintro rfl
        simp [undisturbed, hat.stageOf, Stage.isPending] at hroll
      refine ⟨_, other, request', signed, due, ⟨rfl, ?_⟩, ?_, hname⟩
      · exact (Dict.getElem?_erase_of_ne hother).trans hat.2
      · exact (Dict.getElem?_erase_of_ne hother).trans hshown
    · intro current other request' code message hat
      obtain ⟨hother, hbefore⟩ := hat.of_erase hrunning rfl rfl
      exact ⟨running, hbefore, Dict.getElem?_erase_of_ne (Ne.symm hother)⟩
  | admin call =>
    obtain ⟨server, hserver, rfl⟩ := map_eq_some_iff.1 hstep
    have hrunning : server.running = roll.server.running := admin_running hserver
    refine h.frame hinv rfl (fun _ _ => usedBy_of_admin hserver) ?_ ?_
    · rintro token commonName ⟨running, id, request, signed, due, hat, hshown, hname⟩
      exact ⟨running, id, request, signed, due, ⟨hrunning.trans hat.1, hat.2⟩, hshown, hname⟩
    · exact fun running id request code message hat => ⟨running, ⟨hrunning ▸ hat.1, hat.2⟩, rfl⟩

end Steps

/-- In every run whose steps leave the requests that have consumed a token alone, tokens are spent
exactly on enrollments, whatever the mode of the server. -/
theorem invites_spent_exactly (env : Env) {actions : List Action} {roll : Roll}
    (hrun : run (step env) {} actions = some roll)
    (hundisturbed : Along (step env) (fun roll action => roll.undisturbed env action = true) {}
      actions) : Exact roll := by
  have hspent : Spent env roll :=
    run_invariant (Spent env) hrun hundisturbed spent_start fun _ _ _ h hroll hstep =>
      h.step hroll hstep
  exact hspent.exact

end Roll

/-! ### Two requests for one name -/

namespace Invited

def env : Env :=
  .signing fun serial _ => .ok ("alpha", if serial = 0 then "CERT-0" else "CERT-1")

def request (token : String) : SignRequest :=
  { ipKey := "ip:10.0.0.1", token := some token, body := [0x61] }

def received : List Action :=
  [.boot "0", .admin (.mintToken "t0" none none none [] 0),
    .admin (.mintToken "t1" none none none [] 0), .receive 0 (request "t0"),
      .receive 1 (request "t1")]

def advances (id n : Nat) : List Action := List.replicate n (.advance id {})

end Invited

open Invited in
/-- Both find the name free and consume their tokens; the second one is answered 409, and its token
is used by the name all the same. -/
theorem invite_spent_for_nothing :
    ∃ roll, run (Roll.step env) {} (received ++ advances 0 7 ++ advances 1 7 ++ advances 0 2 ++
      advances 1 1) = some roll ∧
      ((∃ record, roll.server.tokens.tokens["t1"]? = some record ∧
        record.usedByCommonName = some "alpha") ∧
        roll.issued =
        [{ credential := .invite "t0", commonName := "alpha", certPem := "CERT-0" }]) ∧
        ¬ roll.Exact := by
  refine exists_end_and (fun roll => roll.shown[1]? = some (.invite "t1") ∧ ∃ running,
    roll.server.running = some running ∧ running.requests[1]?.map Prod.snd =
      some (.responded (.alreadyEnrolled "alpha"))) (by decide +kernel)
    fun roll _ _ hend hexact => ?_
  obtain ⟨hshown, running, hrunning, hstage⟩ := hend
  obtain ⟨⟨request, stage⟩, hfound, rfl⟩ := map_eq_some_iff.1 hstage
  exact hexact.refused running 1 request 409 _ ⟨hrunning, hfound⟩ (.inl rfl) "t1" hshown

open Invited in
/-- One after the other: the second request is refused and its token is left. -/
theorem invite_kept_when_refused :
    ∃ roll, run (Roll.step env) {} (received ++ advances 0 9 ++ advances 1 3) = some roll ∧
      roll.server.stageOf 1 = some (.responded (.alreadyEnrolled "alpha")) ∧ roll.Exact := by
  refine exists_end_and (fun _ => True) (by decide +kernel) fun roll hrun _ _ => ?_
  exact Roll.invites_spent_exactly env hrun (by decide +kernel)

end MicroTak.Enrollment
