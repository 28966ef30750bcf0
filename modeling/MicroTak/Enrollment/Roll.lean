import MicroTak.Enrollment.InviteTokens
import MicroTak.Enrollment.Takeover

/-!
# The roll of a server

The server together with a record of what happened: which credential each request has used up or
proved, and which certificates were enrolled on which credential.
-/

namespace MicroTak.Enrollment

open Std Registry Users Groups Transition Option Server

variable {tokens tokens' : EnrollmentTokenStore} {stage' : Stage} {commonName random : String}
  {nowUnix : Int} {grants : List GroupGrant} {users users' : UserStore} {request : SignRequest}
  {other : Nat}

/-! ### What was enrolled on what -/

inductive Credential where
  | password
  | bootstrap
  | invite (token : String)
  | nothing
  deriving DecidableEq

/-- A certificate that was enrolled, and on which credential. -/
structure Issue where
  credential : Credential
  commonName : String
  certPem : String
  deriving DecidableEq

namespace Stage

/-- The credential that a request has used, or has proved, with this step. -/
def shows : (before after : Stage) → Option Credential
  | .rotates _ _, .grants _ _ => some .password
  | .enrollsAdmin _, .clearsToken _ => some .bootstrap
  | .consumesInvite _ token _, .enrollsNew _ _ => some (.invite token)
  | .findsDevice _ _, .enrollsNew _ _ => some .nothing
  | _, _ => none

def enrolls : (before after : Stage) → Option Signed
  | .rotates signed _, .grants _ _ => some signed
  | .enrollsAdmin signed, .clearsToken _ => some signed
  | .enrollsNew signed _, .grants _ _ => some signed
  | _, _ => none

theorem shows_responded (before : Stage) (response : Response) :
    before.shows (.responded response) = none := by
  cases before <;> rfl

end Stage

/-- The server, the credential each of its requests has shown, and the certificates enrolled so
far. -/
structure Roll where
  server : Server := {}
  shown : TreeMap Nat Credential := ∅
  issued : List Issue := []

namespace Server

def stageOf (server : Server) (id : Nat) : Option Stage := do
  let running ← server.running
  let (_, stage) ← running.requests[id]?
  some stage

end Server

namespace Roll

def enter (roll : Roll) (next : Server) (id : Nat) (before after : Stage) : Roll :=
  let shown := match before.shows after with
    | some credential => roll.shown.insert id credential
    | none => roll.shown
  { server := next
    shown
    issued := match before.enrolls after, shown[id]? with
      | some signed, some credential =>
          roll.issued ++
            [{ credential, commonName := signed.commonName, certPem := signed.certPem }]
      | _, _ => roll.issued }

def follow (roll : Roll) (next : Server) : Action → Roll
  | .crash => { roll with server := next, shown := ∅ }
  | .receive id _ | .drop id => { roll with server := next, shown := roll.shown.erase id }
  | .advance id _ =>
      match roll.server.stageOf id, next.stageOf id with
      | some before, some after => roll.enter next id before after
      | _, _ => { roll with server := next }
  | .boot _ | .admin _ => { roll with server := next }

def step (env : Env) (roll : Roll) (action : Action) : Option Roll :=
  (roll.server.step env action).map (roll.follow · action)

end Roll

/-! ### What each request has shown -/

/-- Every account of the first store is in the second, with the same groups. -/
def KeepsGroups (before after : UserStore) : Prop :=
  ∀ (username : String) (record : UserRecord), before.users[username]? = some record →
    ∃ kept, after.users[username]? = some kept ∧ kept.groups = record.groups

/-- Every token of the first store is in the second, for the same groups, and used by whom it
was. -/
def KeepsTokens (before after : EnrollmentTokenStore) : Prop :=
  ∀ (token : String) (record : EnrollmentToken), before.tokens[token]? = some record →
    ∃ kept, after.tokens[token]? = some kept ∧ kept.groups = record.groups ∧
      ∀ commonName, record.usedByCommonName = some commonName →
        kept.usedByCommonName = some commonName

theorem keepsGroups_refl (users : UserStore) : KeepsGroups users users :=
  fun _ record h => ⟨record, h, rfl⟩

theorem keepsTokens_refl (tokens : EnrollmentTokenStore) : KeepsTokens tokens tokens :=
  fun _ record h => ⟨record, h, rfl, fun _ h => h⟩

def AccountGrants (users : UserStore) (commonName : String) (grants : List GroupGrant) : Prop :=
  ∃ record, users.users[commonName]? = some record ∧ record.groups = grants

def InviteGrants (tokens : EnrollmentTokenStore) (token commonName : String)
    (grants : List GroupGrant) : Prop :=
  ∃ record, tokens.tokens[token]? = some record ∧ record.usedByCommonName = some commonName ∧
    record.groups = grants

def Issue.Invited (tokens : EnrollmentTokenStore) (issue : Issue) : Prop :=
  ∀ token, issue.credential = .invite token → ∃ due, InviteGrants tokens token issue.commonName due

/-- What a device is to be a member of, by the credential it was enrolled with. -/
def Credential.Grants (users : UserStore) (tokens : EnrollmentTokenStore) (commonName : String)
    (grants : List GroupGrant) : Credential → Prop
  | .password => AccountGrants users commonName grants
  | .invite token => InviteGrants tokens token commonName grants
  | .bootstrap | .nothing => grants = []

theorem AccountGrants.mono {before after : UserStore}
    (h : AccountGrants before commonName grants) (hkeep : KeepsGroups before after) :
    AccountGrants after commonName grants := by
  obtain ⟨record, hrecord, hgroups⟩ := h
  obtain ⟨kept, hkept, hsame⟩ := hkeep commonName record hrecord
  exact ⟨kept, hkept, hsame.trans hgroups⟩

theorem InviteGrants.mono {before after : EnrollmentTokenStore} {token : String}
    (h : InviteGrants before token commonName grants) (hkeep : KeepsTokens before after) :
    InviteGrants after token commonName grants := by
  obtain ⟨record, hrecord, hused, hgroups⟩ := h
  obtain ⟨kept, hkept, hsame, husedBy⟩ := hkeep token record hrecord
  exact ⟨kept, hkept, husedBy commonName hused, hsame.trans hgroups⟩

variable {credential : Credential}

theorem Credential.Grants.mono (h : credential.Grants users tokens commonName grants)
    (hgroups : KeepsGroups users users') (htokens : KeepsTokens tokens tokens') :
    credential.Grants users' tokens' commonName grants := by
  cases credential with
  | password => exact AccountGrants.mono h hgroups
  | invite token => exact InviteGrants.mono h htokens
  | bootstrap | nothing => exact h

/-- What a request has shown at each stage, and where the groups it carries come from. -/
def Stage.Shown (env : Env) (users : UserStore) (tokens : EnrollmentTokenStore)
    (issued : List Issue) (request : SignRequest) (shown : Option Credential) : Stage → Prop
  | .received | .chooses _ | .limitsPassword _ _ _ | .verifies _ _ _ | .limitsBootstrap _ _
  | .locksToken _ _
  | .enrollsAdmin _ => shown = none
  | .readsAccount _ username => shown = none ∧ ∃ due, AccountGrants users username due
  | .checksGroups signed due | .checksBlock signed due | .rotates signed due =>
      shown = none ∧ AccountGrants users signed.commonName due
  | .findsDevice _ token => shown = none ∧ token = presentedToken env request
  | .limitsInvite _ token | .looksUpInvite _ token =>
    shown = none ∧ presentedToken env request = some token
  | .checksInviteGroups _ token due | .consumesInvite _ token due =>
      shown = none ∧ presentedToken env request = some token ∧ ∀ record ∈ tokens.tokens[token]?,
        record.groups = due
  | .enrollsNew signed due =>
      (shown = some .nothing ∧ env.isLockedDown = false ∧ due = []) ∨
        ∃ token, shown = some (.invite token) ∧ presentedToken env request = some token ∧
          InviteGrants tokens token signed.commonName due
  | .clearsToken signed | .deletesFile signed =>
      shown = some .bootstrap ∧
        { credential := .bootstrap, commonName := signed.commonName,
          certPem := signed.certPem } ∈ issued
  | .grants signed due =>
      ∃ credential, shown = some credential ∧ credential.Grants users tokens signed.commonName due ∧
        { credential, commonName := signed.commonName, certPem := signed.certPem } ∈ issued
  | .responded _ => True

variable {issued : List Issue} {shown : Option Credential}

theorem Stage.Shown.mono {env : Env} {issued' : List Issue} {stage : Stage}
    (h : stage.Shown env users tokens issued request shown) (hgroups : KeepsGroups users users')
    (htokens : KeepsTokens tokens tokens') (hissued : issued ⊆ issued')
    (hunknown : ∀ token, presentedToken env request = some token → tokens.tokens[token]? = none →
      tokens'.tokens[token]? = none) : stage.Shown env users' tokens' issued' request shown := by
  cases stage with
  | readsAccount signed username =>
    obtain ⟨hshown, grants, haccount⟩ := h
    exact ⟨hshown, grants, haccount.mono hgroups⟩
  | checksGroups signed grants | checksBlock signed grants | rotates signed grants =>
    exact ⟨h.1, h.2.mono hgroups⟩
  | checksInviteGroups signed token grants | consumesInvite signed token grants =>
    obtain ⟨hshown, hpresented, hrecord⟩ := h
    refine ⟨hshown, hpresented, fun record' hrecord' => ?_⟩
    cases hbefore : tokens.tokens[token]? with
    | none =>
      rw [hunknown token hpresented hbefore] at hrecord'
      cases hrecord'
    | some record =>
      obtain ⟨kept, hkept, hsame, -⟩ := htokens token record hbefore
      cases hkept.symm.trans hrecord'
      exact hsame.trans (hrecord record hbefore)
  | enrollsNew signed grants =>
    rcases h with hopen | ⟨token, hshown, hpresented, hinvite⟩
    · exact .inl hopen
    · exact .inr ⟨token, hshown, hpresented, hinvite.mono htokens⟩
  | clearsToken signed | deletesFile signed => exact ⟨h.1, hissued h.2⟩
  | grants signed grants =>
    obtain ⟨credential, hshown, hgrants, hmem⟩ := h
    exact ⟨credential, hshown, hgrants.mono hgroups htokens, hissued hmem⟩
  | _ => exact h

/-! ### The tokens over a run -/

/-- The tokens are what their log says, and a token has a user only once it is used. -/
structure EnrollmentTokenStore.Sound (store : EnrollmentTokenStore) : Prop where
  faithful : store.Faithful
  used : ∀ (token : String) (record : EnrollmentToken), store.tokens[token]? = some record →
    record.usedByCommonName.isSome → record.used = true

namespace EnrollmentTokenStore

variable {store next : EnrollmentTokenStore} {appended : Bool} {token : String}

theorem Sound.consume (h : store.Sound)
    (hok : store.validateAndConsume appended token commonName nowUnix = .ok next) : next.Sound ∧
    KeepsTokens store next ∧
    (∀ other : String, store.tokens[other]? = none → next.tokens[other]? = none) ∧
      ∃ record, store.tokens[token]? = some record ∧
      InviteGrants next token commonName record.groups := by
  obtain ⟨existing, hexisting, husable, -, hrecord⟩ := validateAndConsume_eq_ok.1 hok
  obtain ⟨-, hunused, -⟩ := isUsableAt_eq_ok.1 husable
  have hfaithful := h.faithful.record hrecord
  obtain ⟨-, rfl⟩ := record_eq_ok.1 hrecord
  refine ⟨⟨hfaithful, fun other record hother hby => ?_⟩, fun other record hother =>
    ?_, fun other hother => ?_, existing, hexisting, ?_⟩
  · rw [applyTokenEvent, getElem?_modifyToken] at hother
    split at hother
    · obtain ⟨found, -, rfl⟩ := map_eq_some_iff.1 hother
      rfl
    · exact h.used other record hother hby
  · rw [applyTokenEvent, getElem?_modifyToken]
    split
    · next hsame =>
      subst hsame
      cases hexisting.symm.trans hother
      refine ⟨_, congrArg (Option.map _) hexisting, rfl, fun name hname => ?_⟩
      -- A token that is consumed has no user yet.
      have hused := h.used token existing hexisting (hname ▸ rfl)
      rw [hunused] at hused
      cases hused
    · exact ⟨record, hother, rfl, fun _ hname => hname⟩
  · rw [applyTokenEvent, getElem?_modifyToken, hother]
    split <;> rfl
  · refine ⟨{ existing with
      used := true, usedByCommonName := some commonName, usedAtUnix := some nowUnix }, ?_, rfl, rfl⟩
    rw [applyTokenEvent, getElem?_modifyToken, if_pos rfl, hexisting]
    rfl

theorem Sound.mint {expiresInSecs : Option Int} {note commonName : Option String}
    {groups : List GroupGrant} (h : store.Sound) (hfresh : store.tokens[random]? = none)
    (hok : store.mintWith appended random expiresInSecs note commonName groups nowUnix = .ok next) :
    next.Sound ∧ KeepsTokens store next ∧
      ∀ other : String, other ≠ random → store.tokens[other]? = none →
      next.tokens[other]? = none := by
  have hfaithful := h.faithful.record hok
  obtain ⟨-, rfl⟩ := record_eq_ok.1 hok
  refine ⟨⟨hfaithful, fun other record hother hby => ?_⟩, fun other record hother =>
    ?_, fun other hne hother => ?_⟩
  · rcases Dict.of_insert hother with ⟨-, rfl⟩ | ⟨-, hold⟩
    · cases hby
    · exact h.used other record hold hby
  · have hne : random ≠ other := by
      rintro rfl
      rw [hfresh] at hother
      cases hother
    refine ⟨record, ?_, rfl, fun _ hname => hname⟩
    rw [applyTokenEvent, Dict.getElem?_insert_of_ne hne, hother]
  · rw [applyTokenEvent, Dict.getElem?_insert_of_ne (Ne.symm hne), hother]

theorem Sound.revoke (h : store.Sound) (hok : store.revoke appended token = .ok next) :
    next.Sound ∧ KeepsTokens store next ∧
      ∀ other : String, store.tokens[other]? = none → next.tokens[other]? = none := by
  unfold EnrollmentTokenStore.revoke at hok
  split at hok
  · have hfaithful := h.faithful.record hok
    obtain ⟨-, rfl⟩ := record_eq_ok.1 hok
    refine ⟨⟨hfaithful, fun other record hother hby => ?_⟩, fun other record hother =>
      ?_, fun other hother => ?_⟩
    · rw [applyTokenEvent, getElem?_modifyToken] at hother
      split at hother
      · obtain ⟨found, hfound, rfl⟩ := map_eq_some_iff.1 hother
        exact h.used other found hfound hby
      · exact h.used other record hother hby
    · rw [applyTokenEvent, getElem?_modifyToken]
      split
      · exact ⟨_, congrArg (Option.map _) hother, rfl, fun _ hname => hname⟩
      · exact ⟨record, hother, rfl, fun _ hname => hname⟩
    · rw [applyTokenEvent, getElem?_modifyToken, hother]
      split <;> rfl
  · cases hok

end EnrollmentTokenStore

/-! ### The roll over a run -/

namespace Server

variable {server : Server} {running : Running} {id : Nat} {stage : Stage}

theorem At.stageOf (h : server.At running id request stage) : server.stageOf id = some stage := by
  simp [Server.stageOf, h.1, h.2]

end Server

namespace Roll

variable (env : Env) (roll : Roll)

/-- A value drawn for a token is new: no token has it, and no request presents it. -/
def fresh : Action → Bool
  | .admin (.mintToken random _ _ _ _ _) =>
      (roll.server.tokens.tokens[random]?).isNone &&
        roll.server.running.all fun running =>
          running.requests.toList.all fun (_, request, _) =>
            presentedToken env request ≠ some random
  | _ => true

structure Inv : Prop where
  tokens : roll.server.tokens.Sound
  invited : ∀ issue ∈ roll.issued, issue.Invited roll.server.tokens
  stages : ∀ running id request stage, roll.server.At running id request stage →
    stage.Shown env roll.server.users roll.server.tokens roll.issued request roll.shown[id]?

theorem inv_start : Inv env {} where
  tokens := ⟨rfl, fun token record h => by simp at h⟩
  invited _ h := absurd h List.not_mem_nil
  stages _ _ _ _ h := absurd h.1 (some_ne_none _).symm

variable {env roll} {next : Roll} {running : Running} {id : Nat} {stage : Stage} {input : Input}

theorem step_advance (h : roll.step env (.advance id input) = some next) :
    ∃ running request stage running' stage', roll.server.At running id request stage ∧
      next.server.At running' id request stage' ∧ running'.requests = running.requests.insert id
      (request, stage') ∧
      next = roll.enter next.server id stage stage' ∧ next.server.users = roll.server.users ∧
      Take env roll.server id request input stage next.server.registry next.server.tokens
      next.server.groups stage' := by
  obtain ⟨server, hstep, rfl⟩ := map_eq_some_iff.1 h
  obtain ⟨running, request, stage, running', stage', hat, hat', hrequests, husers, htake⟩ :=
    took_of_step hstep
  have hfollow : roll.follow server (.advance id input) = roll.enter server id stage stage' := by
    simp [follow, hat.stageOf, hat'.stageOf]
  rw [hfollow]
  exact ⟨running, request, stage, running', stage', hat, hat', hrequests, rfl, husers, htake⟩

variable {server : Server} {call : AdminCall}

theorem shown_enter_self :
    (roll.enter server id stage stage').shown[id]? = (stage.shows stage').or roll.shown[id]? := by
  simp only [enter]
  cases stage.shows stage' with
  | none => rfl
  | some credential => exact Dict.getElem?_insert_self ..

theorem shown_enter_of_ne (hother : other ≠ id) :
    (roll.enter server id stage stage').shown[other]? = roll.shown[other]? := by
  simp only [enter]
  cases stage.shows stage' with
  | none => rfl
  | some credential => exact Dict.getElem?_insert_of_ne (Ne.symm hother)

theorem issued_subset_enter : roll.issued ⊆ (roll.enter server id stage stage').issued := by
  simp only [enter]
  split
  · exact List.subset_append_left ..
  · exact List.Subset.refl _

theorem issued_enter {signed : Signed}
    (henrolls : stage.enrolls stage' = some signed)
    (hshown : (stage.shows stage').or roll.shown[id]? = some credential) :
    (roll.enter server id stage stage').issued =
      roll.issued ++
      [{ credential, commonName := signed.commonName, certPem := signed.certPem }] := by
  have hself : (roll.enter server id stage stage').shown[id]? = some credential :=
    shown_enter_self.trans hshown
  simp only [enter] at hself
  simp [enter, henrolls, hself]

theorem Inv.enter {running' : Running} (h : Inv env roll)
    (hat : roll.server.At running id request stage)
    (hrunning' : next.server.running = some running')
    (hrequests : running'.requests = running.requests.insert id (request, stage'))
    (hnext : next = roll.enter next.server id stage stage')
    (husers : next.server.users = roll.server.users) (htokens : next.server.tokens.Sound)
    (hkeeps : KeepsTokens roll.server.tokens next.server.tokens)
    (hunknown : ∀ token : String, roll.server.tokens.tokens[token]? = none →
      next.server.tokens.tokens[token]? = none) (hissued : ∀ issue ∈ next.issued,
      issue ∈ roll.issued ∨ issue.Invited next.server.tokens) (hstage :
      stage'.Shown env next.server.users next.server.tokens next.issued request next.shown[id]?) :
    Inv env next where
  tokens := htokens
  invited issue hissue token hcredential := by
    rcases hissued issue hissue with hold | hnew
    · obtain ⟨due, hdue⟩ := h.invited issue hold token hcredential
      exact ⟨due, hdue.mono hkeeps⟩
    · exact hnew token hcredential
  stages current other request' stage'' hat' := by
    rcases hat'.of_insert hat.1 hrunning' hrequests with ⟨rfl, rfl, rfl⟩ | ⟨hother, hbefore⟩
    · exact hstage
    · have hshown := h.stages _ _ _ _ hbefore
      have hsame : next.shown[other]? = roll.shown[other]? := by
        rw [hnext]
        exact shown_enter_of_ne hother
      have hsubset : roll.issued ⊆ next.issued := by
        rw [hnext]
        exact issued_subset_enter
      rw [hsame]
      exact hshown.mono (husers ▸ keepsGroups_refl _) hkeeps hsubset fun token _ => hunknown token

theorem goes_shown (hgoes : Goes env roll.server id request stage stage')
    (h : stage.Shown env roll.server.users roll.server.tokens issued request shown) :
    stage.enrolls stage' = none ∧
      stage'.Shown env roll.server.users roll.server.tokens issued request
      ((stage.shows stage').or shown) := by
  cases hgoes with
  | refused => cases stage <;> exact ⟨rfl, trivial⟩
  | signed | password | passwordAdmitted | bootstrapAdmitted | tokenLocked | groupsThere
  | notBlocked | tokenCleared
  | inviteAdmitted | inviteGroupsThere => exact ⟨rfl, h⟩
  | noPassword htoken =>
    unfold withoutPassword
    split
    · exact ⟨rfl, h⟩
    · exact ⟨rfl, h, htoken⟩
  | verified hverified =>
    refine ⟨rfl, h, ?_⟩
    unfold UserStore.authenticate at hverified
    split at hverified
    · cases hverified
    · next record hrecord => exact ⟨record.groups, record, hrecord, rfl⟩
  | account =>
    obtain ⟨hshown, due, record, hrecord, -⟩ := h
    refine ⟨rfl, hshown, record, hrecord, ?_⟩
    rw [UserStore.groupsOf, hrecord]
    rfl
  | fileDeleted => exact ⟨rfl, .bootstrap, h.1, rfl, h.2⟩
  | newName => exact ⟨rfl, h.1, h.2.symm⟩
  | openName hopen => exact ⟨rfl, .inl ⟨rfl, hopen, rfl⟩⟩
  | inviteKnown hminted =>
    refine ⟨rfl, h.1, h.2, fun record hrecord => ?_⟩
    cases hminted.symm.trans hrecord
    rfl
  | inviteUnknown hunknown =>
    refine ⟨rfl, h.1, h.2, fun record hrecord => ?_⟩
    rw [hunknown] at hrecord
    cases hrecord

private theorem invited_of_mem_concat {issue new : Issue}
    (h : issue ∈ issued ++ [new]) (hnew : new.Invited tokens) : issue ∈ issued ∨
    issue.Invited tokens := by
  rcases List.mem_append.1 h with hold | hlast
  · exact .inl hold
  · rw [List.mem_singleton.1 hlast]
    exact .inr hnew

variable (h : Inv env roll)

include h

theorem Inv.advance (hstep : roll.step env (.advance id input) = some next) : Inv env next := by
  obtain ⟨running, request, stage, running', stage', hat, hat', hrequests, hnext, husers, htake⟩ :=
    step_advance hstep
  have hshown := h.stages _ _ _ _ hat
  have henter := h.enter hat hat'.1 hrequests hnext husers
  have hself : next.shown[id]? = (stage.shows stage').or roll.shown[id]? := by
    rw [hnext]
    exact shown_enter_self
  have hnone (henrolls : stage.enrolls stage' = none) : next.issued = roll.issued := by
    rw [hnext]
    simp [Roll.enter, henrolls]
  have hone {signed : Signed} {credential : Credential}
      (henrolls : stage.enrolls stage' = some signed)
        (hcredential : (stage.shows stage').or roll.shown[id]? = some credential) :
      next.issued = roll.issued ++
        [{ credential, commonName := signed.commonName, certPem := signed.certPem }] := by
    rw [hnext]
    exact issued_enter henrolls hcredential
  rw [hself, husers] at henter
  generalize next.server.registry = registry at htake
  generalize next.server.tokens = tokens at htake henter
  generalize next.server.groups = groups at htake
  cases htake with
  | goes hgoes =>
    obtain ⟨henrolls, hshown'⟩ := goes_shown hgoes hshown
    rw [hnone henrolls] at henter
    exact henter h.tokens (keepsTokens_refl _) (fun _ h => h) (fun _ => .inl) hshown'
  | rotated =>
    rw [hone rfl rfl] at henter
    refine henter h.tokens (keepsTokens_refl _) (fun _ h => h) (fun issue hissue => ?_) ?_
    · exact invited_of_mem_concat hissue nofun
    · exact ⟨.password, rfl, hshown.2, List.mem_concat_self⟩
  | adminEnrolled hnew =>
    rw [hone rfl rfl] at henter
    refine henter h.tokens (keepsTokens_refl _) (fun _ h => h) (fun issue hissue => ?_) ?_
    · exact invited_of_mem_concat hissue nofun
    · exact ⟨rfl, List.mem_concat_self⟩
  | inviteConsumed hconsumed =>
    obtain ⟨-, hpresented, hgroups⟩ := hshown
    obtain ⟨hsound, hkeeps, hunknown, record, hrecord, hinvite⟩ := h.tokens.consume hconsumed
    rw [hnone rfl] at henter
    refine henter hsound hkeeps hunknown (fun _ => .inl) (.inr ⟨_, rfl, hpresented, ?_⟩)
    rw [← hgroups record hrecord]
    exact hinvite
  | enrolledNew hnew =>
    rcases hshown with ⟨hshown, -, rfl⟩ | ⟨token, hshown, -, hinvite⟩
    · rw [hone rfl hshown] at henter
      refine henter h.tokens (keepsTokens_refl _) (fun _ h => h) (fun issue hissue => ?_) ?_
      · exact invited_of_mem_concat hissue nofun
      · exact ⟨.nothing, hshown, rfl, List.mem_concat_self⟩
    · rw [hone rfl hshown] at henter
      refine henter h.tokens (keepsTokens_refl _) (fun _ h => h) (fun issue hissue => ?_) ?_
      · refine invited_of_mem_concat hissue fun other hother => ?_
        obtain rfl := Credential.invite.inj hother
        exact ⟨_, hinvite⟩
      · exact ⟨.invite token, hshown, hinvite, List.mem_concat_self⟩
  | notEnrolled | granted =>
    rw [hnone rfl] at henter
    exact henter h.tokens (keepsTokens_refl _) (fun _ h => h) (fun _ => .inl) trivial

theorem Inv.boot (hstep : roll.step env (.boot random) = some next) : Inv env next := by
  obtain ⟨server, hserver, rfl⟩ := map_eq_some_iff.1 hstep
  obtain ⟨-, rfl⟩ := step_boot hserver
  have htokens : EnrollmentTokenStore.loadOrCreate roll.server.tokens.log = roll.server.tokens :=
    h.tokens.faithful.loadOrCreate
  refine ⟨?_, ?_, fun running id request stage hat => ?_⟩
  · show (EnrollmentTokenStore.loadOrCreate roll.server.tokens.log).Sound
    rw [htokens]
    exact h.tokens
  · show ∀ issue ∈ roll.issued, issue.Invited (.loadOrCreate roll.server.tokens.log)
    rw [htokens]
    exact h.invited
  · obtain ⟨hrunning, hfound⟩ := hat
    cases hrunning
    simp at hfound

theorem Inv.receive (hstep : roll.step env (.receive id request) = some next) : Inv env next := by
  obtain ⟨server, hserver, rfl⟩ := map_eq_some_iff.1 hstep
  obtain ⟨running, hrunning, -, rfl⟩ := step_receive hserver
  refine ⟨h.tokens, h.invited, fun current other request' stage hat => ?_⟩
  simp only [follow, Dict.getElem?_erase]
  rcases hat.of_insert hrunning rfl rfl with ⟨rfl, rfl, rfl⟩ | ⟨hother, hbefore⟩
  · exact if_pos rfl
  · rw [if_neg (Ne.symm hother)]
    exact h.stages _ _ _ _ hbefore

theorem Inv.drop (hstep : roll.step env (.drop id) = some next) : Inv env next := by
  obtain ⟨server, hserver, rfl⟩ := map_eq_some_iff.1 hstep
  obtain ⟨running, hrunning, rfl⟩ := step_drop hserver
  refine ⟨h.tokens, h.invited, fun current other request' stage hat => ?_⟩
  simp only [follow, Dict.getElem?_erase]
  obtain ⟨hother, hbefore⟩ := hat.of_erase hrunning rfl rfl
  rw [if_neg (Ne.symm hother)]
  exact h.stages _ _ _ _ hbefore

private theorem keeps_of_admin (hfresh : roll.fresh env (.admin call) = true)
    (hserver : roll.server.admin env call = some server) :
    KeepsGroups roll.server.users server.users ∧ server.tokens.Sound ∧
    KeepsTokens roll.server.tokens server.tokens ∧
      ∀ running id request stage, roll.server.At running id request stage → ∀ token,
      presentedToken env request = some token →
        roll.server.tokens.tokens[token]? = none → server.tokens.tokens[token]? = none := by
  have hgroups : KeepsGroups roll.server.users server.users :=
    fun _ _ hrecord => ⟨_, (kept_of_admin hserver hrecord).choose_spec, rfl⟩
  cases call with
  | mintToken random expiresInSecs note commonName groups nowUnix =>
    simp only [admin] at hserver
    obtain ⟨tokens, htokens, rfl⟩ := ok_of_toOption_map hserver
    obtain ⟨hnew, hunseen⟩ := Bool.and_eq_true_iff.1 hfresh
    obtain ⟨hsound, hkeeps, hnone⟩ := h.tokens.mint (isNone_iff_eq_none.1 hnew) htokens
    refine ⟨hgroups, hsound, hkeeps, fun running id request stage hat token hpresented =>
      hnone token ?_⟩
    rintro rfl
    rw [hat.1, all_some, List.all_eq_true] at hunseen
    have hother := hunseen (id, request, stage) (TreeMap.mem_toList_iff_getElem?_eq_some.2 hat.2)
    simp [hpresented] at hother
  | revokeToken token =>
    obtain ⟨tokens, htokens, rfl⟩ := ok_of_toOption_map hserver
    obtain ⟨hsound, hkeeps, hnone⟩ := h.tokens.revoke htokens
    exact ⟨hgroups, hsound, hkeeps, fun _ _ _ _ _ token _ => hnone token⟩
  | changeGroups =>
    cases hserver
    exact ⟨hgroups, h.tokens, keepsTokens_refl _, fun _ _ _ _ _ _ _ hnone => hnone⟩
  | _ =>
    simp only [admin] at hserver
    obtain ⟨_, -, rfl⟩ := ok_of_toOption_map hserver
    exact ⟨hgroups, h.tokens, keepsTokens_refl _, fun _ _ _ _ _ _ _ hnone => hnone⟩

private theorem Inv.admin (hfresh : roll.fresh env (.admin call) = true)
    (hstep : roll.step env (.admin call) = some next) : Inv env next := by
  obtain ⟨server, hserver, rfl⟩ := map_eq_some_iff.1 hstep
  obtain ⟨hgroups, hsound, hkeeps, hunknown⟩ := keeps_of_admin h hfresh hserver
  have hrunning : server.running = roll.server.running := admin_running hserver
  refine ⟨hsound, fun issue hissue token hcredential => ?_, fun running id request stage hat => ?_⟩
  · obtain ⟨due, hdue⟩ := h.invited issue hissue token hcredential
    exact ⟨due, hdue.mono hkeeps⟩
  · have hbefore : roll.server.At running id request stage := ⟨hrunning ▸ hat.1, hat.2⟩
    exact (h.stages _ _ _ _ hbefore).mono hgroups hkeeps (List.Subset.refl _)
      (hunknown _ _ _ _ hbefore)

theorem Inv.step {action : Action} (hfresh : roll.fresh env action = true)
    (hstep : roll.step env action = some next) : Inv env next := by
  cases action with
  | boot random => exact h.boot hstep
  | crash =>
    cases hstep
    exact ⟨h.tokens, h.invited, fun _ _ _ _ hat => absurd hat.1 (some_ne_none _).symm⟩
  | receive id request => exact h.receive hstep
  | advance id input => exact h.advance hstep
  | drop id => exact h.drop hstep
  | admin call => exact h.admin hfresh hstep

end Roll

end MicroTak.Enrollment
