import MicroTak.Missions.Runs

/-!
# Where letter case matters

Invitations are looked up and replaced in any letter case, and so are the files behind a hash.  A
new invitation and the contents of a mission are compared as they are spelled.
-/

namespace MicroTak.Missions

open Handler Transition MissionStore List State

/-! ### Invitations -/

namespace MissionStore

variable (store : MissionStore) (invitation : InvitationRecord)

/-- An invitation of the same mission and type for the invitee, in any letter case. -/
def invites : Bool :=
  store.state.invitations.any
    (·.isFor invitation.missionGuid invitation.invitee invitation.invitationType)

/-- One for the invitee as it is spelled. -/
def invitesSpelled : Bool :=
  store.state.invitations.any fun i =>
    i.missionGuid = invitation.missionGuid && i.invitationType = invitation.invitationType &&
      i.invitee = invitation.invitee

def takes : Bool := (store.state.byGuid invitation.missionGuid).isSome && store.disk ≠ some 0

/-- An invitation is stored just where the invitee has none, and then none that is stored is
lost. -/
def InvitesOnce : Prop :=
  ((∃ next, perform (invite invitation) store = .ok true next ∧
    invitation ∈ next.state.invitations) ↔
      store.invites invitation = false) ∧
    ∀ next, perform (invite invitation) store = .ok true next → ∀ i ∈ store.state.invitations,
      i ∈ next.state.invitations ∧ next.state.invitationByToken i.token =
        store.state.invitationByToken i.token

variable {store invitation}

theorem invites_of_spelled (h : store.invitesSpelled invitation = true) :
    store.invites invitation = true := by
  obtain ⟨i, hi, hsame⟩ := any_eq_true.1 h
  simp only [Bool.and_eq_true, decide_eq_true_eq] at hsame
  refine any_eq_true.2 ⟨i, hi, ?_⟩
  simp [InvitationRecord.isFor, hsame]

theorem invite_eq_ok_true {next : MissionStore} :
    perform (invite invitation) store = .ok true next ↔ store.takes invitation = true ∧
    store.invitesSpelled invitation = false ∧
      next = { state := store.state.apply (.invited
        invitation), disk := store.disk.map Nat.pred } := by
  rw [eq_ok_iff_wp, invite, perform_bind, wp_bind, wp_existing]
  cases hmission : store.state.byGuid invitation.missionGuid with
  | none => simp [takes, hmission]
  | some mission =>
    simp only [perform_bind, wp_bind, wp_perform_get]
    split
    · next hspelled =>
      have hspelled : store.invitesSpelled invitation = true := hspelled
      simp [hspelled]
    · next hfree =>
      have hfree : store.invitesSpelled invitation = false := Bool.eq_false_iff.2 hfree
      simp only [perform_bind, wp_bind]
      by_cases hdisk : store.disk = some 0 <;> simp [takes, hmission, hfree, hdisk, eq_comm]

theorem mem_apply_invited {state : State} {i : InvitationRecord} :
    i ∈ (state.apply (.invited invitation)).invitations ↔ i = invitation ∨
      i ∈ state.invitations ∧
      i.isFor invitation.missionGuid invitation.invitee invitation.invitationType = false := by
  simp [apply, or_comm]

/-- One in another letter case alone is no obstacle, and is replaced. -/
theorem not_invitesOnce (htakes : store.takes invitation = true)
    (hinvites : store.invites invitation = true)
    (hspelled : store.invitesSpelled invitation = false) : ¬ store.InvitesOnce invitation := by
  intro h
  rw [h.1.1 ⟨_, invite_eq_ok_true.2 ⟨htakes, hspelled, rfl⟩,
    mem_apply_invited.2 (.inl rfl)⟩] at hinvites
  cases hinvites

private theorem apply_invited_of_free (h : store.invites invitation = false) :
    (store.state.apply (.invited invitation)).invitations = store.state.invitations ++
    [invitation] := by
  simp only [invites, any_eq_false, Bool.not_eq_true] at h
  refine congrArg (· ++ [invitation]) (filter_eq_self.2 fun i hi => ?_)
  rw [h i hi, Bool.not_false]

/-- An invitation is stored just where the invitee has none, and none is lost, if and only if:
wherever the call goes through, one that the invitee has in some letter case it has as spelled too;
and wherever it has none, the call does go through. -/
theorem invitesOnce_iff (store : MissionStore) (invitation : InvitationRecord) :
    store.InvitesOnce invitation ↔
      (store.takes invitation = true → store.invites invitation = true →
        store.invitesSpelled invitation = true) ∧
        (store.invites invitation = false → store.takes invitation = true) := by
  constructor
  · intro h
    refine ⟨fun htakes hinvites => ?_, fun hfree => ?_⟩
    · by_contra hspelled
      exact not_invitesOnce htakes hinvites (Bool.eq_false_iff.2 hspelled) h
    · obtain ⟨next, hok, -⟩ := h.1.2 hfree
      exact (invite_eq_ok_true.1 hok).1
  · rintro ⟨hspells, hgoes⟩
    have hfree : store.takes invitation = true → store.invitesSpelled invitation = false →
        store.invites invitation = false := by
      intro htakes hnone
      rw [← Bool.not_eq_true]
      intro hinvites
      rw [hspells htakes hinvites] at hnone
      cases hnone
    refine ⟨⟨fun ⟨next, hok, _⟩ => ?_, fun hnone => ?_⟩, fun next hok i hi => ?_⟩
    · obtain ⟨htakes, hnone, -⟩ := invite_eq_ok_true.1 hok
      exact hfree htakes hnone
    · have hspelled : store.invitesSpelled invitation = false := by
        rw [← Bool.not_eq_true]
        intro hspelled
        rw [invites_of_spelled hspelled] at hnone
        cases hnone
      exact ⟨_, invite_eq_ok_true.2 ⟨hgoes hnone, hspelled, rfl⟩, mem_apply_invited.2 (.inl rfl)⟩
    · obtain ⟨htakes, hnone, rfl⟩ := invite_eq_ok_true.1 hok
      have hkept := apply_invited_of_free (hfree htakes hnone)
      refine ⟨?_, ?_⟩
      · rw [hkept]
        exact mem_append_left _ hi
      · -- The new one comes last, so the first with the token is the one that was.
        have hfound : (store.state.invitationByToken i.token).isSome = true :=
          find?_isSome.2 ⟨i, hi, decide_eq_true rfl⟩
        obtain ⟨found, hfound⟩ := Option.isSome_iff_exists.1 hfound
        rw [invitationByToken, hkept, find?_append, ← invitationByToken, hfound]
        rfl

end MissionStore

/-- A second invitation, to the same user in another letter case, is stored, and the first one is
gone. -/
theorem invited_again :
    ∃ server, run (step Env.sample) {}
    [.request "admin" {} {} (.put "Ops" { inviteOnly := true } false),
        .request "admin" {}
        { now := 1 } (.about (.name "Ops") (.invite .userName "alice" (some "admin") none))] =
        some server ∧
      ∃ invitation ∈ server.state.invitations, ¬ server.store.InvitesOnce
      { invitation with invitee := "Alice" } := by
  refine exists_end (fun server => ∃ invitation ∈ server.state.invitations,
    server.store.takes { invitation with invitee := "Alice" } = true ∧
      server.store.invites { invitation with invitee := "Alice" } = true ∧
      server.store.invitesSpelled { invitation with invitee := "Alice" } = false) (by
        decide +kernel) fun server _ hend => ?_
  obtain ⟨invitation, hmem, htakes, hinvites, hspelled⟩ := hend
  exact ⟨invitation, hmem, not_invitesOnce htakes hinvites hspelled⟩

/-! ### Files -/

/-- Two contents that are the same file: the lookup of a file takes its hash in any letter case. -/
def Content.SameFile : Content → Content → Prop
  | .hash a, .hash b => Text.eqIgnoreAsciiCase a b = true
  | _, _ => False

instance : ∀ a b : Content, Decidable (a.SameFile b)
  | .hash a, .hash b => inferInstanceAs (Decidable (Text.eqIgnoreAsciiCase a b = true))
  | .hash _, .uid _ | .uid _, _ => isFalse id

/-- No two entries are the same file. -/
def MissionRecord.ListsOnce (mission : MissionRecord) : Prop :=
  mission.contents.Pairwise fun a b => ¬ a.content.SameFile b.content

def Server.ListsOnce (server : Server) : Prop := ∀ mission ∈ server.state.missions.values,
    mission.ListsOnce

/-- A file has one spelling among these. -/
def SpelledAlike (contents : List Content) : Prop :=
  ∀ a ∈ contents, ∀ b ∈ contents, a.SameFile b → a = b

def MissionRequest.isContents : MissionRequest → Bool
  | .addContents .. | .removeContent .. => true
  | _ => false

def MissionRequest.contents (inputs : Inputs) : MissionRequest → List Content
  | .addContents hashes uids paths _ =>
      knownContent inputs hashes uids ++
        paths.flatMap fun path => path.2.flatMap fun item =>
          knownContent inputs item.hashes item.uids
  | .removeContent hash _ _ => (hash.map Content.hash).toList
  | _ => []

instance (mission : MissionRecord) : Decidable mission.ListsOnce :=
  inferInstanceAs (Decidable (mission.contents.Pairwise _))

instance (server : Server) : Decidable server.ListsOnce :=
  inferInstanceAs (Decidable (∀ mission ∈ server.state.missions.values, mission.ListsOnce))

instance (contents : List Content) : Decidable (SpelledAlike contents) :=
  inferInstanceAs (Decidable (∀ a ∈ contents, ∀ b ∈ contents, a.SameFile b → a = b))

/-- A request to add or remove content, with each file spelled as its mission and the request itself
do elsewhere. -/
def Action.spells (env : Env) (server : Server) : Action → Bool
  | .request username headers inputs (.about key about) =>
      about.isContents &&
        decide (∀ mission ∈ ((env.caller server username headers).target server.state key).toOption,
          SpelledAlike (mission.contents.map (·.content) ++ about.contents inputs))
  | _ => false

/-- Every mission lists each file once, and the mission of this guid lists no others than these. -/
def Lists (guid : String) (contents : List Content) (server : Server) : Prop :=
  ∀ mission, server.state.byGuid mission.guid = some mission →
    mission.ListsOnce ∧ (mission.guid = guid → ∀ add ∈ mission.contents, add.content ∈ contents)

def OnContents (guid : String) (contents : List Content) : Event → Prop
  | .contentAdded target content .. => target = guid ∧ content ∈ contents
  | .contentRemoved target .. => target = guid
  | .data _ => True
  | _ => False

section Files

variable {env : Env} {caller : Caller} {inputs : Inputs} {server : Server} {guid : String}
  {contents : List Content}
variable {mission : MissionRecord}

section

variable (h : Lists guid contents server)

include h

theorem Lists.mono {more : List Content} (hmore : contents ⊆ more) : Lists guid more server :=
  fun mission hmission =>
    ⟨(h mission hmission).1, fun hguid add hadd => hmore ((h mission hmission).2 hguid add hadd)⟩

variable {content : Content} {creatorUid : String} {atMs : Int} {changeId : Nat}
  {serverMs : Option Int} {disk : Option Nat}

theorem Lists.added (halike : SpelledAlike contents) (hcontent : content ∈ contents) :
    Lists guid contents
    (server.applied (.contentAdded guid content creatorUid atMs changeId serverMs) disk) := by
  intro mission hmission
  rw [Server.applied, apply, byGuid_noteChange, byGuid_updateMission] at hmission
  rcases of_byGuid_change hmission fun _ => rfl with ⟨hkept, -⟩ | ⟨old, hold, hguid, rfl⟩
  · exact h mission hkept
  · obtain ⟨honce, hknown⟩ := h old (hguid ▸ hold)
    refine ⟨pairwise_append.2 ⟨honce.filter _, pairwise_singleton _ _, fun a ha b hb hsame => ?_⟩,
      fun _ add hadd => ?_⟩
    · obtain rfl := mem_singleton.1 hb
      obtain ⟨hmem, hne⟩ := mem_filter.1 ha
      exact of_decide_eq_true hne (halike _ (hknown hguid a hmem) _ hcontent hsame)
    · rcases mem_append.1 hadd with hadd | hadd
      · exact hknown hguid add (mem_filter.1 hadd).1
      · exact mem_singleton.1 hadd ▸ hcontent

theorem Lists.removed : Lists guid (contents.filter (· ≠ content))
      (server.applied (.contentRemoved guid content creatorUid atMs changeId serverMs) disk) := by
  intro mission hmission
  rw [Server.applied, apply, byGuid_noteChange, byGuid_updateMission] at hmission
  rcases of_byGuid_change hmission fun _ => rfl with ⟨hkept, hother⟩ | ⟨old, hold, hguid, rfl⟩
  · exact ⟨(h mission hkept).1, fun heq => absurd heq hother⟩
  · obtain ⟨honce, hknown⟩ := h old (hguid ▸ hold)
    refine ⟨honce.filter _, fun _ add hadd => ?_⟩
    obtain ⟨hmem, hne⟩ := mem_filter.1 hadd
    exact mem_filter.2 ⟨hknown hguid add hmem, hne⟩

omit h in
private theorem lists_stable (halike : SpelledAlike contents) :
    EditStable (OnContents guid contents) (Lists guid contents) := by
  intro server event disk hevent h
  cases event with
  | contentAdded =>
    obtain ⟨rfl, hcontent⟩ := hevent
    exact h.added halike hcontent
  | contentRemoved =>
    obtain rfl := hevent
    exact h.removed.mono (filter_subset_self _)
  | data => exact h
  | _ => cases hevent

omit h in
theorem lists_addContents {hashes uids : List String} {paths : List (String × List Filed)}
    {creatorUid : String} (halike : SpelledAlike contents)
    (hcontents : ∀ c ∈ (MissionRequest.addContents hashes uids paths creatorUid).contents inputs,
      c ∈ contents) :
    Keeps (Lists mission.guid contents)
    (addContentsImpl env caller inputs mission hashes uids paths creatorUid) := by
  have hstable : EditStable (OnContents mission.guid contents) (Lists mission.guid contents) :=
    lists_stable halike
  have hadd : ∀ c ∈ contents, Keeps (Lists mission.guid contents)
      (storeOp (addContent mission.guid c creatorUid inputs.now)) :=
    fun c hc => keeps_addContent hstable fun _ => ⟨rfl, hc⟩
  obtain ⟨hnamed, hfiled⟩ := forall_mem_append.1 hcontents
  refine keeps_get.bind fun _ => Keeps.bind (keeps_ensure.bind fun _ => keeps_modify fun _ h => h)
    fun _ => keeps_ensure.bind fun _ => ?_
  refine (keeps_forM fun c hc => hadd c (hnamed c hc)).bind fun _ => Keeps.bind ?_ fun _ =>
    keeps_missionResponse
  refine keeps_forM fun path hpath => keeps_forM fun item hitem => ?_
  refine keeps_fileContents (fun hop => keeps_storeOp hstable (hop.mono ?_)) ⟨id⟩ fun c hc =>
    hadd c (hfiled c ?_)
  · rintro _ ⟨change, rfl, -, -⟩
    trivial
  · exact mem_flatMap.2 ⟨path, hpath, mem_flatMap.2 ⟨item, hitem, hc⟩⟩

private theorem wp_forM_removeContent {nowMs : Int} (gone : List Content) :
    wp (gone.forM fun content => storeOp (removeContent guid content creatorUid nowMs))
      (fun _ => Lists guid (contents.filter (· ∉ gone))) (fun _ => Lists guid contents) server := by
  induction gone generalizing contents server with
  | nil => exact h.mono fun c hc => mem_filter.2 ⟨hc, decide_eq_true not_mem_nil⟩
  | cons content rest ih =>
    show wp (_ >>= fun _ => rest.forM _) _ _ server
    simp only [wp_storeOp, removeContent, removeContentAt, recordChange, perform_bind,
      wp_bind, wp_existing, wp_perform_get, wp_record]
    refine ⟨fun _ _ => ⟨fun _ => (ih h.removed).mono (fun _ _ hnext => hnext.mono fun c hc => ?_)
      fun _ _ hnext => hnext.mono (filter_subset_self _), fun _ => h⟩, fun _ => h⟩
    simp only [mem_filter, decide_eq_true_eq, mem_cons, not_or] at hc ⊢
    exact ⟨hc.1.1, hc.1.2, hc.2⟩

omit h in
/-- Removing content adds none, and a file that is removed is gone as it is spelled. -/
theorem wp_removeContentImpl (hash uid : Option String) (h : Lists mission.guid contents server) :
    wp (removeContentImpl env caller inputs mission hash uid creatorUid)
      (fun _ => Lists mission.guid
        (contents.filter (· ∉ ((hash.filter (· ≠ "")).map Content.hash).toList)))
      (fun _ => Lists mission.guid contents) server := by
  rw [removeContentImpl, wp_bind, wp_get, require, wp_bind, wp_check]
  refine ⟨fun _ => ?_, fun _ => h⟩
  have hnoted : Lists mission.guid contents (server.note caller.username mission.guid .write) := h
  rw [wp_bind]
  refine (wp_forM_removeContent hnoted _).mono (fun _ next hnext => ?_) fun _ _ h => h
  rw [wp_bind]
  refine (wp_forM_removeContent hnext _).mono (fun _ last hlast => ?_) fun _ _ h =>
    h.mono (filter_subset_self _)
  refine (keeps_missionResponse.run (hlast.mono (filter_subset_self _))).mono (fun _ _ h => h)
    fun _ _ h => h.mono (filter_subset_self _)

theorem Lists.once : server.ListsOnce :=
  fun mission hmission => (h mission ((MissionMap.mem_values _).1 hmission)).1

end

theorem Server.ListsOnce.lists (h : server.ListsOnce)
    (hmission : server.state.byGuid mission.guid = some mission) (more : List Content) :
    Lists mission.guid (mission.contents.map (·.content) ++ more) server := by
  refine fun found hfound =>
    ⟨h found ((MissionMap.mem_values _).2 hfound), fun hguid add hadd => ?_⟩
  rw [hguid, hmission, Option.some.injEq] at hfound
  exact mem_append_left _ (mem_map_of_mem (hfound ▸ hadd))

private theorem step_listsOnce {next : Server} {action : Action} (h : server.ListsOnce)
    (hspells : action.spells env server = true) (hstep : step env server action = some next) :
    next.ListsOnce := by
  have hrequest : ∀ {username headers inputs key request},
      (∀ mission, server.state.byGuid mission.guid = some mission →
        mission ∈ ((env.caller server username headers).target server.state key).toOption →
      wp (handleAbout env (env.caller server username headers) inputs mission request) (fun _ =>
        Server.ListsOnce) (fun _ => Server.ListsOnce) server) →
      (respond env server username headers inputs (.about key request)).ListsOnce := by
    intro username headers inputs key request hhandle
    rw [Server.ListsOnce, respond_state]
    refine wp.after (I := Server.ListsOnce) ?_
    rw [handle, Caller.existing, wp_bind, wp_reads]
    refine ⟨fun mission htarget => ?_, fun _ _ => h⟩
    exact hhandle mission (Caller.target_spec htarget).1 (toOption_eq_some.2 htarget)
  cases action with
  | request username headers inputs request =>
    cases hstep
    cases request with
    | about key request =>
      obtain ⟨hcontents, halike⟩ := Bool.and_eq_true_iff.1 hspells
      refine hrequest fun mission hmission htarget => ?_
      have halike := of_decide_eq_true halike mission htarget
      cases request with
      | addContents hashes uids paths creatorUid =>
        exact ((lists_addContents halike fun c hc => mem_append_right _ hc).run
          (h.lists hmission _)).mono (fun _ _ h => h.once) fun _ _ h => h.once
      | removeContent hash uid creatorUid =>
        exact (wp_removeContentImpl hash uid (h.lists hmission [])).mono (fun _ _ h => h.once)
          fun _ _ h => h.once
      | _ => cases hcontents
    | _ => cases hspells
  | _ => cases hspells

end Files

/-- In every run of requests to add and remove content that spell each file alike, no mission lists
a file twice; and no entry for a file is left after a request to remove it. -/
theorem files_listed_once (env : Env) {start server : Server} {actions : List Action}
    (hstart : start.ListsOnce) (hrun : run (step env) start actions = some server)
    (hspells : Along (step env) (fun server action => action.spells env server =
      true) start actions) :
    server.ListsOnce ∧
      ∀ username headers inputs key file uid creatorUid reply next,
        Action.spells env server
        (.request username headers inputs
          (.about key (.removeContent (some file) uid creatorUid))) = true → file ≠ "" →
        handle env (env.caller server username headers) inputs
        (.about key (.removeContent (some file) uid creatorUid)) server =
          .ok reply next →
        ∃ mission, (env.caller server username headers).target server.state key = .ok mission ∧
          ∀ found, next.state.byGuid mission.guid = some found → ∀ add ∈ found.contents,
          ¬ add.content.SameFile (.hash file) := by
  have hlists : server.ListsOnce :=
    run_invariant Server.ListsOnce hrun hspells hstart fun _ _ _ h hspells hstep =>
    step_listsOnce h hspells hstep
  refine ⟨hlists,
    fun username headers inputs key file uid creatorUid reply next hspells hfile hok => ?_⟩
  refine wp.of_ok (Q := fun _ next =>
    ∃ mission, (env.caller server username headers).target server.state key = .ok mission ∧ ∀ found,
      next.state.byGuid mission.guid = some found → ∀ add ∈ found.contents,
        ¬ add.content.SameFile (.hash file))
    (E := fun _ _ => True) ?_ hok
  rw [handle, Caller.existing, wp_bind, wp_reads]
  refine ⟨fun mission htarget => ?_, fun _ _ => trivial⟩
  rw [Action.spells, Bool.and_eq_true] at hspells
  have halike := of_decide_eq_true hspells.2 mission (toOption_eq_some.2 htarget)
  refine (wp_removeContentImpl _ _ (hlists.lists (Caller.target_spec htarget).1 [.hash file])).mono
    (fun _ next h => ⟨mission, htarget, fun found hfound add hadd hsame => ?_⟩) fun _ _ _ => trivial
  have hguid := next.state.guid_of_byGuid hfound
  obtain ⟨hmem, hkept⟩ := mem_filter.1 ((h found (hguid ▸ hfound)).2 hguid add hadd)
  have hsome : (some file).filter (· ≠ "") = some file :=
    Option.filter_eq_some_iff.2 ⟨rfl, decide_eq_true hfile⟩
  rw [hsome, halike _ hmem _ (mem_append_right _ (mem_singleton.2 rfl)) hsame] at hkept
  exact of_decide_eq_true hkept (mem_singleton.2 rfl)

def storedFile : Inputs := { knownHash := fun hash => Text.toAsciiLowercase hash = "ab" }

def spelledAlike : List Action :=
  [.request "admin" {} storedFile (.about (.name "Ops") (.addContents ["AB", "AB"] [] [] "")),
    .request "admin" {} {} (.about (.name "Ops") (.removeContent (some "AB") none ""))]

theorem files_listed_once_spelled :
    ∃ start, run (step Env.sample) {} [.request "admin" {} {} (.put "Ops" {} false)] = some start ∧
      ∃ server, run (step Env.sample) start spelledAlike = some server ∧ server.ListsOnce := by
  refine exists_end (fun start => start.ListsOnce ∧
    Along (step Env.sample) (fun server action => action.spells Env.sample server = true) start
      spelledAlike ∧ ∃ server, run (step Env.sample) start spelledAlike = some server ∧ True) (by
        decide +kernel) fun start _ hend => ?_
  obtain ⟨hlists, hspells, server, hrun, -⟩ := hend
  exact ⟨server, hrun, (files_listed_once Env.sample hlists hrun hspells).1⟩

/-- Added in two spellings a file is listed twice, and removed in one of them it is still listed. -/
theorem file_listed_twice :
    ∃ server, run (step Env.sample) {} [.request "admin" {} {} (.put "Ops" {} false),
        .request "admin" {} storedFile
        (.about (.name "Ops") (.addContents ["AB", "ab"] [] [] ""))] = some server ∧
      ¬ server.ListsOnce ∧
      fault (handle Env.sample (Env.sample.caller server "admin" {}) {}
        (.about (.name "Ops") (.removeContent (some "ab") none ""))) server = none ∧
      ∃ last, step Env.sample server
      (.request "admin" {} {} (.about (.name "Ops") (.removeContent (some "ab") none ""))) =
      some last ∧
        ∃ mission ∈ last.state.missions.values, ∃ add ∈ mission.contents,
        add.content.SameFile (.hash "ab") := by
  decide +kernel

end MicroTak.Missions
