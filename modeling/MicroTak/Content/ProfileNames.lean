import MicroTak.Content.Profiles
import MicroTak.Lib.Dict
import MicroTak.Lib.Kept

/-!
# Profiles by name

Most requests name a profile, and the store takes the first of that name.  A profile is created only
under a name that is free; a change may give it any name, that of another profile too.
-/

namespace MicroTak.Content

open Journal Transition List ProfileState

namespace ProfileState

variable {state : ProfileState}

def byName (state : ProfileState) (name : String) : Option Profile :=
  state.profiles.find? (·.name = name)

/-- No two profiles have one name or one id. -/
structure Named (state : ProfileState) : Prop where
  names : (state.profiles.map (·.name)).Nodup
  ids : (state.profiles.map (·.id)).Nodup
  below : ∀ profile ∈ state.profiles, profile.id ≤ state.nextProfileId

end ProfileState

/-! ### One event -/

section Update

variable {profiles : List Profile} {id : Int} {f : Profile → Profile}

theorem map_updateProfile {β : Type} (key : Profile → β)
    (hkey : ∀ profile, key (f profile) = key profile) :
    (updateProfile id f profiles).map key = profiles.map key :=
  Dict.map_update rfl (fun _ _ => rfl) hkey

theorem nodup_names_updateProfile {name : String} (hname : ∀ profile, (f profile).name = name)
    (hnames : (profiles.map (·.name)).Nodup) (hids : (profiles.map (·.id)).Nodup)
    (hfree : ∀ profile ∈ profiles, profile.id ≠ id → profile.name ≠ name) :
    ((updateProfile id f profiles).map (·.name)).Nodup := by
  induction profiles with
  | nil => exact nodup_nil
  | cons profile rest ih =>
    obtain ⟨hfirst, hrest⟩ := nodup_cons.1 hnames
    obtain ⟨hfirstId, hrestIds⟩ := nodup_cons.1 hids
    have hfreeRest : ∀ other ∈ rest, other.id ≠ id → other.name ≠ name :=
      fun other hother => hfree other (mem_cons_of_mem _ hother)
    rw [updateProfile]
    split
    · next hid =>
      refine nodup_cons.2 ⟨fun hthere => ?_, hrest⟩
      obtain ⟨other, hother, hsame⟩ := mem_map.1 hthere
      have hotherId : other.id ≠ id := fun heq =>
        hfirstId (mem_map.2 ⟨other, hother, heq.trans hid.symm⟩)
      exact hfreeRest other hother hotherId (hsame.trans (hname profile))
    · next hid =>
      refine nodup_cons.2 ⟨fun hthere => ?_, ih hrest hrestIds hfreeRest⟩
      obtain ⟨changed, hchanged, hsame⟩ := mem_map.1 hthere
      rcases Dict.mem_of_update rfl (fun _ _ => rfl) hchanged with hold | ⟨other, -, -, rfl⟩
      · exact hfirst (mem_map.2 ⟨changed, hold, hsame⟩)
      · exact hfree profile mem_cons_self hid (hsame.symm.trans (hname other))

end Update

namespace ProfileState

variable {state : ProfileState}

def Spares : ProfileEvent → Prop
  | .created .. | .updated .. => False
  | _ => True

section

variable (h : state.Named) {atMs : Int}

include h

theorem Named.update {id : Int} {f : Profile → Profile}
    (hid : ∀ profile, (f profile).id = profile.id)
    (hnames : ((updateProfile id f state.profiles).map (·.name)).Nodup) : Named
    { state with profiles := updateProfile id f state.profiles } where
  names := hnames
  ids := (map_updateProfile (·.id) hid).symm ▸ h.ids
  below := by
    intro profile hprofile
    rcases Dict.mem_of_update rfl (fun _ _ => rfl) hprofile with hold | ⟨other, hother, -, rfl⟩
    · exact h.below profile hold
    · rw [hid]
      exact h.below other hother

theorem Named.touch (profileId atMs : Int) : (state.touch profileId atMs).Named := by
  refine h.update (fun _ => rfl) ?_
  rw [map_updateProfile (·.name)]
  · exact h.names
  · exact fun _ => rfl

private theorem Named.frame {files : List ProfileFile} {directories : List ProfileDirectory}
    {nextFileId nextDirectoryId : Int} :
    Named { state with files, directories, nextFileId, nextDirectoryId } :=
  ⟨h.names, h.ids, h.below⟩

theorem Named.apply {event : ProfileEvent} (hspares : Spares event) :
    (state.apply event).Named := by
  cases event with
  | created | updated => exact hspares.elim
  | deleted id =>
    have hsub : (state.profiles.filter (·.id ≠ id)).Sublist state.profiles := filter_sublist
    exact ⟨h.names.sublist (hsub.map _), h.ids.sublist (hsub.map _), fun p hp =>
      h.below p (hsub.subset hp)⟩
  | fileAdded id profileId name hash atMs | directoryAdded id profileId path atMs =>
    exact h.frame.touch profileId atMs
  | fileDeleted id atMs =>
    rw [ProfileState.apply]
    split
    · exact h
    · exact h.frame.touch _ atMs
  | directoriesCleared profileId => exact h.frame

theorem Named.created {name : String} {groups : Finset String}
    (hnew : ∀ profile ∈ state.profiles, profile.name ≠ name) :
    (state.apply (.created (state.nextProfileId + 1) name groups atMs)).Named where
  names := by
    simp only [ProfileState.apply, map_append]
    refine nodup_append_comm.1 (nodup_cons.2 ⟨fun hthere => ?_, h.names⟩)
    obtain ⟨profile, hprofile, hsame⟩ := mem_map.1 hthere
    exact hnew profile hprofile hsame
  ids := by
    simp only [ProfileState.apply, map_append, map_singleton]
    refine nodup_append_comm.1 (nodup_cons.2 ⟨fun hthere => ?_, h.ids⟩)
    obtain ⟨profile, hprofile, hsame⟩ := mem_map.1 hthere
    have hle := h.below profile hprofile
    omega
  below := by
    intro profile hprofile
    rcases mem_append.1 hprofile with hold | hmade
    · exact Int.le_trans (h.below profile hold) (Int.le_max_left ..)
    · rw [mem_singleton.1 hmade]
      exact Int.le_max_right ..

theorem Named.updated {id : Int} {update : ProfileUpdate}
    (hfree : ∀ profile ∈ state.profiles, profile.id ≠ id → profile.name ≠ update.name) :
    (state.apply (.updated id update atMs)).Named :=
  h.update (fun _ => rfl) (nodup_names_updateProfile (fun _ => rfl) h.names h.ids hfree)

end

end ProfileState

/-! ### Calls -/

inductive ProfileCall where
  | create (name : String) (groups : Finset String) (nowMs : Int)
  | update (id : Int) (posted : ProfileUpdate) (nowMs : Int)
  | delete (id : Int)
  | addFile (profileId : Int) (name hash : String) (nowMs : Int)
  | deleteFile (id nowMs : Int)
  | addDirectories (profileId : Int) (paths : List String) (nowMs : Int)
  | clearDirectories (profileId : Int)

namespace ProfileCall

def op : ProfileCall → ProfileStore.Op Unit
  | .create name groups nowMs => do
      let _ ← ProfileStore.create name groups nowMs
  | .update id posted nowMs => ProfileStore.update id posted nowMs
  | .delete id => do
      let _ ← ProfileStore.delete id
  | .addFile profileId name hash nowMs => do
      let _ ← ProfileStore.addFile profileId name hash nowMs
  | .deleteFile id nowMs => do
      let _ ← ProfileStore.deleteFile id nowMs
  | .addDirectories profileId paths nowMs => ProfileStore.addDirectories profileId paths nowMs
  | .clearDirectories profileId => ProfileStore.clearDirectories profileId

def nameFree (state : ProfileState) : ProfileCall → Bool
  | .update id posted _ =>
    state.profiles.all fun profile => profile.id = id || profile.name ≠ posted.name
  | _ => true

variable {state : ProfileState} {disk : Option Nat}

theorem named_of_only {α : Type} {op : ProfileStore.Op α} (h : state.Named)
    (honly : op.Only ProfileState.Spares) : (op.run apply disk state).state.Named :=
  honly.run ProfileState.Named (fun _ _ hspares h => h.apply hspares) h

theorem named_create (name : String) (groups : Finset String) (nowMs : Int) (h : state.Named) :
    ((op (.create name groups nowMs)).run apply disk state).state.Named := by
  simp only [op, ProfileStore.create, bind_assoc, Op.run_get_bind]
  split
  · exact h
  · next hnew =>
    refine Op.state_put_bind ProfileState.Named h fun disk =>
      h.created fun profile hprofile hsame => hnew ?_
    exact any_eq_true.2 ⟨profile, hprofile, decide_eq_true hsame⟩

private theorem named_update {id : Int} {posted : ProfileUpdate} {nowMs : Int} (h : state.Named)
    (hfree : nameFree state (.update id posted nowMs) = true) :
    ((op (.update id posted nowMs)).run apply disk state).state.Named := by
  have hother : ∀ profile ∈ state.profiles, profile.id ≠ id → profile.name ≠ posted.name := by
    intro profile hprofile hid
    simpa [hid] using all_eq_true.1 hfree profile hprofile
  simp only [op, ProfileStore.update, ProfileStore.recordExisting, Op.run_get_bind,
    Op.run_ensure_bind]
  split
  · exact Op.state_put_bind (f := fun _ => pure ()) ProfileState.Named h fun _ => h.updated hother
  · exact h

theorem named (call : ProfileCall) (h : state.Named) (hfree : call.nameFree state = true) :
    (call.op.run apply disk state).state.Named := by
  cases call with
  | create name groups nowMs => exact named_create name groups nowMs h
  | update id posted nowMs => exact named_update h hfree
  | delete id | addFile profileId name hash nowMs =>
    refine named_of_only h ((Op.only_get.bind fun _ => ?_).bind fun _ => trivial)
    exact (ProfileStore.only_recordExisting trivial).bind fun _ => trivial
  | deleteFile id nowMs =>
    refine named_of_only h ((Op.only_get.bind fun _ => Op.only_orRefuse.bind fun _ => ?_).bind
      fun _ => trivial)
    exact (Op.only_put trivial).bind fun _ => trivial
  | addDirectories profileId paths nowMs =>
    refine named_of_only h (Op.only_get.bind fun _ => Op.only_ensure.bind fun _ => ?_)
    clear hfree
    induction paths with
    | nil => trivial
    | cons path rest ih => exact (Op.only_get.bind fun _ => Op.only_put trivial).bind fun _ => ih
  | clearDirectories profileId => exact named_of_only h (ProfileStore.only_recordExisting trivial)

end ProfileCall

abbrev profileStep := Kept.step apply {} ProfileCall.op

/-- As long as no change gives a profile the name of another, and no failed append leaves its
record, no two profiles have one name, and a request by name acts on the one profile of that
name. -/
theorem profile_names_identify (turns : List (Turn ProfileCall))
    (store : Kept ProfileState ProfileEvent) (hrun : run profileStep ⟨{}, []⟩ turns = some store)
    (hfree : Along profileStep (fun store turn =>
      turn.meets (fun state call => call.nameFree state) store = true) ⟨{}, []⟩ turns) :
    store.state = store.log.foldl apply {} ∧ (store.state.profiles.map (·.name)).Nodup ∧
      ∀ (name : String) (profile : Profile), store.state.byName name = some profile →
        ∀ other ∈ store.state.profiles, other.name = name ∨ other.id = profile.id →
        other = profile := by
  have hinit : ProfileState.Named {} := ⟨nodup_nil, nodup_nil, fun _ h => by cases h⟩
  obtain ⟨hfaithful, hnamed⟩ := Kept.run_keeps ProfileState.Named hrun hfree rfl hinit
    fun _ call _ h hfree => call.named h hfree
  refine ⟨hfaithful, hnamed.names, fun name profile hfound other hother hsame => ?_⟩
  have hmem : profile ∈ store.state.profiles := mem_of_find?_eq_some hfound
  have hname : profile.name = name := by simpa using find?_some hfound
  rcases hsame with hothername | hid
  · exact inj_on_of_nodup_map hnamed.names hother hmem (hothername.trans hname.symm)
  · exact inj_on_of_nodup_map hnamed.ids hother hmem hid

namespace Renaming

def renamed (name : String) : ProfileUpdate :=
  { name, active := true, applyOnEnrollment := true, applyOnConnect := false, tool := none,
    groups := ∅, allGroups := false }

def secondNamed (name : String) : List (Turn ProfileCall) :=
  [.call (.create "Field" ∅ 1), .call (.create "Base" ∅ 2), .call (.update 2 (renamed name) 3),
    .restart]

end Renaming

open Renaming in
theorem profile_names_identify_renamed :
    ∃ store, run profileStep ⟨{}, []⟩ (secondNamed "Camp") = some store ∧
    (store.state.profiles.map (·.name)).Nodup := by
  refine exists_end (fun _ => True) (by decide +kernel) fun store hrun _ => ?_
  exact (profile_names_identify _ store hrun (by decide +kernel)).2.1

open Renaming in
/-- The second profile takes the name of the first, and what is asked of that name is done to the
first. A profile whose record stays although its append fails is there beside the one created
next. -/
theorem profile_renamed_to_another :
    (∃ store, run profileStep ⟨{}, []⟩ (secondNamed "Field") = some store ∧
      store.state.profiles.map (fun profile => (profile.id, profile.name)) =
      [(1, "Field"), (2, "Field")] ∧ (store.state.byName "Field").map (·.id) = some 1) ∧
    ∃ store, run profileStep ⟨{}, []⟩ [.call (.create "Field" ∅ 1) (some 0) true,
      .call (.create "Field" ∅ 2), .restart] = some store ∧ store.state.profiles.map (·.name) =
      ["Field", "Field"] := by
  decide +kernel

end MicroTak.Content
