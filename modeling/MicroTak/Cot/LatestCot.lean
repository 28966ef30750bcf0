import MicroTak.Lib.Dict
import MicroTak.Lib.Transition

/-!
# The latest event of each uid

The store remembers the latest event of each uid, and saves them to its file from time to time.  The
mark that there is something to save is taken away before the file is written.
-/

namespace MicroTak.Cot

open Std Transition

def maxUids : Nat := 50000

structure LatestEvent where
  xml : String
  serverTimeMs : Int

/-- The store and the events that its file has; a file that cannot be read has none. -/
structure LatestCot where
  events : TreeMap String LatestEvent := ∅
  dirty : Bool := false
  file : TreeMap String LatestEvent := ∅

namespace LatestCot

inductive Action where
  /-- `xml` is without its declaration, and `oldest` is the key that `min_by_key` finds in the order
  of the map. -/
  | record (uid xml : String) (serverTimeMs : Int) (oldest : String)
  /-- `written` is whether the file is written and renamed. -/
  | saveIfDirty (written : Bool)
  | load

variable (store : LatestCot)

/-- The events without the oldest one, if a new uid needs its place. -/
def room (uid oldest : String) : Option (TreeMap String LatestEvent) :=
  if maxUids ≤ store.events.size ∧ uid ∉ store.events then
    (store.events[oldest]?).bind fun e =>
      if store.events.toList.all (e.serverTimeMs ≤ ·.2.serverTimeMs) then some
        (store.events.erase oldest) else none
  else some store.events

def step : Action → Option LatestCot
  | .record uid xml serverTimeMs oldest =>
      (store.room uid oldest).map fun events =>
        { store with events := events.insert uid ⟨xml, serverTimeMs⟩, dirty := true }
  | .saveIfDirty written =>
      some (if store.dirty then { store with
        dirty := false, file := if written then store.events else store.file } else store)
  | .load => some { store with events := store.file, dirty := false }

/-- A save with something to write gets it written. -/
def saves : Action → Bool
  | .saveIfDirty written => !store.dirty || written
  | _ => true

variable {store} {next : LatestCot} {action : Action}

private theorem size_room {uid oldest : String} {events : TreeMap String LatestEvent}
    (h : store.room uid oldest = some events) (hsize : store.events.size ≤ maxUids)
    (event : LatestEvent) : (events.insert uid event).size ≤ maxUids := by
  rw [TreeMap.size_insert]
  unfold room at h
  split at h
  · next hfull =>
    obtain ⟨e, he, h⟩ := Option.bind_eq_some_iff.1 h
    split at h
    · cases h
      have hmem : store.events.contains oldest = true := by
        rw [TreeMap.contains_eq_isSome_getElem?, he]
        rfl
      have hpos : 0 < store.events.size := by simp only [maxUids] at hfull; omega
      rw [TreeMap.size_erase, if_pos hmem]
      split <;> omega
    · cases h
  · next hfull =>
    cases h
    split
    · exact hsize
    · next huid => exact Nat.lt_of_not_le fun hle => hfull ⟨hle, huid⟩

theorem size_step (h : store.events.size ≤ maxUids ∧ store.file.size ≤ maxUids)
    (hstep : store.step action = some next) : next.events.size ≤ maxUids ∧
    next.file.size ≤ maxUids := by
  cases action with
  | record uid xml serverTimeMs oldest =>
    obtain ⟨events, hroom, rfl⟩ := Option.map_eq_some_iff.1 hstep
    exact ⟨size_room hroom h.1 _, h.2⟩
  | saveIfDirty written =>
    cases hstep
    cases store.dirty <;> cases written <;> simp [h]
  | load =>
    cases hstep
    exact ⟨h.2, h.2⟩

private theorem saved_step (h : store.dirty = false → store.file = store.events)
    (hsaves : store.saves action = true) (hstep : store.step action = some next) :
    next.dirty = false → next.file = next.events := by
  cases action with
  | record uid xml serverTimeMs oldest =>
    obtain ⟨events, -, rfl⟩ := Option.map_eq_some_iff.1 hstep
    exact fun hdirty => by cases hdirty
  | saveIfDirty written =>
    cases hstep
    cases hdirty : store.dirty with
    | false => simpa [hdirty] using h hdirty
    | true =>
      obtain rfl : written = true := by simpa [saves, hdirty] using hsaves
      simp
  | load =>
    cases hstep
    exact fun _ => rfl

/-- In every run the store remembers no more than `maxUids` events, and in every run whose saves
succeed the file has the store's events whenever there is nothing to save. -/
theorem latest_cot_catches_up {actions : List Action} {store : LatestCot}
    (hrun : run step {} actions = some store) : store.events.size ≤ maxUids ∧
      (Along step (fun store action => store.saves action = true) {} actions → store.dirty = false →
        store.file = store.events) :=
  ⟨(run_preserves (fun store => store.events.size ≤ maxUids ∧ store.file.size ≤ maxUids) hrun
    ⟨Nat.zero_le _, Nat.zero_le _⟩
      fun _ _ _ => size_step).1,
    fun hsaves => run_invariant (fun store => store.dirty = false → store.file = store.events) hrun
      hsaves (fun _ => rfl) fun _ _ _ => saved_step⟩

theorem latest_cot_catches_up_saved :
    ∃ store, run step {} [.record "u" "<event/>" 1 "", .saveIfDirty true] = some store ∧
    store.file = store.events :=
  ⟨_, rfl, (@latest_cot_catches_up [.record "u" "<event/>" 1 "", .saveIfDirty true] _ rfl).2
    (by decide +kernel) rfl⟩

/-- A save fails, and the next one finds nothing to save. -/
theorem latest_cot_never_saved :
    (run step {} [.record "u" "<event/>" 1 "", .saveIfDirty false, .saveIfDirty true]).any
      (fun store => !store.dirty && store.file.isEmpty && store.events.size == 1) = true := by
  decide +kernel

end LatestCot

end MicroTak.Cot
