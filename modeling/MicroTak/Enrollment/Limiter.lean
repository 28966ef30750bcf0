import MicroTak.Enrollment.Port

/-!
# The windows of the limiter

What recording a failure does to the entry of a key, whether or not the table is full: an open
window stays and its count grows, and a window that was not there starts with the failure.
-/

namespace MicroTak.Enrollment

open Std Option

/-- The window of the entry is still open. -/
def Failures.Live (window now : Nat) (entry : Failures) : Prop := now - entry.windowStart < window

instance (window now : Nat) (entry : Failures) : Decidable (entry.Live window now) :=
  inferInstanceAs (Decidable (now - entry.windowStart < window))

/-- `u32::MAX`, where a count stays. -/
def maxCount : Nat := UInt32.size - 1

structure Recorded (window now : Nat) (hit : Prop) (before after : Option Failures) : Prop where
  grows : ∀ entry ∈ before, entry.Live window now → ∃ entry' ∈ after,
    entry'.windowStart = entry.windowStart ∧ min entry.count maxCount ≤ entry'.count ∧
      (hit → min (entry.count + 1) maxCount ≤ entry'.count)
  opens : ∀ entry' ∈ after, (∃ entry ∈ before, entry.windowStart = entry'.windowStart ∧
    min entry.count maxCount ≤ entry'.count) ∨ entry'.windowStart = now ∧ 1 ≤ entry'.count

namespace Recorded

variable {window now : Nat} {hit hit' : Prop} {before mid after : Option Failures}

theorem refl (before : Option Failures) (hhit : ¬ hit) : Recorded window now hit before before where
  grows entry hentry _ := ⟨entry, hentry, rfl, Nat.min_le_left .., fun h => absurd h hhit⟩
  opens entry hentry := .inl ⟨entry, hentry, rfl, Nat.min_le_left ..⟩

theorem trans (h : Recorded window now hit before mid) (h' : Recorded window now hit' mid after) :
    Recorded window now (hit ∨ hit') before after where
  grows entry hentry hlive := by
    obtain ⟨entry', hmid, hstart, hcount, hbump⟩ := h.grows entry hentry hlive
    have hlive' : entry'.Live window now := by
      unfold Failures.Live
      rw [hstart]
      exact hlive
    obtain ⟨entry'', hafter, hstart', hcount', hbump'⟩ := h'.grows entry' hmid hlive'
    refine ⟨entry'', hafter, hstart'.trans hstart, by omega, ?_⟩
    rintro (hhit | hhit)
    · have hmore := hbump hhit
      omega
    · have hmore := hbump' hhit
      omega
  opens entry'' hafter := by
    have hone : 1 ≤ maxCount := by decide
    rcases h'.opens entry'' hafter with ⟨entry', hmid, hstart', hcount'⟩ | hnow
    · rcases h.opens entry' hmid with ⟨entry, hbefore, hstart, hcount⟩ | ⟨hnow, hfirst⟩
      · exact .inl ⟨entry, hbefore, hstart.trans hstart', by omega⟩
      · exact .inr ⟨hstart'.symm.trans hnow, by omega⟩
    · exact .inr hnow

theorem congr (h : Recorded window now hit before after) (hiff : hit ↔ hit') :
    Recorded window now hit' before after where
  grows entry hentry hlive := by
    rw [← hiff]
    exact h.grows entry hentry hlive
  opens := h.opens

end Recorded

namespace AuthLimiter

variable (limiter : AuthLimiter)

def counted (key : String) (now : Nat) : Nat :=
  ((limiter.failures[key]?).filter (·.Live limiter.window now)).elim 0 (·.count)

/-- The table as `record_failure` leaves it before it counts: entries whose window is over may be
gone. -/
def makeRoom (key : String) (now : Nat) : TreeMap String Failures :=
  if (limiter.failures[key]?).isNone && limiter.maxTrackedKeys ≤ limiter.failures.size then
    limiter.failures.filter fun _ entry => now - entry.windowStart < limiter.window
  else limiter.failures

def bump (now : Nat) (found : Option Failures) : Failures :=
  let entry := found.getD { windowStart := now, count := 0 }
  let entry := if limiter.window ≤ now - entry.windowStart then { windowStart := now, count := 0 }
    else entry
  { entry with count := min (entry.count + 1) (UInt32.size - 1) }

variable {limiter} (now : Nat)

theorem recordFailure_eq (key : String) :
    limiter.failures[key]? = none ∧ limiter.maxTrackedKeys ≤ (limiter.makeRoom key now).size ∧
      limiter.makeRoom key now = limiter.failures.filter (fun _ entry => now - entry.windowStart <
        limiter.window) ∧
      limiter.recordFailure key now = { limiter with failures := limiter.makeRoom key now } ∨
    ((limiter.makeRoom key now)[key]? = none → (limiter.makeRoom key now).size <
      limiter.maxTrackedKeys) ∧ limiter.recordFailure key now =
        { limiter with
          failures := (limiter.makeRoom key now).insert key
            (limiter.bump now (limiter.makeRoom key now)[key]?) } := by
  unfold recordFailure makeRoom
  dsimp only
  cases hfull : (limiter.failures[key]?).isNone &&
    decide (limiter.maxTrackedKeys ≤ limiter.failures.size) with
  | false =>
    refine .inr ⟨fun hnone => Nat.lt_of_not_le fun hle => ?_, rfl⟩
    rw [if_neg Bool.false_ne_true] at hnone hle
    simp [hnone, hle] at hfull
  | true =>
    simp only [Bool.true_and, if_true, decide_eq_true_eq]
    split
    · next hroom =>
      rw [Bool.and_eq_true_iff, isNone_iff_eq_none] at hfull
      exact .inl ⟨hfull.1, hroom, trivial, rfl⟩
    · next hroom => exact .inr ⟨fun _ => Nat.lt_of_not_le hroom, rfl⟩

theorem recorded_makeRoom (key other : String) :
    Recorded limiter.window now False limiter.failures[other]?
    (limiter.makeRoom key now)[other]? := by
  unfold makeRoom
  split
  · rw [TreeMap.getElem?_filter']
    refine ⟨fun entry hentry hlive => ⟨entry, ?_, rfl, Nat.min_le_left .., False.elim⟩,
      fun entry hentry => .inl ⟨entry, ?_, rfl, Nat.min_le_left ..⟩⟩
    · exact mem_filter_iff.2 ⟨hentry, decide_eq_true hlive⟩
    · exact (mem_filter_iff.1 hentry).1
  · exact .refl _ not_false

private theorem recorded_bump (found : Option Failures) :
    Recorded limiter.window now True found (some (limiter.bump now found)) := by
  have hcount : ∀ count, min count maxCount ≤ min (count + 1) (UInt32.size - 1) := fun count => by
    rw [← maxCount]
    omega
  have hone : 1 ≤ min (0 + 1) (UInt32.size - 1) := by decide
  refine ⟨fun entry hentry hlive => ⟨_, rfl, ?_⟩, fun entry' hentry' => ?_⟩
  · have hopen : ¬ limiter.window ≤ now - entry.windowStart := Nat.not_le.2 hlive
    rw [mem_def] at hentry
    simp only [bump, hentry, getD_some, if_neg hopen, true_and]
    exact ⟨hcount _, fun _ => le_rfl⟩
  · obtain rfl := mem_some_iff.1 hentry'
    unfold bump
    dsimp only
    split
    · exact .inr ⟨rfl, hone⟩
    · cases found with
      | none => exact .inr ⟨rfl, hone⟩
      | some entry => exact .inl ⟨entry, rfl, rfl, hcount _⟩

theorem recorded_recordFailure (key other : String) :
    Recorded limiter.window now (key = other) limiter.failures[other]?
    (limiter.recordFailure key now).failures[other]? := by
  have hroom := limiter.recorded_makeRoom now key other
  rcases limiter.recordFailure_eq now key with ⟨hnone, -, -, heq⟩ | ⟨-, heq⟩
  · rw [heq]
    refine ⟨fun entry hentry hlive => ?_, hroom.opens⟩
    obtain ⟨entry', hentry', hstart, hcount, -⟩ := hroom.grows entry hentry hlive
    refine ⟨entry', hentry', hstart, hcount, ?_⟩
    rintro rfl
    rw [hnone] at hentry
    cases hentry
  · rw [heq]
    rw [Dict.getElem?_insert]
    split
    · next hkey =>
      subst hkey
      exact (hroom.trans (recorded_bump now _)).congr (by simp)
    · next hkey => exact hroom.congr (by simpa using hkey)

theorem recordFailure_config (key : String) :
    (limiter.recordFailure key now).window = limiter.window ∧
      (limiter.recordFailure key now).maxFailures = limiter.maxFailures := by
  rcases limiter.recordFailure_eq now key with ⟨-, -, -, heq⟩ | ⟨-, heq⟩
  · rw [heq]
    exact ⟨rfl, rfl⟩
  · rw [heq]
    exact ⟨rfl, rfl⟩

theorem recordFailures_config (limiter : AuthLimiter) (keys : List String) :
    (limiter.recordFailures keys now).window = limiter.window ∧
      (limiter.recordFailures keys now).maxFailures = limiter.maxFailures := by
  induction keys generalizing limiter with
  | nil => exact ⟨rfl, rfl⟩
  | cons key rest ih =>
    obtain ⟨hwindow, hmax⟩ := ih (limiter.recordFailure key now)
    obtain ⟨hwindow', hmax'⟩ := limiter.recordFailure_config now key
    exact ⟨hwindow.trans hwindow', hmax.trans hmax'⟩

theorem recorded_recordFailures (limiter : AuthLimiter) (keys : List String) (other : String) :
    Recorded limiter.window now (other ∈ keys) limiter.failures[other]?
      (limiter.recordFailures keys now).failures[other]? := by
  induction keys generalizing limiter with
  | nil => exact .refl _ List.not_mem_nil
  | cons key rest ih =>
    have hrest := ih (limiter.recordFailure key now)
    rw [(limiter.recordFailure_config now key).1] at hrest
    refine ((recorded_recordFailure now key other).trans hrest).congr ?_
    rw [List.mem_cons, eq_comm]

theorem counted_of_live {now : Nat} {key : String} {entry : Failures}
    (hentry : entry ∈ limiter.failures[key]?) (hlive : entry.Live limiter.window now) :
    limiter.counted key now = entry.count := by
  simp [counted, mem_def.1 hentry, Option.filter, hlive]

/-- The windows that open between the two, with their starts. -/
def opened (before after : AuthLimiter) : List (String × Nat) :=
  after.failures.toList.filterMap fun (key, entry) =>
    if (before.failures[key]?).any (·.windowStart = entry.windowStart) then none
      else some (key, entry.windowStart)

theorem mem_opened {before after : AuthLimiter} {key : String} {start : Nat} :
    (key, start) ∈ opened before after ↔ ∃ entry, after.failures[key]? = some entry ∧
    entry.windowStart = start ∧
      ∀ old ∈ before.failures[key]?, old.windowStart ≠ start := by
  simp only [opened, List.mem_filterMap]
  constructor
  · rintro ⟨⟨other, entry⟩, hmem, hsome⟩
    split at hsome
    · cases hsome
    · next hnew =>
      cases hsome
      refine ⟨entry, TreeMap.mem_toList_iff_getElem?_eq_some.1 hmem, rfl, fun old hold hsame =>
        hnew ?_⟩
      rw [mem_def] at hold
      simp [hold, hsame]
  · rintro ⟨entry, hentry, rfl, hnew⟩
    refine ⟨(key, entry), TreeMap.mem_toList_iff_getElem?_eq_some.2 hentry, if_neg ?_⟩
    rw [any_eq_true]
    rintro ⟨old, hold, hsame⟩
    exact hnew old hold (of_decide_eq_true hsame)

theorem opened_self (limiter : AuthLimiter) : opened limiter limiter = [] := by
  refine List.eq_nil_iff_forall_not_mem.2 fun ⟨key, start⟩ hmem => ?_
  obtain ⟨entry, hentry, hstart, hnew⟩ := mem_opened.1 hmem
  exact hnew entry hentry hstart

/-! ### The counters of the keys -/

variable {calls : List (String × Nat)} {key : String} {now later : Nat}

def live (window now : Nat) (found : Option Failures) : Option Failures :=
  found.filter (·.Live window now)

/-- A failure counts in the open window, or opens one. -/
def failed (now : Nat) (found : Option Failures) : Failures :=
  let entry := found.getD { windowStart := now, count := 0 }
  { entry with count := entry.count + 1 }

/-- The last window of the key, whatever becomes of the other keys. -/
def lastWindow (window : Nat) (calls : List (String × Nat)) (key : String) : Option Failures :=
  calls.foldl (fun last call => if call.1 = key then some (failed call.2 (live window call.2 last))
    else last) none

/-- A key without an open window finds less than `maxTrackedKeys` other keys that have one. -/
def Roomy (window maxTrackedKeys : Nat) (calls : List (String × Nat)) (key : String)
    (now : Nat) : Prop :=
  live window now (lastWindow window calls key) = none → ∀ others : List String, others.Nodup →
    (∀ other ∈ others, other ≠ key ∧ live window now (lastWindow window calls other) ≠ none) →
      others.length < maxTrackedKeys

def saturated (found : Option Failures) : Option Failures :=
  found.map fun entry => { entry with count := min entry.count maxCount }

/-- The table has the open windows, with counts that saturate. -/
structure Tracks (limiter : AuthLimiter) (calls : List (String × Nat)) (now : Nat) : Prop where
  size : limiter.failures.size ≤ limiter.maxTrackedKeys
  entry : ∀ key, live limiter.window now limiter.failures[key]? =
    saturated (live limiter.window now (lastWindow limiter.window calls key))

theorem live_live (hnow : now ≤ later) (window : Nat) (found : Option Failures) :
    live window later (live window now found) = live window later found := by
  rw [live, live, filter_filter]
  unfold live Failures.Live
  congr 1
  funext entry
  grind

theorem live_saturated (window : Nat) (found : Option Failures) :
    live window now (saturated found) = saturated (live window now found) := filter_map

theorem Tracks.mono (h : limiter.Tracks calls now) (hnow : now ≤ later) :
    limiter.Tracks calls later where
  size := h.size
  entry key := by rw [← live_live hnow, h.entry, live_saturated, live_live hnow]

theorem Tracks.makeRoom (h : limiter.Tracks calls now) (key : String) :
    Tracks { limiter with failures := limiter.makeRoom key now } calls now := by
  unfold AuthLimiter.makeRoom
  split
  · refine ⟨TreeMap.size_filter_le_size.trans h.size, fun other => ?_⟩
    dsimp only
    rw [← h.entry, TreeMap.getElem?_filter']
    exact live_live le_rfl ..
  · exact h

private theorem bump_eq {found last : Option Failures}
    (h : live limiter.window now found = saturated last) :
    some (limiter.bump now found) = saturated (some (failed now last)) := by
  have hlive : some (limiter.bump now found) =
      saturated (some (failed now (live limiter.window now found))) := by
    cases found with
    | none => simp [bump, live, saturated, failed, maxCount]
    | some entry =>
      by_cases hover : limiter.window ≤ now - entry.windowStart
      · simp [bump, live, saturated, failed, Option.filter, Failures.Live, hover.not_gt,
          hover, maxCount]
      · simp [bump, live, saturated, failed, Option.filter, Failures.Live, Nat.lt_of_not_le hover,
          hover, maxCount]
  rw [hlive, h]
  cases last with
  | none => rfl
  | some entry =>
    simp [saturated, failed]
    omega

theorem Tracks.step (h : limiter.Tracks calls now)
    (hroomy : Roomy limiter.window limiter.maxTrackedKeys calls key now) :
    ∃ failures, limiter.recordFailure key now = { limiter with failures } ∧
      Tracks { limiter with failures } (calls ++ [(key, now)]) now := by
  have hroom := h.makeRoom key
  rcases limiter.recordFailure_eq now key with ⟨hnone, hfull, hfilter, -⟩ | ⟨hfits, heq⟩
  · -- The keys of a full table all have an open window.
    have hopen : ∀ other, (limiter.makeRoom key now)[other]? =
        saturated (live limiter.window now (lastWindow limiter.window calls other)) := by
      intro other
      rw [← h.entry, hfilter, TreeMap.getElem?_filter']
      rfl
    have hkey : (limiter.makeRoom key now)[key]? = none := by
      rw [hfilter, TreeMap.getElem?_filter', hnone]
      rfl
    refine ((hroomy (map_eq_none_iff.1 ((hopen key).symm.trans hkey))
      (limiter.makeRoom key now).keys TreeMap.nodup_keys fun other hother => ?_).not_ge
        (hfull.trans_eq TreeMap.length_keys.symm)).elim
    rw [TreeMap.mem_keys, TreeMap.mem_iff_isSome_getElem?] at hother
    refine ⟨?_, fun hover => ?_⟩
    · rintro rfl
      simp [hkey] at hother
    · simp [hopen, hover, saturated] at hother
  · refine ⟨_, heq, ?_, fun other => ?_⟩
    · dsimp only
      rw [TreeMap.size_insert]
      split
      · exact hroom.size
      · next hnot => exact hfits (by simpa using hnot)
    · dsimp only
      rw [Dict.getElem?_insert, lastWindow, List.foldl_concat]
      split
      · next hkey =>
        subst hkey
        exact (congrArg (live limiter.window now) (bump_eq (hroom.entry key))).trans
          (live_saturated ..)
      · exact hroom.entry other

def after (limiter : AuthLimiter) (calls : List (String × Nat)) : AuthLimiter :=
  calls.foldl (fun limiter call => limiter.recordFailure call.1 call.2) limiter

variable (limiter : AuthLimiter) (hempty : limiter.failures = ∅)
  (hsorted : calls.Pairwise (·.2 ≤ ·.2))
  (hroomy : ∀ before key now rest, calls = before ++ (key, now) :: rest →
    Roomy limiter.window limiter.maxTrackedKeys before key now) (hnow :
    ∀ call ∈ calls, call.2 ≤ now)

include hempty hsorted hroomy hnow

private theorem tracks_after :
    ∃ failures, limiter.after calls = { limiter with failures } ∧
    Tracks { limiter with failures } calls now := by
  induction calls using List.reverseRecOn generalizing now with
  | nil => exact ⟨∅, by rw [← hempty]; rfl, by simp, fun _ => by simp [lastWindow, live, saturated]⟩
  | append_singleton before call ih =>
    obtain ⟨hbefore, -, hle⟩ := List.pairwise_append.1 hsorted
    obtain ⟨failures, heq, htracks⟩ :=
      ih hbefore (fun front key t rest h => hroomy front key t (rest ++ [call]) (by simp [h]))
        fun other hother => hle other hother call (List.mem_singleton_self call)
    obtain ⟨failures', heq', htracks'⟩ := htracks.step (hroomy before call.1 call.2 [] rfl)
    refine ⟨failures', ?_, htracks'.mono (hnow call (by simp))⟩
    rw [after, List.foldl_concat, ← after, heq, heq']

/-- While no key is left out for want of room, the table stays within its bound, has every key whose
window is open, and blocks those of them whose window has enough failures. -/
theorem blocked_iff_window (hmax : limiter.maxFailures < UInt32.size) (key : String) :
    (limiter.after calls).failures.size ≤ limiter.maxTrackedKeys ∧
      (live limiter.window now (lastWindow limiter.window calls key) ≠ none →
        key ∈ (limiter.after calls).failures) ∧
      (limiter.after calls).isBlocked key now =
        (live limiter.window now (lastWindow limiter.window calls key)).any
        (limiter.maxFailures ≤ ·.count) := by
  obtain ⟨failures, heq, htracks⟩ := tracks_after limiter hempty hsorted hroomy hnow
  have hentry := htracks.entry key
  dsimp only at hentry
  rw [heq, isBlocked]
  refine ⟨htracks.size, fun hopen => ?_, ?_⟩
  · rw [TreeMap.mem_iff_isSome_getElem?, isSome_iff_ne_none]
    intro hnone
    rw [hnone] at hentry
    exact hopen (map_eq_none_iff.1 hentry.symm)
  · have hcount : ∀ count, limiter.maxFailures ≤ min count maxCount ↔
        limiter.maxFailures ≤ count := by
      unfold maxCount
      omega
    calc
      _ = (live limiter.window now failures[key]?).any (limiter.maxFailures ≤ ·.count) :=
        (any_filter ..).symm
      _ = _ := by simp [hentry, saturated, any_map, hcount]

omit hempty hsorted hroomy hnow

theorem lastWindow_eq_none {window : Nat} (h : key ∉ calls.map Prod.fst) :
    lastWindow window calls key = none := by
  induction calls using List.reverseRecOn with
  | nil => rfl
  | append_singleton before call ih =>
    rw [List.map_append, List.mem_append, not_or, List.map_singleton, List.mem_singleton] at h
    rw [lastWindow, List.foldl_concat, if_neg (Ne.symm h.2)]
    exact ih h.1

def openKeys (window : Nat) (calls : List (String × Nat)) (key : String) (now : Nat) :
    List String :=
  (calls.map Prod.fst).filter fun other =>
    other ≠ key && (live window now (lastWindow window calls other)).isSome

theorem roomy_of_openKeys {window maxTrackedKeys : Nat}
    (h : (live window now (lastWindow window calls key)).isNone →
      (openKeys window calls key now).dedup.length < maxTrackedKeys) :
    Roomy window maxTrackedKeys calls key now := by
  intro hnone others hnodup hothers
  refine (hnodup.subperm fun other hother => ?_).length_le.trans_lt (h (isNone_iff_eq_none.2 hnone))
  obtain ⟨hne, hopen⟩ := hothers other hother
  have hcalled : other ∈ calls.map Prod.fst := by
    by_contra hnot
    rw [lastWindow_eq_none hnot] at hopen
    exact hopen rfl
  rw [List.mem_dedup, openKeys, List.mem_filter]
  exact ⟨hcalled, by simp [hne, isSome_iff_ne_none, hopen]⟩

def refilled : List (String × Nat) :=
  [("ip:192.0.2.1", 0), ("ip:192.0.2.1", 1), ("ip:192.0.2.2", 4), ("ip:192.0.2.2", 5),
    ("ip:192.0.2.3", 11), ("ip:192.0.2.2", 15), ("ip:192.0.2.3", 16)]

theorem blocked_iff_window_refilled :
    let limiter := after { maxFailures := 2, window := 10, maxTrackedKeys := 2 } refilled
    limiter.failures.size ≤ 2 ∧ "ip:192.0.2.2" ∈ limiter.failures ∧
      limiter.isBlocked "ip:192.0.2.1" 16 = false ∧ limiter.isBlocked "ip:192.0.2.2" 16 = false ∧
        limiter.isBlocked "ip:192.0.2.3" 16 = true := by
  have hroomy : ∀ before key now rest, refilled = before ++ (key, now) :: rest →
      Roomy 10 2 before key now := by
    intro before key now rest h
    have hextends : ∀ front ∈ refilled.inits, ∀ call ∈ (refilled.drop front.length).head?,
        (live 10 call.2 (lastWindow 10 front call.1)).isNone →
          (openKeys 10 front call.1 call.2).dedup.length < 2 := by
      decide +kernel
    refine roomy_of_openKeys (hextends before ((List.mem_inits ..).2 ⟨_, h.symm⟩) (key, now) ?_)
    simp [h]
  have hsorted : refilled.Pairwise (·.2 ≤ ·.2) := by decide
  have hnow : ∀ call ∈ refilled, call.2 ≤ 16 := by decide
  have hblocked (key : String) :=
    blocked_iff_window { maxFailures := 2, window := 10, maxTrackedKeys := 2 } rfl hsorted hroomy
      hnow (by decide) key
  exact ⟨(hblocked "").1, (hblocked "ip:192.0.2.2").2.1 (by decide +kernel),
    (hblocked _).2.2.trans (by decide +kernel), (hblocked _).2.2.trans (by decide +kernel),
      (hblocked _).2.2.trans (by decide +kernel)⟩

end AuthLimiter

end MicroTak.Enrollment
