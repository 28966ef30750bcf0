import Mathlib.Data.List.Sort
import MicroTak.Lib.Journal

/-!
# Data feeds

The feeds the server keeps, with their log: named inputs whose events are marked as the feed's.  A
change of a feed records its deletion and then the new one, under one lock.
-/

namespace MicroTak.Feeds

open Journal List Op

structure DataFeed where
  uuid : String
  name : String
  feedType : String
  tags : List String := []
  protocol : String
  port : Option Int
  filterGroups : List String := []
  deriving DecidableEq

inductive DataFeedError where
  | notFound
  | nameTaken
  deriving DecidableEq

inductive DataFeedEvent where
  | saved (feed : DataFeed)
  | deleted (name : String)

def applyEvent (feeds : List DataFeed) : DataFeedEvent → List DataFeed
  | .saved feed => feeds.filter (fun f => f.uuid ≠ feed.uuid && f.name ≠ feed.name) ++ [feed]
  | .deleted name => feeds.filter (·.name ≠ name)

inductive FeedCall where
  | create (feed : DataFeed)
  /-- The feed called `name` becomes `feed`, which may rename it. -/
  | replace (name : String) (feed : DataFeed)
  | delete (name : String)

def FeedCall.op : FeedCall → Op (List DataFeed) DataFeedEvent DataFeedError Unit
  | .create feed => do
      let feeds ← get
      ensure (feeds.all (·.name ≠ feed.name) = true) .nameTaken
      put (.saved feed)
  | .replace name feed => do
      let feeds ← get
      ensure (feeds.any (·.name = name) = true) .notFound
      ensure ((feed.name = name || feeds.all (·.name ≠ feed.name)) = true) .nameTaken
      put (.deleted name)
      put (.saved feed)
  | .delete name => do
      let feeds ← get
      ensure (feeds.any (·.name = name) = true) .notFound
      put (.deleted name)

def all (feeds : List DataFeed) : List DataFeed := feeds.insertionSort fun a b => a.name ≤ b.name

variable {feeds : List DataFeed}

theorem FeedCall.state_of_recorded_nil {call : FeedCall} {disk : Option Nat}
    (h : (call.op.run applyEvent disk feeds).recorded = []) :
    (call.op.run applyEvent disk feeds).state = feeds := by
  rw [run_state, h]
  rfl

/-! ### What a call changes -/

/-- No two feeds share a name or a uuid. -/
structure Distinct (feeds : List DataFeed) : Prop where
  names : (feeds.map (·.name)).Nodup
  uuids : (feeds.map (·.uuid)).Nodup

private theorem Distinct.filter (h : Distinct feeds) (p : DataFeed → Bool) :
    Distinct (feeds.filter p) where
  names := h.names.sublist (filter_sublist.map _)
  uuids := h.uuids.sublist (filter_sublist.map _)

private theorem Distinct.apply (h : Distinct feeds) (event : DataFeedEvent) :
    Distinct (applyEvent feeds event) := by
  cases event with
  | saved feed =>
    have hother := h.filter fun f => f.uuid ≠ feed.uuid && f.name ≠ feed.name
    constructor
    · rw [applyEvent, map_append, nodup_append]
      refine ⟨hother.names, nodup_singleton _, ?_⟩
      grind
    · rw [applyEvent, map_append, nodup_append]
      refine ⟨hother.uuids, nodup_singleton _, ?_⟩
      grind
  | deleted name => exact h.filter _

theorem Distinct.replay (h : Distinct feeds) (events : List DataFeedEvent) :
    Distinct (events.foldl applyEvent feeds) := by
  induction events generalizing feeds with
  | nil => exact h
  | cons event rest ih => exact ih (h.apply event)

theorem FeedCall.distinct (call : FeedCall) (disk : Option Nat) (h : Distinct feeds) :
    Distinct (call.op.run applyEvent disk feeds).state := by
  rw [run_state]
  exact h.replay _

namespace FeedCall

def posted : FeedCall → Option DataFeed
  | .create feed | .replace _ feed => some feed
  | .delete _ => none

def replaces (feed : DataFeed) : FeedCall → Bool
  | .create _ => false
  | .replace name _ | .delete name => feed.name = name

/-- No other feed has the uuid of the one that is added. -/
def uuidFree (feeds : List DataFeed) (call : FeedCall) : Bool :=
  feeds.all fun feed => call.replaces feed || call.posted.all (·.uuid ≠ feed.uuid)

variable {call : FeedCall} {disk : Option Nat}

private theorem applyEvent_deleted (feeds : List DataFeed) (name : String) :
    applyEvent feeds (.deleted name) = feeds.filter fun feed => !decide (feed.name = name) := by
  simp [applyEvent]

/-- A call that succeeds has recorded what it is for, and the new name was free. -/
theorem done_spec (h : (call.op.run applyEvent disk feeds).answer = .done ()) :
    (call.op.run applyEvent disk feeds).state =
        (call.posted.map DataFeedEvent.saved).toList.foldl applyEvent
        (feeds.filter (!call.replaces ·)) ∧
      ∀ feed ∈ feeds, call.replaces feed = false → ∀ new, call.posted = some new →
      feed.name ≠ new.name := by
  cases call with
  | create new =>
    simp only [op, run_get_bind, run_ensure_bind] at h ⊢
    split at h
    · next hfree =>
      rw [if_pos hfree]
      refine ⟨?_, fun feed hfeed _ other hother => ?_⟩
      · rcases disk with _ | _ | n
        · simp [put, run, replaces, posted]
        · cases h
        · simp [put, run, replaces, posted]
      · cases hother
        simpa using all_eq_true.1 hfree feed hfeed
    · cases h
  | replace name new =>
    simp only [op, run_get_bind, run_ensure_bind] at h ⊢
    split at h
    · next hthere =>
      split at h
      · next hfree =>
        rw [if_pos hthere, if_pos hfree]
        refine ⟨?_, fun feed hfeed hname other hother => ?_⟩
        · rcases disk with _ | _ | _ | n
          · exact congrArg (applyEvent · (.saved new)) (applyEvent_deleted feeds name)
          · cases h
          · cases h
          · exact congrArg (applyEvent · (.saved new)) (applyEvent_deleted feeds name)
        · cases hother
          simp only [replaces] at hname
          grind
      · cases h
    · cases h
  | delete name =>
    simp only [op, run_get_bind, run_ensure_bind] at h ⊢
    split at h
    · next hthere =>
      rw [if_pos hthere]
      refine ⟨?_, fun _ _ _ _ hnew => by cases hnew⟩
      rcases disk with _ | _ | n
      · exact applyEvent_deleted feeds name
      · cases h
      · exact applyEvent_deleted feeds name
    · cases h

end FeedCall

/-- A call adds the feed it posts and takes away the one it is about, and leaves every other. -/
structure TouchesOne (call : FeedCall) (before after : List DataFeed) : Prop where
  kept : ∀ feed ∈ before, call.replaces feed = false → feed ∈ after
  added : ∀ new, call.posted = some new → new ∈ after
  only : ∀ feed ∈ after, feed ∈ before ∧ call.replaces feed = false ∨ call.posted = some feed
  distinct : Distinct after

/-- A call that succeeds touches one feed exactly if no other feed has the uuid that is posted. -/
theorem call_touches_one {call : FeedCall} {disk : Option Nat} {log : List DataFeedEvent}
    {feeds : List DataFeed} (hstore : feeds = log.foldl applyEvent [])
    (hdone : (call.op.run applyEvent disk feeds).answer = .done ()) :
    TouchesOne call feeds (call.op.run applyEvent disk feeds).state ↔
    call.uuidFree feeds = true := by
  obtain ⟨hstate, hname⟩ := FeedCall.done_spec hdone
  have hempty : Distinct [] := ⟨nodup_nil, nodup_nil⟩
  have hdistinct : Distinct feeds := hstore ▸ hempty.replay log
  have hafter := call.distinct disk hdistinct
  rw [hstate] at hafter ⊢
  simp only [FeedCall.uuidFree, all_eq_true, Bool.or_eq_true, Option.all_eq_true, decide_eq_true_eq]
  cases hposted : call.posted with
  | none =>
    rw [hposted] at hafter
    refine iff_of_true ⟨?_, ?_, ?_, hafter⟩ ?_
    · exact fun feed hfeed hother => mem_filter.2 ⟨hfeed, by rw [hother]; rfl⟩
    · intro new hnew
      rw [hposted] at hnew
      cases hnew
    · intro feed hfeed
      obtain ⟨hmem, hother⟩ := mem_filter.1 hfeed
      exact .inl ⟨hmem, Bool.not_eq_true' _ ▸ hother⟩
    · exact fun feed _ => .inr fun new hnew => by cases hnew
  | some new =>
    rw [hposted] at hafter
    have hmem : ∀ feed, feed ∈ applyEvent (feeds.filter (!call.replaces ·)) (.saved new) ↔
        (feed ∈ feeds ∧ call.replaces feed = false) ∧ feed.uuid ≠ new.uuid ∧ feed.name ≠ new.name ∨
          feed = new := by
      intro feed
      simp only [applyEvent, mem_append, mem_filter, mem_singleton, Bool.and_eq_true,
        decide_eq_true_eq, Bool.not_eq_true']
    constructor
    · intro h feed hfeed
      cases hreplaced : call.replaces feed with
      | true => exact .inl rfl
      | false =>
        refine .inr fun other hother => ?_
        cases hother
        have hdiffers := hname feed hfeed hreplaced new hposted
        obtain ⟨-, huuid, -⟩ | rfl := (hmem feed).1 (h.kept feed hfeed hreplaced)
        · exact huuid.symm
        · exact absurd rfl hdiffers
    · intro hfree
      refine ⟨fun feed hfeed hother =>
        (hmem feed).2 (.inl ⟨⟨hfeed, hother⟩, ?_, hname feed hfeed hother new hposted⟩),
          ?_, ?_, hafter⟩
      · rcases hfree feed hfeed with hreplaced | huuid
        · rw [hother] at hreplaced
          cases hreplaced
        · exact (huuid new rfl).symm
      · intro other hother
        rw [hposted] at hother
        exact (hmem other).2 (.inr (Option.some.inj hother).symm)
      · intro feed hfeed
        obtain ⟨hkept, -⟩ | rfl := (hmem feed).1 hfeed
        · exact .inl hkept
        · exact .inr hposted

def sampleFeed (uuid name : String) : DataFeed :=
  { uuid, name, feedType := "Streaming", protocol := "stcp", port := some 18088 }

theorem call_touches_one_new_uuid :
    TouchesOne (.create (sampleFeed "u2" "ais")) [sampleFeed "u1" "aprs"]
      (FeedCall.op (.create (sampleFeed "u2" "ais")) |>.run applyEvent none
        [sampleFeed "u1" "aprs"]).state :=
  (@call_touches_one _ _ [.saved (sampleFeed "u1" "aprs")] _ (by decide +kernel) rfl).2
    (by decide +kernel)

theorem create_drops_other_feed :
    (FeedCall.op (.create (sampleFeed "u1" "ais")) |>.run applyEvent none
      [sampleFeed "u1" "aprs"]).answer = .done () ∧
      (FeedCall.op (.create (sampleFeed "u1" "ais")) |>.run applyEvent none
        [sampleFeed "u1" "aprs"]).state = [sampleFeed "u1" "ais"] :=
  ⟨rfl, by decide +kernel⟩

end MicroTak.Feeds
