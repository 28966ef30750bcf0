import MicroTak.EventLog.Log
import MicroTak.Lib.Kept

/-!
# Crashes between and inside records

`append` acknowledges a record once it is synced, so a crash leaves every acknowledged record and
some prefix of the one in flight.  Replay has no notion of a torn last line: a cut inside the record
makes the whole log unreadable, and a cut right before its line feed makes the next append run into
it.
-/

namespace MicroTak.EventLog

open Lines List

variable {E : Type}

/-- The bytes handed to the file by the acknowledged appends and the one in flight, if any. -/
def written (serde : Serde E) (acknowledged : List E) (inFlight : Option E) : Bytes :=
  appendAll serde [] (acknowledged ++ inFlight.toList)

/-- A crash leaves a prefix of what was written that contains every acknowledged record. -/
structure CrashLeaves (serde : Serde E) (acknowledged : List E) (inFlight : Option E)
    (disk : Bytes) : Prop where
  acknowledged_prefix : appendAll serde [] acknowledged <+: disk
  prefix_written : disk <+: written serde acknowledged inFlight

/-- The log comes back: replay succeeds with the acknowledged events, and at most the one in flight
after them, and once more events are appended a later replay finds those followed by the new
ones. -/
def Recovers (serde : Serde E) (acknowledged : List E) (inFlight : Option E)
    (disk : Bytes) : Prop :=
  ∃ seen, (seen = acknowledged ∨ ∃ event ∈ inFlight, seen = acknowledged ++ [event]) ∧
    ∀ (S : Type) (apply : S → E → S) (state : S),
      openAndReplay serde apply state (some disk) = .ok (seen.foldl apply state) ∧
        ∀ new, openAndReplay serde apply state (some (appendAll serde disk new)) =
          .ok ((seen ++ new).foldl apply state)

variable {serde : Serde E} {acknowledged : List E} {inFlight : Option E} {disk : Bytes} {S : Type}

theorem CrashLeaves.cases (h : CrashLeaves serde acknowledged inFlight disk) :
    disk = appendAll serde [] acknowledged ∨
      ∃ event cut, inFlight = some event ∧ cut ≠ [] ∧ cut <+: recordLine serde event ∧
        disk = appendAll serde [] acknowledged ++ cut := by
  obtain ⟨cut, rfl⟩ := h.acknowledged_prefix
  by_cases hcut : cut = []
  · exact .inl (by rw [hcut, append_nil])
  · have hpre := h.prefix_written
    cases inFlight with
    | none =>
      rw [written, Option.toList_none, append_nil] at hpre
      have hlen := hpre.length_le
      have hpos := length_pos_iff.2 hcut
      rw [length_append] at hlen
      omega
    | some event =>
      rw [written, Option.toList_some, appendAll_concat, prefix_append_right_inj] at hpre
      exact .inr ⟨event, cut, rfl, hcut, hpre, rfl⟩

theorem Serde.Lawful.recovers_of_boundary (h : serde.Lawful) {seen : List E}
    (hseen : seen = acknowledged ∨ ∃ event ∈ inFlight, seen = acknowledged ++ [event]) :
    Recovers serde acknowledged inFlight (appendAll serde [] seen) := by
  refine ⟨seen, hseen, fun S apply state => ⟨h.openAndReplay_appendAll state seen, fun new => ?_⟩⟩
  rw [← appendAll_append]
  exact h.openAndReplay_appendAll state (seen ++ new)

/-- A cut inside the text of a record stops the replay there. -/
theorem Serde.Lawful.openAndReplay_torn (h : serde.Lawful) (apply : S → E → S) (state : S)
    (acknowledged : List E) {event : E} {cut : Bytes} (hne : cut ≠ [])
    (hpre : cut <+: utf8 (serde.toString event)) (htorn : cut ≠ utf8 (serde.toString event)) :
    ∃ error, openAndReplay serde apply state (some (appendAll serde [] acknowledged ++ cut)) =
    .error error := by
  have hfeed : lineFeed ∉ cut := fun hmem => h.lineFeed_notMem event (hpre.subset hmem)
  have hreplay : openAndReplay serde apply state (some (appendAll serde [] acknowledged ++ cut)) =
      replayLines serde apply (0 + acknowledged.length) (acknowledged.foldl apply state) [cut] := by
    rw [← lines_tail hfeed hne]
    exact h.replayLines_appendAll 0 state acknowledged cut
  rw [hreplay]
  cases htext : decodeUtf8 cut with
  | none => exact ⟨.read, by simp [replayLines, htext]⟩
  | some text =>
    have hblank := h.trim_ne_empty hne hpre htext
    have hnone := h.incomplete event cut text hpre htorn htext
    exact ⟨.corrupt (0 + acknowledged.length + 1), by simp [replayLines, htext, hblank, hnone]⟩

/-- A record whose line feed is missing swallows the next one, and the replay stops there. -/
theorem Serde.Lawful.openAndReplay_glued (h : serde.Lawful) (apply : S → E → S) (state : S)
    (acknowledged : List E) (event next : E) : openAndReplay serde apply state
        (some (appendAll serde (appendAll serde [] acknowledged ++ utf8 (serde.toString event))
          [next])) =
      .error (.corrupt (acknowledged.length + 1)) := by
  have hline : lines (utf8 (serde.toString event) ++ recordLine serde next) =
      [utf8 (serde.toString event ++ serde.toString next)] := by
    have hfeed : lineFeed ∉ utf8 (serde.toString event) ++ utf8 (serde.toString next) := by
      simp [h.lineFeed_notMem]
    have hcr : carriageReturn ∉ utf8 (serde.toString event) ++ utf8 (serde.toString next) := by
      simp [h.carriageReturn_notMem]
    rw [recordLine, ← append_assoc, lines_line hfeed hcr, lines_nil, utf8_append]
  have hfile : appendAll serde (appendAll serde [] acknowledged ++ utf8 (serde.toString event))
      [next] = appendAll serde [] acknowledged ++
        (utf8 (serde.toString event) ++ recordLine serde next) := by
    simp [appendAll, append]
  have hblank : Text.trim (serde.toString event ++ serde.toString next) ≠ "" := by
    intro hempty
    apply h.trim_toString_ne_empty event
    rw [Text.trim_eq_empty_iff] at hempty ⊢
    exact fun c hc => hempty c (by simp [hc])
  have hnone := h.trailing event (serde.toString next) (h.trim_toString_ne_empty next)
  rw [hfile]
  change replayLines serde apply 0 state _ = _
  rw [h.replayLines_appendAll, hline]
  simp [replayLines, hblank, hnone]

/-- **Crash consistency**: after a crash the log comes back, and stays good for further appends,
exactly when the bytes that survived end at a record boundary: just the acknowledged records, or
those and the whole line in flight. -/
theorem recovers_iff_boundary (serde : Serde E) (hserde : serde.Lawful) (acknowledged : List E)
    (inFlight : Option E) (disk : Bytes) (hcrash : CrashLeaves serde acknowledged inFlight disk) :
    Recovers serde acknowledged inFlight disk ↔
      disk = written serde acknowledged none ∨ disk = written serde acknowledged inFlight := by
  have hnone : written serde acknowledged none = appendAll serde [] acknowledged := by
    simp [written]
  constructor
  · intro hrecovers
    obtain hboundary | ⟨event, cut, rfl, hne, hpre, rfl⟩ := hcrash.cases
    · exact .inl (hboundary.trans hnone.symm)
    right
    obtain ⟨seen, -, hreplay⟩ := hrecovers
    -- The cut is inside the text, right after it, or after the line feed.
    rcases prefix_concat_iff.1 hpre with rfl | htext
    · rw [written, Option.toList_some, appendAll_concat, recordLine]
    · exfalso
      obtain ⟨hfirst, hlater⟩ := hreplay (List E) (fun events event => events ++ [event]) []
      by_cases hwhole : cut = utf8 (serde.toString event)
      · subst hwhole
        have hglued := hserde.openAndReplay_glued (fun events event => events ++ [event]) []
          acknowledged event event
        rw [hlater [event]] at hglued
        cases hglued
      · obtain ⟨error, htorn⟩ :=
          hserde.openAndReplay_torn (fun events event => events ++ [event])
            [] acknowledged hne htext hwhole
        rw [hfirst] at htorn
        cases htorn
  · rintro (rfl | rfl)
    · rw [hnone]
      exact hserde.recovers_of_boundary (.inl rfl)
    · cases inFlight with
      | none =>
        rw [hnone]
        exact hserde.recovers_of_boundary (.inl rfl)
      | some event => exact hserde.recovers_of_boundary (.inr ⟨event, rfl, rfl⟩)

/-! ### Stores kept in a log -/

section Stores

open Journal Transition

/-- Whatever calls a store has taken, each on a log that may stop taking appends, and however often
it was restarted: while no failed append leaves its record, the file of its log opens, and replays
to the state the store has in memory. -/
theorem reopened_as_in_memory {S ε Call : Type} (serde : Serde E) (hserde : serde.Lawful)
    (apply : S → E → S) (init : S) (op : Call → Op S E ε Unit) {turns : List (Turn Call)}
    {store : Kept S E} (hrun : run (Kept.step apply init op) ⟨init, []⟩ turns = some store)
    (hleft : Along (Kept.step apply init op) (fun _ turn => turn.left = false) ⟨init, []⟩ turns) :
    openAndReplay serde apply init (some (appendAll serde [] store.log)) = .ok store.state := by
  have hfaithful : store.Faithful apply init :=
    run_invariant (Kept.Faithful apply init) hrun hleft rfl fun _ _ _ h => h.step
  rw [hserde.openAndReplay_appendAll, hfaithful]

end Stores

/-! ### Torn tails -/

/-- A two-valued event type with the texts the library writes for it. -/
inductive Toggle where
  | on
  | off
  deriving DecidableEq

def Toggle.json : Serde Toggle where
  toString
    | .on => "\x7b\"type\":\"On\"\x7d"
    | .off => "\x7b\"type\":\"Off\"\x7d"
  fromStr text :=
    if text = "\x7b\"type\":\"On\"\x7d" then some .on
    else if text = "\x7b\"type\":\"Off\"\x7d" then some .off
    else none

theorem Toggle.fromStr_eq_some {text : String} {event : Toggle}
    (h : Toggle.json.fromStr text = some event) : text = Toggle.json.toString event := by
  simp only [json] at h ⊢
  split at h
  · cases h
    assumption
  · split at h
    · cases h
      assumption
    · cases h

theorem Toggle.toString_prefix_free (event other : Toggle)
    (h : utf8 (Toggle.json.toString event) <+: utf8 (Toggle.json.toString other)) :
    event = other := by
  revert h
  cases event <;> cases other <;> decide

theorem Toggle.json_lawful : Toggle.json.Lawful where
  roundTrip event := by cases event <;> decide
  object event := by cases event <;> exact ⟨_, rfl⟩
  escaped event c hc := by
    have hall : (Toggle.json.toString event).toList.all (fun c => decide (0x20 ≤ c.toNat)) =
        true := by
      cases event <;> decide
    exact of_decide_eq_true (all_eq_true.1 hall c hc)
  incomplete event bytes text hpre hne htext := by
    rw [Option.eq_none_iff_forall_ne_some]
    intro other hother
    rw [← utf8_of_decodeUtf8 htext, Toggle.fromStr_eq_some hother] at hpre hne
    exact hne (by rw [Toggle.toString_prefix_free other event hpre])
  trailing event text hblank := by
    rw [Option.eq_none_iff_forall_ne_some]
    intro other hother
    have hbytes := congrArg utf8 (Toggle.fromStr_eq_some hother)
    obtain rfl := Toggle.toString_prefix_free event other ⟨_, hbytes⟩
    have hempty : utf8 text = utf8 "" := append_right_eq_self.1 hbytes
    rw [utf8_injective hempty] at hblank
    exact hblank (by decide)

/-- One acknowledged record and a second one in flight.  Cut in the middle, the log cannot be opened
at all; cut before the line feed, it opens, and the next append makes it unreadable. -/
theorem torn_record_does_not_recover :
    (CrashLeaves Toggle.json [.on] (some .off) ((written Toggle.json [.on] (some .off)).take 20) ∧
      ¬ Recovers Toggle.json [.on] (some .off) ((written Toggle.json [.on] (some .off)).take 20)) ∧
    (CrashLeaves Toggle.json [.on] (some .off) (written Toggle.json [.on] (some .off)).dropLast ∧
      ¬ Recovers Toggle.json [.on] (some .off)
      (written Toggle.json [.on] (some .off)).dropLast) := by
  refine ⟨⟨⟨by decide, take_prefix _ _⟩, ?_⟩, ⟨⟨by decide, dropLast_prefix _⟩, ?_⟩⟩
  · rintro ⟨seen, -, hreplay⟩
    have hfirst := (hreplay (List Toggle) (fun events event => events ++ [event]) []).1
    have hcorrupt : openAndReplay Toggle.json (fun events event => events ++ [event]) []
        (some ((written Toggle.json [.on] (some .off)).take 20)) = .error (.corrupt 2) := by decide
    cases hfirst
  · rintro ⟨seen, -, hreplay⟩
    have hlater := (hreplay (List Toggle) (fun events event => events ++ [event]) []).2 [.on]
    have hcorrupt : openAndReplay Toggle.json (fun events event => events ++ [event]) []
        (some (appendAll Toggle.json (written Toggle.json [.on] (some .off)).dropLast [.on])) =
          .error (.corrupt 2) := by decide
    cases hlater

theorem whole_line_recovers :
    Recovers Toggle.json [.on] (some .off) (written Toggle.json [.on] (some .off)) :=
  (recovers_iff_boundary Toggle.json Toggle.json_lawful [.on] (some .off) _
    ⟨by decide, prefix_refl _⟩).2 (.inr rfl)

theorem reopened_as_in_memory_cut :
    openAndReplay Toggle.json (fun events event => events ++ [event]) []
      (some (appendAll Toggle.json [] [.on, .off, .on])) = .ok [.on, .off, .on] := by
  have hrun : Transition.run (Journal.Kept.step (ε := Unit) (fun events event =>
    events ++ [event]) []
      fun event : Toggle => do .put event; .put Toggle.off) ⟨[], []⟩ [.call .on, .restart,
        .call .on (some 1)] =
    some ⟨[.on, .off, .on], [.on, .off, .on]⟩ := rfl
  exact reopened_as_in_memory Toggle.json Toggle.json_lawful _ [] _ hrun (by decide)

end MicroTak.EventLog
