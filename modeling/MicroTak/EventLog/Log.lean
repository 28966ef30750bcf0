import MicroTak.Lib.Lines

/-!
# The append-only event log

Every store of the server keeps its mutations as one JSON record a line, and rebuilds its state by
replaying them on startup.  The JSON library is a parameter; what the log relies on of it, for an
event type that serialises to an object, is collected in `Serde.Lawful`.
-/

namespace MicroTak.EventLog

open Lines

/-- The JSON serialiser and parser for an event type. -/
structure Serde (E : Type) where
  toString : E → String
  fromStr : String → Option E

/-- What the library documents of compact JSON for a type that serialises to an object. -/
structure Serde.Lawful {E : Type} (serde : Serde E) : Prop where
  roundTrip : ∀ event, serde.fromStr (serde.toString event) = some event
  /-- The text is an object, without leading blanks. -/
  object : ∀ event, ∃ rest, utf8 (serde.toString event) = 0x7B :: rest
  /-- Control characters are escaped. -/
  escaped : ∀ event, ∀ c ∈ (serde.toString event).toList, 0x20 ≤ c.toNat
  /-- A text that breaks off before the closing brace is an unexpected end of input. -/
  incomplete : ∀ event bytes text, bytes <+: utf8 (serde.toString event) →
    bytes ≠ utf8 (serde.toString event) → decodeUtf8 bytes = some text → serde.fromStr text = none
  /-- Characters after a complete document are an error, unless they are blank. -/
  trailing : ∀ event text, Text.trim text ≠ "" → serde.fromStr (serde.toString event ++ text) = none

inductive EventLogError where
  | read
  | corrupt (line : Nat)
  deriving DecidableEq

variable {E S : Type} (serde : Serde E) (apply : S → E → S)

/-- The replay loop; `read` lines have gone before. -/
def replayLines : Nat → S → List Bytes → Except EventLogError S
  | _, state, [] => .ok state
  | i, state, line :: rest =>
      match decodeUtf8 line with
      | none => .error .read
      | some text =>
          if Text.trim text = "" then replayLines (i + 1) state rest
          else
            match serde.fromStr text with
            | none => .error (.corrupt (i + 1))
            | some event => replayLines (i + 1) (apply state event) rest

/-- Replays the file at the log's path; a file that does not exist yet replays nothing. -/
def openAndReplay (state : S) (file : Option Bytes) : Except EventLogError S :=
  match file with
  | none => .ok state
  | some bytes => replayLines serde apply 0 state (lines bytes)

/-- The line `append` writes. -/
def recordLine (event : E) : Bytes := utf8 (serde.toString event) ++ [lineFeed]

def append (file : Bytes) (event : E) : Bytes := file ++ recordLine serde event

def appendAll (file : Bytes) (events : List E) : Bytes := events.foldl (append serde) file

variable {serde apply}

theorem appendAll_eq_append_nil (file : Bytes) (events : List E) :
    appendAll serde file events = file ++ appendAll serde [] events := by
  induction events generalizing file with
  | nil => simp [appendAll]
  | cons event rest ih =>
    have hcons : ∀ file, appendAll serde file (event :: rest) =
        appendAll serde (append serde file event) rest :=
      fun _ => rfl
    rw [hcons, hcons, ih, ih (append serde [] event)]
    simp [append]

theorem appendAll_concat (file : Bytes) (events : List E) (event : E) :
    appendAll serde file (events ++ [event]) = appendAll serde file events ++
    recordLine serde event := by
  simp [appendAll, append]

theorem appendAll_append (file : Bytes) (events more : List E) :
    appendAll serde file (events ++ more) = appendAll serde (appendAll serde file events) more := by
  simp [appendAll]

/-! ### Reading back whole records -/

namespace Serde.Lawful

variable (h : serde.Lawful)

include h

private theorem no_control (event : E) {b : UInt8} (hmem : b ∈ utf8 (serde.toString event))
    (hb : b.toNat < 0x20) : False := by
  obtain ⟨c, hc, heq⟩ := exists_char_of_mem_utf8 hmem (by omega)
  have hle := h.escaped event c hc
  omega

theorem lineFeed_notMem (event : E) : lineFeed ∉ utf8 (serde.toString event) :=
  fun hmem => h.no_control event hmem (by decide)

theorem carriageReturn_notMem (event : E) : carriageReturn ∉ utf8 (serde.toString event) :=
  fun hmem => h.no_control event hmem (by decide)

theorem trim_ne_empty {event : E} {bytes : Bytes} {text : String} (hne : bytes ≠ [])
    (hpre : bytes <+: utf8 (serde.toString event)) (htext : decodeUtf8 bytes = some text) :
    Text.trim text ≠ "" := by
  obtain ⟨rest, hobject⟩ := h.object event
  obtain ⟨b, more, rfl⟩ := List.exists_cons_of_ne_nil hne
  rw [hobject] at hpre
  obtain ⟨rfl, -⟩ := List.cons_prefix_cons.1 hpre
  obtain ⟨c, chars, htoList, hc⟩ := head_of_utf8_cons (utf8_of_decodeUtf8 htext) (by decide)
  intro hblank
  have hspace := Text.trim_eq_empty_iff.1 hblank c (by simp [htoList])
  simp [Text.isWhitespace, hc] at hspace

theorem lines_recordLine (event : E) (rest : Bytes) :
    lines (recordLine serde event ++ rest) = utf8 (serde.toString event) :: lines rest := by
  rw [recordLine, List.append_assoc]
  exact lines_line (h.lineFeed_notMem event) (h.carriageReturn_notMem event)

theorem trim_toString_ne_empty (event : E) : Text.trim (serde.toString event) ≠ "" := by
  obtain ⟨rest, hobject⟩ := h.object event
  exact h.trim_ne_empty (by simp [hobject]) (List.prefix_refl (utf8 (serde.toString event)))
    (decodeUtf8_utf8 _)

private theorem replayLines_record (i : Nat) (state : S) (event : E) (rest : List Bytes) :
    replayLines serde apply i state (utf8 (serde.toString event) :: rest) =
      replayLines serde apply (i + 1) (apply state event) rest := by
  simp [replayLines, if_neg (h.trim_toString_ne_empty event), h.roundTrip]

theorem replayLines_appendAll (i : Nat) (state : S) (events : List E) (rest : Bytes) :
    replayLines serde apply i state (lines (appendAll serde [] events ++ rest)) =
      replayLines serde apply (i + events.length) (events.foldl apply state) (lines rest) := by
  induction events generalizing i state with
  | nil => simp [appendAll]
  | cons event more ih =>
    have hfile : appendAll serde [] (event :: more) = recordLine serde event ++
        appendAll serde [] more := by
      change appendAll serde (append serde [] event) more = _
      rw [appendAll_eq_append_nil]
      simp [append]
    rw [hfile, List.append_assoc, h.lines_recordLine, h.replayLines_record, ih, List.foldl_cons,
      List.length_cons]
    congr 1
    omega

theorem openAndReplay_appendAll (state : S) (events : List E) :
    openAndReplay serde apply state (some (appendAll serde [] events)) =
    .ok (events.foldl apply state) := by
  have hreplay : replayLines serde apply 0 state (lines (appendAll serde [] events ++ [])) =
      replayLines serde apply (0 + events.length) (events.foldl apply state) (lines []) :=
    h.replayLines_appendAll 0 state events []
  rwa [List.append_nil] at hreplay

end Serde.Lawful

end MicroTak.EventLog
