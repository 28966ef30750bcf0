import MicroTak.Lib.Machine
import MicroTak.Missions.Server

/-!
# Filters by time

A client asks for what changed in the last so many seconds, any signed 64-bit number of them.  The
missions' `secago` is multiplied and subtracted as it is, the profiles' `syncSecago` is multiplied
with saturation.
-/

namespace MicroTak.Marti

open Machine Missions

def parseI64 (text : String) : Option Int :=
  let (negative, digits) := match text.toList with
    | '-' :: rest => (true, rest)
    | '+' :: rest => (false, rest)
    | rest => (false, rest)
  let n : Int := digits.foldl (fun n c => 10 * n + (c.toNat - '0'.toNat)) 0
  let n := if negative then -n else n
  if digits ≠ [] ∧ digits.all Char.isDigit ∧ Fits i64 n then some n else none

abbrev Params := List (String × String)

/- `readDate` reads a date of RFC 3339, in milliseconds. -/
variable (readDate : String → Option Int) (build : Build) (params : Params)

namespace Params

def get (name : String) : Option String := (params.find? (·.1 = name)).map (·.2)

/-- A parameter that is empty is not there. -/
def read (parse : String → Option Int) (kind name : String) : Except ApiError (Option Int) :=
  match (params.get name).filter (· ≠ "") with
  | none => .ok none
  | some v =>
      match parse v with
      | some n => .ok (some n)
      | none => .error (.badRequest s!"invalid {kind} for '{name}'")

def long (name : String) : Except ApiError (Option Int) :=
  params.read (fun v => parseI64 (Text.trim v)) "number" name

def date (name : String) : Except ApiError (Option Int) := params.read readDate "date" name

end Params

def between (start stop : Int) : Except ApiError Window :=
  if stop ≤ start then .error (.badRequest "invalid time range") else .ok ⟨some start, some stop⟩

/-- `none` is a panic. -/
def Params.window (now : Int) : Option (Except ApiError Window) :=
  match params.date readDate "start", params.date readDate "end", params.long "secago" with
  | .error e, _, _ | .ok _, .error e, _ | .ok _, .ok _, .error e => some (.error e)
  | .ok start, .ok stop, .ok secago =>
      let start := match secago.filter (0 < ·) with
        | some secago =>
          (build.result i64 (secago * 1000)).bind fun back =>
            (build.result i64 (now - back)).map some
        | none => some start
      start.map fun start => between (start.getD i64) (stop.getD (i64 + 2 ^ 64 - 1))

/-- `none` is a panic, and the error a 400. -/
def changedSince (required : Bool) (now : Int) : Option (Except Unit (Option Int)) :=
  match params.get "syncSecago" with
  | some v =>
      match parseI64 v with
      | some secago =>
          if secago ≠ -1 then (build.result i64 (now - saturate i64 (secago * 1000))).map fun ms =>
            .ok (some ms)
          else some (.ok none)
      | none => some (.error ())
  | none => some (if required then .error () else .ok none)

/-- Neither the product nor the difference leaves the signed 64-bit numbers. -/
def Representable (now secs : Int) : Prop := Fits i64 (secs * 1000) ∧ Fits i64 (now - secs * 1000)

instance (now secs : Int) : Decidable (Representable now secs) :=
  inferInstanceAs (Decidable (_ ∧ _))

/-- With a clock that is not before the epoch, each filter starts at `secs` seconds ago, or at the
end of the range on that side, exactly if no step on the way there leaves the signed 64-bit
numbers. -/
theorem time_filters_exact_iff {readDate : String → Option Int} {params query : Params}
    {start stop : Option Int} {text : String} {secago sync now : Int} (hnow : 0 ≤ now)
    (hstart : params.date readDate "start" = .ok start)
    (hstop : params.date readDate "end" = .ok stop)
    (hsecago : params.long "secago" = .ok (some secago)) (hpos : 0 < secago)
    (htext : query.get "syncSecago" = some text) (hsync : parseI64 text = some sync)
    (hne : sync ≠ -1) (required : Bool) : ((∀ build, params.window readDate build now =
        some (between (saturate i64 (now - secago * 1000)) (stop.getD (i64 + 2 ^ 64 - 1)))) ↔
        Representable now secago) ∧
      ((∀ build, changedSince build query required now =
        some (.ok (some (saturate i64 (now - sync * 1000))))) ↔ Representable now sync) := by
  simp only [Params.window, hstart, hstop, hsecago, Option.filter_some, decide_eq_true hpos,
    if_true, changedSince, htext, hsync, if_pos hne]
  refine ⟨⟨fun h => ?_, fun ⟨hback, hfits⟩ build => ?_⟩, fun h => ?_, fun ⟨hback, hfits⟩ build =>
    ?_⟩
  · have hchecked := h .checked
    by_contra hnot
    by_cases hback : Fits i64 (secago * 1000)
    · rw [Build.result_of_fits hback, Option.bind_some, Build.result_checked fun hfits =>
        hnot ⟨hback, hfits⟩] at hchecked
      cases hchecked
    · rw [Build.result_checked hback] at hchecked
      cases hchecked
  · rw [build.result_of_fits hback, Option.bind_some, build.result_of_fits hfits,
      saturate_of_fits hfits]
    rfl
  · have hchecked := h .checked
    by_cases hfits : Fits i64 (now - saturate i64 (sync * 1000))
    · -- The product was cut off: the difference is another than the exact one, cut off or not.
      rw [Build.result_of_fits hfits, Option.map_some, Option.some.injEq, Except.ok.injEq,
        Option.some.injEq] at hchecked
      simp only [Representable, Fits, saturate, i64] at *
      omega
    · rw [Build.result_checked hfits] at hchecked
      cases hchecked
  · rw [saturate_of_fits hback, build.result_of_fits hfits, saturate_of_fits hfits]
    rfl

theorem time_filters_exact_minute :
    Params.window (fun _ => none) .checked [("secago", "60")] 100000 =
    some (between 40000 (2 ^ 63 - 1)) ∧
      changedSince .checked [("syncSecago", "60")] true 100000 = some (.ok (some 40000)) :=
  have h := @time_filters_exact_iff (fun _ => none) [("secago", "60")]
    [("syncSecago", "60")] none none "60" 60 60 100000 (by decide) rfl rfl (by rfl)
      (by decide) rfl rfl (by decide) true
  ⟨h.1.2 (by decide) .checked, h.2.2 (by decide) .checked⟩

theorem time_filters_overflow :
    Params.window (fun _ => none) .checked [("secago", "9223372036854775807")] 0 = none ∧
      changedSince .checked [("syncSecago", "-9223372036854775808")] true 0 = none := by
  decide +kernel

end MicroTak.Marti
