import MicroTak.Lib.Journal
import MicroTak.Lib.Transition

/-!
# A cached view of a versioned store

A store behind a lock, whose writers record events one at a time: each is applied to the state and
then moves a version number, which is read without the lock.  A reader keeps the last view it took
together with the version it had read before, and takes a new one, under the lock, only if the
version has moved.  The steps of the writer and of the reader interleave in any way, except that the
view is taken while no writer holds the lock.

`history` lists the states that were to be read under the lock, the last one being that of now; a
writer adds to it when it lets go.
-/

namespace Versioned

open Journal Transition List

variable {S E ε V C : Type}

/-- What the reader is doing: nothing, or a check that began at this place of the history, with the
version it has read, or with the view it goes by. -/
inductive Check (V : Type) where
  | idle
  | begun (start : Nat)
  | versioned (start version : Nat)
  | viewed (start : Nat) (view : V)

/-- A view that was used, and the places in the history of the start and of the decision. -/
structure Decision (V : Type) where
  start : Nat
  stop : Nat
  view : V

/-- A writer with the lock: what it has yet to do, and whether it has applied an event for which the
version has not moved. -/
structure Writer (S E ε : Type) where
  op : Op S E ε Unit
  unmarked : Bool

structure World (S E ε V : Type) where
  state : S
  version : Nat := 0
  history : List S
  writer : Option (Writer S E ε) := none
  cache : Option (Nat × V) := none
  check : Check V := .idle
  decisions : List (Decision V) := []

inductive Action (C : Type) where
  | lock (call : C)
  /-- The writer goes on; an event to record is appended or not. -/
  | write (appended : Bool)
  | start
  | readVersion
  | readView
  | decide

namespace World

variable (apply : S → E → S) (view : S → V) (prog : C → Op S E ε Unit) (world : World S E ε V)

/-- The place in the history of the state that is to be read now. -/
def place : Nat := world.history.length - 1

def release : World S E ε V :=
  { world with writer := none, history := world.history ++ [world.state] }

def write (appended : Bool) (writer : Writer S E ε) : World S E ε V :=
  if writer.unmarked then
    { world with version := world.version + 1, writer := some { writer with unmarked := false } }
  else
    match writer.op with
    | .done _ | .refuse _ => world.release
    | .look next => { world with writer := some { writer with op := next world.state } }
    | .record event next =>
        if appended then { world with
          state := apply world.state event, writer := some { op := next, unmarked := true } }
        else world.release

/-- The cached view, if the version has not moved since. -/
def hit : Option V := (world.cache.filter fun (version, _) => version = world.version).map Prod.snd

def step : Action C → Option (World S E ε V)
  | .lock call =>
      match world.writer with
      | none => some { world with writer := some { op := prog call, unmarked := false } }
      | some _ => none
  | .write appended => world.writer.map (world.write apply appended)
  | .start =>
      match world.check with
      | .idle => some { world with check := .begun world.place }
      | _ => none
  | .readVersion =>
      match world.check with
      | .begun start =>
          match world.hit with
          | some cached => some { world with check := .viewed start cached }
          | none => some { world with check := .versioned start world.version }
      | _ => none
  | .readView =>
      match world.check, world.writer with
      | .versioned start version, none =>
          let taken := view world.state
          some { world with cache := some (version, taken), check := .viewed start taken }
      | _, _ => none
  | .decide =>
      match world.check with
      | .viewed start used =>
          some
            { world with
              check := .idle
              decisions := { start, stop := world.place, view := used } :: world.decisions }
      | _ => none

def init (state : S) : World S E ε V := { state, history := [state] }

/-- The view of a state that was to be read between two places of the history. -/
def Seen (history : List S) (start stop : Nat) (used : V) : Prop :=
  ∃ i state, start ≤ i ∧ i ≤ stop ∧ history[i]? = some state ∧ used = view state

/-- Each state of the history is what a call leaves of the one before it. -/
def Linked (history : List S) : Prop :=
  ∀ i state next, history[i]? = some state → history[i + 1]? = some next →
    ∃ call disk, next = ((prog call).run apply disk state).state

/-- What the writer has yet to do is the rest of a call that began in this state. -/
def Continues (base state : S) (op : Op S E ε Unit) : Prop :=
  ∃ call n, ∀ disk : Option Nat,
    ((prog call).run apply (disk.map (· + n)) base).state = (op.run apply disk state).state

/-- A writer has changed nothing, or the version is about to move, or it is past the cached one. -/
def Marked (base : S) (writer : Writer S E ε) : Prop :=
  writer.unmarked = true ∨ world.state = base ∨ ∀ entry ∈ world.cache, entry.1 < world.version

/-- The store as its writer left it: `base` is the state to be read now. -/
structure Stored (base : S) : Prop where
  last : world.history.getLast? = some base
  rest : world.writer = none → world.state = base
  continues : ∀ writer ∈ world.writer, Continues apply prog base world.state writer.op
  marked : ∀ writer ∈ world.writer, world.Marked base writer
  cached : ∀ entry ∈ world.cache, entry.1 ≤ world.version ∧
    (entry.1 = world.version → entry.2 = view base)
  linked : Linked apply prog world.history

/-- What a check in progress has found out. -/
def Checked : Check V → Prop
  | .idle => True
  | .begun start => start ≤ world.place
  | .versioned start version => start ≤ world.place ∧ version ≤ world.version
  | .viewed start used => Seen view world.history start world.place used

structure Inv : Prop where
  stored : ∃ base, world.Stored apply view prog base
  checked : world.Checked view world.check
  decided : ∀ decision ∈ world.decisions,
    Seen view world.history decision.start decision.stop decision.view

variable {apply view prog world} {next : World S E ε V} {base : S} {writer : Writer S E ε}

variable {history : List S} {start stop later : Nat} {used : V} {state : S}
  {during : List (Action C)} {action : Action C}

theorem Seen.mono (h : Seen view history start stop used)
    (more : List S) (hlater : stop ≤ later) : Seen view (history ++ more) start later used := by
  obtain ⟨i, state, hstart, hstop, hstate, hused⟩ := h
  refine ⟨i, state, hstart, Nat.le_trans hstop hlater, ?_, hused⟩
  rw [List.getElem?_append_left (List.getElem?_eq_some_iff.1 hstate).1, hstate]

theorem Stored.getElem?_place (h : world.Stored apply view prog base) :
    world.history[world.place]? = some base := by
  rw [place, ← getLast?_eq_getElem?, h.last]

theorem Continues.init (call : C) : Continues apply prog base base (prog call) :=
  ⟨call, 0, fun disk => by cases disk <;> rfl⟩

theorem Continues.look {f : S → Op S E ε Unit} (h : Continues apply prog base state (.look f)) :
    Continues apply prog base state (f state) := h

theorem Continues.recorded {event : E} {op : Op S E ε Unit}
    (h : Continues apply prog base state (.record event op)) :
    Continues apply prog base (apply state event) op := by
  obtain ⟨call, n, hcall⟩ := h
  refine ⟨call, n + 1, fun disk => ?_⟩
  have hdisk := hcall (disk.map (· + 1))
  cases disk with
  | none => exact hdisk
  | some m =>
    rw [show (some m).map (· + (n + 1)) = ((some m).map (· + 1)).map (· + n) by simp; omega]
    exact hdisk

theorem Linked.concat (h : Linked apply prog history)
    (hlast : history.getLast? = some base)
    (hcall : ∃ call disk, state = ((prog call).run apply disk base).state) :
    Linked apply prog (history ++ [state]) := by
  intro i before after hbefore hafter
  by_cases hi : i + 1 < history.length
  · rw [getElem?_append_left hi] at hafter
    rw [getElem?_append_left (by omega)] at hbefore
    exact h i before after hbefore hafter
  · -- The new state is the one after the last.
    have hlen : i + 1 < (history ++ [state]).length := (List.getElem?_eq_some_iff.1 hafter).1
    rw [length_append, length_singleton] at hlen
    obtain rfl : i = history.length - 1 := by omega
    rw [getElem?_append_left (by omega), ← getLast?_eq_getElem?, hlast] at hbefore
    rw [getElem?_append_right (by omega), show history.length - 1 + 1 - history.length =
      0 by omega] at hafter
    cases hbefore
    obtain rfl : state = after := by simpa using hafter
    exact hcall

theorem Stored.release (h : world.Stored apply view prog base)
    (hwriter : world.writer = some writer) (hmarked : writer.unmarked = false) (disk : Option Nat)
    (hend : (writer.op.run apply disk world.state).state = world.state) :
    world.release.Stored apply view prog world.state where
  last := by simp [World.release]
  rest _ := rfl
  continues := by simp [World.release]
  marked := by simp [World.release]
  cached := by
    intro entry hentry
    obtain ⟨hle, hview⟩ := h.cached entry hentry
    refine ⟨hle, fun hversion => ?_⟩
    rcases h.marked writer hwriter with hunmarked | hsame | hpast
    · rw [hmarked] at hunmarked
      cases hunmarked
    · rw [hsame]
      exact hview hversion
    · exact absurd hversion (Nat.ne_of_lt (hpast entry hentry))
  linked := by
    refine h.linked.concat h.last ?_
    obtain ⟨call, n, hcall⟩ := h.continues writer hwriter
    exact ⟨call, disk.map (· + n), ((hcall disk).trans hend).symm⟩

theorem Stored.write (h : world.Stored apply view prog base) (hwriter : world.writer = some writer)
    (appended : Bool) :
    ∃ base, (world.write apply appended writer).Stored apply view prog base := by
  have hcontinues := h.continues writer hwriter
  by_cases hunmarked : writer.unmarked = true
  · -- The version moves past what is cached.
    refine ⟨base, ?_⟩
    rw [World.write, if_pos hunmarked]
    exact
      { last := h.last
        rest := fun hnone => by cases hnone
        continues := fun _ hw => by
          cases hw
          exact hcontinues
        marked := fun _ _ =>
          .inr (.inr fun entry hentry => Nat.lt_succ_of_le (h.cached entry hentry).1)
        cached := fun entry hentry => by
          have hle := (h.cached entry hentry).1
          exact ⟨Nat.le_succ_of_le hle, fun heq =>
            absurd heq (Nat.ne_of_lt (Nat.lt_succ_of_le hle))⟩
        linked := h.linked }
  · have hmarked : writer.unmarked = false := by simpa using hunmarked
    rw [World.write, if_neg hunmarked]
    cases hop : writer.op with
    | done a | refuse error =>
      exact ⟨world.state, h.release hwriter hmarked none (by rw [hop]; rfl)⟩
    | look f =>
      rw [hop] at hcontinues
      refine ⟨base,
        { h with rest := fun hnone => ?_, continues := fun _ hw => ?_, marked := fun _ hw => ?_ }⟩
      · cases hnone
      · cases hw
        exact hcontinues.look
      · cases hw
        exact h.marked writer hwriter
    | record event op =>
      cases appended with
      | false => exact ⟨world.state, h.release hwriter hmarked (some 0) (by rw [hop]; rfl)⟩
      | true =>
        rw [hop] at hcontinues
        refine ⟨base,
          { h with rest := fun hnone => ?_, continues := fun _ hw => ?_, marked := fun _ hw => ?_ }⟩
        · cases hnone
        · cases hw
          exact hcontinues.recorded
        · cases hw
          exact .inl rfl

/-- A writer adds to the history, moves the version up and leaves the reader alone. -/
structure Grows (world next : World S E ε V) : Prop where
  history : world.history <+: next.history
  version : world.version ≤ next.version
  check : next.check = world.check
  decisions : next.decisions = world.decisions

theorem grows_write (appended : Bool) : world.Grows (world.write apply appended writer) := by
  have hrelease : world.Grows world.release := ⟨prefix_append .., Nat.le_refl _, rfl, rfl⟩
  unfold World.write
  split
  · exact ⟨prefix_rfl, Nat.le_succ _, rfl, rfl⟩
  · split
    · exact hrelease
    · exact hrelease
    · exact ⟨prefix_rfl, Nat.le_refl _, rfl, rfl⟩
    · split
      · exact ⟨prefix_rfl, Nat.le_refl _, rfl, rfl⟩
      · exact hrelease

theorem Grows.place (h : world.Grows next) : world.place ≤ next.place :=
  Nat.sub_le_sub_right h.history.length_le 1

theorem Grows.seen (h : world.Grows next) (hseen : Seen view world.history start stop used)
    (hlater : stop ≤ later) : Seen view next.history start later used := by
  obtain ⟨more, hmore⟩ := h.history
  rw [← hmore]
  exact hseen.mono more hlater

theorem Grows.checked (h : world.Grows next) {check : Check V} (hcheck : world.Checked view check) :
    next.Checked view check := by
  cases check with
  | idle => trivial
  | begun start => exact Nat.le_trans hcheck h.place
  | versioned start version =>
    exact ⟨Nat.le_trans hcheck.1 h.place, Nat.le_trans hcheck.2 h.version⟩
  | viewed start used => exact h.seen hcheck h.place

theorem Stored.seen (h : world.Stored apply view prog base) (hstart : start ≤ world.place) :
    Seen view world.history start world.place (view base) :=
  ⟨world.place, base, hstart, Nat.le_refl _, h.getElem?_place, rfl⟩

theorem hit_eq_some : world.hit = some used ↔ world.cache = some (world.version, used) := by
  simp only [hit, Option.map_eq_some_iff, Option.filter_eq_some_iff, decide_eq_true_eq, Prod.exists]
  constructor
  · rintro ⟨version, cached, ⟨hcache, rfl⟩, rfl⟩
    exact hcache
  · intro hcache
    exact ⟨world.version, used, ⟨hcache, rfl⟩, rfl⟩

theorem Inv.step (h : world.Inv apply view prog)
    (hstep : world.step apply view prog action = some next) : next.Inv apply view prog := by
  obtain ⟨base, hstored⟩ := h.stored
  cases action with
  | lock call =>
    simp only [World.step] at hstep
    split at hstep
    · next hnone =>
      cases hstep
      have hbase := hstored.rest hnone
      refine ⟨⟨base,
        { hstored with
          rest := fun hsome => ?_, continues := fun _ hw => ?_, marked := fun _ _ => ?_ }⟩,
            h.checked, h.decided⟩
      · cases hsome
      · cases hw
        exact hbase ▸ Continues.init call
      · exact .inr (.inl hbase)
    · cases hstep
  | write appended =>
    obtain ⟨writer, hwriter, rfl⟩ := Option.map_eq_some_iff.1 hstep
    have hgrows : world.Grows (world.write apply appended writer) := grows_write appended
    refine ⟨hstored.write hwriter appended, ?_, ?_⟩
    · rw [hgrows.check]
      exact hgrows.checked h.checked
    · rw [hgrows.decisions]
      exact fun decision hdecision => hgrows.seen (h.decided decision hdecision) (Nat.le_refl _)
  | start =>
    simp only [World.step] at hstep
    split at hstep
    · cases hstep
      exact ⟨⟨base, { hstored with }⟩, Nat.le_refl world.place, h.decided⟩
    · cases hstep
  | readVersion =>
    simp only [World.step] at hstep
    split at hstep
    · next start hcheck =>
      have hstart : start ≤ world.place := by simpa [hcheck, Checked] using h.checked
      split at hstep
      · next used hhit =>
        cases hstep
        obtain rfl : used = view base := (hstored.cached _ (hit_eq_some.1 hhit)).2 rfl
        exact ⟨⟨base, { hstored with }⟩, hstored.seen hstart, h.decided⟩
      · cases hstep
        exact ⟨⟨base, { hstored with }⟩, ⟨hstart, Nat.le_refl _⟩, h.decided⟩
    · cases hstep
  | readView =>
    simp only [World.step] at hstep
    split at hstep
    · next start version hcheck hnone =>
      cases hstep
      obtain ⟨hstart, hversion⟩ : start ≤ world.place ∧ version ≤ world.version := by
        simpa [hcheck, Checked] using h.checked
      have hbase := hstored.rest hnone
      refine ⟨⟨base,
        { hstored with
          marked := fun writer hw => ?_, cached := fun entry hentry => ?_ }⟩, ?_, h.decided⟩
      · exact absurd hw (by simp [hnone])
      · cases hentry
        exact ⟨hversion, fun _ => by rw [hbase]⟩
      · have hseen := hstored.seen hstart
        rwa [← hbase] at hseen
    · cases hstep
  | decide =>
    simp only [World.step] at hstep
    split at hstep
    · next start used hcheck =>
      cases hstep
      have hseen : Seen view world.history start world.place used := by
        simpa [hcheck, Checked] using h.checked
      refine ⟨⟨base, { hstored with }⟩, trivial, fun decision hdecision => ?_⟩
      rcases mem_cons.1 hdecision with rfl | hold
      · exact hseen
      · exact h.decided decision hold
    · cases hstep

/-! ### One check, from its start to its decision -/

/-- The place of the history at which the check in progress began. -/
def began : Check V → Option Nat
  | .idle => none
  | .begun start | .versioned start _ | .viewed start _ => some start

theorem inv_init (state : S) : (init state : World S E ε V).Inv apply view prog where
  stored := ⟨state,
    { last := rfl
      rest := fun _ => rfl
      continues := by simp [init]
      marked := by simp [init]
      cached := by simp [init]
      linked := by
        intro i before after _ hafter
        simp [init] at hafter }⟩
  checked := trivial
  decided := by simp [init]

theorem history_step (hstep : world.step apply view prog action = some next) :
    world.history <+: next.history := by
  cases action with
  | write appended =>
    obtain ⟨writer, -, rfl⟩ := Option.map_eq_some_iff.1 hstep
    exact (grows_write appended).history
  | lock call | start | readVersion | readView | decide =>
    simp only [World.step] at hstep
    repeat' split at hstep
    all_goals cases hstep
    all_goals exact prefix_rfl

theorem began_step (hstart : began world.check = some start)
    (hother : action ≠ .decide) (hstep : world.step apply view prog action = some next) :
    began next.check = some start := by
  cases action with
  | decide => exact absurd rfl hother
  | write appended =>
    obtain ⟨writer, -, rfl⟩ := Option.map_eq_some_iff.1 hstep
    rw [(grows_write appended).check, hstart]
  | lock call =>
    simp only [World.step] at hstep
    split at hstep
    · cases hstep
      exact hstart
    · cases hstep
  | start =>
    simp only [World.step] at hstep
    split at hstep
    · next hidle => simp [hidle, began] at hstart
    · cases hstep
  | readVersion =>
    simp only [World.step] at hstep
    split at hstep
    · next begun hcheck =>
      rw [hcheck] at hstart
      split at hstep <;> obtain rfl := Option.some.inj hstep <;> exact hstart
    · cases hstep
  | readView =>
    simp only [World.step] at hstep
    split at hstep
    · next begun version hcheck _ =>
      rw [hcheck] at hstart
      cases hstep
      exact hstart
    · cases hstep

theorem began_run (hstart : began world.check = some start)
    (hother : .decide ∉ during) (hrun : run (World.step apply view prog) world during = some next) :
    began next.check = some start ∧ world.history <+: next.history := by
  induction during generalizing world with
  | nil =>
    obtain rfl : world = next := by simpa using hrun
    exact ⟨hstart, prefix_rfl⟩
  | cons action rest ih =>
    obtain ⟨mid, hstep, hrest⟩ := run_cons_eq_some.1 hrun
    obtain ⟨hhead, htail⟩ := ne_and_not_mem_of_not_mem_cons hother
    obtain ⟨hbegan, hextends⟩ := ih (began_step hstart (Ne.symm hhead) hstep) htail hrest
    exact ⟨hbegan, (history_step hstep).trans hextends⟩

/-- A check goes by the view of a state that was to be read between its start and its decision. -/
theorem Inv.check_sees {begun atDecision decided : World S E ε V}
    (h : world.Inv apply view prog) (hstart : world.step apply view prog .start = some begun)
    (hduring : run (World.step apply view prog) begun during = some atDecision)
    (hother : .decide ∉ during) (hdecide : atDecision.step apply view prog .decide = some decided) :
    ∃ used, decided.decisions = { start := world.place, stop := atDecision.place, view := used } ::
    atDecision.decisions ∧
      Seen view atDecision.history world.place atDecision.place used ∧
      world.history <+: atDecision.history := by
  have hbegun : began begun.check = some world.place ∧ begun.history = world.history := by
    simp only [World.step] at hstart
    split at hstart
    · cases hstart
      exact ⟨rfl, rfl⟩
    · cases hstart
  obtain ⟨hbegan, hextends⟩ := began_run hbegun.1 hother hduring
  have hinv : atDecision.Inv apply view prog :=
    run_preserves (World.Inv apply view prog) hduring (h.step hstart) fun _ _ _ hs => hs.step
  simp only [World.step] at hdecide
  split at hdecide
  · next start used hcheck =>
    cases hdecide
    rw [hcheck] at hbegan
    cases hbegan
    refine ⟨used, rfl, ?_, hbegun.2 ▸ hextends⟩
    simpa [hcheck, Checked] using hinv.checked
  · cases hdecide

end World

end Versioned
