import MicroTak.Feeds.Store
import MicroTak.Lib.Transition
import MicroTak.Transport.ClientUid

/-!
# Listeners that follow the feed store

One listener for each streaming feed, started, restarted and stopped by a task that watches the
store. Stopping a listener aborts the task that accepts its connections; each connection it has
accepted runs on in a task of its own and goes on marking its events with the feed as it was.
-/

namespace MicroTak.Feeds

open Std Journal Transition Transport Registry Session List Option

/-- What a feed's listener marks its events with. -/
def tagOf (feed : DataFeed) : FeedTag :=
  { uuid := feed.uuid, name := feed.name, tags := feed.tags, groups := feed.filterGroups.toFinset }

inductive Protocol where
  | tcp
  | tls
  deriving DecidableEq

/-- The kind of connection a listener of this protocol takes. -/
def Protocol.fits : Protocol → Identity → Bool
  | .tcp, .tcp => true
  | .tls, .tls _ _ => true
  | _, _ => false

/-- What a running listener was started for; a change restarts it. -/
structure ListenerSpec where
  protocol : Protocol
  port : Nat
  tag : FeedTag
  deriving DecidableEq

def protocolOf (name : String) : Option Protocol :=
  if name = "stcp" ∨ name = "tcp" then some .tcp else if name = "tls" then some .tls else none

def spec (feed : DataFeed) : Option ListenerSpec :=
  match feed.port, protocolOf feed.protocol with
  | some port, some protocol =>
      if 0 < port ∧ port < 65536 ∧ feed.feedType = "Streaming" then
        some { protocol, port := port.toNat, tag := tagOf feed }
      else none
  | _, _ => none

/-- The listeners there should be, by the uuid of their feed. -/
def wanted (feeds : List DataFeed) : TreeMap String ListenerSpec :=
  (all feeds).foldl (fun specs feed => (spec feed).elim specs (specs.insert feed.uuid)) ∅

inductive Stage where
  | looking
  | starting (todo : List (String × ListenerSpec))
  | waiting

/-- A connection task: the feed its listener was started for, its session once it is in its loop,
and its latest position report as relayed. -/
structure Accepted where
  tag : FeedTag
  protocol : Protocol
  session : Option Session := none
  latestSa : Option String := none

structure FeedServer where
  feeds : List DataFeed := []
  /-- The store's change counter, and how much of it the watching task has seen. -/
  ticks : Nat := 0
  seen : Nat := 0
  stage : Stage := .looking
  /-- The feeds as the watching task last read them. -/
  looked : List DataFeed := []
  running : List (String × ListenerSpec × Nat) := []
  tasks : TreeMap Nat ListenerSpec := ∅
  nextTask : Nat := 0
  aborted : List Nat := []
  lines : TreeMap Nat Accepted := ∅
  nextLine : Nat := 0
  sent : List Outbound := []
  replayed : List String := []

inductive FeedAction where
  | call (call : FeedCall) (disk : Option Nat)
  /-- The watching task wakes up and takes note of this count of changes. -/
  | changed (version : Nat)
  | look
  /-- The next listener is started, if it can be bound. -/
  | start (uuid : String) (bound : Bool)
  | settle
  /-- A listener's task is over: it was aborted, or its socket failed. -/
  | finish (task : Nat)
  | accept (task : Nat)
  | enter (line : Nat) (identity : Identity) (peer : SocketAddr)
  | item (line : Nat) (registry : RegistryState) (groups : Groups.State) (decoded : Decoded)
  /-- A newcomer is shown the latest position report of a connection. -/
  | replay (line : Nat)
  | leave (line : Nat)

def FeedAction.connects : FeedAction → Bool
  | .accept _ | .enter .. | .item .. | .replay _ | .leave _ => true
  | _ => false

namespace FeedServer

variable (wire : Wire) (server : FeedServer)

/-- A listener that still runs for what is wanted of its feed. -/
def keeps (entry : String × ListenerSpec × Nat) : Bool :=
  decide ((wanted server.feeds)[entry.1]? = some entry.2.1) && server.tasks.contains entry.2.2

/-- The watching task reads the store and aborts the listeners that are not wanted as they are. -/
def look : FeedServer :=
  { server with
    looked := server.feeds
    running := server.running.filter server.keeps
    aborted := server.aborted ++ (server.running.filter (!server.keeps ·)).map (·.2.2)
    stage := .starting (wanted server.feeds).toList }

def start (uuid : String) (bound : Bool) (todo : List (String × ListenerSpec)) :
    Option FeedServer :=
  (todo.find? (·.1 = uuid)).map fun (_, wish) =>
    if server.running.any (·.1 = uuid) ||
      !bound then { server with stage := .starting (todo.filter (·.1 ≠ uuid)) }
    else { server with
      stage := .starting (todo.filter (·.1 ≠ uuid))
      running := server.running ++ [(uuid, wish, server.nextTask)]
      tasks := server.tasks.insert server.nextTask wish
      nextTask := server.nextTask + 1 }

/-- The connection task of a listener holds the listener's feed. -/
def accept (task : Nat) : Option FeedServer :=
  (server.tasks[task]?).map fun wish =>
    { server with
      lines := server.lines.insert server.nextLine { tag := wish.tag, protocol := wish.protocol }
      nextLine := server.nextLine + 1 }

def enter (line : Nat) (identity : Identity) (peer : SocketAddr) : Option FeedServer :=
  match server.lines[line]? with
  | some { tag, protocol, session := none, latestSa } =>
      if protocol.fits identity then
        let session : Session := { peer, identity, listener := { feed := some tag } }
        some { server with
          lines := server.lines.insert line { tag, protocol, session := some session, latestSa } }
      else none
  | _ => none

/-- A connection of a feed has no missions to route to. -/
def item (line : Nat) (registry : RegistryState) (groups : Groups.State) (decoded : Decoded) :
    Option FeedServer :=
  (server.lines[line]?).bind fun found => (found.session.filter (!·.closed)).map fun session =>
    let (next, reaction) := session.onEvent wire registry decoded
    let bound := { found with session := some next }
    match reaction with
    | .relayed =>
        let msg := next.outbound wire groups [] decoded
        { server with
          sent := server.sent ++ [msg]
          lines := server.lines.insert line
            (if next.keepsSa decoded.event then { bound with latestSa := some msg.xml }
              else bound) }
    | _ => { server with lines := server.lines.insert line bound }

def replay (line : Nat) : Option FeedServer :=
  ((server.lines[line]?).bind (·.latestSa)).map fun xml =>
    { server with replayed := server.replayed ++ [xml] }

def step : FeedAction → Option FeedServer
  | .call call disk =>
      let result := call.op.run applyEvent disk server.feeds
      some { server with feeds := result.state, ticks := server.ticks + result.recorded.length }
  | .changed version =>
      match server.stage with
      | .waiting =>
          if server.seen < version ∧
            version ≤ server.ticks then some { server with seen := version, stage := .looking }
          else none
      | _ => none
  | .look =>
      match server.stage with
      | .looking => some server.look
      | _ => none
  | .start uuid bound =>
      match server.stage with
      | .starting todo => server.start uuid bound todo
      | _ => none
  | .settle =>
      match server.stage with
      | .starting [] => some { server with stage := .waiting }
      | _ => none
  | .finish task => some { server with tasks := server.tasks.erase task }
  | .accept task => server.accept task
  | .enter line identity peer => server.enter line identity peer
  | .item line registry groups decoded => server.item wire line registry groups decoded
  | .replay line => server.replay line
  | .leave line => some { server with lines := server.lines.erase line }

/-- The watching task has read the store since its last change. -/
def caughtUp : Bool :=
  (match server.stage with
    | .looking => false
    | _ => true) && server.seen = server.ticks

/-- The clients of a listener are gone when it is stopped, and none is accepted after that. -/
def vacated (server : FeedServer) : FeedAction → Bool
  | .look =>
    server.lines.toList.all fun (_, found) => server.feeds.any fun feed =>
      (spec feed).any (·.tag = found.tag)
  | .accept task => task ∉ server.aborted
  | _ => true

/-- The feed is in the store as last read, and streams. -/
def Current (feed : DataFeed) : Prop := feed ∈ server.looked ∧ (spec feed).isSome = true

/-- The message carries the feed's mark, and goes into the feed's groups, or into its sender's if
the feed has none. -/
def IsFrom (feed : DataFeed) (msg : Outbound) : Prop :=
  (∃ raw, msg.xml = (tagOf feed).mark wire raw) ∧
    (msg.groups = feed.filterGroups.toFinset ∨
      feed.filterGroups = [] ∧ ∃ (groups : Groups.State) (identity : Option String),
        msg.groups = groups.activeGroups identity .incoming)

end FeedServer

variable {wish : ListenerSpec}

theorem tag_of_spec {feed : DataFeed} (h : spec feed = some wish) : wish.tag = tagOf feed := by
  unfold spec at h
  split at h
  · split at h
    · cases h
      rfl
    · cases h
  · cases h

variable {uuid : String}

theorem spec_of_wanted {feeds : List DataFeed}
    (h : (wanted feeds)[uuid]? = some wish) : ∃ feed ∈ feeds, spec feed = some wish := by
  suffices ∀ (listed : List DataFeed) (specs : TreeMap String ListenerSpec),
      (listed.foldl (fun specs feed => (spec feed).elim specs (specs.insert feed.uuid))
        specs)[uuid]? = some wish → specs[uuid]? = some wish ∨ ∃ feed ∈ listed,
          spec feed = some wish by
    rcases this (all feeds) ∅ h with hempty | ⟨feed, hfeed, hspec⟩
    · simp at hempty
    · exact ⟨feed, (mem_insertionSort _).1 hfeed, hspec⟩
  intro listed
  induction listed with
  | nil => exact fun specs h => .inl h
  | cons feed rest ih =>
    intro specs h
    rcases ih _ h with hspecs | ⟨other, hother, hspec⟩
    · cases hfeed : spec feed with
      | none => exact .inl (by simpa [hfeed] using hspecs)
      | some made =>
        simp only [hfeed, elim_some, Dict.getElem?_insert] at hspecs
        split at hspecs
        · exact .inr ⟨feed, mem_cons_self, hfeed.trans hspecs⟩
        · exact .inl hspecs
    · exact .inr ⟨other, mem_cons_of_mem _ hother, hspec⟩

/-- A connection holds its listener's feed, and its latest report was marked with it. -/
structure Accepted.Marked (wire : Wire) (found : Accepted) : Prop where
  session : ∀ session, found.session = some session → session.listener.feed = some found.tag
  latestSa : ∀ xml, found.latestSa = some xml → ∃ raw, xml = found.tag.mark wire raw

namespace FeedServer

variable {wire : Wire} {server next : FeedServer} {todo : List (String × ListenerSpec)}
  {bound : Bool} {action : FeedAction} {line : Nat} {groups : Groups.State} {decoded : Decoded}
  {registry : RegistryState}

theorem step_changed {version : Nat} (h : server.step wire (.changed version) = some next) :
    version ≤ server.ticks ∧ next = { server with seen := version, stage := .looking } := by
  unfold step at h
  grind

theorem step_look (h : server.step wire .look = some next) : next = server.look := by
  unfold step at h
  grind

theorem step_start (h : server.step wire (.start uuid bound) = some next) :
    ∃ todo, server.stage = .starting todo ∧ server.start uuid bound todo = some next := by
  unfold step at h
  grind

theorem step_settle (h : server.step wire .settle = some next) :
    server.stage = .starting [] ∧ next = { server with stage := .waiting } := by
  unfold step at h
  grind

theorem start_eq_some (hstep : server.start uuid bound todo = some next) :
    ∃ wish, todo.find? (·.1 = uuid) = some (uuid, wish) ∧
      (((∃ entry ∈ server.running, entry.1 = uuid) ∨ bound = false) ∧
          next = { server with stage := .starting (todo.filter (·.1 ≠ uuid)) } ∨
        next = { server with
          stage := .starting (todo.filter (·.1 ≠ uuid))
          running := server.running ++ [(uuid, wish, server.nextTask)]
          tasks := server.tasks.insert server.nextTask wish
          nextTask := server.nextTask + 1 }) := by
  obtain ⟨⟨found, wish⟩, hfound, rfl⟩ := map_eq_some_iff.1 hstep
  obtain rfl : found = uuid := by simpa using find?_some hfound
  refine ⟨wish, hfound, ?_⟩
  dsimp only
  split
  · next hcase => exact .inl ⟨by simpa using hcase, rfl⟩
  · exact .inr rfl

theorem item_eq_some (hstep : server.item wire line registry groups decoded = some next) :
    ∃ (found : Accepted) (session : Session), server.lines[line]? = some found ∧
    found.session = some session ∧
      ∃ bound : Session, (session.onEvent wire registry decoded).1 = bound ∧
        ((next = { server with
          lines := server.lines.insert line { found with session := some bound } }) ∨ ∃ latestSa,
            (latestSa = found.latestSa ∨
              latestSa = some (bound.outbound wire groups [] decoded).xml) ∧
            next = { server with
              sent := server.sent ++ [bound.outbound wire groups [] decoded]
              lines := server.lines.insert line { found with
                session := some bound, latestSa } }) := by
  obtain ⟨found, hfound, hstep⟩ := bind_eq_some_iff.1 hstep
  obtain ⟨session, hsession, rfl⟩ := map_eq_some_iff.1 hstep
  refine ⟨found, session, hfound, (filter_eq_some_iff.1 hsession).1, _, rfl, ?_⟩
  dsimp only
  split
  · right
    split
    · exact ⟨_, .inr rfl, rfl⟩
    · exact ⟨_, .inl rfl, rfl⟩
  · exact .inl rfl

theorem framed_of_step (hconnects : action.connects = true)
    (hstep : server.step wire action = some next) : ∃ lines nextLine sent replayed,
    next = { server with lines, nextLine, sent, replayed } := by
  cases action with
  | enter line identity peer =>
    simp only [step, enter] at hstep
    split at hstep
    · split at hstep
      · cases hstep
        exact ⟨_, _, _, _, rfl⟩
      · cases hstep
    · cases hstep
  | item line registry groups decoded =>
    obtain ⟨found, session, -, -, bound, -, rfl | ⟨latestSa, -, rfl⟩⟩ := item_eq_some hstep
    · exact ⟨_, _, _, _, rfl⟩
    · exact ⟨_, _, _, _, rfl⟩
  | accept | replay =>
    obtain ⟨_, -, rfl⟩ := map_eq_some_iff.1 hstep
    exact ⟨_, _, _, _, rfl⟩
  | leave =>
    cases hstep
    exact ⟨_, _, _, _, rfl⟩
  | _ => cases hconnects

theorem unmoved_of_step (hwatches : action.connects = false)
    (hstep : server.step wire action = some next) : next.lines = server.lines ∧
    next.sent = server.sent ∧ next.replayed = server.replayed := by
  cases action with
  | call | finish =>
    cases hstep
    exact ⟨rfl, rfl, rfl⟩
  | changed =>
    obtain ⟨-, rfl⟩ := step_changed hstep
    exact ⟨rfl, rfl, rfl⟩
  | look =>
    obtain rfl := step_look hstep
    exact ⟨rfl, rfl, rfl⟩
  | start =>
    obtain ⟨todo, -, hstart⟩ := step_start hstep
    obtain ⟨wish, -, ⟨-, rfl⟩ | rfl⟩ := start_eq_some hstart <;> exact ⟨rfl, rfl, rfl⟩
  | settle =>
    obtain ⟨-, rfl⟩ := step_settle hstep
    exact ⟨rfl, rfl, rfl⟩
  | _ => cases hwatches

/-- The listeners that were not aborted, and those still to be started, are of current feeds. -/
structure Following (server : FeedServer) : Prop where
  tasks : ∀ (task : Nat) (wish : ListenerSpec), server.tasks[task]? = some wish →
    task ∉ server.aborted → ∃ feed, server.Current feed ∧ spec feed = some wish
  entered : ∀ (task : Nat) (wish : ListenerSpec), server.tasks[task]? = some wish →
    task ∉ server.aborted → ∃ uuid, (uuid, wish, task) ∈ server.running
  todo : ∀ todo, server.stage = .starting todo → ∀ entry ∈ todo, ∃ feed, server.Current feed ∧
    spec feed = some entry.2

theorem caughtUp_iff : server.caughtUp = true ↔ server.stage ≠ .looking ∧
    server.seen = server.ticks := by
  unfold caughtUp
  cases server.stage <;> simp

/-- What was read from the store is the store, once every change has been seen. -/
structure Reading (server : FeedServer) : Prop where
  seen : server.seen ≤ server.ticks
  caughtUp : server.caughtUp = true → server.looked = server.feeds

structure Inv (wire : Wire) (server : FeedServer) : Prop extends server.Reading where
  following : server.Following
  lines : ∀ (line : Nat) (found : Accepted), server.lines[line]? = some found →
    found.Marked wire ∧ ∃ feed, server.Current feed ∧ found.tag = tagOf feed

theorem Reading.call {call : FeedCall} {disk : Option Nat} (h : server.Reading) :
    Reading { server with
      feeds := (call.op.run applyEvent disk server.feeds).state
      ticks := server.ticks + (call.op.run applyEvent disk server.feeds).recorded.length } where
  seen := Nat.le_add_right_of_le h.seen
  caughtUp := by
    intro hcaught
    obtain ⟨hstage, hseen⟩ := caughtUp_iff.1 hcaught
    have hnone : (call.op.run applyEvent disk server.feeds).recorded.length = 0 := by
      have := h.seen
      dsimp only at hseen
      omega
    rw [FeedCall.state_of_recorded_nil (length_eq_zero_iff.1 hnone)]
    exact h.caughtUp (caughtUp_iff.2 ⟨hstage, by simpa [hnone] using hseen⟩)

theorem reading_init (feeds : List DataFeed) : Reading { feeds } :=
  ⟨Nat.le_refl 0, fun h => by cases h⟩

theorem inv_init (feeds : List DataFeed) : Inv wire { feeds } where
  __ := reading_init feeds
  following :=
    { tasks := fun task wish h => by simp at h
      entered := fun task wish h => by simp at h
      todo := fun todo h => by cases h }
  lines := fun line found h => by simp at h

theorem Following.look (h : server.Following) : server.look.Following := by
  have hkept : ∀ task wish, server.tasks[task]? = some wish → task ∉ server.look.aborted →
      ∃ uuid, (uuid, wish, task) ∈ server.running ∧ server.keeps (uuid, wish, task) = true := by
    intro task wish htask habort
    obtain ⟨hbefore, hnow⟩ := not_or.1 (mt mem_append.2 habort)
    obtain ⟨uuid, huuid⟩ := h.entered task wish htask hbefore
    refine ⟨uuid, huuid, ?_⟩
    by_contra hstop
    exact hnow (mem_map.2 ⟨(uuid, wish, task), mem_filter.2 ⟨huuid, by simpa using hstop⟩, rfl⟩)
  have hcurrent : ∀ (uuid : String) (wish : ListenerSpec),
      (wanted server.feeds)[uuid]? = some wish → ∃ feed, server.look.Current feed ∧
        spec feed = some wish := by
    intro uuid wish hwish
    obtain ⟨feed, hfeed, hspec⟩ := spec_of_wanted hwish
    exact ⟨feed, ⟨hfeed, by rw [hspec]; rfl⟩, hspec⟩
  constructor
  case tasks =>
    intro task wish htask habort
    obtain ⟨uuid, -, hkeeps⟩ := hkept task wish htask habort
    exact hcurrent uuid wish (by simpa using (Bool.and_eq_true_iff.1 hkeeps).1)
  case entered =>
    intro task wish htask habort
    obtain ⟨uuid, huuid, hkeeps⟩ := hkept task wish htask habort
    exact ⟨uuid, mem_filter.2 ⟨huuid, hkeeps⟩⟩
  case todo =>
    intro todo hstage entry hentry
    cases hstage
    exact hcurrent entry.1 entry.2 (TreeMap.mem_toList_iff_getElem?_eq_some.1 hentry)

theorem Following.start (h : server.Following)
    (hstage : server.stage = .starting todo) (hstep : server.start uuid bound todo = some next) :
    next.Following := by
  have hrest : ∀ rest, Stage.starting (todo.filter (·.1 ≠ uuid)) = .starting rest → ∀ entry ∈ rest,
      ∃ feed, server.Current feed ∧ spec feed = some entry.2 := by
    intro rest hrest entry hentry
    cases hrest
    exact h.todo todo hstage entry (mem_filter.1 hentry).1
  obtain ⟨wish, hfound, ⟨-, rfl⟩ | rfl⟩ := start_eq_some hstep
  · exact ⟨h.tasks, h.entered, hrest⟩
  · constructor
    case tasks =>
      intro task other htask habort
      rcases Dict.of_insert htask with ⟨-, rfl⟩ | ⟨-, hold⟩
      · exact h.todo todo hstage _ (mem_of_find?_eq_some hfound)
      · exact h.tasks task other hold habort
    case entered =>
      intro task other htask habort
      rcases Dict.of_insert htask with ⟨rfl, rfl⟩ | ⟨-, hold⟩
      · exact ⟨uuid, mem_append_right _ (mem_singleton_self _)⟩
      · obtain ⟨uuid', huuid'⟩ := h.entered task other hold habort
        exact ⟨uuid', mem_append_left _ huuid'⟩
    case todo => exact hrest

theorem Reading.start (h : server.Reading)
    (hstage : server.stage = .starting todo) (hstep : server.start uuid bound todo = some next) :
    next.Reading := by
  have hcaught : server.seen = server.ticks → server.looked = server.feeds :=
    fun hseen => h.caughtUp (caughtUp_iff.2 ⟨by simp [hstage], hseen⟩)
  obtain ⟨wish, -, ⟨-, rfl⟩ | rfl⟩ := start_eq_some hstep
  · exact ⟨h.seen, fun hc => hcaught (caughtUp_iff.1 hc).2⟩
  · exact ⟨h.seen, fun hc => hcaught (caughtUp_iff.1 hc).2⟩

theorem Following.finish {task : Nat} (h : server.Following) : Following
    { server with tasks := server.tasks.erase task } where
  tasks := by
    intro other wish hother habort
    exact h.tasks other wish (by grind) habort
  entered := by
    intro other wish hother habort
    exact h.entered other wish (by grind) habort
  todo := h.todo

theorem Following.step (h : server.Following) (hstep : server.step wire action = some next) :
    next.Following := by
  cases action with
  | call =>
    cases hstep
    exact ⟨h.tasks, h.entered, h.todo⟩
  | changed version =>
    obtain ⟨-, rfl⟩ := step_changed hstep
    exact ⟨h.tasks, h.entered, fun _ hstage => by cases hstage⟩
  | look =>
    obtain rfl := step_look hstep
    exact h.look
  | start uuid bound =>
    obtain ⟨todo, hstage, hstep⟩ := step_start hstep
    exact h.start hstage hstep
  | settle =>
    obtain ⟨-, rfl⟩ := step_settle hstep
    exact ⟨h.tasks, h.entered, fun _ hstage => by cases hstage⟩
  | finish task =>
    cases hstep
    exact h.finish
  | _ =>
    obtain ⟨_, _, _, _, rfl⟩ := framed_of_step rfl hstep
    exact ⟨h.tasks, h.entered, h.todo⟩

theorem Reading.step (h : server.Reading) (hstep : server.step wire action = some next) :
    next.Reading := by
  cases action with
  | call call disk =>
    cases hstep
    exact h.call
  | changed version =>
    obtain ⟨hversion, rfl⟩ := step_changed hstep
    exact ⟨hversion, fun hcaught => absurd rfl (caughtUp_iff.1 hcaught).1⟩
  | look =>
    obtain rfl := step_look hstep
    exact ⟨h.seen, fun _ => rfl⟩
  | start uuid bound =>
    obtain ⟨todo, hstage, hstep⟩ := step_start hstep
    exact h.start hstage hstep
  | settle =>
    obtain ⟨hstage, rfl⟩ := step_settle hstep
    exact ⟨h.seen, fun hcaught =>
      h.caughtUp (caughtUp_iff.2 ⟨by simp [hstage], (caughtUp_iff.1 hcaught).2⟩)⟩
  | finish =>
    cases hstep
    exact ⟨h.seen, h.caughtUp⟩
  | _ =>
    obtain ⟨_, _, _, _, rfl⟩ := framed_of_step rfl hstep
    exact ⟨h.seen, h.caughtUp⟩

section

variable (h : Inv wire server)

include h

/-- A connection that holds a current feed may be put in the place of any other. -/
theorem Inv.setLine {count : Nat} {found : Accepted} {sent : List Outbound}
    (hmarked : found.Marked wire) (htag : ∃ feed, server.Current feed ∧ found.tag = tagOf feed) :
    Inv wire { server with lines := server.lines.insert line found, nextLine := count, sent } where
  following := ⟨h.following.tasks, h.following.entered, h.following.todo⟩
  lines := by
    intro other there hthere
    rcases Dict.of_insert hthere with ⟨-, rfl⟩ | ⟨-, hold⟩
    · exact ⟨hmarked, htag⟩
    · exact h.lines other there hold
  __ := h

theorem Inv.look (hvacated : server.vacated .look = true) : Inv wire server.look where
  following := h.following.look
  lines := by
    intro line found hfound
    refine ⟨(h.lines line found hfound).1, ?_⟩
    have hline := all_eq_true.1 hvacated _ (TreeMap.mem_toList_iff_getElem?_eq_some.2 hfound)
    obtain ⟨feed, hfeed, hspec⟩ := any_eq_true.1 hline
    obtain ⟨wish, hwish, htag⟩ := (any_eq_true _ _).1 hspec
    rw [decide_eq_true_eq, tag_of_spec hwish] at htag
    exact ⟨feed, ⟨hfeed, by rw [hwish]; rfl⟩, htag.symm⟩
  seen := h.seen
  caughtUp := fun _ => rfl

theorem Inv.accept {task : Nat} (hvacated : server.vacated (.accept task) = true)
    (hstep : server.accept task = some next) : Inv wire next := by
  obtain ⟨wish, hwish, rfl⟩ := map_eq_some_iff.1 hstep
  obtain ⟨feed, hcurrent, hspec⟩ :=
    h.following.tasks task wish hwish (by simpa [vacated] using hvacated)
  refine h.setLine ⟨?_, ?_⟩ ⟨feed, hcurrent, tag_of_spec hspec⟩
  · intro session hsession
    cases hsession
  · intro xml hxml
    cases hxml

theorem Inv.enter {identity : Identity} {peer : SocketAddr}
    (hstep : server.enter line identity peer = some next) : Inv wire next := by
  unfold FeedServer.enter at hstep
  split at hstep
  · next tag protocol latestSa hfound =>
    split at hstep
    · cases hstep
      obtain ⟨hmarked, htag⟩ := h.lines line _ hfound
      refine h.setLine ⟨?_, hmarked.latestSa⟩ htag
      intro session hsession
      cases hsession
      rfl
    · cases hstep
  · cases hstep

end

theorem isFrom_outbound {feed : DataFeed} {session : Session}
    (h : session.listener.feed = some (tagOf feed)) :
    IsFrom wire feed (session.outbound wire groups [] decoded) := by
  refine ⟨⟨wire.stripMarti decoded.xml, ?_⟩, ?_⟩
  · simp [outbound, relayedXml, h]
  · by_cases hnone : feed.filterGroups = []
    · exact .inr ⟨hnone, groups,
        session.identity.commonName, by simp [outbound, sendGroups, h, tagOf, hnone]⟩
    · exact .inl (by simp [outbound, sendGroups, h, tagOf, hnone])

private theorem Inv.item (h : Inv wire server)
    (hstep : server.item wire line registry groups decoded = some next) : Inv wire next := by
  obtain ⟨found, session, hfound, hsession, bound, hbound, hnext⟩ := item_eq_some hstep
  obtain ⟨hmarked, htag⟩ := h.lines line found hfound
  have hfeed : bound.listener.feed = some found.tag := by
    rw [← hbound, onEvent_listener]
    exact hmarked.session session hsession
  have hbounds : ∀ session, some bound = some session → session.listener.feed = some found.tag := by
    intro other hother
    cases hother
    exact hfeed
  rcases hnext with rfl | ⟨latestSa, hsa, rfl⟩
  · exact h.setLine ⟨hbounds, hmarked.latestSa⟩ htag
  · refine h.setLine ⟨hbounds, ?_⟩ htag
    intro xml hxml
    rcases hsa with rfl | rfl
    · exact hmarked.latestSa xml hxml
    · cases hxml
      obtain ⟨feed, -, hfeedTag⟩ := htag
      exact hfeedTag ▸ (isFrom_outbound (hfeedTag ▸ hfeed)).1

section

variable (hstep : server.step wire action = some next)

include hstep

theorem Inv.step (h : Inv wire server) (hvacated : server.vacated action = true) :
    Inv wire next := by
  have hfollowing := h.following.step hstep
  have hreading := h.toReading.step hstep
  have hsame (hlines : next.lines = server.lines) (hlooked : next.looked = server.looked) :
      Inv wire next :=
    ⟨hreading, hfollowing, by simpa only [hlines, Current, hlooked] using h.lines⟩
  cases action with
  | call | finish =>
    cases hstep
    exact hsame rfl rfl
  | changed version =>
    obtain ⟨-, rfl⟩ := step_changed hstep
    exact hsame rfl rfl
  | look =>
    obtain rfl := step_look hstep
    exact h.look hvacated
  | start uuid bound =>
    obtain ⟨todo, -, hstart⟩ := step_start hstep
    obtain ⟨wish, -, ⟨-, rfl⟩ | rfl⟩ := start_eq_some hstart <;> exact hsame rfl rfl
  | settle =>
    obtain ⟨-, rfl⟩ := step_settle hstep
    exact hsame rfl rfl
  | accept task => exact h.accept hvacated hstep
  | enter line identity peer => exact h.enter hstep
  | item line registry groups decoded => exact h.item hstep
  | replay line =>
    obtain ⟨xml, -, rfl⟩ := map_eq_some_iff.1 hstep
    exact hsame rfl rfl
  | leave line =>
    cases hstep
    refine ⟨hreading, hfollowing, ?_⟩
    intro other found hfound
    exact h.lines other found (by grind)

/-- Nothing is relayed but the events of connections, and nothing shown to newcomers but their
latest reports. -/
theorem step_relays : (next.sent = server.sent ∧ next.replayed = server.replayed) ∨
      (∃ line registry groups decoded, server.item wire line registry groups decoded = some next) ∨
        ∃ line, server.replay line = some next := by
  cases action with
  | item line registry groups decoded => exact .inr (.inl ⟨line, registry, groups, decoded, hstep⟩)
  | replay line => exact .inr (.inr ⟨line, hstep⟩)
  | accept task =>
    obtain ⟨wish, -, rfl⟩ := map_eq_some_iff.1 hstep
    exact .inl ⟨rfl, rfl⟩
  | enter line identity peer =>
    simp only [FeedServer.step, FeedServer.enter] at hstep
    split at hstep
    · split at hstep
      · cases hstep
        exact .inl ⟨rfl, rfl⟩
      · cases hstep
    · cases hstep
  | leave =>
    cases hstep
    exact .inl ⟨rfl, rfl⟩
  | _ =>
    obtain ⟨-, hsent, hreplayed⟩ := unmoved_of_step rfl hstep
    exact .inl ⟨hsent, hreplayed⟩

theorem Inv.sent {msg : Outbound} (h : Inv wire server) (hsent : next.sent = server.sent ++ [msg]) :
    ∃ feed, server.Current feed ∧ IsFrom wire feed msg := by
  rcases step_relays hstep with ⟨hsame, -⟩ | ⟨line, registry, groups, decoded,
    hitem⟩ | ⟨line, hreplay⟩
  · simp [hsame] at hsent
  · obtain ⟨found, session, hfound, hsession, bound, hbound, hnext⟩ := item_eq_some hitem
    obtain ⟨hmarked, feed, hcurrent, htag⟩ := h.lines line found hfound
    have hfeed : bound.listener.feed = some (tagOf feed) := by
      rw [← hbound, onEvent_listener, ← htag]
      exact hmarked.session session hsession
    rcases hnext with rfl | ⟨latestSa, -, rfl⟩
    · simp at hsent
    · obtain rfl : _ = msg := singleton_inj.1 (append_cancel_left hsent)
      exact ⟨feed, hcurrent, isFrom_outbound hfeed⟩
  · obtain ⟨xml, -, rfl⟩ := map_eq_some_iff.1 hreplay
    simp at hsent

private theorem Inv.replayed {xml : String} (h : Inv wire server)
    (hreplayed : next.replayed = server.replayed ++ [xml]) : ∃ feed, server.Current feed ∧ ∃ raw,
    xml = (tagOf feed).mark wire raw := by
  rcases step_relays hstep with ⟨-, hsame⟩ | ⟨line, registry, groups, decoded,
    hitem⟩ | ⟨line, hreplay⟩
  · simp [hsame] at hreplayed
  · obtain ⟨found, session, hfound, hsession, bound, hbound, rfl | ⟨latestSa, -, rfl⟩⟩ :=
      item_eq_some hitem <;>
      simp at hreplayed
  · obtain ⟨shown, hshown, rfl⟩ := map_eq_some_iff.1 hreplay
    obtain ⟨found, hfound, hsa⟩ := bind_eq_some_iff.1 hshown
    obtain rfl : shown = xml := singleton_inj.1 (append_cancel_left hreplayed)
    obtain ⟨hmarked, feed, hcurrent, htag⟩ := h.lines line found hfound
    exact ⟨feed, hcurrent, htag ▸ hmarked.latestSa shown hsa⟩

end

/-- While the clients of a stopped listener are gone, whatever is relayed carries the mark and the
groups of a feed in the store as the watching task last read it, which is the store as it is once
the task has caught up. -/
theorem relays_follow_feeds (wire : Wire) (feeds : List DataFeed) (actions : List FeedAction)
    (server : FeedServer) (hrun : run (step wire) { feeds } actions = some server)
    (hvacated : Along (step wire) (fun server action =>
      server.vacated action = true) { feeds } actions) :
    (server.caughtUp = true → server.looked = server.feeds) ∧
      ∀ (action : FeedAction) (next : FeedServer), server.step wire action = some next →
        (∀ msg, next.sent = server.sent ++ [msg] → ∃ feed, server.Current feed ∧
          IsFrom wire feed msg) ∧ ∀ xml, next.replayed = server.replayed ++ [xml] →
            ∃ feed, server.Current feed ∧ ∃ raw, xml = (tagOf feed).mark wire raw := by
  have hinv : Inv wire server :=
    run_invariant (Inv wire) hrun hvacated (inv_init feeds) fun _ _ _ h hquiet hstep =>
      h.step hstep hquiet
  exact ⟨hinv.caughtUp, fun action next hstep =>
    ⟨fun msg hsent => hinv.sent hstep hsent, fun xml hreplayed => hinv.replayed hstep hreplayed⟩⟩

namespace Tracker

def feed (group : String) : DataFeed :=
  { uuid := "f1", name := "aprs", feedType := "Streaming", protocol := "stcp", port := some 18088,
    filterGroups := [group] }

def marking : Wire := { Wire.plain with addFeedSource := fun xml uuid _ _ => xml ++ uuid }

def streaming : List FeedAction :=
  [.call (.create (feed "Blue")) none, .look, .start "f1" true, .settle, .accept 0,
    .enter 0 .tcp "10.0.0.5:4000"]

def report (line : Nat) : FeedAction := .item line {} Groups.freshState (Spoof.report "A")

def regrouped : List FeedAction :=
  streaming ++ [report 0, .leave 0, .changed 1, .look, .start "f1" true, .settle,
    .call (.replace "aprs" (feed "Red")) none, .changed 3, .look, .finish 0,
      .start "f1" true, .settle,
    .accept 1, .enter 1 .tcp "10.0.0.6:4000"]

end Tracker

open Tracker in
/-- The feed is deleted while a client is connected to it.  The watching task has read the store
without it and is at rest, and the client's next event is marked with the feed and goes into its
groups. -/
theorem deleted_feed_goes_on :
    ∃ server, run (step marking) {} (streaming ++ [.changed 1, .look, .start "f1" true, .settle,
        .call (.delete "aprs") none, .changed 2, .look, .finish 0, .settle]) = some server ∧
      server.caughtUp = true ∧ server.feeds = [] ∧
      ∃ next, server.step marking (report 0) = some next ∧
        next.sent.map (fun msg => (msg.xml, msg.groups)) =
          [((tagOf (feed "Blue")).mark marking (Spoof.report "A").xml, {"Blue"})] := by
  decide +kernel

open Tracker in
theorem changed_feed_is_followed :
    ∃ server, run (step marking) {} regrouped = some server ∧ server.caughtUp = true ∧
    server.looked = server.feeds ∧
      ∃ next, server.step marking (report 1) = some next ∧
        ∀ msg, next.sent = server.sent ++ [msg] → ∃ feed, server.Current feed ∧
        IsFrom marking feed msg := by
  refine exists_end_and (fun server => ∃ next, server.step marking (report 1) = some next ∧ True)
    (by decide +kernel) fun server hrun hcaught hend => ?_
  obtain ⟨next, hnext, -⟩ := hend
  obtain ⟨hlooked, hsteps⟩ :=
    relays_follow_feeds marking [] regrouped server hrun (by decide +kernel)
  exact ⟨hlooked hcaught, next, hnext, (hsteps (report 1) next hnext).1⟩

end FeedServer

end MicroTak.Feeds
