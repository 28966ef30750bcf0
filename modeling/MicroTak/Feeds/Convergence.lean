import MicroTak.Feeds.Listeners

/-!
# Listeners that are there when the watching task waits

An aborted task lets go of its socket when it is next scheduled, and the watching task does not wait
for that: it binds the listener of a changed feed at once, and a listener that can't be bound is not
tried again before the next change.  Nor does it notice before then that a listener has ended
because its socket failed.  As long as aborted listeners are gone by the time their port is bound
again, and no other listener ends, the listeners that run while the watching task waits are those
the store asks for.
-/

namespace MicroTak.Feeds

open Std Transition Transport List

def Stage.todo : Stage → List (String × ListenerSpec)
  | .starting todo => todo
  | .looking | .waiting => []

namespace FeedServer

variable {wire : Wire} {server next : FeedServer}

/-- The listener that is still to be started for a feed. -/
def wish (server : FeedServer) (uuid : String) : Option ListenerSpec :=
  match server.stage with
  | .starting todo => (todo.find? (·.1 = uuid)).map (·.2)
  | _ => none

/-- A listener among those picked out is on the port. -/
def holds (server : FeedServer) (port : Nat) (picked : Nat → Bool) : Bool :=
  server.tasks.toList.any fun (task, wish) => decide (wish.port = port) && picked task

/-- Nothing but the listener of a feed keeps a port from being bound. -/
def unopposed (server : FeedServer) : FeedAction → Bool
  | .start uuid bound =>
    bound || (server.wish uuid).all fun wish => server.holds wish.port fun _ => true
  | _ => true

/-- Aborted listeners are gone when their port is bound again and when the watching task waits, and
no other listener ends. -/
def cleared (server : FeedServer) : FeedAction → Bool
  | .start uuid _ => (server.wish uuid).all fun wish => !server.holds wish.port (· ∈ server.aborted)
  | .settle => server.aborted.all fun task => !server.tasks.contains task
  | .finish task => task ∈ server.aborted
  | _ => true

def PortsDistinct (specs : TreeMap String ListenerSpec) : Prop :=
  (specs.toList.map (·.2.port)).Nodup

instance (specs : TreeMap String ListenerSpec) : Decidable (PortsDistinct specs) :=
  inferInstanceAs (Decidable (specs.toList.map (·.2.port)).Nodup)

variable {uuid : String} {wish : ListenerSpec} {task : Nat} {bound : Bool} {action : FeedAction}
  {todo : List (String × ListenerSpec)}

theorem holds_eq_true {port : Nat} {picked : Nat → Bool} : server.holds port picked = true ↔
      ∃ (task : Nat) (wish : ListenerSpec), server.tasks[task]? = some wish ∧ wish.port = port ∧
      picked task = true := by
  simp [holds]

/-! ### The listeners the watching task knows of -/

/-- Every listener that runs is entered with its task or aborted, and every listener that should be
there is entered or still to be started, if each has a port of its own. -/
structure Converging (server : FeedServer) : Prop where
  following : server.Following
  live : ∀ (uuid : String) (wish : ListenerSpec) (task : Nat), (uuid, wish, task) ∈ server.running →
    server.tasks[task]? = some wish ∧ task ∉ server.aborted
  tasks : (server.running.map (·.2.2)).Nodup
  fresh : ∀ task, task ∈ server.tasks ∨ task ∈ server.aborted → task < server.nextTask
  wanted : server.stage ≠ .looking → ∀ (uuid : String) (wish : ListenerSpec) (task : Nat),
    (uuid, wish, task) ∈ server.running → (wanted server.looked)[uuid]? = some wish
  todo : ∀ entry ∈ server.stage.todo, (Feeds.wanted server.looked)[entry.1]? = some entry.2
  covered : server.stage ≠ .looking → PortsDistinct (Feeds.wanted server.looked) →
    ∀ (uuid : String) (wish : ListenerSpec), (Feeds.wanted server.looked)[uuid]? = some wish →
      (∃ task, (uuid, wish, task) ∈ server.running) ∨ (uuid, wish) ∈ server.stage.todo
  settled : server.stage = .waiting → ∀ task ∈ server.aborted, task ∉ server.tasks

theorem Converging.init (feeds : List DataFeed) : Converging { feeds } where
  following := Inv.following (inv_init feeds : Inv Wire.plain { feeds })
  live := fun _ _ _ h => by cases h
  tasks := nodup_nil
  fresh := fun task h => by simp at h
  wanted := fun _ _ _ _ h => by cases h
  todo := fun _ h => by cases h
  covered := fun h => absurd rfl h
  settled := fun h => by cases h

theorem Converging.frame (h : server.Converging) {feeds : List DataFeed} {ticks nextLine : Nat}
    {lines : TreeMap Nat Accepted} {sent : List Outbound} {replayed : List String} :
    Converging { server with feeds, ticks, nextLine, lines, sent, replayed } where
  following := ⟨h.following.tasks, h.following.entered, h.following.todo⟩
  __ := h

theorem Converging.changed (h : server.Converging) (version : Nat) :
    Converging { server with seen := version, stage := .looking } where
  following := ⟨h.following.tasks, h.following.entered, fun _ hstage => by cases hstage⟩
  __ := h
  wanted := fun hstage => absurd rfl hstage
  todo := fun _ hentry => by cases hentry
  covered := fun hstage => absurd rfl hstage
  settled := fun hstage => by cases hstage

/-- A listener that is kept was not aborted with the others: no two entries have one task. -/
theorem Converging.look (h : server.Converging) : server.look.Converging where
  following := h.following.look
  live := by
    intro uuid wish task hentry
    obtain ⟨hentry, hkeeps⟩ := mem_filter.1 hentry
    obtain ⟨hlive, hnot⟩ := h.live uuid wish task hentry
    refine ⟨hlive, fun habort => ?_⟩
    rcases mem_append.1 habort with hbefore | hnow
    · exact hnot hbefore
    · obtain ⟨other, hother, htask⟩ := mem_map.1 hnow
      obtain ⟨hother, hdrops⟩ := mem_filter.1 hother
      have hsame : other = (uuid, wish, task) := inj_on_of_nodup_map h.tasks hother hentry htask
      rw [hsame, hkeeps] at hdrops
      cases hdrops
  tasks := h.tasks.sublist (filter_sublist.map _)
  fresh := by
    rintro task (hlive | habort)
    · exact h.fresh task (.inl hlive)
    · rcases mem_append.1 habort with hbefore | hnow
      · exact h.fresh task (.inr hbefore)
      · obtain ⟨⟨uuid, wish, _⟩, hentry, rfl⟩ := mem_map.1 hnow
        obtain ⟨hlive, -⟩ := h.live uuid wish _ (mem_filter.1 hentry).1
        exact h.fresh _ (.inl (TreeMap.mem_iff_isSome_getElem?.2 (by rw [hlive]; rfl)))
  wanted := fun _ uuid wish task hentry => by
    have hkeeps := (mem_filter.1 hentry).2
    simp only [keeps, Bool.and_eq_true, decide_eq_true_eq] at hkeeps
    exact hkeeps.1
  todo := fun entry hentry => TreeMap.mem_toList_iff_getElem?_eq_some.1 hentry
  covered := fun _ _ uuid wish hwish => .inr (TreeMap.mem_toList_iff_getElem?_eq_some.2 hwish)
  settled := fun hstage => by cases hstage

section

variable (h : server.Converging)

include h

/-- If a listener can't be bound, another that is wanted has its port. -/
theorem Converging.entered (hlooked : server.stage ≠ .looking)
    (hwish : server.wish uuid = some wish)
    (hasked : (Feeds.wanted server.looked)[uuid]? = some wish)
    (hports : PortsDistinct (Feeds.wanted server.looked))
    (hunopposed : server.unopposed (.start uuid bound) = true)
    (hcleared : server.cleared (.start uuid bound) = true)
    (hskipped : (∃ entry ∈ server.running, entry.1 = uuid) ∨ bound = false) :
    ∃ task, (uuid, wish, task) ∈ server.running := by
  have hthere : ∃ wish' task, (uuid, wish', task) ∈ server.running := by
    rcases hskipped with ⟨⟨_, wish', task⟩, hentry, rfl⟩ | rfl
    · exact ⟨wish', task, hentry⟩
    · simp only [unopposed, cleared, hwish, Option.all_some, Bool.false_or] at hunopposed hcleared
      obtain ⟨task, wish', htask, hport, -⟩ := holds_eq_true.1 hunopposed
      have habort : task ∉ server.aborted := by
        intro habort
        rw [holds_eq_true.2 ⟨task, wish', htask, hport, decide_eq_true habort⟩] at hcleared
        cases hcleared
      obtain ⟨uuid', hentry⟩ := h.following.entered task wish' htask habort
      have hsame : uuid' = uuid := congrArg Prod.fst (inj_on_of_nodup_map hports
        (TreeMap.mem_toList_iff_getElem?_eq_some.2 (h.wanted hlooked uuid' wish' task hentry))
        (TreeMap.mem_toList_iff_getElem?_eq_some.2 hasked) hport)
      exact ⟨wish', task, hsame ▸ hentry⟩
  obtain ⟨wish', task, hentry⟩ := hthere
  have hsame : some wish' = some wish := (h.wanted hlooked uuid wish' task hentry).symm.trans hasked
  exact ⟨task, Option.some.inj hsame ▸ hentry⟩

theorem Converging.start (hstage : server.stage = .starting todo)
    (hunopposed : server.unopposed (.start uuid bound) = true)
    (hcleared : server.cleared (.start uuid bound) = true)
    (hstep : server.start uuid bound todo = some next) :
    next.Converging := by
  have hfollowing := h.following.start hstage hstep
  have hlooked : server.stage ≠ .looking := by simp [hstage]
  obtain ⟨wish, hfound, hnext⟩ := start_eq_some hstep
  have hwish : server.wish uuid = some wish := by simp [FeedServer.wish, hstage, hfound]
  have htodo : server.stage.todo = todo := by rw [hstage]; rfl
  have hasked : (Feeds.wanted server.looked)[uuid]? = some wish :=
    h.todo (uuid, wish) (htodo ▸ mem_of_find?_eq_some hfound)
  have hrest : ∀ entry ∈ todo.filter (·.1 ≠ uuid), (Feeds.wanted server.looked)[entry.1]? =
      some entry.2 :=
    fun entry hentry => h.todo entry (htodo ▸ (mem_filter.1 hentry).1)
  -- whichever way the feed's own listener went, the others are where they were
  have hcovered : ∀ running, server.running ⊆ running →
      (PortsDistinct (Feeds.wanted server.looked) → ∃ task, (uuid, wish, task) ∈ running) →
        PortsDistinct (Feeds.wanted server.looked) → ∀ uuid' wish',
          (Feeds.wanted server.looked)[uuid']? = some wish' →
            (∃ task, (uuid', wish', task) ∈ running) ∨
              (uuid', wish') ∈ todo.filter (·.1 ≠ uuid) := by
    intro running hgrows hown hports uuid' wish' hwish'
    by_cases hsame : uuid' = uuid
    · subst hsame
      exact .inl (Option.some.inj (hwish'.symm.trans hasked) ▸ hown hports)
    · rcases h.covered hlooked hports uuid' wish' hwish' with ⟨task, hentry⟩ | hentry
      · exact .inl ⟨task, hgrows hentry⟩
      · exact .inr (mem_filter.2 ⟨htodo ▸ hentry, by simpa using hsame⟩)
  rcases hnext with ⟨hskipped, rfl⟩ | rfl
  · exact
      { h with
        following := hfollowing
        wanted := fun _ => h.wanted hlooked
        todo := hrest
        covered := fun _ => hcovered _ (List.Subset.refl _) fun hports =>
          h.entered hlooked hwish hasked hports hunopposed hcleared hskipped
        settled := fun hstage => by cases hstage }
  · have hnew : server.nextTask ∉ server.running.map (·.2.2) := by
      intro hmem
      obtain ⟨⟨uuid', wish', task⟩, hentry, htask⟩ := mem_map.1 hmem
      obtain ⟨hlive, -⟩ := h.live uuid' wish' task hentry
      have hlt := h.fresh task (.inl (TreeMap.mem_iff_isSome_getElem?.2 (by rw [hlive]; rfl)))
      exact absurd htask (Nat.ne_of_lt hlt)
    exact
      { following := hfollowing
        live := by
          intro uuid' wish' task hentry
          rcases mem_append.1 hentry with hentry | hentry
          · obtain ⟨hlive, habort⟩ := h.live uuid' wish' task hentry
            have hne : server.nextTask ≠ task := fun heq => hnew (mem_map.2 ⟨_, hentry, heq.symm⟩)
            exact ⟨by rw [Dict.getElem?_insert_of_ne hne, hlive], habort⟩
          · cases mem_singleton.1 hentry
            exact ⟨Dict.getElem?_insert_self _ _ _, fun habort =>
              Nat.lt_irrefl _ (h.fresh _ (.inr habort))⟩
        tasks := by
          rw [map_append]
          exact nodup_append_comm.1 (nodup_cons.2 ⟨hnew, h.tasks⟩)
        fresh := by
          rintro task (hlive | habort)
          · rcases TreeMap.mem_insert.1 hlive with heq | hlive
            · exact (LawfulEqOrd.compare_eq_iff_eq.1 heq) ▸ Nat.lt_succ_self _
            · exact Nat.lt_succ_of_lt (h.fresh task (.inl hlive))
          · exact Nat.lt_succ_of_lt (h.fresh task (.inr habort))
        wanted := by
          intro _ uuid' wish' task hentry
          rcases mem_append.1 hentry with hentry | hentry
          · exact h.wanted hlooked uuid' wish' task hentry
          · cases mem_singleton.1 hentry
            exact hasked
        todo := hrest
        covered := fun _ => hcovered _ (subset_append_left _ _) fun _ =>
          ⟨server.nextTask, mem_append_right _ (mem_singleton_self _)⟩
        settled := fun hstage => by cases hstage }

theorem Converging.settle (hstage : server.stage = .starting [])
    (hcleared : server.cleared .settle = true) : Converging { server with stage := .waiting } where
  following := ⟨h.following.tasks, h.following.entered, fun _ hstage => by cases hstage⟩
  __ := h
  wanted := fun _ => h.wanted (by simp [hstage])
  todo := fun _ hentry => by cases hentry
  covered := by
    intro _ hports uuid wish hwish
    have hcovered := h.covered (by simp [hstage]) hports uuid wish hwish
    rwa [hstage] at hcovered
  settled := by
    intro _ task habort
    rw [← TreeMap.contains_iff_mem, Bool.not_eq_true]
    exact Bool.not_eq_true' _ ▸ all_eq_true.1 hcleared task habort

private theorem Converging.finish (habort : task ∈ server.aborted) :
    Converging { server with tasks := server.tasks.erase task } where
  following := h.following.finish
  live := by
    intro uuid wish other hentry
    obtain ⟨hlive, hnot⟩ := h.live uuid wish other hentry
    have hne : task ≠ other := fun heq => hnot (heq ▸ habort)
    exact ⟨by rw [Dict.getElem?_erase_of_ne hne, hlive], hnot⟩
  __ := h
  fresh := fun other hother => h.fresh other (hother.imp_left TreeMap.mem_of_mem_erase)
  settled := fun hstage other hother hlive =>
    h.settled hstage other hother (TreeMap.mem_of_mem_erase hlive)

theorem Converging.step (hunopposed : server.unopposed action = true)
    (hcleared : server.cleared action = true) (hstep : server.step wire action = some next) :
    next.Converging := by
  cases action with
  | call call disk =>
    cases hstep
    exact h.frame
  | changed version =>
    obtain ⟨-, rfl⟩ := step_changed hstep
    exact h.changed version
  | look =>
    obtain rfl := step_look hstep
    exact h.look
  | start uuid bound =>
    obtain ⟨todo, hstage, hstep⟩ := step_start hstep
    exact h.start hstage hunopposed hcleared hstep
  | settle =>
    obtain ⟨hstage, rfl⟩ := step_settle hstep
    exact h.settle hstage hcleared
  | finish task =>
    cases hstep
    exact h.finish (of_decide_eq_true hcleared)
  | _ =>
    obtain ⟨_, _, _, _, rfl⟩ := framed_of_step rfl hstep
    exact h.frame

end

end FeedServer

end MicroTak.Feeds
