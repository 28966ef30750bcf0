import MicroTak.Lib.Versioned
import MicroTak.Transport.Relay

/-!
# The group lookup a connection keeps

A TLS connection filters hub messages by its active OUT groups and keeps the lookup until the
version of the group store moves.  The version is read without the lock and moves after each record
of a call, so a check can fall between the two, or between two records of one grant.  It still goes
by the groups of a state that nobody was writing to, at some moment of the check.
-/

namespace MicroTak.Transport

open Groups Versioned Transition

abbrev GroupWorld := World Groups.State GroupEvent GroupError (Finset String)

def outGroups (cn : String) (groups : Groups.State) : Finset String :=
  groups.activeGroups (some cn) .outgoing

/-- The group store and the connection of this identity, one step of either. -/
def cacheStep (cn : String) (world : GroupWorld) : Versioned.Action GroupCall → Option GroupWorld :=
  world.step applyEvent (outGroups cn) GroupCall.op

/-- The store and the lookup of a connection between two steps of the relay. -/
def Conn.world (groups : GroupStore) (conn : Conn) : GroupWorld :=
  { state := groups.state, version := groups.version, history := [groups.state],
    cache := conn.outGroups }

theorem Server.lookupOut_eq {M : Type} (server : Server M) (conn : Conn) (cn : String) :
    server.lookupOut conn cn =
      (server.groups.version, ((conn.world server.groups).hit).getD
        (outGroups cn server.groups.state)) := by
  unfold Server.lookupOut Conn.world World.hit outGroups
  cases conn.outGroups with
  | none => rfl
  | some entry =>
    by_cases hversion : entry.1 = server.groups.version <;> simp [Option.filter, hversion]

/-- Between the start of a check and its decision there is a moment at which the store, with no call
in progress, answers with the groups the check goes by.  The states listed from the start on are
what whole calls leave, one after the other. -/
theorem check_uses_readable_groups (cn : String) (groups : Groups.State)
    (before during : List (Versioned.Action GroupCall))
    (atStart begun atDecision decided : GroupWorld)
    (hbefore : run (cacheStep cn) (World.init groups) before = some atStart)
    (hstart : cacheStep cn atStart .start = some begun)
    (hduring : run (cacheStep cn) begun during = some atDecision) (hother : .decide ∉ during)
    (hdecide : cacheStep cn atDecision .decide = some decided) :
    (∃ used, decided.decisions =
      { start := atStart.place, stop := atDecision.place,
        view := used } :: atDecision.decisions ∧ ∃ i state, atStart.place ≤ i ∧
          i ≤ atDecision.place ∧ atDecision.history[i]? = some state ∧
        used = state.activeGroups (some cn) .outgoing) ∧
    atStart.history <+: atDecision.history ∧
    (atStart.writer = none → atStart.history[atStart.place]? = some atStart.state) ∧
    (∀ i state next, atDecision.history[i]? = some state → atDecision.history[i + 1]? = some next →
      ∃ call : GroupCall, ∃ disk, next = (call.op.run applyEvent disk state).state) := by
  have hinit : atStart.Inv applyEvent (outGroups cn) GroupCall.op :=
    run_preserves _ hbefore (World.inv_init groups) fun _ _ _ h => h.step
  obtain ⟨used, hdecisions, hseen, hextends⟩ := hinit.check_sees hstart hduring hother hdecide
  have hatDecision : atDecision.Inv applyEvent (outGroups cn) GroupCall.op :=
    run_preserves _ hduring (hinit.step hstart) fun _ _ _ h => h.step
  refine ⟨⟨used, hdecisions, hseen⟩, hextends, fun hnone => ?_, ?_⟩
  · obtain ⟨base, hstored⟩ := hinit.stored
    rw [hstored.getElem?_place, hstored.rest hnone]
  · obtain ⟨base, hstored⟩ := hatDecision.stored
    exact hstored.linked

namespace GrantInTwo

def groups : Groups.State :=
  applyEvent (applyEvent freshState (.created "Red" none 0)) (.created "Blue" none 0)

/-- A device is granted both, and the first of the two is recorded but the version has not moved. -/
def before : List (Versioned.Action GroupCall) :=
  [.start, .readVersion, .readView, .decide,
   .lock (.grant "alpha" [⟨"Red", .both⟩, ⟨"Blue", .both⟩]), .write true, .write true, .write true]

/-- A check finds its lookup still current; the grant is recorded to the end before it decides. -/
def during : List (Versioned.Action GroupCall) :=
  [.readVersion, .write true, .write true, .write true, .write true, .write true]

end GrantInTwo

open GrantInTwo in
theorem check_within_grant :
    ∃ atStart, run (cacheStep "alpha") (World.init groups) before = some atStart ∧
      ∃ begun, cacheStep "alpha" atStart .start = some begun ∧
        ∃ atDecision, run (cacheStep "alpha") begun during = some atDecision ∧
          ∃ i state, atStart.place ≤ i ∧ i ≤ atDecision.place ∧
          atDecision.history[i]? = some state ∧
            state.activeGroups (some "alpha") .outgoing = {anonGroup} := by
  have hrun : ∃ atStart, run (cacheStep "alpha") (World.init groups) before = some atStart ∧
      ∃ begun, cacheStep "alpha" atStart .start = some begun ∧
        ∃ atDecision, run (cacheStep "alpha") begun during = some atDecision ∧
          ∃ decided, cacheStep "alpha" atDecision .decide = some decided ∧
            decided.decisions.head?.map (·.view) = some {anonGroup} := by
    decide +kernel
  obtain ⟨atStart, hbefore, begun, hstart, atDecision, hduring, decided, hdecide, hhead⟩ := hrun
  obtain ⟨⟨used, hdecisions, i, state, hle, hge, hstate, hused⟩, -⟩ :=
    check_uses_readable_groups "alpha" groups before during atStart begun atDecision decided hbefore
      hstart hduring (by simp [during]) hdecide
  refine ⟨atStart, hbefore, begun, hstart, atDecision, hduring, i, state, hle, hge, hstate, ?_⟩
  rw [hdecisions] at hhead
  rw [← hused]
  exact Option.some.inj hhead

end MicroTak.Transport
