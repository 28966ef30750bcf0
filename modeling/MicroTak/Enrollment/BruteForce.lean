import MicroTak.Enrollment.Limiter
import MicroTak.Enrollment.Steps

/-!
# How many passwords can be tried

The limiter is asked before a password check and told after it.  Checks that run side by side are
counted too late: each of them was admitted while the others were still out.
-/

namespace MicroTak.Enrollment

open Std Transition AuthLimiter Check Option Port

/-! ### Failed checks and windows -/

/-- A password check that failed, and when. -/
structure Failed where
  keys : List String
  clock : Nat
  deriving DecidableEq

/-- A window of a key, from the failure counted first; `skipped` checks had failed before. -/
structure Window where
  key : String
  start : Nat
  skipped : Nat
  deriving DecidableEq

def tally (length : Nat) (failed : List Failed) (w : Window) : Nat :=
  (failed.drop w.skipped).countP fun f => w.key ∈ f.keys ∧ f.clock < w.start + length

/-- The port with the password checks that have failed and the windows that have opened since the
server was started: the limiter is in memory only. -/
structure Ledger where
  port : Port := {}
  failed : List Failed := []
  windows : List Window := []

def Check.counts (key : String) (check : Option Check) : Nat := (check.any (key ∈ ·.keys)).toNat

theorem Check.counts_some (key : String) (check : Check) :
    counts key (some check) = if key ∈ check.keys then 1 else 0 := by
  unfold counts
  split <;> simp [*]

def checksFor {ρ : Type} (check : ρ → Option Check) (key : String) (requests : TreeMap Nat ρ) :
    Nat :=
  Dict.count (fun request => (check request).any (key ∈ ·.keys)) requests

variable {ρ : Type}

theorem share_check (check : ρ → Option Check) (key : String) (request : Option ρ) :
    Dict.share (fun request => (check request).any (key ∈ ·.keys)) request =
    counts key (request.bind check) := by
  cases request <;> rfl

theorem checksFor_insert (check : ρ → Option Check) (key : String) (requests : TreeMap Nat ρ)
    (id : Nat) (request : ρ) : checksFor check key (requests.insert id request) + counts key
    ((requests[id]?).bind check) =
      checksFor check key requests + counts key (check request) := by
  rw [← share_check]
  exact Dict.count_insert _ requests id request

theorem checksFor_erase (check : ρ → Option Check) (key : String) (requests : TreeMap Nat ρ)
    (id : Nat) : checksFor check key (requests.erase id) + counts key ((requests[id]?).bind check) =
      checksFor check key requests := by
  rw [← share_check]
  exact Dict.count_erase _ requests id

/-- `verify_password` comes back with `false`. -/
def Check.fails (env : Env) (users : Users.UserStore) (checked : Bool) (check : Check) : Bool :=
  !(checked && users.authenticate env.argon2 check.username check.password)

namespace Port

variable (env : Env) (port : Port)

def failing : PortAction → Option Check
  | .enroll (.advance id input) =>
    (port.enrollCheck id).filter (·.fails env port.server.users input.checked)
  | .proceed id input => (port.loginCheck id).filter (·.fails env port.server.users input.checked)
  | .finish check => if check.fails env port.server.users true then some check else none
  | _ => none

/-- The password checks running for a key. -/
def inFlight (key : String) : Nat :=
  port.server.running.elim 0 (fun running =>
    checksFor (fun entry => entry.2.check entry.1) key running.requests) + checksFor (fun entry =>
      entry.2.check entry.1) key port.logins

end Port

namespace Ledger

variable (env : Env) (ledger : Ledger)

def step (action : PortAction) : Option Ledger :=
  (ledger.port.step env action).map fun next =>
    { port := next
      failed := ledger.failed ++
        ((ledger.port.failing env action).map fun check =>
          { keys := check.keys, clock := ledger.port.clock }).toList
      windows := match ledger.port.server.running, next.server.running with
        | some before, some after =>
            ledger.windows ++ (AuthLimiter.opened before.limiter after.limiter).map
              fun (key, start) =>
              { key, start, skipped := ledger.failed.length }
        | _, _ => [] }

/-- No window of a key has more failed checks than the limit. -/
def Bounded : Prop :=
  ∀ running ∈ ledger.port.server.running, ∀ w ∈ ledger.windows,
    tally running.limiter.window ledger.failed w ≤ running.limiter.maxFailures

end Ledger

/-! ### What the bound rests on -/

/-- What the limiter, the checks in flight, the failed checks and the windows keep. -/
structure Guarded (limiter : AuthLimiter) (inFlight : String → Nat) (clock : Nat)
    (failed : List Failed) (windows : List Window) : Prop where
  small : limiter.maxFailures ≤ maxCount
  room : ∀ key, inFlight key ≤ limiter.maxFailures
  past : ∀ (key : String), ∀ entry ∈ limiter.failures[key]?, entry.windowStart ≤ clock
  skipped : ∀ w ∈ windows, w.skipped ≤ failed.length
  bounded : ∀ w ∈ windows, tally limiter.window failed w ≤ limiter.maxFailures
  /-- While a window is open it is the one the limiter counts in, and the checks in flight fit in
  it. -/
  live : ∀ w ∈ windows, clock < w.start + limiter.window → ∃ entry ∈ limiter.failures[w.key]?,
    entry.windowStart = w.start ∧ tally limiter.window failed w ≤ entry.count ∧
      tally limiter.window failed w + inFlight w.key ≤ limiter.maxFailures

variable {w : Window} {new : List Failed} {length : Nat}

theorem tally_append {failed : List Failed} (hskipped : w.skipped ≤ failed.length) :
    tally length (failed ++ new) w =
      tally length failed w + new.countP fun f => w.key ∈ f.keys ∧ f.clock < w.start + length := by
  rw [tally, List.drop_append_of_le_length hskipped, List.countP_append]
  rfl

theorem tally_of_skipped {failed : List Failed} (hskipped : w.skipped = failed.length) :
    tally length (failed ++ new) w = new.countP fun f => w.key ∈ f.keys ∧
    f.clock < w.start + length := by
  rw [tally, hskipped, List.drop_left]

theorem countP_within_le (length : Nat) (new : List Failed) (w : Window) :
    (new.countP fun f => w.key ∈ f.keys ∧ f.clock < w.start + length) ≤
    new.countP (w.key ∈ ·.keys) :=
  List.countP_mono_left fun _ _ hwithin => decide_eq_true (of_decide_eq_true hwithin).1

variable {keys : List String} {action : PortAction} {users : Users.UserStore} {checked : Bool}
  {check : Check}

theorem countP_within_eq_zero {clock : Nat}
    (hnew : new = [] ∨ new = [{ keys, clock }]) (hover : ¬ clock < w.start + length) :
    (new.countP fun f => w.key ∈ f.keys ∧ f.clock < w.start + length) = 0 := by
  rcases hnew with rfl | rfl
  · rfl
  · simp [hover]

theorem of_mem_opened {before after : AuthLimiter} {skipped : Nat}
    (hw : w ∈ (opened before after).map fun (key, start) => { key, start, skipped }) :
    w.skipped = skipped ∧ ∃ entry ∈ after.failures[w.key]?, entry.windowStart = w.start ∧
      ∀ old ∈ before.failures[w.key]?, old.windowStart ≠ w.start := by
  obtain ⟨⟨key, start⟩, hmem, rfl⟩ := List.mem_map.1 hw
  exact ⟨rfl, mem_opened.1 hmem⟩

variable {limiter limiter' : AuthLimiter} {inFlight inFlight' : String → Nat} {clock clock' : Nat}
  {failed : List Failed} {windows : List Window}

namespace Guarded

variable (h : Guarded limiter inFlight clock failed windows)
include h

theorem isLive {key : String} {entry : Failures} (hentry : entry ∈ limiter.failures[key]?)
    (hopen : clock < entry.windowStart + limiter.window) : entry.Live limiter.window clock := by
  have hpast := h.past key entry hentry
  unfold Failures.Live
  omega

theorem flight_le (hle : ∀ key, inFlight' key ≤ inFlight key) :
    Guarded limiter inFlight' clock failed windows where
  __ := h
  room key := (hle key).trans (h.room key)
  live w hw hopen := by
    obtain ⟨entry, hentry, hstart, hcount, hfits⟩ := h.live w hw hopen
    exact ⟨entry, hentry, hstart, hcount, (Nat.add_le_add_left (hle w.key) _).trans hfits⟩

theorem ticks (hle : clock ≤ clock') : Guarded limiter inFlight clock' failed windows where
  __ := h
  past key entry hentry := (h.past key entry hentry).trans hle
  live w hw hopen := h.live w hw (hle.trans_lt hopen)

theorem begins
    (hroom : ∀ key ∈ keys, limiter.counted key clock + inFlight key < limiter.maxFailures)
    (hflight : ∀ key, inFlight' key = inFlight key + if key ∈ keys then 1 else 0) :
    Guarded limiter inFlight' clock failed windows where
  __ := h
  room key := by
    rw [hflight]
    split
    · next hkey =>
      have hless := hroom key hkey
      omega
    · exact h.room key
  live w hw hopen := by
    obtain ⟨entry, hentry, hstart, hcount, hfits⟩ := h.live w hw hopen
    refine ⟨entry, hentry, hstart, hcount, ?_⟩
    rw [hflight]
    split
    · next hkey =>
      have hless := hroom w.key hkey
      rw [counted_of_live hentry (h.isLive hentry (hstart ▸ hopen))] at hless
      omega
    · exact hfits

theorem records (hnew : new = [] ∨ new = [{ keys, clock }])
    (hflight : ∀ key, inFlight' key + new.countP (key ∈ ·.keys) ≤ inFlight key) :
    Guarded (limiter.recordFailures keys clock) inFlight' clock (failed ++ new)
      (windows ++ (opened limiter (limiter.recordFailures keys clock)).map fun (key, start) =>
        { key, start, skipped := failed.length }) := by
  obtain ⟨hwindow, hmax⟩ := limiter.recordFailures_config clock keys
  have hrecorded := limiter.recorded_recordFailures clock keys
  have hroom : ∀ key, inFlight' key + new.countP (key ∈ ·.keys) ≤ limiter.maxFailures :=
    fun key => (hflight key).trans (h.room key)
  have hkeyed : ∀ key, new.countP (key ∈ ·.keys) = 0 ∨
      key ∈ keys ∧ new.countP (key ∈ ·.keys) = 1 := by
    intro key
    rcases hnew with rfl | rfl
    · exact .inl rfl
    · by_cases hkey : key ∈ keys
      · exact .inr ⟨hkey, by simp [hkey]⟩
      · exact .inl (by simp [hkey])
  refine ⟨hmax ▸ h.small, fun key => ?_, fun key entry hentry => ?_, ?_, ?_, ?_⟩
  · rw [hmax]
    exact (Nat.le_add_right ..).trans (hroom key)
  · rcases (hrecorded key).opens entry hentry with ⟨old, hold, hstart, -⟩ | ⟨hstart, -⟩
    · exact hstart ▸ h.past key old hold
    · exact hstart.le
  all_goals
    rw [List.forall_mem_append]
    refine ⟨fun w hw => ?_, fun w hw => ?_⟩
  · rw [List.length_append]
    exact (h.skipped w hw).trans (Nat.le_add_right ..)
  · obtain ⟨hskipped, -⟩ := of_mem_opened hw
    rw [hskipped, List.length_append]
    exact Nat.le_add_right ..
  · rw [hwindow, hmax, tally_append (h.skipped w hw)]
    by_cases hopen : clock < w.start + limiter.window
    · obtain ⟨-, -, -, -, hfits⟩ := h.live w hw hopen
      have hnow := hflight w.key
      have hle := countP_within_le limiter.window new w
      omega
    · rw [countP_within_eq_zero hnew hopen]
      exact h.bounded w hw
  · obtain ⟨hskipped, -⟩ := of_mem_opened hw
    rw [hwindow, tally_of_skipped hskipped]
    have hle := countP_within_le limiter.window new w
    have hnow := hroom w.key
    omega
  · intro hopen
    rw [hwindow] at hopen
    obtain ⟨entry, hentry, hstart, hcount, hfits⟩ := h.live w hw hopen
    obtain ⟨entry', hentry', hstart', hkept, hbumped⟩ :=
      (hrecorded w.key).grows entry hentry (h.isLive hentry (hstart ▸ hopen))
    have hle := countP_within_le limiter.window new w
    have hnow := hflight w.key
    have hsmall := h.small
    refine ⟨entry', hentry', hstart'.trans hstart, ?_⟩
    rw [hwindow, tally_append (h.skipped w hw)]
    -- As a literal, the bound on counts would be unfolded.
    generalize maxCount = cap at hsmall hkept hbumped
    rcases hkeyed w.key with hzero | ⟨hkey, hone⟩
    · omega
    · have hmore := hbumped hkey
      omega
  · intro _
    obtain ⟨hskipped, entry, hentry, hstart, hfresh⟩ := of_mem_opened hw
    refine ⟨entry, hentry, hstart, ?_⟩
    rw [hwindow, hmax, tally_of_skipped hskipped]
    have hle := countP_within_le limiter.window new w
    have hnow := hroom w.key
    rcases (hrecorded w.key).opens entry hentry with ⟨old, hold, hsame, -⟩ | ⟨-, hone⟩
    · exact absurd (hsame.trans hstart) (hfresh old hold)
    · have hatMost : new.countP (w.key ∈ ·.keys) ≤ 1 := by
        rcases hkeyed w.key with hzero | ⟨-, hsingle⟩ <;> omega
      exact ⟨hle.trans (hatMost.trans hone),
        (Nat.add_le_add_right hle _).trans (Nat.add_comm .. ▸ hnow)⟩

end Guarded

/-! ### What a step of a request does -/

def Stage.begins (limiter : AuthLimiter) (request : SignRequest) (clock : Nat) :
    Stage → Option Check
  | .limitsPassword _ username password =>
      if limiter.isBlocked request.ipKey clock ||
        limiter.isBlocked (userKey username) clock then none
      else some { keys := [request.ipKey, userKey username], username, password }
  | _ => none

/-- The check that a step of a login starts. -/
def LoginStage.begins (env : Env) (users : Users.UserStore) (limiter : AuthLimiter)
    (request : LoginRequest) (clock : Nat) : LoginStage → Option Check
  | .limits =>
      match request.credentials env, request.endpoint with
      | some (username, password), .token _ _ =>
          if limiter.isBlocked request.ipKey clock ||
            limiter.isBlocked (userKey username) clock then none
          else some { keys := [request.ipKey, userKey username], username, password }
      | _, _ => none
  | .chooses username password =>
      if users.userExists username then some
        { keys := [request.ipKey, userKey username], username, password } else none
  | _ => none

/-- What a step of a request does to the limiter, and to the check it had before and has after;
`begun` and `failing` are the checks that start and fail in it. -/
inductive Effect (limiter : AuthLimiter) (clock : Nat) (begun failing : Option Check) :
    (before after : Option Check) → AuthLimiter → Prop where
  | quiet {before : Option Check} (hfailing : failing = none) :
    Effect limiter clock begun failing before none limiter
  | begins {check : Check} (hbegun : begun = some check) (hfailing : failing = none) :
      Effect limiter clock begun failing none (some check) limiter
  | records (keys : List String) (hfailing : failing = none) :
      Effect limiter clock begun failing none none (limiter.recordFailures keys clock)
  | fails {check : Check} (hfailing : failing = some check) :
      Effect limiter clock begun failing (some check) none (limiter.recordFailures check.keys clock)

theorem filter_fails_of_passed {env : Env}
    (h : (checked && users.authenticate env.argon2 check.username check.password) = true) :
    (some check).filter (·.fails env users checked) = none := by
  simp [Option.filter, fails, h]

theorem filter_fails_of_failed {env : Env}
    (h : ¬ (checked && users.authenticate env.argon2 check.username check.password) = true) :
    (some check).filter (·.fails env users checked) = some check := by
  simp [Option.filter, fails, h]

def Stepped (env : Env) (server : Server) (running : Running) (id : Nat) (request : SignRequest)
    (input : Input) (stage : Stage) (next : Server) : Prop :=
  ∃ running' stage', next.running = some running' ∧ running'.requests = running.requests.insert id
    (request, stage') ∧
      Effect running.limiter input.clock (stage.begins running.limiter request input.clock)
        ((stage.check request).filter (·.fails env server.users input.checked))
      (stage.check request) (stage'.check request) running'.limiter

variable {running running' : Running} {id : Nat} {input : Input}

namespace Server

variable {env : Env} {server next : Server} {request : SignRequest} {stage : Stage}

/-- A password is checked after the stage that limits it, and nowhere else. -/
theorem check_of_take {stage' : Stage} {registry : Registry.DeviceRegistry}
    {tokens : EnrollmentTokenStore} {groups : Groups.GroupStore}
    (htake : Take env server id request input stage registry tokens groups stage')
    (hstage : ∀ signed username password, stage ≠ .limitsPassword signed username password) :
    stage'.check request = none := by
  cases htake with
  | goes hgoes =>
    cases hgoes with
    | passwordAdmitted => exact absurd rfl (hstage _ _ _)
    | noPassword =>
      unfold withoutPassword
      split <;> rfl
    | _ => rfl
  | _ => rfl

theorem advance_stepped (h : server.advance env running id request input stage = some next) :
    Stepped env server running id request input stage next := by
  cases stage with
  | limitsPassword signed username password =>
    cases h
    refine ⟨_, _, rfl, rfl, ?_⟩
    dsimp only [Stage.begins]
    split
    · exact .quiet rfl
    · exact .begins rfl rfl
  | verifies signed username password =>
    simp only [advance] at h
    split at h
    · next hpassed =>
      cases h
      exact ⟨_, _, rfl, rfl, .quiet (filter_fails_of_passed hpassed)⟩
    · next hfailed =>
      cases h
      exact ⟨_, .responded _, rfl, rfl, .fails (filter_fails_of_failed hfailed)⟩
  | _ =>
    obtain ⟨running', stage', hrunning, hrequests, -, htake, -, hlimiter⟩ := advance_moved h
    refine ⟨running', stage', hrunning, hrequests, ?_⟩
    rw [check_of_take htake fun _ _ _ h => by cases h]
    rcases hlimiter with hkept | ⟨keys, hrecorded⟩
    · rw [hkept]
      exact .quiet rfl
    · rw [hrecorded]
      exact .records keys rfl

end Server

/-- A step of a login moves it on, with this effect. -/
def Proceeded (env : Env) (port : Port) (running : Running) (id : Nat) (request : LoginRequest)
    (input : Input) (stage : LoginStage) (next : Port) : Prop :=
  ∃ limiter stage', next = { port with
      server := { port.server with running := some { running with limiter } }
      logins := port.logins.insert id (request, stage') } ∧
    Effect running.limiter port.clock
      (stage.begins env port.server.users running.limiter request port.clock)
        ((stage.check request).filter (·.fails env port.server.users input.checked))
      (stage.check request) (stage'.check request) limiter

namespace Port

variable {env : Env} {port next : Port} {request : LoginRequest} {stage : LoginStage}

private theorem proceeded_goto (hrunning : port.server.running = some running) {stage' : LoginStage}
    (heffect : Effect running.limiter port.clock
      (stage.begins env port.server.users running.limiter request port.clock)
      ((stage.check request).filter (·.fails env port.server.users input.checked))
      (stage.check request) (stage'.check request) running.limiter) :
    Proceeded env port running id request input stage (port.goto id request stage') := by
  refine ⟨running.limiter, stage', ?_, heffect⟩
  rw [goto, ← hrunning]

theorem proceed_proceeded (hrunning : port.server.running = some running)
    (h : port.proceed env running id request input stage = some next) :
    Proceeded env port running id request input stage next := by
  cases stage with
  | limits =>
    cases h
    refine proceeded_goto hrunning ?_
    cases hcredentials : request.credentials env with
    | none => exact .quiet rfl
    | some pair =>
      dsimp only
      split
      · exact .quiet rfl
      · next hfree =>
        cases hendpoint : request.endpoint with
        | token =>
          exact .begins (by simp only [LoginStage.begins, hcredentials, hendpoint, if_neg hfree])
            rfl
        | enrollment | toolFile => exact .quiet rfl
  | chooses username secret =>
    cases h
    refine proceeded_goto hrunning ?_
    dsimp only [LoginStage.begins]
    split
    · exact .begins rfl rfl
    · exact .quiet rfl
  | verifies username password =>
    simp only [proceed] at h
    split at h
    · next hpassed =>
      cases h
      exact proceeded_goto hrunning (.quiet (filter_fails_of_passed hpassed))
    · next hfailed =>
      cases h
      exact ⟨_, .answered (.status 401), rfl, .fails (filter_fails_of_failed hfailed)⟩
  | looksUpInvite username secret =>
    simp only [proceed] at h
    split at h
    · cases h
      exact proceeded_goto hrunning (.quiet rfl)
    · cases h
      exact ⟨_, .answered (.status 401), rfl, .records _ rfl⟩
  | serves username =>
    cases h
    exact proceeded_goto hrunning (.quiet rfl)
  | answered answer => cases h

end Port

/-! ### Runs of the port -/

section Runs

variable {begun failing before after : Option Check}

theorem Guarded.effect (h : Guarded limiter inFlight clock failed windows)
    (heffect : Effect limiter clock begun failing before after limiter')
    (hroom : ∀ check ∈ begun, ∀ key ∈ check.keys, limiter.counted key clock + inFlight key <
      limiter.maxFailures)
    (hflight : ∀ key, inFlight' key + counts key before = inFlight key + counts key after) :
    Guarded limiter' inFlight' clock
      (failed ++ (failing.map fun check => { keys := check.keys, clock : Failed }).toList)
      (windows ++ (opened limiter limiter').map fun (key, start) =>
        { key, start, skipped := failed.length }) := by
  cases heffect with
  | quiet hfailing =>
    rw [hfailing, opened_self, List.map_nil]
    simp only [map_none, toList_none, List.append_nil]
    refine h.flight_le fun key => ?_
    have hkey := hflight key
    simp only [counts, any_none, Bool.toNat_false] at hkey
    omega
  | begins hbegun hfailing =>
    rw [hfailing, opened_self, List.map_nil]
    simp only [map_none, toList_none, List.append_nil]
    refine h.begins (hroom _ hbegun) fun key => ?_
    have hkey := hflight key
    rw [counts_some] at hkey
    exact hkey
  | records keys hfailing =>
    rw [hfailing]
    exact h.records (.inl rfl) fun key => (hflight key).le
  | fails hfailing =>
    rw [hfailing]
    refine h.records (.inr rfl) fun key => ?_
    have hkey := hflight key
    rw [counts_some] at hkey
    simp only [map_some, toList_some, List.countP_singleton, decide_eq_true_eq]
    exact hkey.le

end Runs

namespace Port

variable (env : Env) (port : Port)

def beginning : PortAction → Option Check
  | .enroll (.advance id _) => do
      let running ← port.server.running
      let (request, stage) ← running.requests[id]?
      stage.begins running.limiter request port.clock
  | .proceed id _ => do
      let running ← port.server.running
      let (request, stage) ← port.logins[id]?
      stage.begins env port.server.users running.limiter request port.clock
  | _ => none

/-- The password check whose client goes away in a step. -/
def abandoned : PortAction → Option Check
  | .enroll (.drop id) => port.enrollCheck id
  | .leave id => port.loginCheck id
  | _ => none

/-- A check starts only while the failures counted for each of its keys leave room for it and for
those in flight, and no client goes away while its check is running. -/
def Roomy (action : PortAction) : Prop :=
  (∀ check ∈ port.beginning env action, ∀ running ∈ port.server.running, ∀ key ∈ check.keys,
    running.limiter.counted key port.clock + port.inFlight key < running.limiter.maxFailures) ∧
  port.abandoned action = none

instance (action : PortAction) : Decidable (port.Roomy env action) :=
  inferInstanceAs (Decidable (_ ∧ _))

variable {env port}

theorem inFlight_of_running {running : Running} (hrunning : port.server.running = some running)
    (key : String) :
    port.inFlight key = checksFor (fun entry => entry.2.check entry.1) key running.requests +
      checksFor (fun entry => entry.2.check entry.1) key port.logins := by
  rw [inFlight, hrunning]
  rfl

theorem inFlight_of_stopped (hstopped : port.server.running = none) (key : String) :
    port.inFlight key = checksFor (fun entry => entry.2.check entry.1) key port.logins := by
  rw [inFlight, hstopped]
  exact Nat.zero_add _

section Flight

variable {next : Port} {key : String}

theorem inFlight_insert {request : SignRequest} (stage : Stage)
    (hrunning : port.server.running = some running)
    (hrunning' : next.server.running = some running')
    (hrequests : running'.requests = running.requests.insert id (request, stage))
    (hlogins : next.logins = port.logins) :
    next.inFlight key + counts key (port.enrollCheck id) = port.inFlight key + counts key
    (stage.check request) := by
  rw [inFlight_of_running hrunning, inFlight_of_running hrunning', hrequests, hlogins,
    enrollCheck, hrunning]
  have hcount :=
    checksFor_insert (fun entry : SignRequest × Stage => entry.2.check entry.1) key running.requests
      id (request, stage)
  dsimp only [bind_eq_bind, bind_some] at hcount ⊢
  omega

theorem inFlight_insert_login {request : LoginRequest} (stage : LoginStage)
    (hrunning : port.server.running = some running)
    (hrunning' : next.server.running = some running')
    (hrequests : running'.requests = running.requests)
    (hlogins : next.logins = port.logins.insert id (request, stage)) :
    next.inFlight key + counts key (port.loginCheck id) = port.inFlight key + counts key
    (stage.check request) := by
  rw [inFlight_of_running hrunning, inFlight_of_running hrunning', hrequests, hlogins, loginCheck]
  have hcount := checksFor_insert (fun entry : LoginRequest × LoginStage =>
    entry.2.check entry.1) key port.logins id (request, stage)
  dsimp only [bind_eq_bind] at hcount ⊢
  omega

theorem inFlight_erase (hrunning : port.server.running = some running)
    (hrunning' : next.server.running = some running')
    (hrequests : running'.requests = running.requests.erase id)
    (hlogins : next.logins = port.logins) :
    next.inFlight key + counts key (port.enrollCheck id) = port.inFlight key := by
  rw [inFlight_of_running hrunning, inFlight_of_running hrunning', hrequests, hlogins,
    enrollCheck, hrunning]
  have hcount :=
    checksFor_erase (fun entry : SignRequest × Stage =>
      entry.2.check entry.1) key running.requests id
  dsimp only [bind_eq_bind, bind_some] at hcount ⊢
  omega

/-- What a step of the port does while the server runs and the clock stands. -/
structure Moved (env : Env) (port : Port) (action : PortAction) (next : Port)
    (running running' : Running) (before after : Option Check) : Prop where
  running_eq : port.server.running = some running
  running_eq' : next.server.running = some running'
  clock_eq : next.clock = port.clock
  detached_eq : next.detached = port.detached
  effect : Effect running.limiter port.clock (port.beginning env action)
    (port.failing env action) before after running'.limiter
  flight : ∀ key, next.inFlight key + Check.counts key before = port.inFlight key +
    Check.counts key after

/-- The step moves a check on, or takes one up or away. -/
def Moves (env : Env) (port : Port) (action : PortAction) (next : Port) : Prop :=
  ∃ running running' before after, Moved env port action next running running' before after

theorem moved_advance {input : Input}
    (h : port.step env (.enroll (.advance id input)) = some next) :
    Moves env port (.enroll (.advance id input)) next := by
  obtain ⟨server, hserver, rfl⟩ := map_eq_some_iff.1 h
  obtain ⟨running, request, stage, hrunning, hrequest, hadvance⟩ := Server.step_advance hserver
  obtain ⟨running', stage', hrunning', hrequests, heffect⟩ := Server.advance_stepped hadvance
  have hcheck : port.enrollCheck id = stage.check request := by
    simp [enrollCheck, hrunning, hrequest]
  refine ⟨running, running', _, _, hrunning, hrunning', rfl, rfl, ?_, fun key =>
    inFlight_insert _ hrunning hrunning' hrequests rfl⟩
  rw [beginning, failing, hcheck, hrunning]
  simpa [hrequest] using heffect

theorem moved_proceed {input : Input} (h : port.step env (.proceed id input) = some next) :
    Moves env port (.proceed id input) next := by
  simp only [step] at h
  split at h
  · next running request stage hrunning hlogin =>
    obtain ⟨limiter, stage', rfl, heffect⟩ := proceed_proceeded hrunning h
    have hcheck : port.loginCheck id = stage.check request := by
      simp [loginCheck, hlogin]
    refine ⟨running, _, _, _, hrunning, rfl, rfl, rfl, ?_, fun key =>
      inFlight_insert_login _ hrunning rfl rfl rfl⟩
    rw [beginning, failing, hcheck, hrunning]
    simpa [hlogin] using heffect
  · cases h

theorem moved_quiet {before : Option Check} (hrunning : port.server.running = some running)
    (hrunning' : next.server.running = some running') (hclock : next.clock = port.clock)
    (hdetached : next.detached = port.detached) (hlimiter : running'.limiter = running.limiter)
    (hfailing : port.failing env action = none)
    (hflight : ∀ key, next.inFlight key + counts key before = port.inFlight key) :
    Moved env port action next running running' before none where
  running_eq := hrunning
  running_eq' := hrunning'
  clock_eq := hclock
  detached_eq := hdetached
  effect := by
    rw [hlimiter, hfailing]
    exact .quiet rfl
  flight := hflight

theorem moved_receive {request : SignRequest}
    (h : port.step env (.enroll (.receive id request)) = some next) :
    Moves env port (.enroll (.receive id request)) next := by
  obtain ⟨server, hserver, rfl⟩ := map_eq_some_iff.1 h
  obtain ⟨running, hrunning, -, rfl⟩ := Server.step_receive hserver
  refine ⟨running, _, port.enrollCheck id, none, moved_quiet hrunning rfl rfl rfl rfl rfl fun key =>
    ?_⟩
  exact inFlight_insert .received hrunning rfl rfl rfl

theorem moved_login {request : LoginRequest} (h : port.step env (.login id request) = some next) :
    Moves env port (.login id request) next := by
  simp only [step] at h
  split at h
  · next running hrunning _ =>
    cases h
    refine ⟨running, _, port.loginCheck id, none, moved_quiet hrunning hrunning rfl rfl rfl rfl
      fun key => ?_⟩
    exact inFlight_insert_login .limits hrunning hrunning rfl rfl
  · cases h

theorem moved_drop (hkept : port.abandoned (.enroll (.drop id)) = none)
    (h : port.step env (.enroll (.drop id)) = some next) :
    Moves env port (.enroll (.drop id)) next := by
  obtain ⟨server, hserver, rfl⟩ := map_eq_some_iff.1 h
  obtain ⟨running, hrunning, rfl⟩ := Server.step_drop hserver
  have hcheck : port.enrollCheck id = none := hkept
  refine ⟨running, _, _, none, moved_quiet hrunning rfl rfl ?_ rfl rfl
    fun key => inFlight_erase hrunning rfl rfl rfl⟩
  rw [hcheck]
  exact List.append_nil _

theorem moved_leave (hrunning : port.server.running = some running)
    (hkept : port.abandoned (.leave id) = none) (h : port.step env (.leave id) = some next) :
    Moves env port (.leave id) next := by
  cases h
  have hcheck : port.loginCheck id = none := hkept
  refine ⟨running, _, port.loginCheck id, none, moved_quiet hrunning hrunning rfl ?_ rfl rfl
    fun key => ?_⟩
  · rw [hcheck]
    exact List.append_nil _
  · simp only [inFlight, hrunning, loginCheck]
    have hcount := checksFor_erase (fun entry : LoginRequest × LoginStage =>
      entry.2.check entry.1) key port.logins id
    dsimp only [bind_eq_bind] at hcount ⊢
    omega

theorem moved_admin {call : AdminCall} (hrunning : port.server.running = some running)
    (h : port.step env (.enroll (.admin call)) = some next) :
    Moves env port (.enroll (.admin call)) next := by
  obtain ⟨server, hserver, rfl⟩ := map_eq_some_iff.1 h
  have hkept : server.running = some running := (Server.admin_running hserver).trans hrunning
  refine ⟨running, running, none, none, moved_quiet hrunning hkept rfl rfl rfl rfl fun key => ?_⟩
  rw [inFlight_of_running hrunning, inFlight_of_running hkept]
  rfl

end Flight

end Port

/-- What holds of the port, its failed checks and its windows along a run. -/
structure Ledger.Inv (ledger : Ledger) : Prop where
  detached : ledger.port.detached = []
  stopped : ledger.port.server.running = none → ∀ key, ledger.port.inFlight key = 0
  guarded : ∀ running ∈ ledger.port.server.running,
    Guarded running.limiter ledger.port.inFlight ledger.port.clock ledger.failed ledger.windows

namespace Ledger

variable {env : Env} {ledger next : Ledger}

theorem Inv.moved {port : Port} (h : Inv ledger) (hroomy : ledger.port.Roomy env action)
    (hstep : ledger.port.step env action = some port) (hnext : ledger.step env action = some next)
    (hmoves : Port.Moves env ledger.port action port) : Inv next := by
  obtain ⟨running, running', before, after, hmoved⟩ := hmoves
  rw [Ledger.step, hstep, map_some, Option.some.injEq, hmoved.running_eq,
    hmoved.running_eq'] at hnext
  subst hnext
  refine ⟨hmoved.detached_eq.trans h.detached, fun hstopped => ?_, fun r hr => ?_⟩
  · rw [hmoved.running_eq'] at hstopped
    cases hstopped
  · cases hmoved.running_eq'.symm.trans hr
    rw [hmoved.clock_eq]
    exact (h.guarded running hmoved.running_eq).effect hmoved.effect
      (fun check hcheck => hroomy.1 check hcheck running hmoved.running_eq) hmoved.flight

theorem inv_of_stopped {port : Port} (hstep : ledger.port.step env action = some port)
    (hstopped : port.server.running = none) (hdetached : port.detached = [])
    (hflight : ∀ key, port.inFlight key = 0) (hnext : ledger.step env action = some next) :
    Inv next := by
  rw [Ledger.step, hstep, map_some, Option.some.injEq] at hnext
  subst hnext
  refine ⟨hdetached, fun _ => hflight, fun running hrunning => ?_⟩
  rw [hstopped] at hrunning
  cases hrunning

theorem guarded_fresh {limiter : AuthLimiter} {inFlight : String → Nat} {clock : Nat}
    {failed : List Failed} (hempty : limiter.failures = ∅) (hsmall : limiter.maxFailures ≤ maxCount)
    (hflight : ∀ key, inFlight key = 0) : Guarded limiter inFlight clock failed [] where
  small := hsmall
  room key := (hflight key).le.trans (Nat.zero_le _)
  past key entry hentry := by
    rw [hempty] at hentry
    simp at hentry
  skipped _ hw := absurd hw List.not_mem_nil
  bounded _ hw := absurd hw List.not_mem_nil
  live _ hw := absurd hw List.not_mem_nil

theorem Inv.boot {random : String} (h : Inv ledger)
    (hnext : ledger.step env (.enroll (.boot random)) = some next) :
    Inv next := by
  obtain ⟨port, hstep, rfl⟩ := map_eq_some_iff.1 hnext
  simp only [Port.step, Action.at, Server.step] at hstep
  split at hstep
  · cases hstep
  · next hstopped =>
    cases hstep
    refine ⟨h.detached, nofun, fun running hrunning => ?_⟩
    cases hrunning
    rw [hstopped]
    have hsmall : ({} : AuthLimiter).maxFailures ≤ maxCount := by decide
    refine guarded_fresh rfl hsmall fun key => ?_
    have hidle := h.stopped hstopped key
    rw [inFlight, hstopped] at hidle
    exact hidle

private theorem Inv.tick {elapsed : Nat} (h : Inv ledger)
    (hnext : ledger.step env (.tick elapsed) = some next) : Inv next := by
  obtain ⟨port, hstep, rfl⟩ := map_eq_some_iff.1 hnext
  cases hstep
  refine ⟨h.detached, h.stopped, fun running hrunning => ?_⟩
  have hrunning' : ledger.port.server.running = some running := hrunning
  have hticked := (h.guarded running hrunning).ticks (Nat.le_add_right ledger.port.clock elapsed)
  simp only [failing, map_none, toList_none, List.append_nil, hrunning', opened_self,
    List.map_nil]
  exact hticked

theorem Inv.step (h : Inv ledger) (hroomy : ledger.port.Roomy env action)
    (hnext : ledger.step env action = some next) : Inv next := by
  obtain ⟨port, hstep, -⟩ := map_eq_some_iff.1 hnext
  have hmoves := h.moved hroomy hstep hnext
  cases action with
  | enroll action =>
    cases action with
    | boot random => exact h.boot hnext
    | crash =>
      obtain rfl := Option.some.inj hstep
      exact inv_of_stopped hstep rfl rfl (fun _ => rfl) hnext
    | receive id request => exact hmoves (moved_receive hstep)
    | advance id input => exact hmoves (moved_advance hstep)
    | drop id => exact hmoves (moved_drop hroomy.2 hstep)
    | admin call =>
      cases hrunning : ledger.port.server.running with
      | some running => exact hmoves (moved_admin hrunning hstep)
      | none =>
        obtain ⟨server, hserver, rfl⟩ := map_eq_some_iff.1 hstep
        have hstopped : server.running = none := (Server.admin_running hserver).trans hrunning
        refine inv_of_stopped hstep hstopped h.detached (fun key => ?_) hnext
        rw [inFlight_of_stopped hstopped, ← inFlight_of_stopped hrunning]
        exact h.stopped hrunning key
  | login id request => exact hmoves (moved_login hstep)
  | proceed id input => exact hmoves (moved_proceed hstep)
  | leave id =>
    cases hrunning : ledger.port.server.running with
    | some running => exact hmoves (moved_leave hrunning hroomy.2 hstep)
    | none =>
      obtain rfl := Option.some.inj hstep
      have hcheck : ledger.port.loginCheck id = none := hroomy.2
      refine inv_of_stopped hstep hrunning ?_ (fun key => ?_) hnext
      · rw [hcheck]
        exact (List.append_nil _).trans h.detached
      · have hidle := h.stopped hrunning key
        have herase := checksFor_erase (fun entry : LoginRequest × LoginStage =>
          entry.2.check entry.1) key ledger.port.logins id
        rw [inFlight_of_stopped hrunning] at hidle
        rw [inFlight, hrunning]
        show 0 + checksFor _ key (ledger.port.logins.erase id) = 0
        omega
  | finish check =>
    simp only [Port.step, h.detached] at hstep
    cases hstep
  | tick elapsed => exact h.tick hnext

/-- A server that has just started, with a limiter of any configuration. -/
def start (port : Port) (bootstrap : Option String) (maxFailures : UInt32)
    (window maxTrackedKeys : Nat) : Ledger :=
  { port := { port with
      server := { port.server with
        running := some
          { bootstrap, limiter := { maxFailures := maxFailures.toNat, window, maxTrackedKeys } } }
      logins := ∅
      detached := [] } }

theorem inv_start (port : Port) (bootstrap : Option String) (maxFailures : UInt32)
    (window maxTrackedKeys : Nat) :
    Inv (start port bootstrap maxFailures window maxTrackedKeys) where
  detached := rfl
  stopped := nofun
  guarded running hrunning := by
    cases hrunning
    exact guarded_fresh rfl (Nat.le_pred_of_lt maxFailures.toNat_lt) fun _ => rfl

instance (ledger : Ledger) : Decidable ledger.Bounded :=
  inferInstanceAs (Decidable (∀ running ∈ ledger.port.server.running, ∀ w ∈ ledger.windows, _ ≤ _))

/-- In every run whose steps all have room for the checks they start, no window of a key has more
failed checks than the limit. -/
theorem failed_checks_bounded (env : Env) (port : Port) (bootstrap : Option String)
    (maxFailures : UInt32) (window maxTrackedKeys : Nat) {actions : List PortAction}
    {ledger : Ledger}
    (hrun : run (Ledger.step env) (start port bootstrap maxFailures window maxTrackedKeys) actions =
      some ledger) (hroomy :
      Along (Ledger.step env) (fun ledger action => ledger.port.Roomy env action)
      (start port bootstrap maxFailures window maxTrackedKeys) actions) : ledger.Bounded := by
  have hinv : Inv ledger := run_invariant Inv hrun hroomy (inv_start ..) fun _ _ _ h hroomy hstep =>
    h.step hroomy hstep
  exact fun running hrunning => (hinv.guarded running hrunning).bounded

end Ledger

namespace Guessing

def env : Env := .signing fun _ _ => .error "no request"

/-- One account, with the limiter as `App::bind` makes it. -/
def start : Ledger :=
  .start { server := { users := .loadOrCreate [.created "alpha" "s:right" 0 []] } } none
    10 300000 10000

def begin (id : Nat) : List PortAction :=
  [.login id { ipKey := "ip:10.0.0.1", endpoint := .token "alpha" "guess" }, .proceed id {}]

def actions : List PortAction :=
  (List.range 11).flatMap begin ++ (List.range 11).map (.proceed · {})

end Guessing

/-- All of them pass the limiter before the first one has failed. -/
theorem guesses_side_by_side :
    ∃ ledger, run (Ledger.step Guessing.env) Guessing.start Guessing.actions = some ledger ∧
    ¬ ledger.Bounded := by
  decide +kernel

/-- One after the other ten fail, and the eleventh is refused. -/
theorem guesses_in_turn :
    ∃ ledger, run (Ledger.step Guessing.env) Guessing.start
        ((List.range 11).flatMap fun id => Guessing.begin id ++ if id < 10 then [.proceed id {}]
          else []) = some ledger ∧
      ledger.failed.length = 10 ∧ ledger.Bounded := by
  refine exists_end_and (fun _ => True) (by decide +kernel) fun ledger hrun _ _ => ?_
  exact Ledger.failed_checks_bounded _ _ _ _ _ _ hrun (by decide +kernel)

end MicroTak.Enrollment
