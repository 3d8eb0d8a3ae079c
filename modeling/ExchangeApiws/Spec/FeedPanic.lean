import ExchangeApiws.Native.KucoinWs
import ExchangeApiws.Spec.Supervisor

/-!
# Counters and timers that panic

`run_feed` counts short sessions and `run_feed_supervised` counts exhausted cycles, both before
they compare the counter with its maximum, and the recv loop hands the ping interval to a timer
that panics on a zero period. A maximum of `u32::MAX` never stops the counter before it
overflows, and a ping interval of less than a second comes to zero seconds.

## Key results

- `Feed.Move.withinBudget`: with a budget that can be exceeded, no step panics
- `reaches_exhausted`, `reaches_cycle`: refused connections use up every budget
- `no_panic_iff`: which configurations never panic, in runs of any length
-/

namespace ExchangeApiws.Native.Runner

open TransitionSystem

variable {M : Type} {connector : Connector M} {endpoint : WsFeedEndpoint}

/-! ## Configurations that never panic -/

section Safe

variable {config : WsRunnerConfig}

/-- The call has not panicked and its counter is within the budget. -/
structure Feed.WithinBudget (config : WsRunnerConfig) (feed : Feed M) : Prop where
  notPanicked : feed.phase ≠ .panicked
  attempts : feed.attempts ≤ config.maxReconnectAttempts

/-- The end of a session keeps the counter within the budget: beyond it the call returns. -/
theorem Feed.WithinBudget.endSession {feed : Feed M} (h : feed.WithinBudget config)
    (hmax : config.maxReconnectAttempts ≠ u32Max) (url : String) (now : ℕ)
    (outcome : SessionOutcome) :
    (feed.endSession config url now outcome).1.WithinBudget config := by
  have hcount : feed.attempts ≠ u32Max := fun heq => hmax (eq_u32Max_of_le (heq ▸ h.attempts))
  cases outcome with
  | shutdownRequested | receiverDropped =>
    exact ⟨by simp [Feed.endSession, afterSession], h.attempts⟩
  | disconnected =>
    simp only [Feed.endSession, afterSession]
    by_cases hstable : STABLE_SESSION_SECS ≤ elapsedSecs feed.sessionStart now
    · rw [if_pos hstable]
      exact ⟨by simp, UInt32.zero_le⟩
    · rw [if_neg hstable, if_neg hcount]
      by_cases hexhausted : config.maxReconnectAttempts < feed.attempts + 1
      · rw [if_pos hexhausted]
        exact ⟨by simp, h.attempts⟩
      · rw [if_neg hexhausted]
        exact ⟨by simp, UInt32.not_lt.mp hexhausted⟩

/-- With a ping period the recv loop is entered without a panic. -/
theorem Feed.WithinBudget.subscribe {feed : Feed M} (h : feed.WithinBudget config)
    (hping : config.pingIntervalSecs ≠ 0) (now : ℕ) (subs : List String) :
    (feed.subscribe config now subs).WithinBudget config := by
  cases subs with
  | nil =>
    rw [Feed.subscribe, Feed.enterLoop, if_neg hping]
    exact ⟨by simp, h.attempts⟩
  | cons sub rest => exact ⟨by simp [Feed.subscribe], h.attempts⟩

/-- Delivering messages leaves the counter alone. -/
theorem Feed.WithinBudget.deliver {feed : Feed M} (h : feed.WithinBudget config) (msgs : List M) :
    (feed.deliver msgs).WithinBudget config := by
  cases msgs with
  | nil => exact ⟨by simp [Feed.deliver], h.attempts⟩
  | cons msg rest => exact ⟨by simp [Feed.deliver], h.attempts⟩

/-- Parsing a frame leaves the counter alone. -/
theorem Feed.WithinBudget.parse {feed : Feed M} (h : feed.WithinBudget config) (now : ℕ)
    (text : String) : (feed.parse connector now text).WithinBudget config := by
  unfold Feed.parse
  split
  · exact h.deliver _
  · exact ⟨by simp, h.attempts⟩

/-- With a ping period and a budget that the counter can exceed, no step panics. -/
theorem Feed.Move.withinBudget {feed : Feed M} {watch : Watch} {now : ℕ}
    {after : Feed M × List (Output M)} (h : feed.WithinBudget config)
    (hping : config.pingIntervalSecs ≠ 0) (hmax : config.maxReconnectAttempts ≠ u32Max)
    (hmove : feed.Move config connector endpoint now watch after) :
    after.1.WithinBudget config := by
  cases hmove with
  | ended hends => exact h.endSession hmax _ _ _
  | connected | authenticated | subscribed => exact h.subscribe hping _ _
  | text hphase hresponse =>
    have hreceived : ({ feed with lastFrameAt := now } : Feed M).WithinBudget config :=
      ⟨h.notPanicked, h.attempts⟩
    exact hreceived.parse _ _
  | replied => exact h.parse _ _
  | delivered => exact h.deliver _
  | observed phase hphase hnext =>
    rcases hnext with rfl | rfl
    · exact ⟨by simp, h.attempts⟩
    · exact ⟨by simp, h.attempts⟩
  | frame phase hphase hframe hnext =>
    rcases hnext with rfl | rfl
    · exact ⟨by simp, h.attempts⟩
    · exact ⟨by simp, h.attempts⟩
  | pingDue nextPing phase hphase hnext =>
    rcases hnext with rfl | ⟨ping, rfl⟩
    · exact ⟨by simp, h.attempts⟩
    · exact ⟨by simp, h.attempts⟩
  | slept | connect | authenticate | textToAnswer | ponged | pinged =>
    exact ⟨by simp [Feed.connect], h.attempts⟩

/-- No run of `run_feed` panics under such a configuration. -/
theorem runFeed_withinBudget (hping : config.pingIntervalSecs ≠ 0)
    (hmax : config.maxReconnectAttempts ≠ u32Max) {now seen : ℕ} {watch : Watch}
    {moves : List (ℕ × RunAction)} {s : FeedState M}
    (hrun : run (runFeedStep config connector endpoint) (.start now watch seen) moves = some s) :
    s.feed.WithinBudget config := by
  apply runFeed_invariant (I := fun feed _ => feed.WithinBudget config) _ hrun
    ⟨by simp [FeedState.start, Feed.start], UInt32.zero_le⟩
  intro feed log now watch action after h hafter
  exact (Feed.step_move hafter).withinBudget h hping hmax

end Safe

/-- The supervisor has not panicked, its counter is within the budget until it returns, and so
    is the counter of its inner call. -/
structure SupervisedState.WithinBudget (config : SupervisedConfig) (s : SupervisedState M) :
    Prop where
  notPanicked : s.phase ≠ .panicked
  inner : ∀ endpoint feed, s.phase = .feeding endpoint feed → feed.WithinBudget config.runner
  cycle : (∃ result, s.phase = .returned result) ∨ s.cycle ≤ config.maxRefreshCycles

/-- With budgets that the counters can exceed, no step of the supervisor panics. -/
theorem SupervisedState.Move.withinBudget {config : SupervisedConfig} {s : SupervisedState M}
    {now : ℕ} {action : SupervisedAction}
    {next : SupervisedPhase M × UInt32 × List (Output M)} (h : s.WithinBudget config)
    (hping : config.runner.pingIntervalSecs ≠ 0)
    (hmax : config.runner.maxReconnectAttempts ≠ u32Max)
    (hcycles : config.maxRefreshCycles ≠ u32Max)
    (hmove : s.Move config connector now action next) : (s.after now next).WithinBudget config := by
  have hcycle : (∀ result, s.phase ≠ .returned result) → s.cycle ≤ config.maxRefreshCycles := by
    intro hopen
    exact h.cycle.resolve_left fun hreturned => hopen _ hreturned.choose_spec
  cases hmove with
  | @fed endpoint feed action after hphase hstep =>
    have hbudget := (Feed.step_move hstep).withinBudget (h.inner endpoint feed hphase) hping hmax
    have hle := hcycle (by simp [hphase])
    unfold SupervisedState.after
    refine ⟨?_, ?_, .inr hle⟩
    · dsimp only
      unfold supervisedPhase
      split
      case h_4 hpanic => exact absurd hpanic hbudget.notPanicked
      all_goals simp
    · intro endpoint' feed' hfeeding
      rw [supervisedPhase_eq_feeding hfeeding]
      exact hbudget
  | overflow hphase hover =>
    -- the counter has not reached a budget below the largest
    have hle : s.cycle ≤ config.maxRefreshCycles := hcycle (by simp [hphase])
    exact absurd (eq_u32Max_of_le (hover ▸ hle)) hcycles
  | outOfBudget => exact ⟨nofun, nofun, .inl ⟨_, rfl⟩⟩
  | inBudget phase hphase hover hwithin hnext =>
    refine ⟨?_, ?_, .inr (UInt32.not_lt.mp hwithin)⟩
    · rcases hnext with rfl | ⟨deadline, rfl⟩ <;> exact nofun
    · rcases hnext with rfl | ⟨deadline, rfl⟩ <;> exact nofun
  | observed phase hphase hnext =>
    refine ⟨?_, ?_, .inr (hcycle (by simp [hphase]))⟩
    · rcases hnext with rfl | rfl <;> exact nofun
    · rcases hnext with rfl | rfl <;> exact nofun
  | delayOver hphase | bootstrap hphase | refresh hphase =>
    exact ⟨nofun, nofun, .inr (hcycle (by simp [hphase]))⟩
  | refreshed endpoint hphase =>
    refine ⟨nofun, ?_, .inr (hcycle (by rcases hphase with h | h <;> simp [h]))⟩
    intro endpoint' feed hfeeding
    cases hfeeding
    exact ⟨by simp [Feed.start], UInt32.zero_le⟩
  | refreshFailed => exact ⟨nofun, nofun, .inl ⟨_, rfl⟩⟩

/-- No run of `run_feed_supervised` panics under such a configuration. -/
theorem supervised_withinBudget {config : SupervisedConfig}
    (hping : config.runner.pingIntervalSecs ≠ 0)
    (hmax : config.runner.maxReconnectAttempts ≠ u32Max)
    (hcycles : config.maxRefreshCycles ≠ u32Max) {now seen : ℕ} {watch : Watch}
    {moves : List (ℕ × SupervisedAction)} {s : SupervisedState M}
    (hrun : run (supervisedStep config connector) (.start now watch seen) moves = some s) :
    s.WithinBudget config := by
  apply run_invariant _ (I := fun t : SupervisedState M => t.WithinBudget config) _ hrun
    ⟨nofun, nofun, .inr UInt32.zero_le⟩
  intro t move t' h hstep
  rcases supervisedStep_cases hstep with ⟨value, -, rfl⟩ | ⟨next, hmove, rfl⟩
  · exact ⟨h.notPanicked, h.inner, h.cycle⟩
  · exact hmove.withinBudget h hping hmax hcycles

/-! ## Refused connections -/

/-- A step of the task alone: nothing is sent on the watch. -/
def feedStep (config : WsRunnerConfig) (connector : Connector M) (endpoint : WsFeedEndpoint)
    (watch : Watch) (p : ℕ × Feed M) (move : ℕ × FeedAction) : Option (ℕ × Feed M) :=
  (p.2.step config connector endpoint (p.1 + move.1) watch move.2).map fun after =>
    (p.1 + move.1, after.1)

/-- What the task reaches alone, a run of `run_feed` reaches. -/
theorem runFeed_of_feedStep {config : WsRunnerConfig} {s : FeedState M} {p : ℕ × Feed M}
    (h : Reaches (feedStep config connector endpoint s.watch) (s.now, s.feed) p) :
    ∃ s', Reaches (runFeedStep config connector endpoint) s s' ∧ s'.feed = p.2 := by
  obtain ⟨moves, hrun⟩ := h
  induction moves generalizing s with
  | nil =>
    cases hrun
    exact ⟨s, .refl _ s, rfl⟩
  | cons move moves ih =>
    obtain ⟨q, hq, hrest⟩ := (run_cons_eq_some _).mp hrun
    obtain ⟨after, hafter, rfl⟩ := Option.map_eq_some_iff.mp hq
    have hstep : runFeedStep config connector endpoint s (move.1, .feed move.2) =
        some { s with now := s.now + move.1, feed := after.1, log := s.log ++ after.2 } := by
      simp only [runFeedStep, hafter, Option.map_some]
    obtain ⟨s', hs', hfeed⟩ := ih (s := { s with
      now := s.now + move.1, feed := after.1, log := s.log ++ after.2 }) hrest
    exact ⟨s', .trans _ ⟨[_], (run_cons_eq_some _).mpr ⟨_, hstep, rfl⟩⟩ hs', hfeed⟩

/-- A call that makes a step is not over. -/
theorem supervisedPhase_of_step {config : WsRunnerConfig} {feed : Feed M} {now : ℕ}
    {watch : Watch} {action : FeedAction} {after : Feed M × List (Output M)}
    (hstep : feed.step config connector endpoint now watch action = some after) :
    supervisedPhase endpoint feed = .feeding endpoint feed := by
  have hover : ¬ ((∃ result, feed.phase = .returned result) ∨ feed.phase = .panicked) := by
    intro hover
    rw [Feed.step_over hover] at hstep
    cases hstep
  rw [not_or, not_exists] at hover
  unfold supervisedPhase
  split
  · exact absurd ‹_› (hover.1 _)
  · exact absurd ‹_› (hover.1 _)
  · exact absurd ‹_› (hover.1 _)
  · exact absurd ‹_› hover.2
  · rfl

/-- And so does the inner call of a supervisor. -/
theorem supervised_of_feedStep (config : SupervisedConfig) {s : SupervisedState M}
    {feed : Feed M} {p : ℕ × Feed M} (hphase : s.phase = supervisedPhase endpoint feed)
    (h : Reaches (feedStep config.runner connector endpoint s.watch) (s.now, feed) p) :
    ∃ s', Reaches (supervisedStep config connector) s s' ∧
      s'.phase = supervisedPhase endpoint p.2 ∧ s'.cycle = s.cycle ∧ s'.watch = s.watch ∧
      s'.seen = s.seen := by
  obtain ⟨moves, hrun⟩ := h
  induction moves generalizing s feed with
  | nil =>
    cases hrun
    exact ⟨s, .refl _ s, hphase, rfl, rfl, rfl⟩
  | cons move moves ih =>
    obtain ⟨q, hq, hrest⟩ := (run_cons_eq_some _).mp hrun
    obtain ⟨after, hafter, rfl⟩ := Option.map_eq_some_iff.mp hq
    have hfeeding : s.phase = .feeding endpoint feed :=
      hphase.trans (supervisedPhase_of_step hafter)
    have hstep : supervisedStep config connector s (move.1, .feed move.2) =
        some (s.after (s.now + move.1) (supervisedPhase endpoint after.1, s.cycle, after.2)) := by
      simp only [supervisedStep, SupervisedState.act, hfeeding, hafter, Option.map_some]
      rfl
    obtain ⟨s', hs', hrest'⟩ := ih (s := s.after (s.now + move.1)
      (supervisedPhase endpoint after.1, s.cycle, after.2)) rfl hrest
    exact ⟨s', .trans _ ⟨[_], (run_cons_eq_some _).mpr ⟨_, hstep, rfl⟩⟩ hs', hrest'⟩

section Refused

variable {config : WsRunnerConfig} {watch : Watch}

/-- A step of the call is one of the system that forgets its outputs. -/
theorem feedStep_eq_some {p : ℕ × Feed M} {dt : ℕ} {action : FeedAction}
    (after : Feed M × List (Output M))
    (h : p.2.step config connector endpoint (p.1 + dt) watch action = some after) :
    feedStep config connector endpoint watch p (dt, action) = some (p.1 + dt, after.1) := by
  rw [feedStep, h, Option.map_some]

variable (connector endpoint config watch)

/-- From the head of the loop a connection is attempted, after a sleep if need be. -/
theorem reaches_connecting {p : ℕ × Feed M} (hphase : p.2.phase = .loopTop) :
    ∃ now, Reaches (feedStep config connector endpoint watch) p
      (now, { p.2 with phase := .connecting, sessionStart := now }) := by
  by_cases hcount : 0 < p.2.attempts
  · -- the sleep lasts until its deadline
    let delay := backoffDelay config p.2.attempts
    let asleep : Feed M := { p.2 with phase := .backoff (p.1 + 0 + nanos delay) }
    have hsleep : feedStep config connector endpoint watch p (0, .iterate) =
        some (p.1 + 0, asleep) :=
      feedStep_eq_some (asleep, [.sleep delay]) (by
        simp [Feed.step, hphase, hcount, asleep, delay])
    have hwake : feedStep config connector endpoint watch (p.1 + 0, asleep)
        (nanos delay, .wake) = some (p.1 + 0 + nanos delay,
          (asleep.connect (p.1 + 0 + nanos delay) endpoint.url).1) :=
      feedStep_eq_some _ (by simp [Feed.step, asleep])
    exact ⟨p.1 + 0 + nanos delay, [_, _], (run_cons_eq_some _).mpr ⟨_, hsleep,
      (run_cons_eq_some _).mpr ⟨_, hwake, rfl⟩⟩⟩
  · have hconnect : feedStep config connector endpoint watch p (0, .iterate) =
        some (p.1 + 0, (p.2.connect (p.1 + 0) endpoint.url).1) :=
      feedStep_eq_some _ (by simp [Feed.step, hphase, hcount])
    exact ⟨p.1 + 0, [_], (run_cons_eq_some _).mpr ⟨_, hconnect, rfl⟩⟩

/-- What a refused connection comes to, by the counter. -/
structure Refusal (config : WsRunnerConfig) (attempts : UInt32) (feed : Feed M) : Prop where
  overflow : attempts = u32Max → feed.phase = .panicked
  exhausted : attempts ≠ u32Max → config.maxReconnectAttempts < attempts + 1 →
    ∃ url attempts, feed.phase = .returned (.error (.wsDisconnected url attempts))
  again : attempts ≠ u32Max → ¬ config.maxReconnectAttempts < attempts + 1 →
    feed.phase = .loopTop ∧ feed.attempts = attempts + 1

/-- A moment is no second after itself. -/
theorem elapsedSecs_self (now : ℕ) : elapsedSecs now now = 0 := by
  rw [elapsedSecs, Nat.sub_self, Nat.zero_div]
  rfl

/-- From the top of the loop a refused connection is reached, whatever the configuration. -/
theorem reaches_refusal {p : ℕ × Feed M} (hphase : p.2.phase = .loopTop) :
    ∃ q : ℕ × Feed M, Reaches (feedStep config connector endpoint watch) p q ∧
      Refusal config p.2.attempts q.2 := by
  obtain ⟨now, hreach⟩ := reaches_connecting connector endpoint config watch hphase
  let connecting : Feed M := { p.2 with phase := .connecting, sessionStart := now }
  have hfail : feedStep config connector endpoint watch (now, connecting) (0, .connectFailed) =
      some (now, (connecting.endSession config endpoint.url now .disconnected).1) :=
    feedStep_eq_some (p := (now, connecting)) _ (by simp [Feed.step, connecting])
  refine ⟨_, hreach.trans _ ⟨[_], (run_cons_eq_some _).mpr ⟨_, hfail, rfl⟩⟩, ?_⟩
  -- the session is shorter than a stable one
  have hshort : ¬ STABLE_SESSION_SECS ≤ elapsedSecs connecting.sessionStart now := by
    rw [show connecting.sessionStart = now from rfl, elapsedSecs_self]
    decide
  simp only [Feed.endSession, afterSession, if_neg hshort]
  constructor
  · intro hover
    simp only [connecting, if_pos hover]
  · intro hover hexhausted
    simp only [connecting, if_neg hover, if_pos hexhausted]
    exact ⟨_, _, rfl⟩
  · intro hover hagain
    simp only [connecting, if_neg hover, if_neg hagain, true_and]

/-- Refused connections count up to the budget. -/
theorem reaches_attempts (now seen : ℕ) {n : ℕ}
    (hn : n ≤ config.maxReconnectAttempts.toNat) :
    ∃ q : ℕ × Feed M, Reaches (feedStep config connector endpoint watch) (now, .start seen) q ∧
      q.2.phase = .loopTop ∧ q.2.attempts.toNat = n := by
  induction n with
  | zero => exact ⟨(now, .start seen), .refl _ _, rfl, rfl⟩
  | succ n ih =>
    obtain ⟨q, hreach, hphase, hcount⟩ := ih (by omega)
    obtain ⟨r, hnext, hrefusal⟩ := reaches_refusal connector endpoint config watch hphase
    have hne : q.2.attempts ≠ u32Max :=
      ne_u32Max_of_lt (b := config.maxReconnectAttempts) (by omega)
    have hsucc := toNat_add_one hne
    have hagain : ¬ config.maxReconnectAttempts < q.2.attempts + 1 := by
      rw [UInt32.lt_iff_toNat_lt, hsucc]
      omega
    obtain ⟨htop, hattempts⟩ := hrefusal.again hne hagain
    exact ⟨r, hreach.trans _ hnext, htop, by rw [hattempts, hsucc, hcount]⟩

/-- Refused connections use up the budget, or overflow a counter without one. -/
theorem reaches_exhausted (now seen : ℕ) :
    ∃ q : ℕ × Feed M, Reaches (feedStep config connector endpoint watch) (now, .start seen) q ∧
      (config.maxReconnectAttempts = u32Max → q.2.phase = .panicked) ∧
      (config.maxReconnectAttempts ≠ u32Max →
        ∃ url attempts, q.2.phase = .returned (.error (.wsDisconnected url attempts))) := by
  obtain ⟨p, hreach, hphase, hcount⟩ := reaches_attempts connector endpoint config watch now
    seen (le_refl config.maxReconnectAttempts.toNat)
  have hattempts : p.2.attempts = config.maxReconnectAttempts := UInt32.toNat_inj.mp hcount
  obtain ⟨q, hnext, hrefusal⟩ := reaches_refusal connector endpoint config watch hphase
  rw [hattempts] at hrefusal
  refine ⟨q, hreach.trans _ hnext, hrefusal.overflow, fun hne => hrefusal.exhausted hne ?_⟩
  rw [UInt32.lt_iff_toNat_lt, toNat_add_one hne]
  exact Nat.lt_succ_self _

/-- Once all subscriptions are out, a zero period panics. -/
theorem reaches_subscribed (hping : config.pingIntervalSecs = 0) (now : ℕ) (feed : Feed M)
    (subs : List String) :
    ∃ q : ℕ × Feed M, Reaches (feedStep config connector endpoint watch)
      (now, feed.subscribe config now subs) q ∧ q.2.phase = .panicked := by
  induction subs generalizing feed with
  | nil => exact ⟨_, .refl _ _, by rw [Feed.subscribe, Feed.enterLoop, if_pos hping]⟩
  | cons sub rest ih =>
    let subscribing : Feed M := { feed with phase := .subscribing sub rest }
    obtain ⟨q, hreach, hpanic⟩ := ih subscribing
    have hwrite : feedStep config connector endpoint watch (now, subscribing) (0, .written) =
        some (now, subscribing.subscribe config now rest) :=
      feedStep_eq_some (p := (now, subscribing))
        (subscribing.subscribe config now rest, [.wrote now sub]) rfl
    exact ⟨q, .trans _ ⟨[_], (run_cons_eq_some _).mpr ⟨_, hwrite, rfl⟩⟩ hreach, hpanic⟩

/-- A connection that succeeds panics on a zero period. -/
theorem reaches_interval (hping : config.pingIntervalSecs = 0) (now seen : ℕ) :
    ∃ q : ℕ × Feed M, Reaches (feedStep config connector endpoint watch) (now, .start seen) q ∧
      q.2.phase = .panicked := by
  obtain ⟨t, hreach⟩ := reaches_connecting connector endpoint config watch
    (p := (now, .start seen)) rfl
  let connecting : Feed M :=
    { (Feed.start seen : Feed M) with phase := .connecting, sessionStart := t }
  -- with an auth frame there is one more write before the subscriptions
  cases hauth : connector.authMessage t with
  | none =>
    have hconnected : feedStep config connector endpoint watch (t, connecting) (0, .connected) =
        some (t, connecting.subscribe config t endpoint.subscriptions) :=
      feedStep_eq_some (p := (t, connecting))
        (connecting.subscribe config t endpoint.subscriptions, []) (by
          simp [Feed.step, connecting, hauth])
    obtain ⟨q, hrest, hpanic⟩ := reaches_subscribed connector endpoint config watch hping t
      connecting endpoint.subscriptions
    exact ⟨q, hreach.trans _ (.trans _ ⟨[_], (run_cons_eq_some _).mpr ⟨_, hconnected, rfl⟩⟩ hrest),
      hpanic⟩
  | some auth =>
    let authenticating : Feed M := { connecting with phase := .authenticating auth }
    have hconnected : feedStep config connector endpoint watch (t, connecting) (0, .connected) =
        some (t, authenticating) :=
      feedStep_eq_some (p := (t, connecting)) (authenticating, []) (by
        simp [Feed.step, connecting, authenticating, hauth])
    have hwritten : feedStep config connector endpoint watch (t, authenticating) (0, .written) =
        some (t, authenticating.subscribe config t endpoint.subscriptions) :=
      feedStep_eq_some (p := (t, authenticating))
        (authenticating.subscribe config t endpoint.subscriptions, [.wrote t auth]) rfl
    obtain ⟨q, hrest, hpanic⟩ := reaches_subscribed connector endpoint config watch hping t
      authenticating endpoint.subscriptions
    exact ⟨q, hreach.trans _ (.trans _ ⟨[_, _], (run_cons_eq_some _).mpr ⟨_, hconnected,
      (run_cons_eq_some _).mpr ⟨_, hwritten, rfl⟩⟩⟩ hrest), hpanic⟩

end Refused

/-! ## Exhausted cycles -/

section Cycles

variable (connector endpoint) (config : SupervisedConfig)

/-- An inner call begins after `n` exhausted ones, and nothing has been sent on the watch. -/
structure CycleStart (endpoint : WsFeedEndpoint) (n : ℕ) (s : SupervisedState M) : Prop where
  phase : s.phase = .feeding endpoint (.start 0)
  cycle : s.cycle.toNat = n
  watch : s.watch = ⟨false, 0⟩
  seen : s.seen = 0

/-- The first inner call begins. -/
theorem reaches_first_cycle :
    ∃ s : SupervisedState M, Reaches (supervisedStep config connector) (.start 0 ⟨false, 0⟩ 0) s ∧
      CycleStart endpoint 0 s :=
  ⟨_, ⟨[(0, .refresh), (0, .refreshed endpoint)], rfl⟩, rfl, rfl, rfl, rfl⟩

variable {endpoint} in
/-- The inner call of a cycle runs out of its budget. -/
theorem CycleStart.exhausts {n : ℕ} {s : SupervisedState M} (h : CycleStart endpoint n s)
    (hmax : config.runner.maxReconnectAttempts ≠ u32Max) :
    ∃ s', Reaches (supervisedStep config connector) s s' ∧
      (∃ url attempts, s'.phase = .exhausted url attempts) ∧ s'.cycle.toNat = n ∧
      s'.watch = ⟨false, 0⟩ ∧ s'.seen = 0 := by
  obtain ⟨q, hinner, -, hexhausted⟩ := reaches_exhausted connector endpoint config.runner
    s.watch s.now 0
  obtain ⟨url, attempts, hreturned⟩ := hexhausted hmax
  obtain ⟨s', hreach, hphase, hcycle, hwatch, hseen⟩ :=
    supervised_of_feedStep config h.phase hinner
  refine ⟨s', hreach, ⟨url, attempts, ?_⟩, hcycle ▸ h.cycle, hwatch.trans h.watch,
    hseen.trans h.seen⟩
  rw [hphase, supervisedPhase, hreturned]

/-- An exhausted cycle within the budget is followed by another. -/
theorem reaches_next_cycle {n : ℕ} {s : SupervisedState M} {url : String} {attempts : UInt32}
    (hphase : s.phase = .exhausted url attempts) (hcycle : s.cycle.toNat = n)
    (hwatch : s.watch = ⟨false, 0⟩) (hseen : s.seen = 0) (hn : n < config.maxRefreshCycles.toNat) :
    ∃ s', Reaches (supervisedStep config connector) s s' ∧ CycleStart endpoint (n + 1) s' := by
  have hover : s.cycle ≠ u32Max := ne_u32Max_of_lt (b := config.maxRefreshCycles) (by omega)
  have hsucc := toNat_add_one hover
  have hwithin : ¬ config.maxRefreshCycles < s.cycle + 1 := by
    rw [UInt32.lt_iff_toNat_lt, hsucc]
    omega
  let deadline := s.now + 0 + nanos config.refreshDelaySecs
  let delaying := s.after (s.now + 0) (.delaying deadline, s.cycle + 1, [])
  let due := delaying.after deadline (.refreshDue, s.cycle + 1, [])
  have hdecide : supervisedStep config connector s (0, .decide) = some delaying := by
    simp [supervisedStep, SupervisedState.act, hphase, hover, hwithin, hwatch, delaying, deadline,
      SupervisedState.after]
  have hdelay : supervisedStep config connector delaying
      (nanos config.refreshDelaySecs, .delayOver) = some due := by
    simp [supervisedStep, SupervisedState.act, hwatch, hseen, due, delaying, deadline,
      SupervisedState.after]
  refine ⟨_, ⟨[_, _, (0, .refresh), (0, .refreshed endpoint)], (run_cons_eq_some _).mpr
    ⟨_, hdecide, (run_cons_eq_some _).mpr ⟨_, hdelay, rfl⟩⟩⟩, ?_, ?_, hwatch, hseen⟩
  · change SupervisedPhase.feeding endpoint (.start s.seen) = _
    rw [hseen]
  · change (s.cycle + 1).toNat = n + 1
    rw [hsucc, hcycle]

/-- As many cycles as the budget allows are reached. -/
theorem reaches_cycle (hmax : config.runner.maxReconnectAttempts ≠ u32Max)
    {n : ℕ} (hn : n ≤ config.maxRefreshCycles.toNat) :
    ∃ s : SupervisedState M, Reaches (supervisedStep config connector) (.start 0 ⟨false, 0⟩ 0) s ∧
      CycleStart endpoint n s := by
  induction n with
  | zero => exact reaches_first_cycle connector endpoint config
  | succ n ih =>
    obtain ⟨s, hreach, hstart⟩ := ih (by omega)
    obtain ⟨t, hexhausts, ⟨url, attempts, hphase⟩, hcycle, hwatch, hseen⟩ :=
      hstart.exhausts connector config hmax
    obtain ⟨u, hnext, hstart'⟩ := reaches_next_cycle connector endpoint config hphase hcycle
      hwatch hseen (by omega)
    exact ⟨u, (hreach.trans _ hexhausts).trans _ hnext, hstart'⟩

/-- A supervisor without a budget overflows its counter, if no connection ever succeeds. -/
theorem reaches_cycle_overflow (hmax : config.runner.maxReconnectAttempts ≠ u32Max)
    (hcycles : config.maxRefreshCycles = u32Max) :
    ∃ s : SupervisedState M, Reaches (supervisedStep config connector) (.start 0 ⟨false, 0⟩ 0) s ∧
      s.phase = .panicked := by
  obtain ⟨s, hreach, hstart⟩ := reaches_cycle connector ⟨"", []⟩ config hmax
    (le_refl config.maxRefreshCycles.toNat)
  obtain ⟨t, hexhausts, ⟨url, attempts, hphase⟩, hcycle, -⟩ :=
    hstart.exhausts connector config hmax
  have hover : t.cycle = u32Max := by
    rw [hcycles] at hcycle
    exact UInt32.toNat_inj.mp hcycle
  have hdecide : supervisedStep config connector t (0, .decide) =
      some (t.after (t.now + 0) (.panicked, t.cycle, [])) := by
    simp [supervisedStep, SupervisedState.act, hphase, hover, SupervisedState.after]
  exact ⟨_, (hreach.trans _ hexhausts).trans _
    ⟨[_], (run_cons_eq_some _).mpr ⟨_, hdecide, rfl⟩⟩, rfl⟩

/-- A panic of an inner call is one of the supervisor. -/
theorem supervised_of_inner_panic
    (hinner : ∀ now, ∃ q : ℕ × Feed M,
      Reaches (feedStep config.runner connector endpoint ⟨false, 0⟩) (now, .start 0) q ∧
        q.2.phase = .panicked) :
    ∃ s : SupervisedState M, Reaches (supervisedStep config connector) (.start 0 ⟨false, 0⟩ 0) s ∧
      s.phase = .panicked := by
  obtain ⟨s, hreach, hstart⟩ := reaches_first_cycle connector endpoint config
  obtain ⟨q, hq, hpanic⟩ := hinner s.now
  rw [← hstart.watch] at hq
  obtain ⟨t, hnext, hphase, -⟩ := supervised_of_feedStep config hstart.phase hq
  exact ⟨t, hreach.trans _ hnext, by rw [hphase, supervisedPhase, hpanic]⟩

end Cycles

/-! ## Safety -/

/-- No call of `run_feed` ever panics. -/
def RunFeedSafe (config : WsRunnerConfig) (connector : Connector M) (endpoint : WsFeedEndpoint) :
    Prop :=
  ∀ (now seen : ℕ) (watch : Watch) (moves : List (ℕ × RunAction)) (s : FeedState M),
    run (runFeedStep config connector endpoint) (.start now watch seen) moves = some s →
    s.feed.phase ≠ .panicked

/-- No call of `run_feed_supervised` ever panics. -/
def SupervisedSafe (config : SupervisedConfig) (connector : Connector M) : Prop :=
  ∀ (now seen : ℕ) (watch : Watch) (moves : List (ℕ × SupervisedAction)) (s : SupervisedState M),
    run (supervisedStep config connector) (.start now watch seen) moves = some s →
    s.phase ≠ .panicked

/-- `run_feed` never panics exactly with a ping period and a bounded number of attempts. -/
theorem runFeedSafe_iff (config : WsRunnerConfig) (connector : Connector M)
    (endpoint : WsFeedEndpoint) :
    RunFeedSafe config connector endpoint ↔
      config.pingIntervalSecs ≠ 0 ∧ config.maxReconnectAttempts ≠ u32Max := by
  constructor
  · intro hsafe
    have hrefute : ∀ q : ℕ × Feed M, Reaches (feedStep config connector endpoint ⟨false, 0⟩)
        (0, .start 0) q → q.2.phase ≠ .panicked := by
      intro q hq hpanic
      obtain ⟨s, ⟨moves, hrun⟩, hfeed⟩ :=
        runFeed_of_feedStep (s := FeedState.start 0 ⟨false, 0⟩ 0) hq
      exact hsafe 0 0 ⟨false, 0⟩ moves s hrun (hfeed ▸ hpanic)
    constructor
    · intro hping
      obtain ⟨q, hq, hpanic⟩ := reaches_interval connector endpoint config ⟨false, 0⟩ hping 0 0
      exact hrefute q hq hpanic
    · intro hmax
      obtain ⟨q, hq, hpanic, -⟩ := reaches_exhausted connector endpoint config ⟨false, 0⟩ 0 0
      exact hrefute q hq (hpanic hmax)
  · rintro ⟨hping, hmax⟩ now seen watch moves s hrun
    exact (runFeed_withinBudget hping hmax hrun).notPanicked

/-- `run_feed_supervised` never panics exactly if, in addition, the number of cycles is bounded. -/
theorem supervisedSafe_iff (config : SupervisedConfig) (connector : Connector M) :
    SupervisedSafe config connector ↔ config.runner.pingIntervalSecs ≠ 0 ∧
      config.runner.maxReconnectAttempts ≠ u32Max ∧ config.maxRefreshCycles ≠ u32Max := by
  constructor
  · intro hsafe
    have hrefute : ¬ ∃ s : SupervisedState M,
        Reaches (supervisedStep config connector) (.start 0 ⟨false, 0⟩ 0) s ∧
          s.phase = .panicked := by
      rintro ⟨s, ⟨moves, hrun⟩, hpanic⟩
      exact hsafe 0 0 ⟨false, 0⟩ moves s hrun hpanic
    have hmax : config.runner.maxReconnectAttempts ≠ u32Max := by
      intro hmax
      refine hrefute (supervised_of_inner_panic connector ⟨"", []⟩ config fun now => ?_)
      obtain ⟨q, hq, hpanic, -⟩ := reaches_exhausted connector ⟨"", []⟩ config.runner
        ⟨false, 0⟩ now 0
      exact ⟨q, hq, hpanic hmax⟩
    refine ⟨?_, hmax, ?_⟩
    · intro hping
      exact hrefute (supervised_of_inner_panic connector ⟨"", []⟩ config fun now =>
        reaches_interval connector _ config.runner _ hping now 0)
    · intro hcycles
      exact hrefute (reaches_cycle_overflow connector config hmax hcycles)
  · rintro ⟨hping, hmax, hcycles⟩ now seen watch moves s hrun
    exact (supervised_withinBudget hping hmax hcycles hrun).notPanicked

end ExchangeApiws.Native.Runner

namespace ExchangeApiws.Spec

open ExchangeApiws.Native.Runner
open ExchangeApiws.Native.KucoinWs

/-- An interval in milliseconds has whole seconds from one second on. -/
theorem div_thousand_ne_zero (millis : UInt64) : millis / 1000 ≠ 0 ↔ 1000 ≤ millis := by
  rw [← UInt64.toNat_inj.ne, UInt64.le_iff_toNat_le, UInt64.toNat_div]
  change millis.toNat / 1000 ≠ 0 ↔ 1000 ≤ millis.toNat
  omega

/-- The feeds that never panic: a ping interval of a second or more, and a budget that the
    counters can exceed. -/
theorem no_panic_iff {M : Type} (config : SupervisedConfig) (connector : Connector M)
    (endpoint : WsFeedEndpoint) (uuid token : String) (server : InstanceServer)
    (servers : List InstanceServer) (env : KucoinEnv) :
    (RunFeedSafe config.runner connector endpoint ↔
      config.runner.pingIntervalSecs ≠ 0 ∧ config.runner.maxReconnectAttempts ≠ u32Max) ∧
    (SupervisedSafe config connector ↔ config.runner.pingIntervalSecs ≠ 0 ∧
      config.runner.maxReconnectAttempts ≠ u32Max ∧ config.maxRefreshCycles ≠ u32Max) ∧
    ¬ SupervisedSafe (.fromRunner config.runner) connector ∧
    ∃ conn, KucoinConnector.new uuid ⟨token, server :: servers⟩ env = .ok conn ∧
      (RunFeedSafe (.fromPingInterval conn.pingIntervalSecs) connector endpoint ↔
        1000 ≤ server.pingInterval) := by
  refine ⟨runFeedSafe_iff _ _ _, supervisedSafe_iff _ _, ?_, _, rfl, ?_⟩
  · rw [supervisedSafe_iff]
    rintro ⟨-, -, hcycles⟩
    exact hcycles rfl
  · rw [runFeedSafe_iff, ← div_thousand_ne_zero]
    have hmax : WsRunnerConfig.default.maxReconnectAttempts ≠ u32Max := by decide
    exact ⟨fun h => h.1, fun h => ⟨h, hmax⟩⟩

/-- A token with an interval of half a second, a runner that retries forever, and the default
    supervisor, all panic. -/
theorem not_no_panic :
    (∃ conn, KucoinConnector.new "uuid" ⟨"token", [⟨"wss://kucoin", 500⟩]⟩ .liveSpot = .ok conn ∧
      ¬ RunFeedSafe (.fromPingInterval conn.pingIntervalSecs) silentConnector
        ⟨"wss://kucoin", []⟩) ∧
    ¬ RunFeedSafe { WsRunnerConfig.default with maxReconnectAttempts := u32Max } silentConnector
      ⟨"wss://kucoin", []⟩ ∧
    ¬ SupervisedSafe SupervisedConfig.default silentConnector := by
  refine ⟨⟨_, rfl, ?_⟩, ?_, ?_⟩
  · intro hsafe
    exact hsafe 0 0 ⟨false, 0⟩ [(0, .feed .iterate), (0, .feed .connected)] _ rfl rfl
  · rw [runFeedSafe_iff]
    rintro ⟨-, hmax⟩
    exact hmax rfl
  · rw [supervisedSafe_iff]
    rintro ⟨-, -, hcycles⟩
    exact hcycles rfl

end ExchangeApiws.Spec
