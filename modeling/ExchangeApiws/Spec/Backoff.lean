import ExchangeApiws.Spec.RunFeed
import ExchangeApiws.Spec.Supervisor

/-!
# The delay before a reconnect

The configuration documents one schedule: the base delay doubles on each attempt until it
reaches the ceiling. The loop caps the number of doublings at four before it applies the
ceiling, so that a ceiling of more than 16 times the base is never reached.

## Key results

- `backoffDelay_toNat`: the delay of the loop, without wrap-around
- `backoffDelay_eq_scheduled_iff`: when it is the documented one
- `reconnect_delay_iff`: the same for the sleeps of every run, by the short sessions before them
-/

namespace ExchangeApiws.Spec

open Native Native.Runner TransitionSystem

variable {config : WsRunnerConfig}

/-! ## One delay -/

/-- The documented delay after `n` short sessions. -/
def scheduledDelay (config : WsRunnerConfig) (n : ℕ) : ℕ :=
  min (config.reconnectDelaySecs.toNat * 2 ^ (n - 1)) config.maxReconnectDelaySecs.toNat

/-- A product that does not fit is the greatest `u64`. -/
theorem toNat_saturatingMul (a b : UInt64) :
    (saturatingMul a b).toNat = min (a.toNat * b.toNat) (2 ^ 64 - 1) := by
  rw [saturatingMul, UInt64.toNat_ofNat', Nat.mod_eq_of_lt]
  omega

/-- The factor of the delay: a power of two, up to 16. -/
theorem toNat_shift_min (exp : UInt32) :
    ((1 : UInt64) <<< (min exp 4).toUInt64).toNat = 2 ^ min exp.toNat 4 := by
  have hexp : (min exp 4).toNat = min exp.toNat 4 := UInt32.toNat_min exp 4
  have hle : min exp.toNat 4 ≤ 4 := Nat.min_le_right _ _
  have hcases : min exp 4 = UInt32.ofNat (min exp.toNat 4) := by
    rw [← hexp, UInt32.ofNat_toNat]
  rw [hcases]
  generalize min exp.toNat 4 = k at hle
  interval_cases k <;> decide

/-- The delay of the loop: at most four doublings, and the ceiling. -/
theorem backoffDelay_toNat {attempts : UInt32} (h : 0 < attempts.toNat) :
    (backoffDelay config attempts).toNat =
      min (config.reconnectDelaySecs.toNat * 2 ^ min (attempts.toNat - 1) 4)
        config.maxReconnectDelaySecs.toNat := by
  have hsub : (attempts - 1).toNat = attempts.toNat - 1 :=
    UInt32.toNat_sub_of_le _ _ (UInt32.le_iff_toNat_le.mpr h)
  have hexp : min (min (attempts - 1) 63).toNat 4 = min (attempts.toNat - 1) 4 := by
    rw [UInt32.toNat_min, hsub]
    show min (min (attempts.toNat - 1) 63) 4 = _
    omega
  have hlt := config.maxReconnectDelaySecs.toNat_lt
  rw [backoffDelay, UInt64.toNat_min, toNat_saturatingMul, toNat_shift_min, hexp]
  omega

/-- The loop keeps to the documented schedule for five attempts, and for good where the ceiling
    is at most 16 times the base. -/
theorem backoffDelay_eq_scheduled_iff {attempts : UInt32} (h : 0 < attempts.toNat) :
    (backoffDelay config attempts).toNat = scheduledDelay config attempts.toNat ↔
      attempts.toNat ≤ 5 ∨ config.reconnectDelaySecs.toNat = 0 ∨
        config.maxReconnectDelaySecs.toNat ≤ 16 * config.reconnectDelaySecs.toNat := by
  rw [backoffDelay_toNat h, scheduledDelay]
  rcases Nat.lt_or_ge 5 attempts.toNat with hmany | hfew
  · by_cases hbase : config.reconnectDelaySecs.toNat = 0
    · rw [hbase, Nat.zero_mul, Nat.zero_mul]
      exact iff_of_true rfl (.inr (.inl rfl))
    · -- from the sixth attempt on the schedule has doubled more often than the loop
      have hfour : min (attempts.toNat - 1) 4 = 4 := by omega
      have hpow : 2 ^ 5 ≤ 2 ^ (attempts.toNat - 1) := Nat.pow_le_pow_right (by decide) (by omega)
      have hmul := Nat.mul_le_mul_left config.reconnectDelaySecs.toNat hpow
      rw [hfour]
      generalize config.reconnectDelaySecs.toNat * 2 ^ (attempts.toNat - 1) = scheduled at hmul ⊢
      omega
  · have hsame : min (attempts.toNat - 1) 4 = attempts.toNat - 1 := by omega
    rw [hsame]
    exact iff_of_true rfl (.inl hfew)

/-- More attempts never sleep less, and the ceiling holds. -/
theorem backoffDelay_mono {attempts later : UInt32} (h : 0 < attempts.toNat)
    (hle : attempts ≤ later) :
    backoffDelay config attempts ≤ backoffDelay config later ∧
      backoffDelay config later ≤ config.maxReconnectDelaySecs := by
  have hle := UInt32.le_iff_toNat_le.mp hle
  rw [UInt64.le_iff_toNat_le, UInt64.le_iff_toNat_le, backoffDelay_toNat h,
    backoffDelay_toNat (h.trans_le hle)]
  have hpow : 2 ^ min (attempts.toNat - 1) 4 ≤ 2 ^ min (later.toNat - 1) 4 :=
    Nat.pow_le_pow_right (by decide) (by omega)
  exact ⟨min_le_min_right _ (Nat.mul_le_mul_left _ hpow), Nat.min_le_right _ _⟩

/-! ## Runs -/

variable {M : Type} {connector : Connector M} {endpoint : WsFeedEndpoint}

/-- The counter of a call that is not over is the number of short sessions at the end. -/
def CountsShort (feed : Feed M) (log : List (Output M)) : Prop :=
  (∃ result, feed.phase = .returned result) ∨ feed.phase = .panicked ∨
    feed.attempts.toNat = shortStreak (sessionsOf log)

/-- A session that the loop goes on after is counted if it is short, and else ends the count. -/
theorem countsShort_endSession {feed : Feed M} {log outputs : List (Output M)} {now : ℕ}
    {outcome : SessionOutcome} (hplain : ∀ output ∈ outputs, output.isPlain = true)
    (h : feed.attempts.toNat = shortStreak (sessionsOf log)) :
    CountsShort (feed.endSession config endpoint.url now outcome).1
      (log ++ (outputs ++ (feed.endSession config endpoint.url now outcome).2)) := by
  rw [CountsShort, sessionsOf_append, sessionsOf_append, sessionsOf_plain hplain,
    Feed.endSession_outputs, sessionsOf_endSession, List.nil_append, shortStreak_append, ← h]
  cases outcome with
  | shutdownRequested | receiverDropped => exact .inl ⟨.ok (), rfl⟩
  | disconnected =>
    simp only [Feed.endSession, afterSession, isShort, decide_true, Bool.true_and,
      decide_eq_true_eq]
    by_cases hstable : STABLE_SESSION_SECS ≤ elapsedSecs feed.sessionStart now
    · rw [if_pos hstable, if_neg (UInt64.not_lt.mpr hstable)]
      exact .inr (.inr rfl)
    · rw [if_neg hstable, if_pos (UInt64.not_le.mp hstable)]
      by_cases hmax : feed.attempts = u32Max
      · rw [if_pos hmax]
        exact .inr (.inl rfl)
      · rw [if_neg hmax]
        by_cases hexhausted : config.maxReconnectAttempts < feed.attempts + 1
        · rw [if_pos hexhausted]
          exact .inl ⟨_, rfl⟩
        · rw [if_neg hexhausted]
          exact .inr (.inr (toNat_add_one hmax))

/-- In every run the counter is the number of short sessions just before. -/
theorem countsShort_of_run {now seen : ℕ} {watch : Watch} {moves : List (ℕ × RunAction)}
    {s : FeedState M}
    (hrun : run (runFeedStep config connector endpoint) (.start now watch seen) moves = some s) :
    CountsShort s.feed s.log := by
  apply runFeed_invariant (I := CountsShort) _ hrun (.inr (.inr rfl))
  intro feed log now watch action after h hafter
  have hcounts : feed.attempts.toNat = shortStreak (sessionsOf log) := by
    rcases h with hover | hover | hcounts
    · simp [Feed.step_over (.inl hover)] at hafter
    · simp [Feed.step_over (.inr hover)] at hafter
    · exact hcounts
  cases Feed.step_cases hafter with
  | moved hmoved hplain =>
    refine .inr (.inr ?_)
    rw [sessionsOf_append, sessionsOf_plain hplain, List.append_nil, hmoved.attempts]
    exact hcounts
  | ended outcome hplain => exact countsShort_endSession hplain hcounts

/-- The next step of a call at the head of its loop is the sleep of the documented schedule, by
    the short sessions just before. -/
def SleepsOnSchedule (config : WsRunnerConfig) (connector : Connector M)
    (endpoint : WsFeedEndpoint) (s : FeedState M) : Prop :=
  ∀ dt, ∃ delay t, runFeedStep config connector endpoint s (dt, .feed .iterate) = some t ∧
    t.log = s.log ++ [.sleep delay] ∧ t.feed.phase = .backoff (t.now + nanos delay) ∧
    delay.toNat = scheduledDelay config (shortStreak (sessionsOf s.log))

/-- At the head of the loop the next step is the sleep of `backoffDelay`. -/
theorem sleepsOnSchedule_iff {s : FeedState M} (hphase : s.feed.phase = .loopTop)
    (hcount : 0 < s.feed.attempts) :
    SleepsOnSchedule config connector endpoint s ↔
      (backoffDelay config s.feed.attempts).toNat =
        scheduledDelay config (shortStreak (sessionsOf s.log)) := by
  have hstep : ∀ dt, runFeedStep config connector endpoint s (dt, .feed .iterate) =
      some { s with
        now := s.now + dt
        feed := { s.feed with
          phase := .backoff (s.now + dt + nanos (backoffDelay config s.feed.attempts)) }
        log := s.log ++ [.sleep (backoffDelay config s.feed.attempts)] } := by
    intro dt
    simp [runFeedStep, Feed.step, hphase, hcount]
  constructor
  · intro h
    obtain ⟨delay, t, ht, hlog, -, hdelay⟩ := h 0
    rw [hstep 0, Option.some.injEq] at ht
    subst ht
    have hsame : backoffDelay config s.feed.attempts = delay := by
      simpa using List.append_cancel_left hlog
    rw [hsame, hdelay]
  · intro h dt
    exact ⟨_, _, hstep dt, rfl, rfl, h⟩

/-- For every configuration and every run of `run_feed`: after `n ≥ 1` consecutive short
    disconnected sessions the sleep before the next attempt is the documented one exactly when
    `n ≤ 5`, the base is `0` or the ceiling is at most 16 times the base. -/
theorem reconnect_delay_iff {now seen : ℕ} {watch : Watch} {moves : List (ℕ × RunAction)}
    {s : FeedState M} {n : ℕ}
    (hrun : run (runFeedStep config connector endpoint) (.start now watch seen) moves = some s)
    (hphase : s.feed.phase = .loopTop) (hn : shortStreak (sessionsOf s.log) = n) (hpos : 1 ≤ n) :
    SleepsOnSchedule config connector endpoint s ↔
      n ≤ 5 ∨ config.reconnectDelaySecs.toNat = 0 ∨
        config.maxReconnectDelaySecs.toNat ≤ 16 * config.reconnectDelaySecs.toNat := by
  have hattempts : s.feed.attempts.toNat = n := by
    rcases countsShort_of_run hrun with ⟨result, hover⟩ | hover | hcounts
    · simp [hphase] at hover
    · simp [hphase] at hover
    · exact hcounts.trans hn
  have hcount : 0 < s.feed.attempts := by
    rw [UInt32.lt_iff_toNat_lt, hattempts]
    exact hpos
  rw [sleepsOnSchedule_iff hphase hcount, hn, ← hattempts]
  exact backoffDelay_eq_scheduled_iff (UInt32.lt_iff_toNat_lt.mp hcount)

/-- A ceiling of five minutes over the default base of 5 seconds. -/
def slowConfig : WsRunnerConfig :=
  { WsRunnerConfig.default with maxReconnectDelaySecs := 300, maxReconnectAttempts := 10 }

/-- One refused attempt, then `n` more after all the sleep they need. -/
def refusedAttempts (n : ℕ) : List (ℕ × RunAction) :=
  [(0, .feed .iterate), (0, .feed .connectFailed)] ++
    (List.replicate n [(0, .feed .iterate), (nanos 80, .feed .wake),
      (0, .feed .connectFailed)]).flatten

/-- One refused attempt under a high ceiling: the sleep after it is on schedule. -/
theorem reconnect_delay_first :
    ∃ s, run (runFeedStep slowConfig silentConnector ⟨"wss://feed", []⟩)
        (.start 0 ⟨false, 0⟩ 0) (refusedAttempts 0) = some s ∧
      (SleepsOnSchedule slowConfig silentConnector ⟨"wss://feed", []⟩ s ↔
        1 ≤ 5 ∨ slowConfig.reconnectDelaySecs.toNat = 0 ∨
          slowConfig.maxReconnectDelaySecs.toNat ≤ 16 * slowConfig.reconnectDelaySecs.toNat) := by
  have hrun : ∃ s, run (runFeedStep slowConfig silentConnector ⟨"wss://feed", []⟩)
      (.start 0 ⟨false, 0⟩ 0) (refusedAttempts 0) = some s ∧ s.feed.phase = .loopTop ∧
        shortStreak (sessionsOf s.log) = 1 := ⟨_, rfl, rfl, by decide⟩
  obtain ⟨s, hs, hphase, hn⟩ := hrun
  exact ⟨s, hs, reconnect_delay_iff hs hphase hn le_rfl⟩

/-- After six refused attempts the loop sleeps 80 seconds, and the documented delay is 160. -/
theorem not_sleepsOnSchedule :
    ¬ ∀ moves s, run (runFeedStep slowConfig silentConnector ⟨"wss://feed", []⟩)
        (.start 0 ⟨false, 0⟩ 0) moves = some s → s.feed.phase = .loopTop →
      1 ≤ shortStreak (sessionsOf s.log) →
      SleepsOnSchedule slowConfig silentConnector ⟨"wss://feed", []⟩ s := by
  intro h
  have hrun : ∃ s, run (runFeedStep slowConfig silentConnector ⟨"wss://feed", []⟩)
      (.start 0 ⟨false, 0⟩ 0) (refusedAttempts 5) = some s ∧ s.feed.phase = .loopTop ∧
        s.feed.attempts = 6 ∧ shortStreak (sessionsOf s.log) = 6 := ⟨_, rfl, rfl, rfl, by decide⟩
  obtain ⟨s, hs, hphase, hattempts, hn⟩ := hrun
  have hsleeps := (sleepsOnSchedule_iff hphase (by rw [hattempts]; decide)).mp
    (h _ s hs hphase (by omega))
  rw [hattempts, hn] at hsleeps
  revert hsleeps
  decide

end ExchangeApiws.Spec
