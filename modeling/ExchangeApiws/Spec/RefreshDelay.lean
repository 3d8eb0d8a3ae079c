import ExchangeApiws.Spec.Supervisor

/-!
# The delay before a refresh

After an exhausted inner `run_feed` the supervisor waits `refresh_delay_secs` before it
refreshes, in a `select!` between a sleep and the next change of the shutdown watch. The
receiver it waits on is a clone of the caller's, which never marks a value as seen: whatever
the caller has not seen itself, `false` included, is a change that ends the wait at once.

## Key results

- `supervisedStep_delaying`: what a step in the refresh delay can do
- `Waited.step`: from an exhausted inner call on, a refresh is due only after the delay
- `refresh_delay_iff`: the delay is kept throughout a run exactly when no step of it ends a
  delay early on the value `false`
-/

namespace ExchangeApiws.Native.Runner

variable {M : Type} {config : SupervisedConfig} {connector : Connector M}

/-! ## Steps in the delay -/

/-- In the refresh delay, a send leaves the supervisor waiting, a change of the watch returns or
    goes on by its value, and the sleep goes on after its deadline. -/
theorem supervisedStep_delaying {s s' : SupervisedState M} {move : ℕ × SupervisedAction}
    {deadline : ℕ} (hphase : s.phase = .delaying deadline)
    (hstep : supervisedStep config connector s move = some s') :
    s'.now = s.now + move.1 ∧
      ((∃ value, move.2 = .send value ∧ s'.phase = .delaying deadline) ∨
        (move.2 = .observe ∧ s'.watch = s.watch ∧
          s'.phase = if s.watch.value then .returned (.ok ()) else .refreshDue) ∨
        (move.2 = .delayOver ∧ deadline ≤ s.now + move.1 ∧ s'.phase = .refreshDue)) := by
  obtain ⟨dt, action⟩ := move
  -- the supervisor itself has two arms to choose from in a delay, the watch and the sleep
  cases action with
  | send value =>
    cases hstep
    exact ⟨rfl, .inl ⟨value, rfl, hphase⟩⟩
  | observe =>
    rw [supervisedStep_act (by simp)] at hstep
    obtain ⟨next, hnext, rfl⟩ := Option.map_eq_some_iff.mp hstep
    simp only [SupervisedState.act, hphase] at hnext
    split at hnext
    · cases hnext
      exact ⟨rfl, .inr (.inl ⟨rfl, rfl, rfl⟩)⟩
    · cases hnext
  | delayOver =>
    rw [supervisedStep_act (by simp)] at hstep
    obtain ⟨next, hnext, rfl⟩ := Option.map_eq_some_iff.mp hstep
    simp only [SupervisedState.act, hphase] at hnext
    split at hnext
    · rename_i hover
      cases hnext
      exact ⟨rfl, .inr (.inr ⟨rfl, hover.2, rfl⟩)⟩
    · cases hnext
  | _ =>
    rw [supervisedStep_act (by simp)] at hstep
    obtain ⟨next, hnext, rfl⟩ := Option.map_eq_some_iff.mp hstep
    simp [SupervisedState.act, hphase] at hnext

/-- A step that would end a delay before its deadline finds the watch at `true`. -/
def SupervisedState.Patient (s : SupervisedState M) (move : ℕ × SupervisedAction) : Prop :=
  ∀ deadline, s.phase = .delaying deadline → move.2 = .observe →
    s.watch.value = true ∨ deadline ≤ s.now + move.1

/-- A delay during which nothing unseen is on the watch, or its value is `true`, is not ended
    early on `false`. -/
theorem SupervisedState.patient_of_quiet {s s' : SupervisedState M}
    {move : ℕ × SupervisedAction} (hquiet : s.watch.version = s.seen ∨ s.watch.value = true)
    (hstep : supervisedStep config connector s move = some s') : s.Patient move := by
  intro deadline hphase haction
  rcases hquiet with hseen | hvalue
  · obtain ⟨dt, action⟩ := move
    cases haction
    simp [supervisedStep, SupervisedState.act, hphase, hseen] at hstep
  · exact .inl hvalue

/-! ## From an exhausted inner call to the refresh -/

/-- How far the wait is that began when the inner call returned at `since`. -/
def SupervisedState.Waited (config : SupervisedConfig) (since : ℕ) (s : SupervisedState M) :
    Prop :=
  match s.phase with
  | .exhausted _ _ => since ≤ s.now
  | .delaying deadline => since + nanos config.refreshDelaySecs ≤ deadline
  | .refreshDue => since + nanos config.refreshDelaySecs ≤ s.now
  | .returned _ | .panicked => True
  | _ => False

/-- After an exhausted cycle the delay begins, and it has been waited from then on. -/
theorem SupervisedState.Waited.decided {s s' : SupervisedState M} {move : ℕ × SupervisedAction}
    {since : ℕ} {url : String} {attempts : UInt32} (hphase : s.phase = .exhausted url attempts)
    (hsince : since ≤ s.now) (hstep : supervisedStep config connector s move = some s') :
    s'.Waited config since := by
  obtain ⟨dt, action⟩ := move
  cases action with
  | send value =>
    cases hstep
    simp only [Waited, hphase]
    omega
  | decide =>
    rw [supervisedStep_act (by simp)] at hstep
    obtain ⟨next, hnext, rfl⟩ := Option.map_eq_some_iff.mp hstep
    simp only [SupervisedState.act, hphase] at hnext
    split_ifs at hnext
    · cases hnext
      trivial
    · cases hnext
      trivial
    · cases hnext
      trivial
    · cases hnext
      simp only [Waited]
      omega
  | _ =>
    rw [supervisedStep_act (by simp)] at hstep
    obtain ⟨next, hnext, rfl⟩ := Option.map_eq_some_iff.mp hstep
    simp [SupervisedState.act, hphase] at hnext

/-- Once a refresh is due or the call is over, only the refresh itself goes on. -/
theorem supervisedStep_still {s s' : SupervisedState M} {move : ℕ × SupervisedAction}
    (hphase : s.phase = .refreshDue ∨ (∃ result, s.phase = .returned result) ∨
      s.phase = .panicked)
    (hrefresh : move.2 ≠ .refresh) (hstep : supervisedStep config connector s move = some s') :
    s'.phase = s.phase ∧ s.now ≤ s'.now := by
  rcases supervisedStep_cases hstep with ⟨value, -, rfl⟩ | ⟨next, hmove, rfl⟩
  · exact ⟨rfl, Nat.le_add_right _ _⟩
  · obtain ⟨dt, action⟩ := move
    cases hmove with
    | refreshed endpoint hopen | refreshFailed error hopen =>
      rcases hopen with hopen | hopen
      all_goals simp [hopen] at hphase
    | _ => simp_all

/-- A step other than the refresh itself keeps the wait, when no delay is ended early on
    `false`. -/
theorem SupervisedState.Waited.step {s s' : SupervisedState M} {move : ℕ × SupervisedAction}
    {since : ℕ} (h : s.Waited config since) (hpatient : s.Patient move)
    (hrefresh : move.2 ≠ .refresh) (hstep : supervisedStep config connector s move = some s') :
    s'.Waited config since := by
  cases hphase : s.phase with
  | exhausted url attempts =>
    simp only [Waited, hphase] at h
    exact decided hphase h hstep
  | delaying deadline =>
    simp only [Waited, hphase] at h
    obtain ⟨hnow, ⟨value, -, hnext⟩ | ⟨haction, -, hnext⟩ | ⟨-, hover, hnext⟩⟩ :=
      supervisedStep_delaying hphase hstep
    · simp only [Waited, hnext]
      exact h
    · -- a change of the watch: `true` returns, and `false` comes after the deadline
      by_cases hvalue : s.watch.value = true
      · simp [Waited, hnext, hvalue]
      · have hover := (hpatient deadline hphase haction).resolve_left hvalue
        simp only [Waited, hnext, if_neg hvalue]
        omega
    · simp only [Waited, hnext]
      omega
  | refreshDue =>
    obtain ⟨hnext, hnow⟩ := supervisedStep_still (.inl hphase) hrefresh hstep
    simp only [Waited, hphase] at h
    simp only [Waited, hnext, hphase]
    omega
  | returned result =>
    obtain ⟨hnext, -⟩ := supervisedStep_still (.inr (.inl ⟨result, hphase⟩)) hrefresh hstep
    simp only [Waited, hnext, hphase]
  | panicked =>
    obtain ⟨hnext, -⟩ := supervisedStep_still (.inr (.inr hphase)) hrefresh hstep
    simp only [Waited, hnext, hphase]
  | _ => simp [Waited, hphase] at h

end ExchangeApiws.Native.Runner

namespace ExchangeApiws.Spec

open Native Native.Runner TransitionSystem

/-- The delay before every refresh of a run. -/
structure RefreshDelayKept {M : Type} (config : SupervisedConfig) (connector : Connector M)
    (start : SupervisedState M) (moves : List (ℕ × SupervisedAction)) : Prop where
  /-- From the return of an inner `run_feed` that is exhausted to the next refresh call the full
      delay goes by. -/
  full : ∀ before between dt rest e t url attempts,
    moves = before ++ (between ++ (dt, .refresh) :: rest) →
    run (supervisedStep config connector) start before = some e →
    e.phase = .exhausted url attempts → (∀ move ∈ between, move.2 ≠ .refresh) →
    run (supervisedStep config connector) e (between ++ [(dt, .refresh)]) = some t →
    e.now + nanos config.refreshDelaySecs ≤ t.now
  /-- What ends the delay before its deadline is a return of `Ok` on the value `true`. -/
  cut : ∀ before move rest s t deadline, moves = before ++ move :: rest →
    run (supervisedStep config connector) start before = some s →
    s.phase = .delaying deadline → supervisedStep config connector s move = some t →
    t.phase = .delaying deadline ∨ deadline ≤ t.now ∨
      t.phase = .returned (.ok ()) ∧ t.watch.value = true

variable {M : Type} {config : SupervisedConfig} {connector : Connector M}

/-- In a run without an early end on `false`, the refresh comes a full delay after the inner call
    has returned. -/
theorem refresh_after_delay {s t : SupervisedState M} {between : List (ℕ × SupervisedAction)}
    {dt : ℕ} {url : String} {attempts : UInt32} (hphase : s.phase = .exhausted url attempts)
    (hpatient : StepsMeet (supervisedStep config connector) SupervisedState.Patient s between)
    (hrefresh : ∀ move ∈ between, move.2 ≠ .refresh)
    (hrun : run (supervisedStep config connector) s (between ++ [(dt, .refresh)]) = some t) :
    s.now + nanos config.refreshDelaySecs ≤ t.now := by
  rw [run_append, Option.bind_eq_some_iff] at hrun
  obtain ⟨u, hu, hlast⟩ := hrun
  have hmeets : StepsMeet (supervisedStep config connector)
      (fun s move => s.Patient move ∧ move.2 ≠ .refresh) s between := by
    refine hpatient.and _ ((stepsMeet_iff_forall_split _).mpr ?_)
    intro before move rest _ hsplit _
    exact hrefresh move (by simp [hsplit])
  have hwaited : u.Waited config s.now := by
    refine run_invariant_of_stepsMeet _ ?_ hmeets hu ?_
    · intro s' move t' h hok hstep
      exact h.step hok.1 hok.2 hstep
    · simp [SupervisedState.Waited, hphase]
  obtain ⟨v, hv, hvt⟩ := (run_cons_eq_some _).mp hlast
  obtain rfl : v = t := by simpa using hvt
  -- the refresh is called where it is due: the other place is the entry
  rcases supervisedStep_cases hv with ⟨value, haction, -⟩ | ⟨next, hmove, rfl⟩
  · cases haction
  · cases hmove with
    | bootstrap hentry => simp [SupervisedState.Waited, hentry] at hwaited
    | refresh hdue =>
      simp only [SupervisedState.Waited, hdue] at hwaited
      exact hwaited.trans (Nat.le_add_right _ _)

/-- For every run of `run_feed_supervised` and every history of the shutdown watch: the delay
    before a refresh is kept throughout the run exactly when no change of the watch that the
    supervisor observes before the deadline of a delay leaves the value at `false`. -/
theorem refresh_delay_iff {now seen : ℕ} {watch : Watch} {moves : List (ℕ × SupervisedAction)}
    {s : SupervisedState M}
    (hrun : run (supervisedStep config connector) (.start now watch seen) moves = some s) :
    RefreshDelayKept config connector (.start now watch seen) moves ↔
      StepsMeet (supervisedStep config connector) SupervisedState.Patient
        (.start now watch seen) moves := by
  constructor
  · intro h
    rw [stepsMeet_iff_forall_split]
    intro before move rest u hsplit hu deadline hphase haction
    rw [hsplit, run_append, hu] at hrun
    obtain ⟨t, ht, -⟩ := (run_cons_eq_some _).mp hrun
    obtain ⟨hnow, hnext⟩ := supervisedStep_delaying hphase ht
    rcases h.cut before move rest u t deadline hsplit hu hphase ht with hstill | hover | hok
    · -- an observed change leaves the delay
      rw [haction, hstill] at hnext
      by_cases hvalue : u.watch.value = true
      · exact .inl hvalue
      · simp [hvalue] at hnext
    · exact .inr (hnow ▸ hover)
    · rw [haction] at hnext
      simp only [reduceCtorEq, false_and, exists_false, true_and, false_or, or_false] at hnext
      exact .inl (hnext.1 ▸ hok.2)
  · intro h
    have hsplits := (stepsMeet_iff_forall_split _).mp h
    constructor
    · intro before between dt rest e t url attempts hsplit he hphase hrefresh ht
      refine refresh_after_delay hphase ((stepsMeet_iff_forall_split _).mpr ?_) hrefresh ht
      intro before' move rest' u hsplit' hu
      refine hsplits (before ++ before') move (rest' ++ (dt, .refresh) :: rest) u ?_ ?_
      · simp [hsplit, hsplit']
      · rw [run_append, he]
        exact hu
    · intro before move rest u t deadline hsplit hu hphase ht
      obtain ⟨hnow, ⟨value, -, hnext⟩ | ⟨haction, hwatch, hnext⟩ | ⟨-, hover, -⟩⟩ :=
        supervisedStep_delaying hphase ht
      · exact .inl hnext
      · rcases hsplits before move rest u hsplit hu deadline hphase haction with hvalue | hover
        · refine .inr (.inr ⟨?_, ?_⟩)
          · rw [hnext, if_pos hvalue]
          · rw [hwatch, hvalue]
        · exact .inr (.inl (hnow ▸ hover))
      · exact .inr (.inl (hnow ▸ hover))

/-- A delay that lasts its 5 seconds. -/
theorem refresh_delay_refused :
    RefreshDelayKept oneRefresh silentConnector (.start 0 ⟨false, 0⟩ 0) refusedMoves ↔
      StepsMeet (supervisedStep oneRefresh silentConnector) SupervisedState.Patient
        (.start 0 ⟨false, 0⟩ 0) refusedMoves :=
  refresh_delay_iff (s := _) rfl

/-- The caller has sent `false` before the call, and the first delay ends as soon as it begins. -/
theorem not_refresh_delay_kept :
    ¬ ∀ (now seen : ℕ) (watch : Watch) (moves : List (ℕ × SupervisedAction))
      (s : SupervisedState Unit),
      run (supervisedStep oneRefresh silentConnector) (.start now watch seen) moves = some s →
      RefreshDelayKept oneRefresh silentConnector (.start now watch seen) moves := by
  intro h
  have hkept := h 0 0 ⟨false, 1⟩ [(0, .refresh), (0, .refreshed ⟨"wss://first", []⟩),
    (0, .feed .iterate), (0, .feed .connectFailed), (0, .decide), (0, .observe), (0, .refresh)]
    _ rfl
  have hle := hkept.full [(0, .refresh), (0, .refreshed ⟨"wss://first", []⟩),
    (0, .feed .iterate), (0, .feed .connectFailed)] [(0, .decide), (0, .observe)] 0 [] _ _ _ _
    rfl rfl rfl (by simp) rfl
  revert hle
  decide

end ExchangeApiws.Spec
