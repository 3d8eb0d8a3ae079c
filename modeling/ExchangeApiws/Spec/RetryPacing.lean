import ExchangeApiws.Spec.ConcurrentCalls

/-!
# Pauses between attempts

A call sleeps between its attempts, as long as the venue asks for after a 429 and for the jittered
backoff after a network error, and signs its next request only then.

## Key results

- `Paced`: the invariant of one call
- `retries_are_paced`: the pause before every attempt but the first
-/

namespace ExchangeApiws.Native.KucoinClient

open Kucoin RetryLoops

variable {F : Type}

/-- The shortest pause after an outcome, in nanoseconds: what the venue asks for, or three
    quarters of `1.5` to the power of `attempt + 1` seconds. -/
def leastPause (attempt : ℕ) : Except String (Answer F) → ℕ
  | .ok answer => (resetMs answer.rateLimitReset).toNat * 10 ^ 6
  | .error _ => 3 * 3 ^ (attempt + 1) * 10 ^ 9 / (4 * 2 ^ (attempt + 1))

/-- The network errors among outcomes. -/
def networkErrors (received : List (ℕ × Except String (Answer F))) : ℕ :=
  received.countP fun r => !r.2.isOk

/-- The pause after the `k`-th outcome is over at `time`. -/
def PausedUntil (received : List (ℕ × Except String (Answer F))) (k time : ℕ) : Prop :=
  ∀ came outcome, received[k]? = some (came, outcome) →
    came + leastPause (networkErrors (received.take k)) outcome ≤ time

/-- A pause that is over stays over. -/
theorem PausedUntil.mono {received : List (ℕ × Except String (Answer F))} {k time time' : ℕ}
    (h : PausedUntil received k time) (hle : time ≤ time') : PausedUntil received k time' :=
  fun came outcome hk => (h came outcome hk).trans hle

/-- Later outcomes make no difference. -/
theorem PausedUntil.append {received : List (ℕ × Except String (Answer F))} {k time : ℕ}
    (h : PausedUntil received k time) (hk : k < received.length)
    (later : List (ℕ × Except String (Answer F))) : PausedUntil (received ++ later) k time := by
  intro came outcome hcame
  rw [List.getElem?_append_left hk] at hcame
  rw [List.take_append_of_le_length hk.le]
  exact h came outcome hcame

/-- The pause after the last outcome is over at `time`. -/
def PausedSinceLast (received : List (ℕ × Except String (Answer F))) (time : ℕ) : Prop :=
  ∀ k, k + 1 = received.length → PausedUntil received k time

/-- An outcome that has just come is the one to pause after. -/
theorem pausedSinceLast_concat {received : List (ℕ × Except String (Answer F))}
    {outcome : Except String (Answer F)} {came time : ℕ}
    (h : came + leastPause (networkErrors received) outcome ≤ time) :
    PausedSinceLast (received ++ [(came, outcome)]) time := by
  intro k hk came' outcome' hlast
  obtain rfl : k = received.length := by simpa using hk
  rw [List.getElem?_append_right le_rfl, Nat.sub_self, List.getElem?_cons_zero] at hlast
  cases hlast
  rw [List.take_append_of_le_length le_rfl, List.take_length]
  exact h

/-- What a call has sent and received so far, in order and with the pauses between. -/
structure Paced (received : List (ℕ × Except String (Answer F))) (sends : List Sending)
    (now : ℕ) : Prop where
  /-- A request is signed, then sent. -/
  sent : ∀ sending ∈ sends, sending.stamped.signedAt ≤ sending.sentAt ∧ sending.sentAt ≤ now
  /-- Every outcome came after its request was sent. -/
  answered : ∀ (k came : ℕ) (outcome : Except String (Answer F)),
    received[k]? = some (came, outcome) →
      ∃ sending : Sending, sends[k]? = some sending ∧ sending.sentAt ≤ came
  /-- The pause before every request but the first is over when it is signed. -/
  paused : ∀ (k : ℕ) (later : Sending), sends[k + 1]? = some later →
    k < received.length ∧ PausedUntil received k later.stamped.signedAt

/-- Where a call stands between its requests. -/
def Call.Between (call : Call F) (sends : List Sending) (now : ℕ) : Prop :=
  match call.phase with
  | .notStarted => sends = [] ∧ call.received = []
  | .top | .loaded _ _ =>
    sends.length = call.received.length ∧ call.attempt = networkErrors call.received ∧
      PausedSinceLast call.received now
  | .signed stamped =>
    sends.length = call.received.length ∧ call.attempt = networkErrors call.received ∧
      PausedSinceLast call.received stamped.signedAt ∧ stamped.signedAt ≤ now
  | .sleeping deadline =>
    sends.length = call.received.length ∧ call.attempt = networkErrors call.received ∧
      PausedSinceLast call.received deadline
  | .inFlight =>
    sends.length = call.received.length + 1 ∧ call.attempt = networkErrors call.received
  | .storing _ _ | .returned _ => True

variable {call call' : Call F} {received : List (ℕ × Except String (Answer F))}
  {sends : List Sending} {now later : ℕ}

/-- Time that passes changes nothing about what was sent and received. -/
theorem Paced.mono (h : Paced received sends now) (hle : now ≤ later) :
    Paced received sends later where
  sent sending hmem := ⟨(h.sent sending hmem).1, (h.sent sending hmem).2.trans hle⟩
  answered := h.answered
  paused := h.paused

/-- A call that does nothing stands where it stood. -/
theorem Call.Between.mono (h : call.Between sends now) (hle : now ≤ later) :
    call.Between sends later := by
  have hsince (h : PausedSinceLast call.received now) : PausedSinceLast call.received later :=
    fun k hk => (h k hk).mono hle
  unfold Call.Between at h ⊢
  split at h
  · exact h
  · exact ⟨h.1, h.2.1, hsince h.2.2⟩
  · exact ⟨h.1, h.2.1, hsince h.2.2⟩
  · exact ⟨h.1, h.2.1, h.2.2.1, h.2.2.2.trans hle⟩
  · exact h
  · exact h
  · exact h
  · exact h

/-- A request that is sent when the pause before it is over. -/
theorem Paced.send {c : ℕ} {stamped : Stamped} (h : Paced received sends now)
    (hlength : sends.length = received.length) (hsince : PausedSinceLast received stamped.signedAt)
    (hsigned : stamped.signedAt ≤ now) : Paced received (sends ++ [⟨c, now, stamped⟩]) now where
  sent sending hmem := by
    rcases List.mem_append.mp hmem with hmem | hmem
    · exact h.sent sending hmem
    · obtain rfl := List.mem_singleton.mp hmem
      exact ⟨hsigned, le_rfl⟩
  answered k came outcome hk := by
    obtain ⟨sending, hsending, hle⟩ := h.answered k came outcome hk
    refine ⟨sending, ?_, hle⟩
    rw [List.getElem?_append_left (List.getElem?_eq_some_iff.mp hsending).1, hsending]
  paused k later hk := by
    by_cases hlast : k + 1 < sends.length
    · rw [List.getElem?_append_left hlast] at hk
      exact h.paused k later hk
    · have hlt := (List.getElem?_eq_some_iff.mp hk).1
      rw [List.length_append, List.length_singleton] at hlt
      have heq : k + 1 = sends.length := by omega
      rw [heq, List.getElem?_append_right le_rfl, Nat.sub_self, List.getElem?_cons_zero] at hk
      cases hk
      exact ⟨by omega, hsince k (by omega)⟩

/-- An outcome of the request in flight. -/
theorem Paced.receive (h : Paced received sends now) (hlength : sends.length = received.length + 1)
    (outcome : Except String (Answer F)) : Paced (received ++ [(now, outcome)]) sends now where
  sent := h.sent
  answered k came outcome hk := by
    by_cases hlast : k < received.length
    · rw [List.getElem?_append_left hlast] at hk
      exact h.answered k came outcome hk
    · have hlt := (List.getElem?_eq_some_iff.mp hk).1
      rw [List.length_append, List.length_singleton] at hlt
      obtain rfl : k = received.length := by omega
      rw [List.getElem?_append_right le_rfl, Nat.sub_self, List.getElem?_cons_zero] at hk
      cases hk
      have hin : received.length < sends.length := by omega
      exact ⟨sends[received.length], List.getElem?_eq_getElem hin,
        (h.sent _ (List.getElem_mem hin)).2⟩
  paused k later hk := by
    obtain ⟨hlt, hpaused⟩ := h.paused k later hk
    exact ⟨by rw [List.length_append]; omega, hpaused.append hlt _⟩

/-- The jitter takes a quarter of the base away at most, and adds less than a quarter. -/
theorem jitterSecs_range {nanos : ℕ} {base : ℚ} (hbase : 0 ≤ base) (hnanos : nanos < 10 ^ 9) :
    -(base / 4) ≤ jitterSecs nanos base ∧ jitterSecs nanos base ≤ base / 4 := by
  have hfrac : (nanos : ℚ) / 10 ^ 9 ≤ 1 := by
    rw [div_le_one (by positivity)]
    exact_mod_cast hnanos.le
  have hfrac' : 0 ≤ (nanos : ℚ) / 10 ^ 9 := by positivity
  simp only [jitterSecs]
  constructor
  · nlinarith
  · nlinarith

/-- The range of the sleep after a network error, in nanoseconds. -/
theorem backoffWait_range {attempt nanos : ℕ} (hnanos : nanos < 10 ^ 9) :
    3 * 3 ^ (attempt + 1) * 10 ^ 9 / (4 * 2 ^ (attempt + 1)) ≤ backoffWait attempt nanos ∧
      backoffWait attempt nanos ≤ 5 * 3 ^ (attempt + 1) * 10 ^ 9 / (4 * 2 ^ (attempt + 1)) + 1 := by
  have hbase : DEFAULT_BACKOFF ^ (attempt + 1) = (3 : ℚ) ^ (attempt + 1) / 2 ^ (attempt + 1) := by
    rw [DEFAULT_BACKOFF, div_pow]
  have hone : 1 ≤ DEFAULT_BACKOFF ^ (attempt + 1) := one_le_pow₀ (by norm_num [DEFAULT_BACKOFF])
  obtain ⟨hlow, hhigh⟩ := jitterSecs_range (zero_le_one.trans hone) hnanos
  -- the floor of a tenth of a second is never reached
  have hmax : max (DEFAULT_BACKOFF ^ (attempt + 1) +
      jitterSecs nanos (DEFAULT_BACKOFF ^ (attempt + 1))) (1 / 10) =
      DEFAULT_BACKOFF ^ (attempt + 1) + jitterSecs nanos (DEFAULT_BACKOFF ^ (attempt + 1)) :=
    max_eq_left (by linarith)
  simp only [backoffWait, fromSecs, hmax]
  constructor
  · refine Nat.le_floor (Nat.cast_div_le.trans ?_)
    have hleast : ((3 * 3 ^ (attempt + 1) * 10 ^ 9 : ℕ) : ℚ) / ((4 * 2 ^ (attempt + 1) : ℕ) : ℚ) =
        3 / 4 * DEFAULT_BACKOFF ^ (attempt + 1) * 10 ^ 9 := by
      rw [hbase]
      push_cast
      ring
    rw [hleast]
    linarith
  · rw [← Nat.floor_div_eq_div (K := ℚ), ← Nat.floor_add_one (by positivity)]
    refine Nat.floor_le_floor ?_
    have hmost : ((5 * 3 ^ (attempt + 1) * 10 ^ 9 : ℕ) : ℚ) / ((4 * 2 ^ (attempt + 1) : ℕ) : ℚ) =
        5 / 4 * DEFAULT_BACKOFF ^ (attempt + 1) * 10 ^ 9 := by
      rw [hbase]
      push_cast
      ring
    rw [hmost]
    linarith

/-- After a network error the wait is never below the least pause. -/
theorem leastPause_le_backoffWait {attempt nanos : ℕ} {e : String} (hnanos : nanos < 10 ^ 9) :
    leastPause attempt (.error e : Except String (Answer F)) ≤ backoffWait attempt nanos :=
  (backoffWait_range hnanos).1

/-- Where a call stands when an outcome has come. -/
theorem Receives.between {setting : Setting F} {outcome : Except String (Answer F)}
    (h : Receives setting { call with received := call.received ++ [(now, outcome)] } now outcome
      call')
    (hlength : sends.length = call.received.length + 1)
    (hattempt : call.attempt = networkErrors call.received) :
    call'.received = call.received ++ [(now, outcome)] ∧ call'.Between sends now := by
  have hcount : sends.length = (call.received ++ [(now, outcome)]).length := by
    rw [hlength, List.length_append, List.length_singleton]
  cases h with
  | rateLimited hstatus hhits =>
    refine ⟨rfl, hcount, ?_, pausedSinceLast_concat le_rfl⟩
    simp [networkErrors, hattempt, Except.isOk, Except.toBool]
  | gaveUp hstatus hhits => exact ⟨rfl, trivial⟩
  | finished hstatus =>
    refine ⟨rfl, ?_⟩
    simp only [Call.finish]
    split
    · trivial
    · split
      · trivial
      · trivial
  | backedOff hlt hnanos =>
    refine ⟨rfl, hcount, ?_, pausedSinceLast_concat ?_⟩
    · simp [networkErrors, hattempt, Except.isOk, Except.toBool]
    · rw [← hattempt]
      exact Nat.add_le_add_left (leastPause_le_backoffWait hnanos) now
  | failed hlt => exact ⟨rfl, trivial⟩

/-- One call in a state: what it has sent and received, and where it stands. -/
structure State.PacedCall (s : State F) (c : ℕ) : Prop where
  paced : Paced (s.calls c).received (s.sends c) s.now
  between : (s.calls c).Between (s.sends c) s.now

/-- A request is appended to those that its call has sent. -/
theorem State.sends_send (s : State F) (c : ℕ) (phase : Phase F) (stamped : Stamped) :
    State.sends { s.setPhase c phase with wire := s.wire ++ [⟨c, s.now, stamped⟩] } c =
      s.sends c ++ [⟨c, s.now, stamped⟩] := by
  simp [State.sends, List.filter_append]

/-- What a step of a call does to it. -/
theorem Effect.paced_self [HeaderValue] {setting : Setting F} {s s' : State F} {a : Action F}
    {c : ℕ} (h : Effect setting s a s') (hc : a.call? = some c) (hinv : s.PacedCall c) :
    s'.PacedCall c := by
  obtain ⟨hpaced, hbetween⟩ := hinv
  cases h with
  | advance => cases hc
  -- a call that starts has sent nothing yet
  | start hphase | startSync hphase =>
    cases hc
    simp only [Call.Between, hphase] at hbetween
    constructor
    · rw [State.calls_setCall_self, State.sends_setCall, hbetween.1]
      rw [hbetween.1, hbetween.2] at hpaced
      exact hpaced
    · rw [State.calls_setCall_self]
      exact ⟨congrArg List.length hbetween.1, rfl, fun _ hk => by cases hk⟩
  | load hphase hattempt =>
    cases hc
    simp only [Call.Between, hphase] at hbetween
    constructor
    · rw [State.calls_setPhase_self]
      exact hpaced
    · rw [State.calls_setPhase_self]
      exact hbetween
  | sign hphase hsign =>
    cases hc
    simp only [Call.Between, hphase] at hbetween
    constructor
    · rw [State.calls_setPhase_self]
      exact hpaced
    · rw [State.calls_setPhase_self]
      exact ⟨hbetween.1, hbetween.2.1, hbetween.2.2, le_rfl⟩
  | exhausted hphase hend | refuse hphase hend =>
    cases hc
    constructor
    · rw [State.calls_setPhase_self]
      exact hpaced
    · rw [State.calls_setPhase_self]
      trivial
  | @send _ stamped hphase =>
    -- the request was signed after the pause, and it leaves no earlier
    cases hc
    simp only [Call.Between, hphase] at hbetween
    obtain ⟨hlength, hattempt, hsince, hsigned⟩ := hbetween
    constructor
    · simp only [State.calls_setPhase_self, State.sends_send]
      exact hpaced.send hlength hsince hsigned
    · simp only [State.calls_setPhase_self, State.sends_send]
      refine ⟨?_, hattempt⟩
      rw [List.length_append, hlength, List.length_singleton]
  | receive hphase hreceives =>
    cases hc
    simp only [Call.Between, hphase] at hbetween
    obtain ⟨hlength, hattempt⟩ := hbetween
    obtain ⟨hreceived, hafter⟩ := hreceives.between hlength hattempt
    constructor
    · rw [State.calls_setCall_self, hreceived]
      exact hpaced.receive hlength _
    · rw [State.calls_setCall_self]
      exact hafter
  | wake hphase hdeadline =>
    -- the sleep ends no earlier than its deadline, which the pause has set
    cases hc
    simp only [Call.Between, hphase] at hbetween
    constructor
    · rw [State.calls_setPhase_self]
      exact hpaced
    · rw [State.calls_setPhase_self]
      exact ⟨hbetween.1, hbetween.2.1, fun k hk => (hbetween.2.2 k hk).mono hdeadline⟩
  | store hphase =>
    cases hc
    constructor
    · simp only [State.calls_setPhase_self]
      exact hpaced
    · simp only [State.calls_setPhase_self]
      trivial

/-- Time does not run backwards. -/
theorem Effect.now_le [HeaderValue] {setting : Setting F} {s s' : State F} {a : Action F}
    (h : Effect setting s a s') : s.now ≤ s'.now := by
  cases h with
  | advance => exact Nat.le_add_right ..
  | _ => exact le_rfl

/-- A call stays paced, whatever it and others do. -/
theorem pacedCall_step [HeaderValue] {setting : Setting F} {s s' : State F} {a : Action F} {c : ℕ}
    (h : step setting s a = some s') (hinv : s.PacedCall c) : s'.PacedCall c := by
  by_cases hc : a.call? = some c
  · exact (step_effect h).paced_self hc hinv
  · obtain ⟨hcalls, hsends⟩ := (step_effect h).other hc
    have hnow := (step_effect h).now_le
    constructor
    · rw [hcalls, hsends]
      exact hinv.paced.mono hnow
    · rw [hcalls, hsends]
      exact hinv.between.mono hnow

/-- A client that is new has sent nothing. -/
theorem pacedCall_new (c : ℕ) : (State.new F).PacedCall c where
  paced :=
    { sent := fun _ h => by cases h
      answered := fun _ _ _ h => by cases h
      paused := fun _ _ h => by cases h }
  between := ⟨rfl, rfl⟩

end ExchangeApiws.Native.KucoinClient

namespace ExchangeApiws.Spec

open TransitionSystem Native Native.KucoinClient

/-- In every run of any number of calls through any clones of a client, between two requests of a
    call that follow each other the outcome of the first one came, and after it the call paused
    for what the venue asked for, or for the backoff, before it signed and sent the second. -/
theorem retries_are_paced [Kucoin.HeaderValue] {F : Type} (setting : Setting F)
    {actions : List (Action F)} {s : State F}
    (hrun : run (step setting) (State.new F) actions = some s) {c k : ℕ} {earlier later : Sending}
    (hearlier : (s.sends c)[k]? = some earlier) (hlater : (s.sends c)[k + 1]? = some later) :
    ∃ came outcome, (s.calls c).received[k]? = some (came, outcome) ∧ earlier.sentAt ≤ came ∧
      came + leastPause (networkErrors ((s.calls c).received.take k)) outcome ≤
        later.stamped.signedAt ∧
      later.stamped.signedAt ≤ later.sentAt := by
  have hinv : s.PacedCall c :=
    run_invariant (step setting) (fun _ _ _ hinv hstep => pacedCall_step hstep hinv) hrun
      (pacedCall_new c)
  obtain ⟨hlt, hpaused⟩ := hinv.paced.paused k later hlater
  obtain ⟨came, outcome, hk⟩ : ∃ came outcome,
      (s.calls c).received[k]? = some (came, outcome) := ⟨_, _, List.getElem?_eq_getElem hlt⟩
  obtain ⟨sending, hsending, hle⟩ := hinv.paced.answered k came outcome hk
  obtain rfl : earlier = sending := Option.some.inj (hearlier.symm.trans hsending)
  exact ⟨came, outcome, hk, hle, hpaused came outcome hk,
    (hinv.paced.sent later (List.mem_of_getElem? hlater)).1⟩

open scoped Kucoin.SampleHeaders

/-- The call that is told to wait. -/
theorem retries_are_paced_rateLimited :
    ∃ earlier later : Sending, ∃ came outcome,
      (sampleState.calls 0).received[0]? = some (came, outcome) ∧ earlier.sentAt ≤ came ∧
        came + leastPause (networkErrors ((sampleState.calls 0).received.take 0)) outcome ≤
          later.stamped.signedAt ∧
        later.stamped.signedAt ≤ later.sentAt := by
  have hlength : 1 < (sampleState.sends 0).length := by decide +kernel
  exact ⟨_, _, retries_are_paced sampleSetting run_sampleActions
    (List.getElem?_eq_getElem (Nat.zero_lt_one.trans hlength)) (List.getElem?_eq_getElem hlength)⟩

end ExchangeApiws.Spec
