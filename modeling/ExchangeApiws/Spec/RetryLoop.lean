import ExchangeApiws.Native.Http

/-!
# Which attempt ends a call

The retry loop hides its attempts from the caller. Here the attempt that ends it is read
off the outcomes alone: the first one that is a response other than a 429, the network error
that uses up the retry budget, or the 429 after the last one allowed.

## Key results

- `settles_cons_succ`: what a later attempt settles does not depend on the first one's turn
- `retryLoop_eq_some_iff`: the loop returns the outcome of the deciding attempt and has sent
  one request for each attempt up to it
- `retryLoop_isSome`: every call ends, after eight outcomes at the latest
- `AllFrom.retryLoop`: the loop sends what it builds
-/

namespace ExchangeApiws.Spec

open Native

variable {F : Type}

/-- The send failed with a network error. -/
def IsNetworkError : Except String (Response F) → Bool
  | .error _ => true
  | .ok _ => false

/-- The send came back with HTTP 429. -/
def IsRateLimit : Except String (Response F) → Bool
  | .error _ => false
  | .ok resp => resp.status = 429

@[simp] theorem isNetworkError_error (e : String) :
    IsNetworkError (.error e : Except String (Response F)) = true := rfl

@[simp] theorem isNetworkError_ok (resp : Response F) : IsNetworkError (.ok resp) = false := rfl

@[simp] theorem isRateLimit_error (e : String) :
    IsRateLimit (.error e : Except String (Response F)) = false := rfl

@[simp] theorem isRateLimit_ok (resp : Response F) :
    IsRateLimit (.ok resp) = decide (resp.status = 429) := rfl

/-- The loop ends at the `n`-th outcome if it gets there, having counted `attempt` network
    errors and `hits` rate limits before the first one. -/
def Settles (retries attempt hits : ℕ) (outcomes : List (Except String (Response F))) (n : ℕ) :
    Prop :=
  ∃ outcome, outcomes[n]? = some outcome ∧
    (IsNetworkError outcome = true →
      retries ≤ attempt + (outcomes.take (n + 1)).countP IsNetworkError) ∧
    (IsRateLimit outcome = true →
      MAX_RATE_LIMIT_RETRIES < hits + (outcomes.take (n + 1)).countP IsRateLimit)

/-- The loop ends at the `n`-th outcome: it settles the call and no earlier one does. -/
def Decides (retries attempt hits : ℕ) (outcomes : List (Except String (Response F))) (n : ℕ) :
    Prop :=
  Settles retries attempt hits outcomes n ∧ ∀ m < n, ¬ Settles retries attempt hits outcomes m

/-- The loop's result when it ends at `outcome`. -/
def finalResult (label : String) : Except String (Response F) → Result (Response F)
  | .error e => .error (.http e)
  | .ok resp =>
    if resp.status = 429 then
      .error (.api "429" (label ++ " was rate-limited " ++ toString MAX_RATE_LIMIT_RETRIES ++
        " times; giving up"))
    else .ok resp

/-- A later outcome settles the call as it does after the first one has been counted. -/
theorem settles_cons_succ (retries attempt hits : ℕ) (outcome : Except String (Response F))
    (rest : List (Except String (Response F))) (n : ℕ) :
    Settles retries attempt hits (outcome :: rest) (n + 1) ↔
      Settles retries (attempt + if IsNetworkError outcome then 1 else 0)
        (hits + if IsRateLimit outcome then 1 else 0) rest n := by
  simp only [Settles, List.getElem?_cons_succ, List.take_succ_cons, List.countP_cons,
    Nat.add_assoc, Nat.add_comm (List.countP _ _)]

/-- When the first outcome settles the call, it decides it. -/
theorem decides_of_settles_zero {retries attempt hits n : ℕ}
    {outcomes : List (Except String (Response F))} (h : Settles retries attempt hits outcomes 0) :
    Decides retries attempt hits outcomes n ↔ n = 0 := by
  constructor
  · -- a later deciding outcome would come after one that settles
    intro hn
    by_contra hne
    exact hn.2 0 (Nat.pos_of_ne_zero hne) h
  · intro hn
    subst hn
    exact ⟨h, fun m hm => absurd hm (Nat.not_lt_zero m)⟩

/-- When the first outcome does not settle the call, a later one decides it, as it does
    after the first one has been counted. -/
theorem decides_cons {retries attempt hits n : ℕ} {outcome : Except String (Response F)}
    {rest : List (Except String (Response F))}
    (h : ¬ Settles retries attempt hits (outcome :: rest) 0) :
    Decides retries attempt hits (outcome :: rest) n ↔
      ∃ m, n = m + 1 ∧ Decides retries (attempt + if IsNetworkError outcome then 1 else 0)
        (hits + if IsRateLimit outcome then 1 else 0) rest m := by
  constructor
  · intro hn
    cases n with
    | zero => exact absurd hn.1 h
    | succ m =>
      refine ⟨m, rfl, (settles_cons_succ ..).mp hn.1, fun k hk hset => ?_⟩
      exact hn.2 (k + 1) (Nat.succ_lt_succ hk) ((settles_cons_succ ..).mpr hset)
  · intro hn
    obtain ⟨m, rfl, hset, hmin⟩ := hn
    refine ⟨(settles_cons_succ ..).mpr hset, fun k hk hset' => ?_⟩
    cases k with
    | zero => exact h hset'
    | succ k => exact hmin k (Nat.lt_of_succ_lt_succ hk) ((settles_cons_succ ..).mp hset')

/-- The requests of the attempts up to the `n`-th, in order. -/
def requestsUpTo (build : ℕ → Request F) (start n : ℕ) : List (Request F) :=
  (List.range (n + 1)).map fun i => build (start + i)

/-- The first request, then those of the later attempts. -/
theorem requestsUpTo_succ (build : ℕ → Request F) (start n : ℕ) :
    requestsUpTo build start (n + 1) = build start :: requestsUpTo build (start + 1) n := by
  simp only [requestsUpTo, List.range_succ_eq_map (n := n + 1), List.map_cons, List.map_map,
    Nat.add_zero, List.cons.injEq, true_and]
  exact List.map_congr_left fun i _ => congrArg build (by simp only [Nat.succ_eq_add_one]; omega)

/-- There is one request more than there are retries. -/
theorem length_requestsUpTo (build : ℕ → Request F) (start n : ℕ) :
    (requestsUpTo build start n).length = n + 1 := by
  rw [requestsUpTo, List.length_map, List.length_range]

/-- Whether the first outcome settles the call. -/
theorem settles_zero {retries attempt hits : ℕ} {outcome : Except String (Response F)}
    {rest : List (Except String (Response F))} :
    Settles retries attempt hits (outcome :: rest) 0 ↔
      (IsNetworkError outcome = true → retries ≤ attempt + 1) ∧
        (IsRateLimit outcome = true → MAX_RATE_LIMIT_RETRIES < hits + 1) := by
  simp only [Settles, List.getElem?_cons_zero, Option.some.injEq, exists_eq_left', Nat.zero_add,
    List.take_succ_cons, List.take_zero, List.countP_cons, List.countP_nil]
  constructor <;> intro h <;> refine ⟨fun hnet => ?_, fun hrate => ?_⟩
  · have hle := h.1 hnet
    rwa [if_pos hnet] at hle
  · have hlt := h.2 hrate
    rwa [if_pos hrate] at hlt
  · rw [if_pos hnet]
    exact h.1 hnet
  · rw [if_pos hrate]
    exact h.2 hrate

/-- `sent` is what the loop returns when it has counted `attempt` network errors and `hits`
    rate limits before the first of the outcomes. -/
def EndsWith (label : String) (retries : ℕ) (build : ℕ → Request F) (attempt hits : ℕ)
    (outcomes : List (Except String (Response F))) (sent : Sent F (Response F)) : Prop :=
  ∃ n outcome, Decides retries attempt hits outcomes n ∧ outcomes[n]? = some outcome ∧
    sent = ⟨finalResult label outcome, requestsUpTo build (attempt + hits) n⟩

section

variable {label : String} {retries : ℕ} {build : ℕ → Request F} {attempt hits : ℕ}
  {outcome : Except String (Response F)} {rest : List (Except String (Response F))}
  {sent : Sent F (Response F)}

/-- The loop ends at an outcome that settles the call. -/
theorem endsWith_of_settles (h : Settles retries attempt hits (outcome :: rest) 0) :
    EndsWith label retries build attempt hits (outcome :: rest) sent ↔
      some sent = some (Sent.after (build (attempt + hits)) ⟨finalResult label outcome, []⟩) := by
  constructor
  · intro hsent
    obtain ⟨n, o, hn, ho, rfl⟩ := hsent
    obtain rfl := (decides_of_settles_zero h).mp hn
    obtain rfl := Option.some.inj ho
    rfl
  · intro hsent
    obtain rfl := Option.some.inj hsent
    exact ⟨0, outcome, (decides_of_settles_zero h).mpr rfl, rfl, rfl⟩

/-- Past an outcome that does not settle the call, the loop ends as the rest of it does. -/
theorem endsWith_of_not_settles (h : ¬ Settles retries attempt hits (outcome :: rest) 0) :
    EndsWith label retries build attempt hits (outcome :: rest) sent ↔
      ∃ sent', EndsWith label retries build (attempt + if IsNetworkError outcome then 1 else 0)
          (hits + if IsRateLimit outcome then 1 else 0) rest sent' ∧
        Sent.after (build (attempt + hits)) sent' = sent := by
  -- a network error and a rate limit are told apart, so exactly one send is counted
  have hone : attempt + hits + 1 = (attempt + if IsNetworkError outcome then 1 else 0) +
      (hits + if IsRateLimit outcome then 1 else 0) := by
    have hnot := mt settles_zero.mpr h
    cases outcome with
    | error e => simp only [isNetworkError_error, isRateLimit_error, if_true]; simp; omega
    | ok resp =>
      by_cases hstatus : resp.status = 429
      · simp [hstatus, Nat.add_assoc]
      · simp [hstatus] at hnot
  constructor
  · intro hsent
    obtain ⟨n, o, hn, ho, rfl⟩ := hsent
    obtain ⟨m, rfl, hm⟩ := (decides_cons h).mp hn
    refine ⟨_, ⟨m, o, hm, ho, rfl⟩, ?_⟩
    rw [requestsUpTo_succ, hone]
    rfl
  · intro hsent
    obtain ⟨_, ⟨m, o, hm, ho, rfl⟩, rfl⟩ := hsent
    refine ⟨m + 1, o, (decides_cons h).mpr ⟨m, rfl, hm⟩, ho, ?_⟩
    rw [requestsUpTo_succ, hone]
    rfl

end

/-- The loop returns exactly when one of the outcomes decides the call; it returns that
    outcome and has sent one request for each attempt up to it. -/
theorem retryLoop_eq_some_iff {label : String} {retries : ℕ} {build : ℕ → Request F}
    {outcomes : List (Except String (Response F))} {attempt hits : ℕ}
    {lastErr : Option ExchangeError} (hattempt : attempt < retries)
    {sent : Sent F (Response F)} :
    retryLoop label (.ok ()) retries build outcomes attempt hits lastErr = some sent ↔
      EndsWith label retries build attempt hits outcomes sent := by
  induction outcomes generalizing attempt hits lastErr sent with
  | nil =>
    -- the loop waits for an outcome, and there is none that could decide
    rw [retryLoop, if_pos hattempt]
    refine iff_of_false (fun h => by cases h) fun h => ?_
    obtain ⟨n, o, _, ho, _⟩ := h
    simp at ho
  | cons outcome rest ih =>
    unfold retryLoop
    simp only [if_pos hattempt]
    cases outcome with
    | error e =>
      dsimp only
      by_cases hlast : attempt < retries - 1
      · -- a retry is left
        have hset : ¬ Settles retries attempt hits (Except.error e :: rest) 0 := by
          rw [settles_zero]
          simp only [isNetworkError_error, forall_const, not_and_or]
          exact Or.inl (by omega)
        rw [if_pos hlast, endsWith_of_not_settles hset, Option.map_eq_some_iff]
        simp [ih (show attempt + 1 < retries by omega)]
      · -- this error uses up the budget
        have hset : Settles retries attempt hits (Except.error e :: rest) 0 := by
          rw [settles_zero]
          simp only [isNetworkError_error, isRateLimit_error]
          exact ⟨fun _ => by omega, fun h => by cases h⟩
        rw [if_neg hlast, endsWith_of_settles hset]
        exact eq_comm
    | ok resp =>
      dsimp only
      by_cases hstatus : resp.status = 429
      · rw [if_pos hstatus]
        -- a 429 has a budget of its own and leaves `attempt` alone
        by_cases hhits : hits + 1 > MAX_RATE_LIMIT_RETRIES
        · have hset : Settles retries attempt hits (Except.ok resp :: rest) 0 := by
            have hnet : IsNetworkError (Except.ok resp) = true → retries ≤ attempt + 1 :=
              fun h => by cases h
            exact settles_zero.mpr ⟨hnet, fun _ => hhits⟩
          rw [if_pos hhits, endsWith_of_settles hset]
          simp only [finalResult, if_pos hstatus]
          exact eq_comm
        · have hset : ¬ Settles retries attempt hits (Except.ok resp :: rest) 0 := by
            rw [settles_zero]
            simp only [isRateLimit_ok, hstatus, decide_true, forall_const, not_and_or]
            exact Or.inr hhits
          rw [if_neg hhits, endsWith_of_not_settles hset, Option.map_eq_some_iff]
          simp [ih hattempt, hstatus]
      · -- any other response ends the call, whatever its status
        have hset : Settles retries attempt hits (Except.ok resp :: rest) 0 := by
          rw [settles_zero]
          simp [hstatus]
        rw [if_neg hstatus, endsWith_of_settles hset]
        simp only [finalResult, if_neg hstatus]
        exact eq_comm

/-- The loop of a call whose headers cannot be built returns at once. -/
theorem retryLoop_headers_error {label : String} {retries : ℕ} {build : ℕ → Request F}
    {outcomes : List (Except String (Response F))} {attempt hits : ℕ}
    {lastErr : Option ExchangeError} {e : ExchangeError} (hattempt : attempt < retries) :
    retryLoop label (.error e) retries build outcomes attempt hits lastErr =
      some ⟨.error e, []⟩ := by
  unfold retryLoop
  rw [if_pos hattempt]

/-- Every outcome uses up one of the network errors or rate limits that are left, so a call
    ends when it gets that many. With the defaults, none makes more than eight sends. -/
theorem retryLoop_isSome {label : String} {headers : Result Unit} {retries : ℕ}
    {build : ℕ → Request F} {outcomes : List (Except String (Response F))} {attempt hits : ℕ}
    {lastErr : Option ExchangeError} (hattempt : attempt < retries)
    (hhits : hits ≤ MAX_RATE_LIMIT_RETRIES)
    (hlength : retries - attempt + (MAX_RATE_LIMIT_RETRIES - hits) ≤ outcomes.length) :
    (retryLoop label headers retries build outcomes attempt hits lastErr).isSome = true := by
  induction outcomes generalizing attempt hits lastErr with
  | nil =>
    rw [List.length_nil] at hlength
    omega
  | cons outcome rest ih =>
    rw [List.length_cons] at hlength
    unfold retryLoop
    rw [if_pos hattempt]
    cases headers with
    | error e => rfl
    | ok _ =>
      simp only [Option.isSome_map]
      cases outcome with
      | error e =>
        -- a network error uses up an attempt
        dsimp only
        split
        · exact ih (by omega) hhits (by omega)
        · rfl
      | ok resp =>
        -- a 429 uses up one of the rate limits
        dsimp only
        split
        · split
          · rfl
          · exact ih hattempt (by omega) (by omega)
        · rfl

/-! ## The requests of a call -/

/-- Every request that the call sends is one of `build 0`, `build 1`, … -/
structure AllFrom {U : Type} (build : ℕ → Request F) (call : Option (Sent F U)) : Prop where
  mem : ∀ sent, call = some sent → ∀ r ∈ sent.requests, ∃ n, r = build n

section

variable {U V : Type} {build : ℕ → Request F}

/-- What is done with the result changes no request. -/
theorem AllFrom.map {call : Option (Sent F U)} (h : AllFrom build call) (f : U → Result V) :
    AllFrom build (call.map (·.andThen f)) := by
  refine ⟨fun sent hsent r hr => ?_⟩
  obtain ⟨inner, hinner, rfl⟩ := Option.map_eq_some_iff.mp hsent
  exact h.mem inner hinner r hr

/-- A call that sends nothing. -/
theorem AllFrom.none_sent (build : ℕ → Request F) (result : Result U) :
    AllFrom build (some ⟨result, []⟩) := by
  refine ⟨fun sent hsent r hr => ?_⟩
  obtain rfl := Option.some.inj hsent
  cases hr

/-- The loop sends what it builds. -/
theorem AllFrom.retryLoop (label : String) (headers : Result Unit) (build : ℕ → Request F)
    (outcomes : List (Except String (Response F))) :
    AllFrom build (retryLoop label headers DEFAULT_RETRIES build outcomes 0 0 none) := by
  cases headers with
  | error e =>
    rw [retryLoop_headers_error (by decide)]
    exact AllFrom.none_sent build _
  | ok _ =>
    refine ⟨fun sent hsent r hr => ?_⟩
    obtain ⟨n, outcome, _, _, rfl⟩ := (retryLoop_eq_some_iff (by decide)).mp hsent
    obtain ⟨i, _, rfl⟩ := List.mem_map.mp hr
    exact ⟨_, rfl⟩

end

end ExchangeApiws.Spec
