import ExchangeApiws.Native.RetryLoops
import ExchangeApiws.Spec.RetryLoop

/-!
# The three retry loops agree

The loops of `PublicRestClient::get`, `send_with_retry` and
`KuCoinClient::execute_with_retries` satisfy the same equations, so all of them are the loop
of `Native/Http` up to what they make of the response that ends it.

## Key results

- `IsRetryLoop`: the equations of one pass
- `IsRetryLoop.eq_retryLoop`: a loop with these equations is `retryLoop`
- `decides_lt`: the deciding attempt comes among the first eight
- `retry_loops_agree`: the three loops end at the same attempt, in the same way
-/

namespace ExchangeApiws.Spec

open Native Native.RetryLoops

variable {F R T : Type}

/-- Build and send the next request. -/
def nextSend (build : ℕ → R) (s : LoopState R) : LoopState R :=
  (s.build (build s.built.length)).send (build s.built.length)

/-- The equations of one pass through a retry loop that has not used up its budget. -/
structure IsRetryLoop (label : String) (retries : ℕ) (finish : Response F → Result T)
    (build : ℕ → R)
    (loop : List (Except String (Response F)) → LoopState R → Option (Ended R T)) : Prop where
  wait (s : LoopState R) (hs : s.attempt < retries) : loop [] s = none
  networkError (e : String) (rest : List (Except String (Response F))) (s : LoopState R)
    (hs : s.attempt < retries) :
    loop (.error e :: rest) s =
      if s.attempt < retries - 1 then
        loop rest { nextSend build s with lastErr := some (.http e), attempt := s.attempt + 1 }
      else some ((nextSend build s).return (.error (.http e)))
  response (resp : Response F) (rest : List (Except String (Response F))) (s : LoopState R)
    (hs : s.attempt < retries) :
    loop (.ok resp :: rest) s =
      if resp.status = 429 then
        if s.rateLimitHits + 1 > MAX_RATE_LIMIT_RETRIES then
          some ((nextSend build s).return (.error (.api "429" (label ++ " was rate-limited " ++
            toString MAX_RATE_LIMIT_RETRIES ++ " times; giving up"))))
        else
          loop rest { nextSend build s with
            lastErr := some (.api "429" "rate limited"), rateLimitHits := s.rateLimitHits + 1 }
      else some ((nextSend build s).return (finish resp))

/-! ## The equations of the three loops -/

/-- `get` is a retry loop. -/
theorem isRetryLoop_get (url path : String) (fromJson : Value F → Except String T) :
    IsRetryLoop ("GET " ++ path) DEFAULT_RETRIES (decodeResponse fromJson) (fun _ => url)
      (getLoop url path fromJson) where
  wait s hs := by rw [getLoop, if_pos hs]
  networkError e rest s hs := by
    rw [getLoop, if_pos hs]
    rfl
  response resp rest s hs := by
    rw [getLoop, if_pos hs]
    rfl

/-- `send` is a retry loop. -/
theorem isRetryLoop_send (label : String) (build : ℕ → R) :
    IsRetryLoop (F := F) label DEFAULT_RETRIES .ok build (sendLoop label build) where
  wait s hs := by rw [sendLoop, if_pos hs]
  networkError e rest s hs := by
    rw [sendLoop, if_pos hs]
    rfl
  response resp rest s hs := by
    rw [sendLoop, if_pos hs]
    rfl

/-- The loop of the KuCoin client, when its requests can be built. -/
theorem isRetryLoop_execute [Kucoin.HeaderValue] {key verb endpoint url : String}
    {body : Option String} {retries : ℕ} {timestamp : ℕ → ℤ} {build : ℕ → KucoinRequest}
    (hbuild : ∀ n, buildRequest key verb url body (timestamp n) = .ok (build n))
    (fromValue : Value F → Except String T) :
    IsRetryLoop (verb ++ " " ++ endpoint) retries (Kucoin.unwrapResponse fromValue) build
      (executeLoop key verb endpoint url body retries timestamp fromValue) where
  wait s hs := by rw [executeLoop, if_pos hs, hbuild]
  networkError e rest s hs := by
    rw [executeLoop, if_pos hs, hbuild]
    rfl
  response resp rest s hs := by
    rw [executeLoop, if_pos hs, hbuild]
    rfl

/-- Without a request the KuCoin client returns before it sends anything. -/
theorem executeWithRetries_of_error [Kucoin.HeaderValue] {key verb endpoint url : String}
    {body : Option String} {retries : ℕ} {timestamp : ℕ → ℤ} {e : ExchangeError}
    (hretries : 0 < retries) (hbuild : buildRequest key verb url body (timestamp 0) = .error e)
    (fromValue : Value F → Except String T) (outcomes : List (Except String (Response F))) :
    executeWithRetries key verb endpoint url body retries timestamp fromValue outcomes =
      some ⟨.error e, [], [], false⟩ := by
  have hstart : (LoopState.start KucoinRequest).attempt < retries := hretries
  have hbuild' : buildRequest key verb url body
      (timestamp (LoopState.start KucoinRequest).built.length) = .error e := hbuild
  rw [executeWithRetries]
  unfold executeLoop
  simp only [if_pos hstart, hbuild']
  rfl

/-! ## One loop for the three -/

/-- What a loop returns, read off what `retryLoop` returns from the same variables. -/
def endedOf (finish : Response F → Result T) (build : ℕ → R) (s : LoopState R)
    (sent : Sent F (Response F)) : Ended R T :=
  let requests := (List.range sent.requests.length).map fun i => build (s.built.length + i)
  ⟨sent.result.bind finish, s.built ++ requests, s.sent ++ requests, false⟩

/-- The first send and the later ones, in the order in which they are made. -/
theorem endedOf_after (finish : Response F → Result T) (build : ℕ → R) (s s' : LoopState R)
    (request : Request F) (sent : Sent F (Response F))
    (hbuilt : s'.built = (nextSend build s).built) (hsent : s'.sent = (nextSend build s).sent) :
    endedOf finish build s (Sent.after request sent) = endedOf finish build s' sent := by
  -- the first request is built at the current length, the others one further on
  have hrange : (List.range (sent.requests.length + 1)).map
      (fun i => build (s.built.length + i)) =
      build s.built.length ::
        (List.range sent.requests.length).map (fun i => build (s.built.length + 1 + i)) := by
    rw [List.range_succ_eq_map, List.map_cons, List.map_map]
    congr 1
    refine List.map_congr_left fun i _ => congrArg build ?_
    show s.built.length + (i + 1) = s.built.length + 1 + i
    omega
  simp only [endedOf, Sent.after, List.length_cons, hrange, hbuilt, hsent, nextSend,
    LoopState.build, LoopState.send, List.length_append, List.length_nil, List.append_assoc,
    List.cons_append, List.nil_append, Nat.zero_add]

/-- A loop with these equations is `retryLoop`, whatever requests that one is given. -/
theorem IsRetryLoop.eq_retryLoop {label : String} {retries : ℕ} {finish : Response F → Result T}
    {build : ℕ → R} {loop : List (Except String (Response F)) → LoopState R → Option (Ended R T)}
    (h : IsRetryLoop label retries finish build loop) (request : ℕ → Request F)
    (outcomes : List (Except String (Response F))) (s : LoopState R)
    (hs : s.attempt < retries) :
    loop outcomes s =
      (retryLoop label (.ok ()) retries request outcomes s.attempt s.rateLimitHits
        s.lastErr).map (endedOf finish build s) := by
  induction outcomes generalizing s with
  | nil =>
    rw [h.wait s hs, retryLoop, if_pos hs]
    rfl
  | cons outcome rest ih =>
    unfold retryLoop
    -- one request is sent, then the pass ends the call or goes on
    simp only [if_pos hs, Option.map_map]
    cases outcome with
    | error e =>
      rw [h.networkError e rest s hs]
      dsimp only
      split
      · rw [ih _ (show s.attempt + 1 < retries by omega)]
        congr 1
        funext sent
        exact (endedOf_after finish build s _ _ sent rfl rfl).symm
      · rfl
    | ok resp =>
      rw [h.response resp rest s hs]
      dsimp only
      split
      · split
        · rfl
        · refine (ih _ ?_).trans ?_
          · exact hs
          · congr 1
            funext sent
            exact (endedOf_after finish build s _ _ sent rfl rfl).symm
      · rfl

/-! ## Where a call ends -/

/-- The deciding attempt comes before the network errors and the rate limits that are left
    have all been used. -/
theorem decides_lt {retries attempt hits n : ℕ} {outcomes : List (Except String (Response F))}
    (hattempt : attempt < retries) (hhits : hits ≤ MAX_RATE_LIMIT_RETRIES)
    (h : Decides retries attempt hits outcomes n) :
    n < retries - attempt + (MAX_RATE_LIMIT_RETRIES - hits) := by
  induction outcomes generalizing attempt hits n with
  | nil =>
    obtain ⟨⟨outcome, houtcome, _⟩, _⟩ := h
    cases houtcome
  | cons outcome rest ih =>
    by_cases hset : Settles retries attempt hits (outcome :: rest) 0
    -- the first outcome decides, and at least one attempt is left
    · rw [(decides_of_settles_zero hset).mp h]
      omega
    · obtain ⟨m, rfl, hm⟩ := (decides_cons hset).mp h
      have hnot := mt settles_zero.mpr hset
      cases outcome with
      | error e =>
        -- one network error fewer is left
        simp only [isNetworkError_error, isRateLimit_error, if_true, Bool.false_eq_true, if_false,
          Nat.add_zero, forall_const, not_and_or, false_implies, not_true_eq_false, or_false]
          at hm hnot
        have hlt := ih (show attempt + 1 < retries by omega) hhits hm
        omega
      | ok resp =>
        by_cases hstatus : resp.status = 429
        · simp only [isNetworkError_ok, isRateLimit_ok, hstatus, decide_true, if_true,
            Bool.false_eq_true, if_false, Nat.add_zero, forall_const, not_and_or, false_implies,
            not_true_eq_false, false_or] at hm hnot
          -- one rate limit fewer is left, and the network errors are as before
          have hlt := ih hattempt (show hits + 1 ≤ MAX_RATE_LIMIT_RETRIES by omega) hm
          omega
        -- any other response would have decided
        · simp [hstatus] at hnot

/-- What a call returns from attempt `n` with this outcome: it has built and sent `n + 1`
    requests and did not fall through the loop. -/
def endedAt (label : String) (finish : Response F → Result T) (build : ℕ → R) (n : ℕ)
    (outcome : Except String (Response F)) : Ended R T where
  result := (finalResult label outcome).bind finish
  built := (List.range (n + 1)).map build
  sent := (List.range (n + 1)).map build
  fellThrough := false

/-- A loop with these equations comes back from the attempt that decides the call, and from
    no other. -/
theorem IsRetryLoop.eq_some_iff {label : String} {retries : ℕ} {finish : Response F → Result T}
    {build : ℕ → R} {loop : List (Except String (Response F)) → LoopState R → Option (Ended R T)}
    (h : IsRetryLoop label retries finish build loop) (hretries : 0 < retries)
    {outcomes : List (Except String (Response F))} {ended : Ended R T} :
    loop outcomes (LoopState.start R) = some ended ↔
      ∃ n outcome, Decides retries 0 0 outcomes n ∧ outcomes[n]? = some outcome ∧
        ended = endedAt label finish build n outcome := by
  -- which requests `retryLoop` is given does not matter
  let request : ℕ → Request F := fun _ => ⟨"", [], .form []⟩
  have hended : ∀ n outcome, endedOf finish build (LoopState.start R)
      ⟨finalResult label outcome, requestsUpTo request (0 + 0) n⟩ =
        endedAt label finish build n outcome := by
    intro n outcome
    simp only [endedOf, endedAt, length_requestsUpTo, LoopState.start, List.nil_append,
      List.length_nil, Nat.zero_add]
  rw [h.eq_retryLoop request outcomes _ hretries, Option.map_eq_some_iff]
  constructor
  · rintro ⟨sent, hsent, rfl⟩
    obtain ⟨n, outcome, hn, houtcome, rfl⟩ := (retryLoop_eq_some_iff hretries).mp hsent
    exact ⟨n, outcome, hn, houtcome, hended n outcome⟩
  · rintro ⟨n, outcome, hn, houtcome, rfl⟩
    exact ⟨_, (retryLoop_eq_some_iff hretries).mpr ⟨n, outcome, hn, houtcome, rfl⟩,
      hended n outcome⟩

/-- Eight outcomes decide a call. -/
theorem exists_decides {outcomes : List (Except String (Response F))}
    (hlength : 8 ≤ outcomes.length) : ∃ n, Decides DEFAULT_RETRIES 0 0 outcomes n := by
  let build : ℕ → Request F := fun _ => ⟨"", [], .form []⟩
  have hretries : 0 < DEFAULT_RETRIES := by decide
  have hsome : (retryLoop "" (.ok ()) DEFAULT_RETRIES build outcomes 0 0 none).isSome = true :=
    retryLoop_isSome hretries (Nat.zero_le _) hlength
  obtain ⟨sent, hsent⟩ := Option.isSome_iff_exists.mp hsome
  obtain ⟨n, _, hn, _⟩ := (retryLoop_eq_some_iff hretries).mp hsent
  exact ⟨n, hn⟩

/-- Whatever the successive sends come back with, the three loops with three retries come back
    from the same attempt: the first one that is a response other than a 429, the third network
    error or the sixth 429. Each returns that response decoded, that network error or the 429
    error; it has run its builder once for each send and sent at most eight requests. A KuCoin
    request that cannot be built is never sent. -/
theorem retry_loops_agree [Kucoin.HeaderValue] {U : Type} (url path : String)
    (fromJson : Value F → Except String T) (label : String) (build : ℕ → R)
    (key verb endpoint kucoinUrl : String) (body : Option String) (timestamp : ℕ → ℤ)
    (fromValue : Value F → Except String U) (outcomes : List (Except String (Response F))) :
    (∀ ended, get url path fromJson outcomes = some ended ↔
      ∃ n outcome, Decides 3 0 0 outcomes n ∧ outcomes[n]? = some outcome ∧
        ended = endedAt ("GET " ++ path) (decodeResponse fromJson) (fun _ => url) n outcome) ∧
    (∀ ended, RetryLoops.sendWithRetry label build outcomes = some ended ↔
      ∃ n outcome, Decides 3 0 0 outcomes n ∧ outcomes[n]? = some outcome ∧
        ended = endedAt label .ok build n outcome) ∧
    (∀ request : ℕ → KucoinRequest,
      (∀ n, buildRequest key verb kucoinUrl body (timestamp n) = .ok (request n)) →
      ∀ ended, RetryLoops.executeWithRetries key verb endpoint kucoinUrl body 3 timestamp
          fromValue outcomes = some ended ↔
        ∃ n outcome, Decides 3 0 0 outcomes n ∧ outcomes[n]? = some outcome ∧
          ended = endedAt (verb ++ " " ++ endpoint) (Kucoin.unwrapResponse fromValue) request n
            outcome) ∧
    (∀ e, buildRequest key verb kucoinUrl body (timestamp 0) = .error e →
      RetryLoops.executeWithRetries key verb endpoint kucoinUrl body 3 timestamp fromValue
        outcomes = some ⟨.error e, [], [], false⟩) ∧
    (∀ n, Decides 3 0 0 outcomes n → n < 8) ∧
    (8 ≤ outcomes.length → ∃ n, Decides 3 0 0 outcomes n) := by
  have hretries : 0 < DEFAULT_RETRIES := by decide
  -- each function is the same loop over its own builder and its own decoder
  refine ⟨fun ended => ?_, fun ended => ?_, fun request hrequest ended => ?_, fun e he => ?_,
    fun n hn => ?_, exists_decides⟩
  · exact (isRetryLoop_get url path fromJson).eq_some_iff hretries
  · exact (isRetryLoop_send label build).eq_some_iff hretries
  · exact (isRetryLoop_execute hrequest fromValue).eq_some_iff hretries
  · exact executeWithRetries_of_error hretries he fromValue outcomes
  · exact decides_lt hretries (Nat.zero_le _) hn

/-! ### Eight sends -/

open scoped Kucoin.SampleHeaders

/-- A response with this status and an empty body. -/
def emptyResponse (status : ℕ) : Response ℤ := ⟨status, .ok "", .ok .null⟩

/-- Two network errors among five rate limits, then an answer. -/
def mixedOutcomes : List (Except String (Response ℤ)) :=
  [.ok (emptyResponse 429), .error "timeout", .ok (emptyResponse 429), .ok (emptyResponse 429),
    .error "timeout", .ok (emptyResponse 429), .ok (emptyResponse 429), .ok (emptyResponse 200)]

/-- The last outcome of the example decides. -/
theorem decides_mixedOutcomes : Decides 3 0 0 mixedOutcomes 7 := by
  -- no earlier attempt uses up a budget, and each uses one of the two
  have hbudget : ∀ m < 7, (mixedOutcomes.take (m + 1)).countP IsNetworkError < 3 ∧
      (mixedOutcomes.take (m + 1)).countP IsRateLimit ≤ 5 ∧
      mixedOutcomes[m]?.any (fun o => IsNetworkError o || IsRateLimit o) = true := by
    decide
  refine ⟨⟨_, rfl, by decide, by decide⟩, ?_⟩
  rintro m hm ⟨outcome, houtcome, hnet, hrate⟩
  obtain ⟨hnets, hrates, hany⟩ := hbudget m hm
  rw [houtcome, Option.any_some, Bool.or_eq_true] at hany
  rcases hany with h | h
  · have hle := hnet h
    omega
  · have hlt := hrate h
    simp only [MAX_RATE_LIMIT_RETRIES] at hlt
    omega

/-- Eight requests are sent in the example. -/
theorem retry_loops_agree_mixedOutcomes :
    (RetryLoops.executeWithRetries "key" "GET" "/time" "https://host/time" none 3
      (fun n => (n : ℤ)) (fun _ => Except.ok ()) mixedOutcomes).map (·.sent.length) = some 8 := by
  have h := ((retry_loops_agree "https://host/time" "/time" (fun _ => Except.ok ()) "GET /time"
    (fun n => n) "key" "GET" "/time" "https://host/time" none (fun n => (n : ℤ))
    (fun _ => Except.ok ()) mixedOutcomes).2.2.1
    (fun n => ⟨"GET", "https://host/time", "key", n, none⟩) (fun n => by rfl) _).mpr
    ⟨7, _, decides_mixedOutcomes, rfl, rfl⟩
  rw [h]
  rfl

end ExchangeApiws.Spec
