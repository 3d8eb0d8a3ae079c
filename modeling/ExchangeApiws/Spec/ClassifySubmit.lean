import ExchangeApiws.Native.KucoinRest
import ExchangeApiws.Spec.RetryLoop

/-!
# Triage of a failed order submit

`classify_submit` promises that an error after which the order may exist is `Ambiguous`. It
sees the last error only, and the retry loop hides the attempts before it. The file
determines for which attempts the promise is kept by `place_order_with_client_oid`.

## Key results

- `classifySubmit_unwrapResponse_iff`: which responses are triaged as ambiguous
- `executeWithRetries_eq_some_iff`: what a call returns, from its attempts
- `placeOrder_triage_iff`: when the triage of a submit is sound
-/

namespace ExchangeApiws.Spec

open Native Native.Kucoin

variable {F : Type}

/-- One attempt of a submit: what the client saw of it, and whether the matching engine
    executed it. -/
structure Attempt (F : Type) where
  outcome : Except String (Response F)
  executed : Bool

/-- The code of an envelope, as the client reads it. -/
def envelopeCode (raw : Value F) : String := ((raw.get "code").bind Value.asStr).getD "unknown"

/-- The message of an envelope, as the client reads it. -/
def envelopeMsg (raw : Value F) : String := ((raw.get "msg").bind Value.asStr).getD "no message"

/-- The outcomes after which a submit that ends there is triaged as ambiguous or succeeds: a
    network error, a body that is not JSON, an accepted order, or a rejection of the
    `clientOid` as a duplicate. -/
def TriagedAsLanded (fromValue : Value F → Except String String) :
    Except String (Response F) → Prop
  | .error _ => True
  | .ok resp => resp.status ≠ 429 ∧
    match resp.json with
    | .error _ => True
    | .ok raw =>
      if envelopeCode raw = "200000" then
        (fromValue ((raw.get "data").getD .null)).isOk = true
      else (ExchangeError.api (envelopeCode raw) (envelopeMsg raw)).isDuplicateClientOid = true

/-- Unwrapping an envelope, through the code and the message that the client reads. -/
theorem unwrapEnvelope_eq (fromValue : Value F → Except String String) (raw : Value F) :
    unwrapEnvelope fromValue raw =
      if envelopeCode raw = "200000" then
        (fromValue ((raw.get "data").getD .null)).mapError .json
      else .error (.api (envelopeCode raw) (envelopeMsg raw)) := by
  unfold unwrapEnvelope
  exact ite_not _ _ _

/-- An error of an envelope is triaged as ambiguous if and only if it is a duplicate
    rejection; that of an accepted order whose reply does not decode is triaged as fatal. -/
theorem classifySubmit_unwrapEnvelope_iff (fromValue : Value F → Except String String)
    (clientOid : String) (raw : Value F) :
    (∀ e, unwrapEnvelope fromValue raw = .error e →
      e.classifySubmit clientOid = .ambiguous (some clientOid)) ↔
      if envelopeCode raw = "200000" then
        (fromValue ((raw.get "data").getD .null)).isOk = true
      else
        (ExchangeError.api (envelopeCode raw) (envelopeMsg raw)).isDuplicateClientOid = true := by
  rw [unwrapEnvelope_eq]
  by_cases hcode : envelopeCode raw = "200000"
  · rw [if_pos hcode, if_pos hcode]
    cases fromValue ((raw.get "data").getD .null) with
    | ok orderId => exact iff_of_true (fun e he => by cases he) rfl
    | error msg =>
      -- the order was accepted, and a decoding error is neither a duplicate nor ambiguous
      refine iff_of_false (fun h => ?_) (fun h => by cases h)
      have hamb := h (.json msg) rfl
      rw [ExchangeError.classifySubmit_eq_ambiguous_iff] at hamb
      simp [ExchangeError.isDuplicateClientOid] at hamb
  · -- a rejection has one error, so the quantifier goes
    rw [if_neg hcode, if_neg hcode]
    have hiff := ExchangeError.classifySubmit_eq_ambiguous_iff
      (.api (envelopeCode raw) (envelopeMsg raw)) clientOid
    simp only [reduceCtorEq, exists_false, false_or] at hiff
    rw [← hiff]
    constructor
    · intro h
      exact h _ rfl
    · intro h e he
      obtain rfl := Except.error.inj he
      exact h

/-- A last answer of 429 gives up with an error. -/
theorem finalResult_rateLimited (label : String) {resp : Response F} (h : resp.status = 429) :
    finalResult label (.ok resp) = .error (.api "429" (label ++ " was rate-limited " ++
      toString MAX_RATE_LIMIT_RETRIES ++ " times; giving up")) := by
  rw [finalResult, if_pos h]

/-- Any other last answer is the result. -/
theorem finalResult_other (label : String) {resp : Response F} (h : resp.status ≠ 429) :
    finalResult label (.ok resp) = .ok resp := by
  rw [finalResult, if_neg h]

/-- An error of a call is triaged as ambiguous for exactly these outcomes of its deciding
    attempt. -/
theorem classifySubmit_unwrapResponse_iff (fromValue : Value F → Except String String)
    (label clientOid : String) (outcome : Except String (Response F)) :
    (∀ e, (finalResult label outcome).bind (unwrapResponse fromValue) = .error e →
      e.classifySubmit clientOid = .ambiguous (some clientOid)) ↔
      TriagedAsLanded fromValue outcome := by
  cases outcome with
  | error e =>
    refine iff_of_true (fun e' he' => ?_) trivial
    obtain rfl := Except.error.inj he'
    rfl
  | ok resp =>
    by_cases hstatus : resp.status = 429
    · -- the 429 that ends the loop is triaged as retriable
      refine iff_of_false (fun h => ?_) (fun h => h.1 hstatus)
      rw [finalResult_rateLimited label hstatus] at h
      have hamb := h _ rfl
      rw [ExchangeError.classifySubmit_eq_ambiguous_iff] at hamb
      simp [ExchangeError.isDuplicateClientOid] at hamb
    · rw [finalResult_other label hstatus]
      change (∀ e, unwrapResponse fromValue resp = .error e → _) ↔ _
      simp only [TriagedAsLanded, ne_eq, hstatus, not_false_eq_true, true_and]
      unfold unwrapResponse
      cases resp.json with
      | error e =>
        refine iff_of_true (fun e' he' => ?_) trivial
        obtain rfl := Except.error.inj he'
        rfl
      | ok raw => exact classifySubmit_unwrapEnvelope_iff fromValue clientOid raw

/-- What a KuCoin call returns: the outcome of the deciding attempt, unwrapped, after one
    request for each attempt up to it. -/
theorem executeWithRetries_eq_some_iff [HeaderValue] {T : Type} {key : String}
    (hkey : hv key = .ok ()) (timestamp : ℕ → ℤ) (verb endpoint : String) (body : Value F)
    (fromValue : Value F → Except String T) (outcomes : List (Except String (Response F)))
    (sent : Sent F T) :
    executeWithRetries key timestamp verb endpoint body fromValue outcomes = some sent ↔
      ∃ n outcome, Decides DEFAULT_RETRIES 0 0 outcomes n ∧ outcomes[n]? = some outcome ∧
        sent = ⟨(finalResult (verb ++ " " ++ endpoint) outcome).bind (unwrapResponse fromValue),
          requestsUpTo (fun n => ⟨endpoint, [("KC-API-TIMESTAMP", timestamp n)], .json body⟩)
            0 n⟩ := by
  rw [executeWithRetries, buildHeaders, hkey, Option.map_eq_some_iff]
  simp only [retryLoop_eq_some_iff (show 0 < DEFAULT_RETRIES by decide)]
  constructor
  · intro h
    obtain ⟨_, ⟨n, outcome, hn, ho, rfl⟩, rfl⟩ := h
    exact ⟨n, outcome, hn, ho, rfl⟩
  · intro h
    obtain ⟨n, outcome, hn, ho, rfl⟩ := h
    exact ⟨_, ⟨n, outcome, hn, ho, rfl⟩, rfl⟩

/-- A KuCoin call whose key is no header value sends nothing. -/
theorem executeWithRetries_of_hv_error [HeaderValue] {T : Type} {key : String}
    {e : ExchangeError} (hkey : hv key = .error e) (timestamp : ℕ → ℤ) (verb endpoint : String)
    (body : Value F) (fromValue : Value F → Except String T)
    (outcomes : List (Except String (Response F))) :
    executeWithRetries key timestamp verb endpoint body fromValue outcomes =
      some ⟨.error e, []⟩ := by
  rw [executeWithRetries, buildHeaders, hkey, retryLoop_headers_error (by decide)]
  rfl

/-- The conversion succeeds on the texts that the `http` crate accepts. -/
theorem hv_eq_ok_iff [HeaderValue] {key : String} :
    hv key = .ok () ↔ HeaderValue.fromStr key = true := by
  unfold hv
  split <;> simp_all

/-! ## Order submits -/

variable [F64 F]

/-- The attempts of a submit for which its triage is sound. Nothing is sent for a limit
    order without a price or with a key that the `http` crate refuses. Otherwise, of the attempts
    up to the one that ends the call, none was executed, or that one is triaged as landed. -/
def TriageOk [HeaderValue] (key : String) (fromValue : Value F → Except String String)
    (orderType : Kucoin.OrderType) (price : Option F) (attempts : List (Attempt F)) : Prop :=
  orderType = .limit ∧ price.isNone = true ∨ HeaderValue.fromStr key = false ∨
    ∀ n attempt, Decides DEFAULT_RETRIES 0 0 (attempts.map (·.outcome)) n →
      attempts[n]? = some attempt →
      (∀ a ∈ attempts.take (n + 1), a.executed = false) ∨ TriagedAsLanded fromValue attempt.outcome

/-- Whenever a submit returns an error and one of the attempts it made was executed, the
    error is triaged as ambiguous under the submit's `clientOid`, if and only if the
    attempts are `TriageOk`. -/
theorem placeOrder_triage_iff [HeaderValue] (key : String) (timestamp : ℕ → ℤ)
    (fromValue : Value F → Except String String) (clientOid symbol : String) (side : Side)
    (size leverage : UInt32) (orderType : Kucoin.OrderType) (price : Option F)
    (timeInForce : Option TimeInForce) (reduceOnly : Bool) (stp : Option STP)
    (attempts : List (Attempt F)) :
    (∀ sent e, placeOrderWithClientOid key timestamp fromValue clientOid symbol side size leverage
          orderType price timeInForce reduceOnly stp (attempts.map (·.outcome)) = some sent →
        sent.result = .error e →
        (∃ a ∈ attempts.take sent.requests.length, a.executed = true) →
        e.classifySubmit clientOid = .ambiguous (some clientOid)) ↔
      TriageOk key fromValue orderType price attempts := by
  unfold TriageOk placeOrderWithClientOid
  by_cases hprice : orderType = .limit ∧ price.isNone = true
  · -- the price check comes first, so no attempt is made
    refine iff_of_true (fun sent e hsent _ hexec => ?_) (Or.inl hprice)
    rw [if_pos hprice] at hsent
    obtain rfl := Option.some.inj hsent
    obtain ⟨a, ha, _⟩ := hexec
    cases ha
  simp only [hprice, false_or]
  rw [← Bool.not_eq_true, ← hv_eq_ok_iff]
  cases hkey : hv key with
  | error e =>
    -- the key is no header value, so no attempt is made
    refine iff_of_true (fun sent e' hsent _ hexec => ?_) (Or.inl (fun h => by cases h))
    rw [if_false, post, executeWithRetries_of_hv_error hkey] at hsent
    obtain rfl := Option.some.inj hsent
    obtain ⟨a, ha, _⟩ := hexec
    cases ha
  | ok _ =>
    simp only [not_true_eq_false, false_or, if_false, post]
    constructor
    · intro h n attempt hn hattempt
      by_cases hexec : ∃ a ∈ attempts.take (n + 1), a.executed = true
      · -- run the call that `attempt` ends, and read the triage of its error
        refine Or.inr ((classifySubmit_unwrapResponse_iff fromValue
          ("POST" ++ " " ++ "/api/v1/orders") clientOid attempt.outcome).mp fun e he => ?_)
        have houtcome : (attempts.map (·.outcome))[n]? = some attempt.outcome := by
          rw [List.getElem?_map, hattempt]
          rfl
        refine h _ e (Option.map_eq_some_iff.mpr
          ⟨_, (executeWithRetries_eq_some_iff hkey ..).mpr ⟨n, _, hn, houtcome, rfl⟩, rfl⟩) ?_ ?_
        · simp only [Sent.andThen, he]
          rfl
        · simp only [Sent.andThen, length_requestsUpTo]
          exact hexec
      · refine Or.inl fun a ha => Bool.eq_false_iff.mpr fun htrue => hexec ⟨a, ha, htrue⟩
    · intro h sent e hsent herr hexec
      obtain ⟨inner, hinner, rfl⟩ := Option.map_eq_some_iff.mp hsent
      obtain ⟨n, outcome, hn, houtcome, rfl⟩ := (executeWithRetries_eq_some_iff hkey ..).mp hinner
      rw [List.getElem?_map, Option.map_eq_some_iff] at houtcome
      obtain ⟨attempt, hattempt, rfl⟩ := houtcome
      simp only [Sent.andThen, length_requestsUpTo] at hexec herr
      rcases h n attempt hn hattempt with hnone | hlanded
      · obtain ⟨a, ha, htrue⟩ := hexec
        simp [hnone a ha] at htrue
      · -- the error of the submit is the error of the call
        refine (classifySubmit_unwrapResponse_iff fromValue ("POST" ++ " " ++ "/api/v1/orders")
          clientOid attempt.outcome).mpr hlanded e ?_
        cases hres : (finalResult ("POST" ++ " " ++ "/api/v1/orders") attempt.outcome).bind
            (unwrapResponse fromValue) with
        | error e' =>
          rw [hres] at herr
          exact congrArg Except.error (Except.error.inj herr)
        | ok orderId =>
          rw [hres] at herr
          cases herr

/-! ### A hidden attempt -/

open scoped SampleHeaders

/-- `serde_json::from_value` at the order response. -/
def orderIdFromValue (v : Value ℤ) : Except String String :=
  match (v.get "orderId").bind Value.asStr with
  | some orderId => .ok orderId
  | none => .error "missing field orderId"

/-- A first attempt that is executed but times out, then six 429s. -/
def timeoutThenRateLimits : List (Attempt ℤ) :=
  ⟨.error "operation timed out", true⟩ ::
    List.replicate 6 ⟨.ok ⟨429, .ok "", .error "EOF while parsing a value"⟩, false⟩

/-- The order exists, and the error of its submit is triaged as safe to retry. -/
theorem placeOrder_not_triaged :
    ¬ ∀ sent e, placeOrderWithClientOid "key" (fun _ => 0) orderIdFromValue "my-oid" "XBTUSDTM"
          .buy 1 5 .market none none false none (timeoutThenRateLimits.map (·.outcome)) =
            some sent →
        sent.result = .error e →
        (∃ a ∈ timeoutThenRateLimits.take sent.requests.length, a.executed = true) →
        e.classifySubmit "my-oid" = .ambiguous (some "my-oid") := by
  intro h
  have htriage := h _ _ rfl rfl ⟨_, List.mem_cons_self, rfl⟩
  exact absurd htriage (by decide)

/-- Under a key that is not ASCII the order is hidden in the same way. -/
theorem placeOrder_triage_iff_hidden :
    ¬ TriageOk "kéy" orderIdFromValue .market (none : Option ℤ) timeoutThenRateLimits := by
  rw [← placeOrder_triage_iff "kéy" (fun _ => 0) orderIdFromValue "my-oid" "XBTUSDTM" .buy 1 5
    .market none none false none timeoutThenRateLimits]
  intro h
  have htriage := h _ _ rfl rfl ⟨_, List.mem_cons_self, rfl⟩
  exact absurd htriage (by decide)

/-- A key with a line break is refused whatever the crate makes of other text. -/
example [HeaderValue] : TriageOk "key\n" orderIdFromValue .market none timeoutThenRateLimits :=
  .inr (.inl (HeaderValue.fromStr_break "key\n" (.inl (by decide))))

end ExchangeApiws.Spec
