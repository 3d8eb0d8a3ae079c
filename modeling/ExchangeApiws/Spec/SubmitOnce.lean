import ExchangeApiws.ForStd.IdempotencyKey
import ExchangeApiws.Native.KucoinRest
import ExchangeApiws.Native.SignedRest
import ExchangeApiws.Spec.RetryLoop

/-!
# How often the exchange executes a submit

Every method that submits an order, a transfer or a withdrawal resends its request after a
network error or a 429. The exchange executes what reaches it, unless the request carries a
client order id that it has accepted before. A call that carries such an id is executed at
most once, whatever is lost; a call that carries none is executed once for each of its
sends that reached the exchange.

## Key results

- `Submit.exists_build`: every attempt of a call carries the client order id of the call
- `submit_executions`: the executions of one call, for every pattern of losses
-/

namespace ExchangeApiws.Spec

open Native

variable {F : Type} [F64 F] {T : Type}

/-- A call of a submitting method, with its arguments. KuCoin draws a fresh `uuid` for the
    calls that take no id from the caller. -/
inductive Submit (F : Type) where
  | kucoinPlaceOrder (uuid symbol : String) (side : Kucoin.Side) (size leverage : UInt32)
      (orderType : Kucoin.OrderType) (price : Option F) (timeInForce : Option Kucoin.TimeInForce)
      (reduceOnly : Bool) (stp : Option Kucoin.STP)
  | kucoinClosePosition (uuid symbol : String) (qty : Int32) (leverage : UInt32)
  | kucoinTransferToMain (currency : String) (amount : F)
  | kucoinTransferToFutures (currency : String) (amount : F)
  | binancePlaceOrder (symbol side orderType quantity : String) (price timeInForce : Option String)
  | bybitPlaceOrder (order : Bybit.OrderRequest)
  | krakenPlaceOrder (pair side orderType volume : String) (price : Option String)
  | krakenPlaceOrderWith (pair side orderType volume : String) (price : Option String)
      (opts : Kraken.OrderOptions)
  | krakenWithdraw (asset key amount : String)
  | cryptocomPlaceOrder (instrument side orderType quantity : String) (price : Option String)
  | cryptocomCreateWithdrawal (currency amount address : String)

/-- What the clients are configured with and read from outside: credentials, the stamps of
    the successive attempts, and the decoding of responses. -/
structure Client (F T : Type) where
  key : String
  recvWindow : UInt64
  signing : Result Unit
  timestamp : ℕ → ℤ
  nonce : ℕ → ℤ
  id : ℕ → ℤ
  fromValue : Value F → Except String String
  apiError : Value F → Option (Int64 × String)
  envelope : Value F → Except String (Int64 × String × Value F)
  decode : Value F → Except String T

/-- Forget the value that a call returned. -/
def discard {U : Type} (call : Option (Sent F U)) : Option (Sent F Unit) :=
  call.map (·.andThen fun _ => .ok ())

/-- The call, given what its sends come back with. -/
def Submit.call [Kucoin.HeaderValue] (client : Client F T)
    (outcomes : List (Except String (Response F))) : Submit F → Option (Sent F Unit)
  | .kucoinPlaceOrder uuid symbol side size leverage orderType price timeInForce reduceOnly stp =>
    discard (Kucoin.placeOrder client.key client.timestamp client.fromValue uuid symbol side size
      leverage orderType price timeInForce reduceOnly stp outcomes)
  | .kucoinClosePosition uuid symbol qty leverage =>
    discard (Kucoin.closePosition client.key client.timestamp client.fromValue uuid symbol qty
      leverage outcomes)
  | .kucoinTransferToMain currency amount =>
    discard (Kucoin.transferToMain client.key client.timestamp client.fromValue currency amount
      outcomes)
  | .kucoinTransferToFutures currency amount =>
    discard (Kucoin.transferToFutures client.key client.timestamp client.fromValue currency amount
      outcomes)
  | .binancePlaceOrder symbol side orderType quantity price timeInForce =>
    discard (Binance.placeOrder client.recvWindow client.timestamp client.apiError client.decode
      symbol side orderType quantity price timeInForce outcomes)
  | .bybitPlaceOrder order =>
    discard (Bybit.placeOrder client.timestamp client.envelope client.decode order outcomes)
  | .krakenPlaceOrder pair side orderType volume price =>
    discard (Kraken.placeOrder client.signing client.nonce client.decode pair side orderType volume
      price outcomes)
  | .krakenPlaceOrderWith pair side orderType volume price opts =>
    discard (Kraken.placeOrderWith client.signing client.nonce client.decode pair side orderType
      volume price opts outcomes)
  | .krakenWithdraw asset key amount =>
    discard (Kraken.withdraw client.signing client.nonce client.decode asset key amount outcomes)
  | .cryptocomPlaceOrder instrument side orderType quantity price =>
    discard (Cryptocom.placeOrder client.signing client.id client.nonce client.key client.decode
      instrument side orderType quantity price outcomes)
  | .cryptocomCreateWithdrawal currency amount address =>
    discard (Cryptocom.createWithdrawal client.signing client.id client.nonce client.key
      client.decode currency amount address outcomes)

/-! ## Client order ids -/

/-- The client order id that the venue of the call reads in a request. -/
def Submit.readClientOrderId (submit : Submit F) (request : Request F) : Option String :=
  match submit with
  | .kucoinPlaceOrder .. | .kucoinClosePosition .. | .kucoinTransferToMain ..
  | .kucoinTransferToFutures .. => request.params.field "clientOid"
  | .binancePlaceOrder .. => request.params.field "newClientOrderId"
  | .bybitPlaceOrder .. => request.params.field "orderLinkId"
  | .krakenPlaceOrder .. | .krakenPlaceOrderWith .. | .krakenWithdraw .. =>
    request.params.field "cl_ord_id"
  | .cryptocomPlaceOrder .. | .cryptocomCreateWithdrawal .. =>
    match request.params with
    | .form _ => none
    | .json body => ((body.get "params").bind (·.get "client_oid")).bind Value.asStr

/-- The client order id that a call carries, from its arguments. -/
def Submit.clientOrderId : Submit F → Option String
  | .kucoinPlaceOrder uuid .. => some uuid
  | .kucoinClosePosition uuid .. => some uuid
  | .bybitPlaceOrder order => order.orderLinkId
  | .krakenPlaceOrderWith _ _ _ _ _ opts => opts.clientOrderId
  | _ => none

/-! ## The requests of a call -/

omit [F64 F] in
/-- A check before the call adds no request. -/
theorem AllFrom.checkFirst {U : Type} {build : ℕ → Request F} {call : Option (Sent F U)}
    (h : AllFrom build call)
    (check : Result Unit) : AllFrom build (checkFirst check call) := by
  unfold Native.checkFirst
  cases check with
  | error e => exact AllFrom.none_sent build _
  | ok _ => exact h

omit [F64 F] in
/-- Every attempt of a KuCoin POST has the same body. -/
theorem AllFrom.kucoinPost [Kucoin.HeaderValue] {U : Type} (key : String)
    (timestamp : ℕ → ℤ) (path : String) (body : Value F) (fromValue : Value F → Except String U)
    (outcomes : List (Except String (Response F))) :
    AllFrom (fun n => ⟨path, [("KC-API-TIMESTAMP", timestamp n)], .json body⟩)
      (Kucoin.post key timestamp path body fromValue outcomes) :=
  (AllFrom.retryLoop _ _ _ outcomes).map _

omit [F64 F] in
/-- Every attempt of a Binance POST has the same parameters. -/
theorem AllFrom.binancePost {U : Type} (recvWindow : UInt64) (timestamp : ℕ → ℤ) (path : String)
    (params : List (String × String)) (apiError : Value F → Option (Int64 × String))
    (decode : Value F → Except String U) (outcomes : List (Except String (Response F))) :
    AllFrom (fun n => ⟨path, [("timestamp", timestamp n)],
        .form (params ++ [("recvWindow", toString recvWindow)])⟩)
      (Binance.signedPost recvWindow timestamp path params apiError decode outcomes) :=
  (AllFrom.retryLoop _ _ _ outcomes).map _

omit [F64 F] in
/-- Every attempt of a Kraken POST has the same parameters behind its nonce. -/
theorem AllFrom.krakenPost {U : Type} (signing : Result Unit) (nonce : ℕ → ℤ) (path : String)
    (params : List (String × String)) (decode : Value F → Except String U)
    (outcomes : List (Except String (Response F))) :
    AllFrom (fun n => ⟨path, [("nonce", nonce n)], .form params⟩)
      (Kraken.post signing nonce path params decode outcomes) :=
  ((AllFrom.retryLoop _ _ _ outcomes).map _).checkFirst signing

omit [F64 F] in
/-- Every attempt of a Crypto.com POST has the same parameters in its envelope. -/
theorem AllFrom.cryptocomPost {U : Type} (signing : Result Unit) (id nonce : ℕ → ℤ)
    (apiKey method : String) (params : Value F) (decode : Value F → Except String U)
    (outcomes : List (Except String (Response F))) :
    AllFrom (fun n => ⟨method, [("id", id n), ("nonce", nonce n)],
        .json (.object [("method", .string method), ("api_key", .string apiKey),
          ("params", params)])⟩)
      (Cryptocom.post signing id nonce apiKey method params decode outcomes) :=
  ((AllFrom.retryLoop _ _ _ outcomes).map _).checkFirst signing

omit [F64 F] in
/-- Either branch of a check that precedes the call. -/
theorem AllFrom.ite {U : Type} {build : ℕ → Request F} {c : Prop} [Decidable c]
    {result : Result U} {call : Option (Sent F U)} (h : AllFrom build call) :
    AllFrom build (if c then some ⟨result, []⟩ else call) := by
  split
  · exact AllFrom.none_sent build _
  · exact h

/-- The only client order id in a Kraken order is the one of its options. -/
theorem lookup_orderParams (pair side orderType volume : String) (price : Option String)
    (opts : Kraken.OrderOptions) :
    (Kraken.orderParams pair side orderType volume price opts).lookup "cl_ord_id" =
      opts.clientOrderId := by
  obtain ⟨postOnly, validate, clientOrderId, expireAfterSecs⟩ := opts
  cases price <;> cases postOnly <;> cases validate <;> cases clientOrderId <;>
    cases expireAfterSecs <;> rfl

omit [F64 F] in
/-- The only client order id in a Bybit order is its link id. -/
theorem field_serialize (order : Bybit.OrderRequest) :
    (Params.json (F := F) order.serialize).field "orderLinkId" = order.orderLinkId := by
  obtain ⟨category, symbol, side, orderType, qty, price, timeInForce, orderLinkId, reduceOnly⟩ :=
    order
  cases price <;> cases timeInForce <;> cases orderLinkId <;> cases reduceOnly <;> rfl

/-- A call whose requests all come from `build` carries the id that the venue reads in them. -/
theorem Submit.exists_build_of [Kucoin.HeaderValue] {submit : Submit F} {client : Client F T}
    {outcomes : List (Except String (Response F))} {build : ℕ → Request F}
    (hfrom : AllFrom build (submit.call client outcomes))
    (hread : ∀ n, submit.readClientOrderId (build n) = submit.clientOrderId) :
    ∃ build : ℕ → Request F, AllFrom build (submit.call client outcomes) ∧
      ∀ n, submit.readClientOrderId (build n) = submit.clientOrderId :=
  ⟨build, hfrom, hread⟩

/-- Each method sends requests that carry its client order id, if it has one. -/
theorem Submit.exists_build [Kucoin.HeaderValue] (submit : Submit F) (client : Client F T)
    (outcomes : List (Except String (Response F))) :
    ∃ build : ℕ → Request F, AllFrom build (submit.call client outcomes) ∧
      ∀ n, submit.readClientOrderId (build n) = submit.clientOrderId := by
  -- the id is read back from the field or the parameter that the method puts it in
  cases submit with
  | kucoinPlaceOrder uuid symbol side size leverage orderType price timeInForce reduceOnly stp =>
    exact exists_build_of ((((AllFrom.kucoinPost ..).map _).ite.map _).map _) fun n => rfl
  | kucoinClosePosition uuid symbol qty leverage =>
    exact exists_build_of ((((AllFrom.kucoinPost ..).map _).ite.map _).map _) fun n => rfl
  | kucoinTransferToMain currency amount =>
    exact exists_build_of ((AllFrom.kucoinPost ..).map _) fun n => rfl
  | kucoinTransferToFutures currency amount =>
    exact exists_build_of ((AllFrom.kucoinPost ..).map _) fun n => rfl
  | binancePlaceOrder symbol side orderType quantity price timeInForce =>
    refine exists_build_of ((AllFrom.binancePost ..).map _) fun n => ?_
    cases price <;> cases timeInForce <;> rfl
  | bybitPlaceOrder order =>
    exact exists_build_of (((AllFrom.retryLoop ..).map _).map _) fun n => field_serialize order
  | krakenPlaceOrder pair side orderType volume price =>
    exact exists_build_of ((AllFrom.krakenPost ..).map _) fun n =>
      lookup_orderParams pair side orderType volume price {}
  | krakenPlaceOrderWith pair side orderType volume price opts =>
    exact exists_build_of ((AllFrom.krakenPost ..).map _) fun n =>
      lookup_orderParams pair side orderType volume price opts
  | krakenWithdraw asset key amount =>
    exact exists_build_of ((AllFrom.krakenPost ..).map _) fun n => rfl
  | cryptocomPlaceOrder instrument side orderType quantity price =>
    refine exists_build_of ((AllFrom.cryptocomPost ..).map _) fun n => ?_
    cases price <;> rfl
  | cryptocomCreateWithdrawal currency amount address =>
    exact exists_build_of ((AllFrom.cryptocomPost ..).map _) fun n => rfl

/-! ## The exchange -/

/-- What becomes of one send: whether the request reaches the exchange, and what the client
    sees. A lost request or response is seen as a network error. -/
structure Delivery (F : Type) where
  reached : Bool
  outcome : Except String (Response F)

/-- The requests that reach the exchange, in order. -/
def reachedRequests (sent : List (Request F)) (deliveries : List (Delivery F)) :
    List (Request F) :=
  ((sent.zip deliveries).filter (·.2.reached)).map (·.1)

omit [F64 F] in
/-- What reaches the venue has been sent. -/
theorem mem_of_mem_reachedRequests {sent : List (Request F)} {deliveries : List (Delivery F)}
    {r : Request F} (h : r ∈ reachedRequests sent deliveries) : r ∈ sent := by
  obtain ⟨p, hp, rfl⟩ := List.mem_map.mp h
  exact (List.of_mem_zip (List.mem_of_mem_filter hp)).1

/-- One call of a submitting method, under any losses and any 429s, against an exchange that
    has accepted any ids. If the call carries a client order id, the exchange executes at
    most one request more; if it carries none, it executes every request that reaches it. -/
theorem submit_executions [Kucoin.HeaderValue] (client : Client F T) (submit : Submit F)
    (exchange : Receiver String (Request F)) (deliveries : List (Delivery F)) (sent : Sent F Unit)
    (hcall : submit.call client (deliveries.map (·.outcome)) = some sent) :
    (∀ id, submit.clientOrderId = some id →
      (exchange.receiveAll submit.readClientOrderId
        (reachedRequests sent.requests deliveries)).executed.length ≤
          exchange.executed.length + 1) ∧
    (submit.clientOrderId = none →
      (exchange.receiveAll submit.readClientOrderId
        (reachedRequests sent.requests deliveries)).executed =
          exchange.executed ++ reachedRequests sent.requests deliveries) := by
  obtain ⟨build, hfrom, hread⟩ := submit.exists_build client (deliveries.map (·.outcome))
  have hkey : ∀ r ∈ reachedRequests sent.requests deliveries,
      submit.readClientOrderId r = submit.clientOrderId := by
    intro r hr
    obtain ⟨n, rfl⟩ := hfrom.mem sent hcall r (mem_of_mem_reachedRequests hr)
    exact hread n
  constructor
  · intro id hid
    rw [Receiver.receiveAll_of_key_some _ _ fun r hr => (hkey r hr).trans hid, List.length_append]
    split
    · exact Nat.le_succ _
    · exact Nat.add_le_add_left (List.length_take_le 1 _) _
  · intro hid
    exact Receiver.receiveAll_of_key_none _ _ fun r hr => (hkey r hr).trans hid

/-! ### A lost response -/

open scoped Kucoin.SampleHeaders

def exampleClient : Client ℤ Unit where
  key := "key"
  recvWindow := 5000
  signing := .ok ()
  timestamp n := 1700000000000 + n
  nonce n := 1700000000000 + n
  id n := 1 + n
  fromValue v := ((v.get "orderId").bind Value.asStr).elim (.error "missing field orderId") .ok
  apiError _ := none
  envelope _ := .error "missing field retCode"
  decode _ := .ok ()

/-- The first request is executed and its response lost; the second gets through. -/
def lostResponse : List (Delivery ℤ) :=
  [⟨true, .error "operation timed out"⟩,
    ⟨true, .ok ⟨200, .ok "\x7b\"code\":\"200000\",\"data\":\x7b\"orderId\":\"1\"\x7d\x7d",
      .ok (.object [("code", .string "200000"),
        ("data", .object [("orderId", .string "1")])])⟩⟩]

def kucoinMarketBuy : Submit ℤ :=
  .kucoinPlaceOrder "3f1c" "XBTUSDTM" .buy 1 5 .market none none false none

def binanceMarketBuy : Submit ℤ := .binancePlaceOrder "BTCUSDT" "BUY" "MARKET" "1" none none

/-- One call places the order twice. -/
theorem binance_placeOrder_executed_twice :
    ∃ sent, binanceMarketBuy.call exampleClient (lostResponse.map (·.outcome)) = some sent ∧
      ((⟨[], []⟩ : Receiver String (Request ℤ)).receiveAll binanceMarketBuy.readClientOrderId
        (reachedRequests sent.requests lostResponse)).executed.length = 2 :=
  ⟨_, rfl, rfl⟩

/-- A response is lost: KuCoin executes the order at most once, Binance every request it gets. -/
theorem submit_executions_lostResponse :
    ∃ kucoin binance,
      kucoinMarketBuy.call exampleClient (lostResponse.map (·.outcome)) = some kucoin ∧
      ((⟨[], []⟩ : Receiver String (Request ℤ)).receiveAll kucoinMarketBuy.readClientOrderId
        (reachedRequests kucoin.requests lostResponse)).executed.length ≤ 1 ∧
      binanceMarketBuy.call exampleClient (lostResponse.map (·.outcome)) = some binance ∧
      ((⟨[], []⟩ : Receiver String (Request ℤ)).receiveAll binanceMarketBuy.readClientOrderId
        (reachedRequests binance.requests lostResponse)).executed =
          reachedRequests binance.requests lostResponse :=
  ⟨_, _, rfl, (submit_executions exampleClient kucoinMarketBuy ⟨[], []⟩ lostResponse _ rfl).1 _ rfl,
    rfl, (submit_executions exampleClient binanceMarketBuy ⟨[], []⟩ lostResponse _ rfl).2 rfl⟩

end ExchangeApiws.Spec
