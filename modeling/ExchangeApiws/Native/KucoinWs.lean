import ExchangeApiws.Native.Actors
import ExchangeApiws.Native.Error

/-!
# KuCoin connector

Translation of `KucoinConnector::new` and of `parse_level2_delta` from `src/ws/feed.rs`, with
the token types of `src/ws/types.rs`. `now` is the reading of the receipt clock and `uuid` the
fresh connect id.
-/

namespace ExchangeApiws.Native.KucoinWs

/-! ## The negotiated connection -/

/-- An instance server: what the connector reads of it. -/
structure InstanceServer where
  endpoint : String
  /-- Recommended ping interval in milliseconds. -/
  pingInterval : UInt64
  deriving DecidableEq, Repr

/-- Token and server list returned by the bullet negotiation endpoints. -/
structure WsToken where
  token : String
  instanceServers : List InstanceServer
  deriving DecidableEq, Repr

inductive KucoinEnv where
  | liveSpot
  | liveFutures
  | unified
  deriving DecidableEq, Repr

structure KucoinConnector where
  negotiatedUrl : String
  /-- Recommended ping interval from the instance server (seconds). -/
  pingIntervalSecs : UInt64
  env : KucoinEnv
  deriving DecidableEq, Repr

/-- Build a connector from a negotiated WS token. -/
def KucoinConnector.new (uuid : String) (tokenData : WsToken) (env : KucoinEnv) :
    Result KucoinConnector :=
  match tokenData.instanceServers with
  | [] => .error (.config "KuCoin returned no instance servers")
  | server :: _ => .ok {
    negotiatedUrl := server.endpoint ++ "?token=" ++ tokenData.token ++ "&connectId=" ++ uuid
    -- KuCoin returns the interval in milliseconds.
    pingIntervalSecs := server.pingInterval / 1000
    env := env }

/-! ## Level 2 deltas -/

/-- `str::splitn` with a character: at most `n` parts, the last one unsplit. -/
def splitn : ℕ → Char → String → List String
  | 0, _, _ => []
  | 1, _, s => [s]
  | n + 2, sep, s =>
    match s.toList.dropWhile (· ≠ sep) with
    | [] => [s]
    | _ :: rest =>
      String.ofList (s.toList.takeWhile (· ≠ sep)) :: splitn (n + 1) sep (String.ofList rest)

variable {F : Type} [F64 F]

/-- KuCoin level2 incremental format: `change: "price,side,qty"` where qty=0 → remove level. -/
def parseLevel2Delta (now : Int64) (symbol exchange : String) (data : Value F) :
    List (DataMessage F) :=
  let changeStr := (data.index "change").asStr.getD ""
  let parts := splitn 3 ',' changeStr
  let price : F := (parts[0]?.bind F64.parse).getD 0
  let side := parts[1]?.getD "sell"
  let qty : F := (parts[2]?.bind F64.parse).getD 0
  if price == 0 then []
  else
    let isAsk := eqIgnoreAsciiCase side "sell"
    -- Futures level2 deltas carry one `sequence` per change.
    let sequence := (data.index "sequence").asU64
    [.orderBook {
      symbol := symbol
      exchange := exchange
      asks := if isAsk then [(price, qty)] else []
      bids := if isAsk then [] else [(price, qty)]
      exchangeTs := (data.index "timestamp").asI64.getD now
      receiptTs := now
      isSnapshot := false
      firstUpdateId := sequence
      lastUpdateId := sequence }]

end ExchangeApiws.Native.KucoinWs
