import ExchangeApiws.Native.BinanceWs
import ExchangeApiws.Native.BybitWs
import ExchangeApiws.Native.CoinbaseWs
import ExchangeApiws.Native.CryptocomAuth
import ExchangeApiws.Native.OkxWs
import ExchangeApiws.Native.PrivateStreams
import ExchangeApiws.Native.Runner

/-!
# Connectors as the runner sees them

What `ws::runner` calls of the connectors: `auth_message`, `ping_message`, `response_for` and
`parse_message`, from `src/binance/ws.rs`, `src/bybit/ws.rs`, `src/okx/ws.rs`,
`src/cryptocom/ws.rs`, `src/coinbase/ws.rs`, `src/kraken/ws.rs`, `src/ws/feed.rs` and the
connectors of private streams. `clock` is the receipt clock and `nowMs` the wall clock, each at a
time of the runner's clock, and `toText` is `Value::to_string`.
-/

namespace ExchangeApiws.Native

open Runner

/-- `Number::from` an `i64`. -/
def Number.ofInt64 {F : Type} (i : Int64) : Number F :=
  if i < 0 then .negInt i else .posInt i.toUInt64

section

variable {F : Type} [F64 F]

/-- `BinanceConnector`: the server drives the heartbeat with protocol-level pings. -/
def Binance.connector (fromStr : String → Result (Value F)) (clock : ℕ → Int64)
    (exchange : String) : Connector (DataMessage F) where
  authMessage _ := none
  pingMessage _ := none
  responseFor _ _ := none
  parseMessage time raw := Binance.parseMessage fromStr exchange (clock time) raw

/-- `BybitConnector`. -/
def Bybit.connector (fromStr : String → Result (Value F)) (clock : ℕ → Int64) :
    Connector (DataMessage F) where
  authMessage _ := none
  pingMessage _ := some "\x7b\"op\":\"ping\"\x7d"
  responseFor _ _ := none
  parseMessage time raw := Bybit.parseMessage fromStr (clock time) raw

/-- `OkxConnector`. -/
def Okx.connector (fromStr : String → Result (Value F)) (clock : ℕ → Int64) :
    Connector (DataMessage F) where
  authMessage _ := none
  pingMessage _ := some "ping"
  responseFor _ _ := none
  parseMessage time raw := Okx.parseMessage fromStr (clock time) raw

/-- `CryptocomConnector`: the server drives the heartbeat, and `response_for` answers it. -/
def Cryptocom.connector (fromStr : String → Result (Value F)) (clock : ℕ → Int64) :
    Connector (DataMessage F) where
  authMessage _ := none
  pingMessage _ := none
  responseFor _ := Cryptocom.responseFor fromStr
  parseMessage time raw := Cryptocom.parseMessage fromStr (clock time) raw

/-- `CoinbaseConnector`. -/
def Coinbase.connector (fromStr : String → Result (Value F)) (rfc3339 : String → Option Int64)
    (clock : ℕ → Int64) : Connector (DataMessage F) where
  authMessage _ := none
  pingMessage _ := none
  responseFor _ _ := none
  parseMessage time raw := Coinbase.parseMessage fromStr rfc3339 (clock time) raw

end

section

variable {F : Type} [F64Arith F]

/-- `KrakenConnector`. -/
def KrakenWs.connector (reader : Reader F) (clock : ℕ → Int64) :
    Connector (FeedMessage F) where
  authMessage _ := none
  pingMessage _ := some "\x7b\"method\":\"ping\"\x7d"
  responseFor _ _ := none
  parseMessage time raw := KrakenWs.parseStream reader (clock time) raw

/-- `BinanceUserDataConnector`. -/
def BinanceUserData.connector (reader : Reader F) (clock : ℕ → Int64) :
    Connector (FeedMessage F) where
  authMessage _ := none
  pingMessage _ := none
  responseFor _ _ := none
  parseMessage time raw := BinanceUserData.parseStream reader (clock time) raw

/-- `KucoinConnector`; `fromStr` deserializes the envelope. -/
def KucoinFeed.connector {F : Type} [F64Ops F] (fromStr : String → Result (Envelope F))
    (clock : ℕ → Int64) : Connector (FeedMessage F) where
  authMessage _ := none
  pingMessage _ := some "\x7b\"type\":\"ping\"\x7d"
  responseFor _ _ := none
  parseMessage time raw := (fromStr raw).map (KucoinFeed.parseEnvelope (clock time))

/-- `BybitCredentials`. -/
structure Bybit.Credentials where
  apiKey : String
  apiSecret : String

/-- The signature of an `auth` frame. -/
def Bybit.Credentials.signWs (hmac : List UInt8 → List UInt8 → List UInt8)
    (credentials : Bybit.Credentials) (expires : UInt64) : String :=
  Binance.hmacHex hmac (bytes credentials.apiSecret)
    (bytes ("GET/realtime" ++ toString expires.toNat))

/-- The signed `auth` frame, good until `expires`. -/
def BybitPrivate.authFrame {F : Type} (hmac : List UInt8 → List UInt8 → List UInt8)
    (credentials : Bybit.Credentials) (expires : UInt64) : Value F :=
  .object [
    ("op", .string "auth"),
    ("args", .array [
      .string credentials.apiKey,
      .number (.posInt expires),
      .string (credentials.signWs hmac expires)])]

/-- How far ahead the deadline of the `auth` frame is set, in milliseconds. -/
def BybitPrivate.AUTH_EXPIRY_MS : UInt64 := 5000

/-- `BybitPrivateConnector`. -/
def BybitPrivate.connector [Neg F] (reader : Reader F) (toText : Value F → String)
    (hmac : List UInt8 → List UInt8 → List UInt8) (credentials : Bybit.Credentials)
    (nowMs : ℕ → Int64) (clock : ℕ → Int64) : Connector (FeedMessage F) where
  authMessage time :=
    let expires := (nowMs time).toUInt64 + BybitPrivate.AUTH_EXPIRY_MS
    some (toText (BybitPrivate.authFrame hmac credentials expires))
  pingMessage _ := some "\x7b\"op\":\"ping\"\x7d"
  responseFor _ _ := none
  parseMessage time raw := BybitPrivate.parseStream reader (clock time) raw

/-- `CryptocomCredentials`. -/
structure Cryptocom.Credentials where
  apiKey : String
  apiSecret : String

/-- The signed `public/auth` frame; no frame where the signature fails. -/
def CryptocomUser.authFrame
    (newFromSlice : List UInt8 → Except String (List UInt8 → List UInt8))
    (credentials : Cryptocom.Credentials) (id nonce : Int64) : Option (Value F) :=
  match Cryptocom.signCryptocomRequest (F := F) newFromSlice "public/auth" id credentials.apiKey
    .null nonce credentials.apiSecret with
  | .error _ => none
  | .ok sig => some (.object [
      ("api_key", .string credentials.apiKey),
      ("id", .number (.ofInt64 id)),
      ("method", .string "public/auth"),
      ("nonce", .number (.ofInt64 nonce)),
      ("sig", .string sig)])

/-- `CryptocomUserConnector`. -/
def CryptocomUser.connector (reader : Reader F) (toText : Value F → String)
    (newFromSlice : List UInt8 → Except String (List UInt8 → List UInt8))
    (credentials : Cryptocom.Credentials) (nowMs : ℕ → Int64) (clock : ℕ → Int64) :
    Connector (FeedMessage F) where
  authMessage time :=
    let nonce := nowMs time
    (CryptocomUser.authFrame newFromSlice credentials nonce nonce).map toText
  pingMessage _ := none
  responseFor _ := CryptocomUser.responseFor reader
  parseMessage time raw := CryptocomUser.parseStream reader (clock time) raw

end

end ExchangeApiws.Native
