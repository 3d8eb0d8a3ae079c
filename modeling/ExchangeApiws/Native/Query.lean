import ExchangeApiws.ForStd.PercentEncoding

/-!
# Query strings and form bodies

Translation of the encoders of `src/http.rs` and `src/kraken/auth.rs`, and of the signed query
of `src/binance/signed_rest.rs` with its signature from `src/binance/auth.rs`. HMAC-SHA256 is
the parameter `hmac`.
-/

namespace ExchangeApiws.Native

/-- `str::bytes`. -/
def bytes (s : String) : List UInt8 := PercentEncoding.utf8 s.toList

/-- A byte in two lowercase hexadecimal digits, as `{b:02x}` writes it. -/
def hexByte (b : UInt8) : List Char :=
  [Nat.digitChar (b >>> 4).toNat, Nat.digitChar (b &&& 0xF).toNat]

def hexEncode (bytes : List UInt8) : String := String.ofList (bytes.flatMap hexByte)

/-- `A–Z`, `a–z`, `0–9`, `-`, `_`, `.` and `~`. -/
def isUnreserved (b : UInt8) : Bool :=
  (0x41 ≤ b && b ≤ 0x5A) || (0x61 ≤ b && b ≤ 0x7A) || (0x30 ≤ b && b ≤ 0x39) ||
    b == 0x2D || b == 0x5F || b == 0x2E || b == 0x7E

/-- `%XX`, with uppercase digits. -/
def percentByte (b : UInt8) : List Char :=
  '%' :: (hexByte b).map Char.toUpper

/-- What `percent_encode` pushes for a byte. -/
def percentEncodeByte (b : UInt8) : List Char :=
  if isUnreserved b then [Char.ofUInt8 b] else percentByte b

/-- Percent-encode a query parameter. -/
def percentEncode (s : String) : String := String.ofList ((bytes s).flatMap percentEncodeByte)

/-- Build a percent-encoded query string from key-value pairs. -/
def buildQueryString (params : List (String × String)) : String :=
  if params.isEmpty then ""
  else
    let pairs := params.map fun (k, v) => percentEncode k ++ "=" ++ percentEncode v
    "?" ++ "&".intercalate pairs

namespace Kraken

/-- What `form_url_encode` pushes for a byte. -/
def formUrlEncodeByte (b : UInt8) : List Char :=
  if isUnreserved b then [Char.ofUInt8 b] else if b = 0x20 then ['+'] else percentByte b

/-- `application/x-www-form-urlencoded` percent-encoding. -/
def formUrlEncode (s : String) : String := String.ofList ((bytes s).flatMap formUrlEncodeByte)

/-- Build an `application/x-www-form-urlencoded` body from key-value pairs. -/
def formEncode (params : List (String × String)) : String :=
  if params.isEmpty then ""
  else params.zipIdx.foldl (fun out ((k, v), i) =>
    let out := if i > 0 then out ++ "&" else out
    out ++ formUrlEncode k ++ "=" ++ formUrlEncode v) ""

end Kraken

namespace Binance

/-- HMAC-SHA256 as lowercase hex. -/
def hmacHex (hmac : List UInt8 → List UInt8 → List UInt8) (key msg : List UInt8) : String :=
  hexEncode (hmac key msg)

/-- The signature of a query string. -/
def signQuery (hmac : List UInt8 → List UInt8 → List UInt8) (apiSecret query : String) : String :=
  hmacHex hmac (bytes apiSecret) (bytes query)

/-- The loop of `signed_query` over the caller's parameters. -/
def pushParams (params : List (String × String)) : String :=
  params.foldl (fun q (k, v) =>
    (if q.isEmpty then q else q ++ "&") ++ percentEncode k ++ "=" ++ percentEncode v) ""

/-- What `signed_query` signs: the parameters, with `recvWindow` and `timestamp` behind them. -/
def unsignedQuery (recvWindow now : UInt64) (params : List (String × String)) : String :=
  let q := pushParams params
  let q := if q.isEmpty then q else q ++ "&"
  q ++ "recvWindow=" ++ toString recvWindow ++ "&timestamp=" ++ toString now

/-- The fully-signed query string. The same text is signed and sent. -/
def signedQuery (hmac : List UInt8 → List UInt8 → List UInt8) (apiSecret : String)
    (recvWindow now : UInt64) (params : List (String × String)) : String :=
  let q := unsignedQuery recvWindow now params
  q ++ "&signature=" ++ signQuery hmac apiSecret q

end Binance

end ExchangeApiws.Native
