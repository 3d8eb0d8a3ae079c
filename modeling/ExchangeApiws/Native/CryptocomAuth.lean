import ExchangeApiws.ForStd.KeySort
import ExchangeApiws.ForStd.List
import ExchangeApiws.Native.PrivateWs
import ExchangeApiws.Native.Query

/-!
# Crypto.com signatures

Translation of `sign_cryptocom_request`, `build_params_string` and `append_value` from
`src/cryptocom/auth.rs`. `newFromSlice` is the constructor of the HMAC: it takes the key and
yields the function from messages to digests.
-/

namespace ExchangeApiws.Native.Cryptocom

variable {F : Type} [F64Arith F]

/-- The bytes of a key, as numbers. -/
def keyBytes (key : String) : List ℕ := (bytes key).map UInt8.toNat

/-- `keys.sort()`: strings are ordered by their bytes. -/
def sortKeys (keys : List String) : List String := KeySort.sortBy keyBytes keys

omit [F64Arith F] in
/-- The value of a key is smaller than the map. -/
theorem sizeOf_lookup {map : List (String × Value F)} {k : String} {v : Value F}
    (h : map.lookup k = some v) : sizeOf v < sizeOf map := by
  have hmem := List.sizeOf_lt_of_mem (List.mem_of_lookup_eq_some h)
  rw [Prod.mk.sizeOf_spec] at hmem
  omega

/-- Append a value to the params string. `label` is the key under which it is serialised. -/
def appendValue (out : String) (v : Value F) (label : Option String) : String :=
  let out := match label with
    | some l => out ++ l
    | none => out
  match v with
  -- emit nothing
  | .null => out
  | .bool b => out ++ toString b
  | .number n => out ++ n.text
  | .string s => out ++ s
  | .array arr => arr.foldl (fun out item => appendValue out item none) out
  | .object map =>
    (sortKeys (map.map Prod.fst)).foldl (fun out k =>
      match _h : map.lookup k with
      | some v => appendValue out v (some k)
      -- `map[&k]` panics here, but every key is in the map
      | none => out) out
termination_by sizeOf v
decreasing_by
  · rename_i hitem
    have := List.sizeOf_lt_of_mem hitem
    simp only [Value.array.sizeOf_spec]
    omega
  · have := sizeOf_lookup _h
    simp only [Value.object.sizeOf_spec]
    omega

/-- Build the deterministic params string for the signature payload. -/
def buildParamsString (v : Value F) : String := appendValue "" v none

/-- Sign a private-API request and return the hex `sig` field. -/
def signCryptocomRequest (newFromSlice : List UInt8 → Except String (List UInt8 → List UInt8))
    (method : String) (id : Int64) (apiKey : String) (params : Value F) (nonce : Int64)
    (apiSecret : String) : Result String :=
  let paramsString := buildParamsString params
  let payload := method ++ toString id.toInt ++ apiKey ++ paramsString ++ toString nonce.toInt
  match newFromSlice (bytes apiSecret) with
  | .error e => .error (.auth ("Crypto.com HMAC init failed: " ++ e))
  | .ok mac => .ok (hexEncode (mac (bytes payload)))

end ExchangeApiws.Native.Cryptocom
