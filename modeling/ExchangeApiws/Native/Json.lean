import Mathlib

/-!
# Numbers and JSON values

What the crate uses of the standard library and of `serde_json::Value`. The type of floats is
a parameter `F`: nothing here depends on how `f64` rounds. The Unicode tables of the standard
library come with it. Reading the text of a frame into a `Value` is `serde_json`'s work and
enters the connectors as a parameter; everything the crate does with the value is translated.
-/

namespace ExchangeApiws.Native

/-- The operations of the standard library that the crate uses and that are parameters here:
    those on `f64`, and the one on texts that needs the Unicode tables. The order is
    `f64::total_cmp`; `==` and `0` are those of the code's `qty == 0.0`. -/
class F64 (F : Type) extends LinearOrder F, Zero F, BEq F where
  /-- `str::parse::<f64>`. -/
  parse : String → Option F
  /-- `f64::to_string`. -/
  display : F → String
  /-- `u64 as f64`. -/
  ofUInt64 : UInt64 → F
  /-- `i64 as f64`. -/
  ofInt64 : Int64 → F
  /-- `str::to_uppercase`. -/
  toUppercase : String → String

/-- The digits of a decimal numeral, folded from the left; `none` on any other character. -/
def parseDigits : List Char → ℕ → Option ℕ
  | [], n => some n
  | c :: cs, n => if c.isDigit then parseDigits cs (10 * n + (c.toNat - '0'.toNat)) else none

/-- An optionally signed decimal numeral with at least one digit. -/
def parseInt (s : String) : Option Int :=
  match s.toList with
  | [] => none
  | '-' :: cs => if cs.isEmpty then none else (parseDigits cs 0).map fun n => -(n : Int)
  | '+' :: cs => if cs.isEmpty then none else (parseDigits cs 0).map fun n => (n : Int)
  | cs => (parseDigits cs 0).map fun n => (n : Int)

/-- `str::parse::<i64>`. -/
def parseI64 (s : String) : Option Int64 :=
  (parseInt s).bind fun i => if -2 ^ 63 ≤ i ∧ i < 2 ^ 63 then some (Int64.ofInt i) else none

/-- `u64::try_from(i64)`. -/
def tryFromI64 (i : Int64) : Option UInt64 := if 0 ≤ i then some i.toUInt64 else none

/-- `str::eq_ignore_ascii_case`. -/
def eqIgnoreAsciiCase (s t : String) : Bool :=
  s.toList.map Char.toLower == t.toList.map Char.toLower

/-- `str::starts_with`. -/
def startsWith (s p : String) : Bool := p.toList.isPrefixOf s.toList

/-- `str::contains`, for a pattern that is a string. -/
def contains (s p : String) : Bool := s.toList.tails.any p.toList.isPrefixOf

/-- Whole numbers in place of floats, for concrete inputs. -/
instance : F64 ℤ where
  parse := parseInt
  display := toString
  ofUInt64 n := n.toNat
  ofInt64 i := i.toInt
  toUppercase := String.toUpper

/-- A JSON number as `serde_json` stores it; `negInt` holds negative integers only. -/
inductive Number (F : Type) where
  | posInt (n : UInt64)
  | negInt (i : Int64)
  | float (x : F)

/-- `serde_json::Value`. The keys of an object are distinct. -/
inductive Value (F : Type) where
  | null
  | bool (b : Bool)
  | number (n : Number F)
  | string (s : String)
  | array (xs : List (Value F))
  | object (fields : List (String × Value F))

namespace Value

variable {F : Type}

/-- `Value::get` with a key. -/
def get (v : Value F) (key : String) : Option (Value F) :=
  match v with
  | .object fields => fields.lookup key
  | _ => none

/-- `Value::get` with a position. -/
def getIdx (v : Value F) (i : ℕ) : Option (Value F) :=
  match v with
  | .array xs => xs[i]?
  | _ => none

/-- `value[key]`: `null` where there is no such field. -/
def index (v : Value F) (key : String) : Value F := (v.get key).getD .null

/-- `Value::as_str`. -/
def asStr : Value F → Option String
  | .string s => some s
  | _ => none

/-- `Value::as_bool`. -/
def asBool : Value F → Option Bool
  | .bool b => some b
  | _ => none

/-- `Value::as_array`. -/
def asArray : Value F → Option (List (Value F))
  | .array xs => some xs
  | _ => none

/-- `Value::as_u64`. -/
def asU64 : Value F → Option UInt64
  | .number (.posInt n) => some n
  | _ => none

/-- `Value::as_i64`. -/
def asI64 : Value F → Option Int64
  | .number (.posInt n) => if n.toNat < 2 ^ 63 then some n.toInt64 else none
  | .number (.negInt i) => some i
  | _ => none

/-- `Value::as_f64`. -/
def asF64 [F64 F] : Value F → Option F
  | .number (.posInt n) => some (F64.ofUInt64 n)
  | .number (.negInt i) => some (F64.ofInt64 i)
  | .number (.float x) => some x
  | _ => none

/-- A string field, or `default` where it is missing or not a string. -/
def strOr (v : Value F) (key default : String) : String := ((v.get key).bind asStr).getD default

/-- A string field read as a float. -/
def optStrF64 [F64 F] (v : Value F) (key : String) : Option F :=
  (v.get key).bind fun x => x.asStr.bind F64.parse

/-- A string field read as a float, `0.0` where that fails. -/
def strF64 [F64 F] (v : Value F) (key : String) : F := (v.optStrF64 key).getD 0

/-- A string field read as an `i64`, `0` where that fails. -/
def strI64 (v : Value F) (key : String) : Int64 :=
  ((v.get key).bind fun x => x.asStr.bind parseI64).getD 0

/-- An integer field, or `default` where it is missing or not an `i64`. -/
def i64Or (v : Value F) (key : String) (default : Int64) : Int64 :=
  ((v.get key).bind asI64).getD default

/-- A price level `[price, qty, …]` of strings; `none` when the row is too short or one of
    the two does not parse. -/
def level [F64 F] (row : Value F) : Option (F × F) := do
  let p ← F64.parse (← (← row.getIdx 0).asStr)
  let q ← F64.parse (← (← row.getIdx 1).asStr)
  return (p, q)

/-- The price levels of an array of rows, leaving out the rows that do not parse. -/
def levels [F64 F] (v : Value F) : List (F × F) := (v.asArray.map (·.filterMap level)).getD []

end Value

end ExchangeApiws.Native
