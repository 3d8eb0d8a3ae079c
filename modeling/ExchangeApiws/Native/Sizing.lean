import ExchangeApiws.ForStd.FloatDivision
import ExchangeApiws.Native.KucoinRest

/-!
# Position sizing

Translation of `calc_contracts` of `src/rest/orders.rs` and of `get_contract` of
`src/rest/market.rs`. Prices and balances are exact, so rounding is left out; a division by
zero and the cast to `u32` are those of `f64`.
-/

namespace ExchangeApiws.Native.Kucoin

open FloatDivision

variable {F : Type}

/-- Contract metadata: the fields that sizing needs. -/
structure ContractInfo where
  symbol : String
  multiplier : Option ℚ
  deriving DecidableEq, Repr

/-- Fetch the metadata of a contract. -/
def getContract [HeaderValue] (key : String) (timestamp : ℕ → ℤ)
    (fromValue : Value F → Except String ContractInfo) (symbol : String)
    (outcomes : List (Except String (Response F))) : Option (Sent F ContractInfo) :=
  get key timestamp ("/api/v1/contracts/" ++ symbol) [] fromValue outcomes

/-- `f64 as u32`. -/
def toU32 (q : Extended) : UInt32 := UInt32.ofNat (q.saturate (UInt32.size - 1))

/-- The number of contracts once the multiplier `cv` is known. -/
def contractsFor (price balance : ℚ) (leverage : UInt32) (riskFraction : ℚ)
    (maxContracts : UInt32) (cv : ℚ) : UInt32 :=
  let notionalPerCt := price * cv
  let marginPerCt := notionalPerCt / leverage.toNat
  let raw := toU32 (divide (balance * riskFraction) marginPerCt)
  min (max raw 1) maxContracts

/-- Calculate the number of contracts to open given account parameters. -/
def calcContracts [HeaderValue] (key : String) (timestamp : ℕ → ℤ)
    (fromValue : Value F → Except String ContractInfo) (symbol : String) (price balance : ℚ)
    (leverage : UInt32) (riskFraction : ℚ) (maxContracts : UInt32)
    (outcomes : List (Except String (Response F))) : Option (Sent F UInt32) :=
  if price ≤ 0 then some ⟨.ok 1, []⟩
  else if leverage = 0 then some ⟨.ok 1, []⟩
  else
    (getContract key timestamp fromValue symbol outcomes).map (·.andThen fun contract =>
      match contract.multiplier with
      | none => .error (.order ("calc_contracts: contract " ++ symbol ++
          " returned no multiplier — cannot size position"))
      | some cv => .ok (contractsFor price balance leverage riskFraction maxContracts cv))

end ExchangeApiws.Native.Kucoin
