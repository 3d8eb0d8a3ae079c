import ExchangeApiws.Native.Sizing

/-!
# Position sizing

A sized position stays under the hard cap, and one of more than a single contract binds no
more margin than the risk that the caller accepts. The multiplier comes from the server and the
cap from the caller, and neither is checked: the file says for which of them the bounds hold.

## Key results

- `two_le_contractsFor_iff`: when more than one contract is sized
- `calcContracts_within_iff`: when the result is within the cap and the risk
-/

namespace ExchangeApiws.Spec

open Native FloatDivision

variable {F : Type}

/-- What a call is asked to size. -/
structure SizingRequest where
  symbol : String
  price : ℚ
  balance : ℚ
  leverage : UInt32
  riskFraction : ℚ
  maxContracts : UInt32

/-- The maximum of `u32` values is that of their values. -/
theorem toNat_max (a b : UInt32) : (max a b).toNat = max a.toNat b.toNat := by
  show (if a ≤ b then b else a).toNat = _
  rw [apply_ite UInt32.toNat, Nat.max_def]
  rfl

/-- The minimum of `u32` values is that of their values. -/
theorem toNat_min (a b : UInt32) : (min a b).toNat = min a.toNat b.toNat := by
  show (if a ≤ b then a else b).toNat = _
  rw [apply_ite UInt32.toNat, Nat.min_def]
  rfl

namespace SizingRequest

variable (req : SizingRequest)

/-- The margin of one contract. -/
def margin (multiplier : ℚ) : ℚ := req.price * multiplier / req.leverage.toNat

/-- What the caller accepts to risk. -/
def risk : ℚ := req.balance * req.riskFraction

/-- No position is sized: the call falls back to one contract before it asks the server. -/
def IsFallback : Prop := req.price ≤ 0 ∨ req.leverage = 0

/-- The number `n` is under the cap, and within the risk if it is more than the minimum. -/
def Within (multiplier : Option ℚ) (n : UInt32) : Prop :=
  1 ≤ n ∧ n ≤ req.maxContracts ∧
    (n = 1 ∨ ∃ cv ∈ multiplier, 0 < req.price ∧ 0 < cv ∧ 0 < req.leverage ∧
      n.toNat * req.price * cv / req.leverage.toNat ≤ req.balance * req.riskFraction)

/-- The multipliers and caps with which the bounds hold. -/
def Sizable (cv : ℚ) : Prop :=
  req.maxContracts = 1 ∨ 0 < cv ∨ (cv = 0 ∧ req.risk ≤ 0) ∨ (cv < 0 ∧ 2 * req.margin cv < req.risk)

/-! ## The number of contracts -/

/-- The number of contracts that the client sizes from a multiplier. -/
def contracts (cv : ℚ) : UInt32 :=
  Kucoin.contractsFor req.price req.balance req.leverage req.riskFraction req.maxContracts cv

/-- The contracts as a number: the saturated quotient, at least one and at most the cap. -/
theorem toNat_contracts (cv : ℚ) :
    (req.contracts cv).toNat =
      min (max ((divide req.risk (req.margin cv)).saturate (UInt32.size - 1)) 1)
        req.maxContracts.toNat := by
  have hraw : (Kucoin.toU32 (divide req.risk (req.margin cv))).toNat =
      (divide req.risk (req.margin cv)).saturate (UInt32.size - 1) := by
    have hle := Extended.saturate_le (UInt32.size - 1) (divide req.risk (req.margin cv))
    rw [Kucoin.toU32, UInt32.toNat_ofNat_of_lt']
    exact Nat.lt_of_le_of_lt hle (by decide)
  rw [← hraw]
  exact (toNat_min _ _).trans (congrArg (min · _) (toNat_max _ 1))

variable {req}

/-- More than the minimum is sized when the cap and the quotient both allow it. -/
theorem le_contracts_iff {cv : ℚ} {k : ℕ} (hk : 1 < k) :
    k ≤ (req.contracts cv).toNat ↔
      k ≤ req.maxContracts.toNat ∧
        ((0 < req.margin cv ∧ k * req.margin cv ≤ req.risk) ∨
          (req.margin cv = 0 ∧ 0 < req.risk) ∨
          (req.margin cv < 0 ∧ req.risk ≤ k * req.margin cv)) := by
  -- Above one the minimum of one contract plays no part.
  rw [toNat_contracts, le_min_iff, le_max_iff, or_iff_left (by omega), and_comm]
  refine and_congr_right fun hle => ?_
  have hsize := req.maxContracts.toNat_lt
  exact le_saturate_iff (by omega) (by simp only [UInt32.size]; omega)

/-- There are never more contracts than the cap. -/
theorem contracts_le (cv : ℚ) : (req.contracts cv).toNat ≤ req.maxContracts.toNat := by
  rw [toNat_contracts]
  exact Nat.min_le_right _ _

/-- There is a contract exactly if the cap allows one. -/
theorem one_le_contracts_iff {cv : ℚ} : 1 ≤ req.contracts cv ↔ 1 ≤ req.maxContracts := by
  rw [UInt32.le_iff_toNat_le, UInt32.le_iff_toNat_le, toNat_contracts]
  simp only [UInt32.toNat_one]
  omega

/-- The sign of the margin is that of the multiplier. -/
theorem margin_sign (hprice : 0 < req.price) (hleverage : req.leverage ≠ 0) (cv : ℚ) :
    (0 < req.margin cv ↔ 0 < cv) ∧ (req.margin cv = 0 ↔ cv = 0) ∧ (req.margin cv < 0 ↔ cv < 0) := by
  have hlev : (0 : ℚ) < req.leverage.toNat := by
    have hne : req.leverage.toNat ≠ 0 := fun h => hleverage (UInt32.toNat_inj.mp h)
    exact_mod_cast Nat.pos_of_ne_zero hne
  unfold margin
  refine ⟨?_, ?_, ?_⟩
  · rw [div_pos_iff_of_pos_right hlev, mul_pos_iff_of_pos_left hprice]
  · rw [div_eq_zero_iff, or_iff_left hlev.ne', mul_eq_zero, or_iff_right hprice.ne']
  · rw [div_neg_iff, mul_neg_iff]
    simp [hlev, hlev.not_gt, hprice, hprice.not_gt]

/-- When no second contract is sized. -/
theorem contracts_eq_one_iff {cv : ℚ} (hmax : 1 ≤ req.maxContracts) :
    req.contracts cv = 1 ↔
      req.maxContracts = 1 ∨ (0 < req.margin cv ∧ req.risk < 2 * req.margin cv) ∨
        (req.margin cv = 0 ∧ req.risk ≤ 0) ∨
        (req.margin cv < 0 ∧ 2 * req.margin cv < req.risk) := by
  have hone : 1 ≤ (req.contracts cv).toNat :=
    UInt32.le_iff_toNat_le.mp (one_le_contracts_iff.mpr hmax)
  have hcap : 1 ≤ req.maxContracts.toNat := UInt32.le_iff_toNat_le.mp hmax
  have hcontracts : req.contracts cv = 1 ↔ ¬2 ≤ (req.contracts cv).toNat := by
    rw [← UInt32.toNat_inj, UInt32.toNat_one]
    omega
  have hcapOne : req.maxContracts = 1 ↔ ¬2 ≤ req.maxContracts.toNat := by
    rw [← UInt32.toNat_inj, UInt32.toNat_one]
    omega
  rw [hcontracts, hcapOne, le_contracts_iff (by decide), not_and_or]
  refine or_congr_right ?_
  -- exactly one of the three signs is left
  rcases lt_trichotomy (req.margin cv) 0 with h | h | h
  · simp [h, h.ne, h.not_gt]
  · simp [h]
  · simp [h, h.ne', h.not_gt]

/-- More than the minimum stays within the risk when the multiplier is positive. -/
theorem notional_le {cv : ℚ} (hmargin : 0 < req.margin cv) (hmany : 1 < (req.contracts cv).toNat) :
    (req.contracts cv).toNat * req.price * cv / req.leverage.toNat ≤
      req.balance * req.riskFraction := by
  -- The quotient was rounded down, so as many margins fit into the risk.
  have hrisk : (req.contracts cv).toNat * req.margin cv ≤ req.risk := by
    rcases ((le_contracts_iff hmany).mp (Nat.le_refl _)).2 with h | h | h
    · exact h.2
    · exact absurd h.1 hmargin.ne'
    · exact absurd h.1 hmargin.not_gt
  calc (req.contracts cv).toNat * req.price * cv / req.leverage.toNat
      = (req.contracts cv).toNat * req.margin cv := by rw [margin]; ring
    _ ≤ req.risk := hrisk

/-- Once the multiplier is known, the bounds hold if and only if it and the cap allow it. -/
theorem within_contracts_iff (hprice : 0 < req.price) (hleverage : req.leverage ≠ 0) (cv : ℚ) :
    req.Within (some cv) (req.contracts cv) ↔ 1 ≤ req.maxContracts ∧ req.Sizable cv := by
  obtain ⟨hpos, hzero, hneg⟩ := margin_sign hprice hleverage cv
  have hlev : 0 < req.leverage := UInt32.pos_iff_ne_zero.mpr hleverage
  unfold Within Sizable
  rw [one_le_contracts_iff]
  refine and_congr_right fun hmax => ?_
  have hone : req.contracts cv = 1 ↔ _ := contracts_eq_one_iff hmax
  rw [hpos, hzero, hneg] at hone
  rw [and_iff_right (UInt32.le_iff_toNat_le.mpr (contracts_le cv))]
  -- A single contract is within any risk, so the sign of the multiplier decides when one is sized.
  -- More of them are within the risk when the multiplier is positive.
  constructor
  · rintro (h | ⟨cv', hcv', -, hcv, -⟩)
    · rcases hone.mp h with h | h | h
      · exact .inl h
      · exact .inr (.inl h.1)
      · exact .inr (.inr h)
    · obtain rfl := Option.some.inj hcv'
      exact .inr (.inl hcv)
  · rintro (h | hcv | h)
    · exact .inl (hone.mpr (.inl h))
    · by_cases h : req.contracts cv = 1
      · exact .inl h
      · have hmany : 1 < (req.contracts cv).toNat := by
          have hpositive : 1 ≤ req.contracts cv := one_le_contracts_iff.mpr hmax
          rw [UInt32.le_iff_toNat_le, UInt32.toNat_one] at hpositive
          rw [← UInt32.toNat_inj, UInt32.toNat_one] at h
          omega
        exact .inr ⟨cv, rfl, hprice, hcv, hlev, notional_le (hpos.mpr hcv) hmany⟩
    · exact .inl (hone.mpr (.inr (.inr h)))

end SizingRequest

/-! ## The call -/

/-- The multiplier that the server has returned, if the call got that far. -/
def returnedMultiplier [Kucoin.HeaderValue] (key : String) (timestamp : ℕ → ℤ)
    (fromValue : Value F → Except String Kucoin.ContractInfo) (symbol : String)
    (outcomes : List (Except String (Response F))) : Option ℚ :=
  (Kucoin.getContract key timestamp fromValue symbol outcomes).bind fun sent =>
    sent.result.toOption.bind Kucoin.ContractInfo.multiplier

/-- What the call answers: a single contract without asking, or what the returned multiplier
    gives. -/
theorem calcContracts_ok_iff [Kucoin.HeaderValue] {key : String} {timestamp : ℕ → ℤ}
    {fromValue : Value F → Except String Kucoin.ContractInfo} {req : SizingRequest}
    {outcomes : List (Except String (Response F))} {sent : Sent F UInt32}
    (h : Kucoin.calcContracts key timestamp fromValue req.symbol req.price req.balance
      req.leverage req.riskFraction req.maxContracts outcomes = some sent) (n : UInt32) :
    sent.result = .ok n ↔
      (req.IsFallback ∧ n = 1) ∨
        (¬req.IsFallback ∧
          ∃ cv ∈ returnedMultiplier key timestamp fromValue req.symbol outcomes,
            n = req.contracts cv) := by
  unfold Kucoin.calcContracts at h
  -- The two guards answer before the server is asked.
  by_cases hprice : req.price ≤ 0
  · rw [if_pos hprice] at h
    obtain rfl := Option.some.inj h
    simp [SizingRequest.IsFallback, hprice, eq_comm]
  · rw [if_neg hprice] at h
    by_cases hleverage : req.leverage = 0
    · rw [if_pos hleverage] at h
      obtain rfl := Option.some.inj h
      simp [SizingRequest.IsFallback, hleverage, eq_comm]
    · rw [if_neg hleverage] at h
      have hfallback : ¬req.IsFallback := not_or.mpr ⟨hprice, hleverage⟩
      obtain ⟨answer, hanswer, rfl⟩ := Option.map_eq_some_iff.mp h
      rw [returnedMultiplier, hanswer, Option.bind_some]
      simp only [hfallback, false_and, false_or, not_false_eq_true, true_and]
      -- The request may fail, and the contract may come without a multiplier: both end in an error.
      rcases hresult : answer.result with e | contract
      · simp [Sent.andThen, hresult, Except.bind, Except.toOption]
      · rcases hmultiplier : contract.multiplier with _ | cv
        · simp [Sent.andThen, hresult, Except.bind, Except.toOption, hmultiplier]
        · simp [Sent.andThen, hresult, Except.bind, Except.toOption, hmultiplier,
            SizingRequest.contracts, eq_comm]

/-- What the call sizes is under the cap and within the risk if and only if the cap is positive
    and the returned multiplier is one that the bounds hold for. -/
theorem calcContracts_within_iff [Kucoin.HeaderValue] {key : String} {timestamp : ℕ → ℤ}
    {fromValue : Value F → Except String Kucoin.ContractInfo} {req : SizingRequest}
    {outcomes : List (Except String (Response F))} {sent : Sent F UInt32}
    (h : Kucoin.calcContracts key timestamp fromValue req.symbol req.price req.balance
      req.leverage req.riskFraction req.maxContracts outcomes = some sent) :
    (∀ n, sent.result = .ok n →
        req.Within (returnedMultiplier key timestamp fromValue req.symbol outcomes) n) ↔
      (req.IsFallback → 1 ≤ req.maxContracts) ∧
        (¬req.IsFallback →
          ∀ cv ∈ returnedMultiplier key timestamp fromValue req.symbol outcomes,
            1 ≤ req.maxContracts ∧ req.Sizable cv) := by
  simp only [calcContracts_ok_iff h]
  by_cases hfallback : req.IsFallback
  -- one contract, whatever the multiplier would have been
  · simp [hfallback, SizingRequest.Within]
  · have hprice : 0 < req.price := not_le.mp (not_or.mp hfallback).1
    have hleverage : req.leverage ≠ 0 := (not_or.mp hfallback).2
    simp only [hfallback, false_and, false_or, not_false_eq_true, true_and, false_implies,
      true_implies]
    constructor
    · intro hall cv hcv
      have hwithin := hall (req.contracts cv) ⟨cv, hcv, rfl⟩
      rw [Option.mem_def.mp hcv] at hwithin
      exact (SizingRequest.within_contracts_iff hprice hleverage cv).mp hwithin
    · rintro hall n ⟨cv, hcv, rfl⟩
      rw [Option.mem_def.mp hcv]
      exact (SizingRequest.within_contracts_iff hprice hleverage cv).mpr (hall cv hcv)

open scoped Kucoin.SampleHeaders

/-- A risk of 500 at a leverage of 10, capped at `maxContracts`. -/
def exampleSizing (maxContracts : UInt32) : SizingRequest where
  symbol := "XBTUSDTM"
  price := 50000
  balance := 1000
  leverage := 10
  riskFraction := 1 / 2
  maxContracts := maxContracts

/-- An answer that is read as the contract. -/
def exampleAnswer : Response ℤ := ⟨200, .ok "", .ok (.object [("code", .string "200000")])⟩

/-- What the example sizes when the server returns a multiplier. -/
def exampleSized (maxContracts : UInt32) (multiplier : ℚ) : Option (Sent ℤ UInt32) :=
  let req := exampleSizing maxContracts
  Kucoin.calcContracts "key" Int.ofNat (fun _ => .ok ⟨"XBTUSDTM", some multiplier⟩) req.symbol
    req.price req.balance req.leverage req.riskFraction req.maxContracts [.ok exampleAnswer]

/-- A contract of a thousandth: a hundred of them bind the margin that is risked. -/
theorem exampleSized_within : (exampleSizing 150).Within (some (1 / 1000)) 100 := by
  have hreturned : returnedMultiplier "key" Int.ofNat
      (fun _ => .ok ⟨"XBTUSDTM", some (1 / 1000)⟩) (exampleSizing 150).symbol
      [.ok exampleAnswer] = some (1 / 1000) := rfl
  have hsized : ∃ sent, exampleSized 150 (1 / 1000) = some sent ∧ sent.result = .ok 100 := by
    refine ⟨_, rfl, ?_⟩
    decide +kernel
  obtain ⟨sent, hsent, hresult⟩ := hsized
  have hwithin := (calcContracts_within_iff hsent).mpr ⟨fun _ => by decide, fun _ cv hcv => ?_⟩
  · rw [hreturned] at hwithin
    exact hwithin 100 hresult
  · rw [hreturned] at hcv
    obtain rfl := Option.some.inj hcv
    exact ⟨by decide, .inr (.inl (by decide +kernel))⟩

/-- A multiplier of zero sizes the whole cap, and a cap of zero is no longer a minimum of one. -/
theorem exampleSized_unbounded :
    ((exampleSized 150 0).map Sent.result = some (.ok 150) ∧
        ¬(exampleSizing 150).Within (some 0) 150) ∧
      ((exampleSized 0 (1 / 1000)).map Sent.result = some (.ok 0) ∧
        ¬(exampleSizing 0).Within (some (1 / 1000)) 0) := by
  have hzero : ¬(exampleSizing 150).Within (some 0) 150 := by
    rintro ⟨-, -, h | ⟨cv, hcv, -, hpos, -⟩⟩
    · exact absurd h (by decide)
    · obtain rfl := Option.some.inj hcv
      exact absurd hpos (lt_irrefl 0)
  have hcap : ¬(exampleSizing 0).Within (some (1 / 1000)) 0 := fun h => absurd h.1 (by decide)
  exact ⟨⟨by decide +kernel, hzero⟩, by decide +kernel, hcap⟩

end ExchangeApiws.Spec
