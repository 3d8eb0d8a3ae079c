import ExchangeApiws.Native.Book
import ExchangeApiws.Native.PrivateWs

/-!
# The comparison of best prices

Translation of `is_crossed` of `src/book.rs` at `f64`. It compares prices with `>=`, not with the
order of the keys.
-/

namespace ExchangeApiws.Native

/-- The further operations on `f64` that feeds and books use. -/
class F64Ops (F : Type) extends F64Arith F where
  /-- `f64::midpoint`. -/
  midpoint : F → F → F
  /-- `>=` on `f64`, which is not the order of `total_cmp`. -/
  ge : F → F → Bool

/-- Whole numbers in place of floats, for concrete inputs. -/
instance : F64Ops ℤ where
  midpoint a b := (a + b) / 2
  ge a b := decide (b ≤ a)

namespace LocalOrderBook

variable {F : Type} [F64Ops F]

/-- `is_crossed`: the best bid is at or above the best ask, as `f64` compares them. -/
def isCrossedF64 (book : LocalOrderBook F F) : Bool :=
  match book.bestBid, book.bestAsk with
  | some bid, some ask => F64Ops.ge bid.1 ask.1
  | _, _ => false

end LocalOrderBook

end ExchangeApiws.Native
