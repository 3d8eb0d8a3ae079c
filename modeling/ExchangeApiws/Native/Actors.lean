import Mathlib

/-!
# Normalized market data

Translation of the data model of `src/actors.rs`: the messages that every connector's
`parse_message` turns a venue's frames into. `F` stands for `f64`.
-/

namespace ExchangeApiws.Native

/-- Side of the taker in a trade. -/
inductive TradeSide where
  | buy
  | sell
  deriving DecidableEq, Repr

/-- A single executed trade. -/
structure TradeData (F : Type) where
  symbol : String
  exchange : String
  side : TradeSide
  price : F
  amount : F
  exchangeTs : Int64
  receiptTs : Int64
  tradeId : String
  deriving DecidableEq, Repr

/-- Best bid and ask. -/
structure TickerData (F : Type) where
  symbol : String
  exchange : String
  price : F
  bestBid : F
  bestAsk : F
  exchangeTs : Int64
  receiptTs : Int64
  deriving DecidableEq, Repr

/-- An order-book snapshot or incremental delta, with prices in `P` and sizes in `Q`. -/
structure OrderBookData (P Q : Type*) where
  symbol : String
  exchange : String
  asks : List (P × Q)
  bids : List (P × Q)
  exchangeTs : Int64
  receiptTs : Int64
  /-- `true` for a full snapshot, `false` for an incremental delta. -/
  isSnapshot : Bool
  firstUpdateId : Option UInt64
  lastUpdateId : Option UInt64
  deriving DecidableEq, Repr

/-- A candlestick bar, closed or in progress. -/
structure CandleData (F : Type) where
  symbol : String
  exchange : String
  interval : String
  openTs : Int64
  «open» : F
  high : F
  low : F
  close : F
  volume : F
  isClosed : Bool
  receiptTs : Int64
  deriving DecidableEq, Repr

/-- A funding-rate event. -/
structure FundingData (F : Type) where
  symbol : String
  exchange : String
  fundingRate : F
  nextFundingTime : Int64
  markPrice : Option F
  indexPrice : Option F
  exchangeTs : Int64
  receiptTs : Int64
  deriving DecidableEq, Repr

/-- The public-feed variants of `DataMessage`. -/
inductive DataMessage (F : Type) where
  | trade (data : TradeData F)
  | ticker (data : TickerData F)
  | orderBook (data : OrderBookData F F)
  | candle (data : CandleData F)
  | fundingRate (data : FundingData F)
  deriving DecidableEq, Repr

/-- The order-book message of a `DataMessage`, if it is one. -/
def DataMessage.asOrderBook {F : Type} : DataMessage F → Option (OrderBookData F F)
  | .orderBook data => some data
  | _ => none

end ExchangeApiws.Native
