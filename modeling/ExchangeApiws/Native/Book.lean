import ExchangeApiws.Native.Actors

/-!
# Local order book

Translation of `src/book.rs`. Prices are a linear order `P` (`Px` orders `f64` by
`total_cmp`); sizes are a type `Q` with a zero and the comparison `==` that the code tests
against it. Each side is a `BTreeMap`, here `Std.ExtTreeMap`. Update ids are `u64`, so
`UInt64` with its wrapping `+`.
-/

namespace ExchangeApiws.Native

open Std (ExtTreeMap)

/-- Outcome of feeding one message into `LocalOrderBook.apply`. -/
inductive BookApply where
  | snapshot
  | delta
  | awaitingSnapshot
  | stale
  | gap (expected got : UInt64)
  deriving DecidableEq, Repr

/-- `true` when the outcome means the book lost sync. -/
def BookApply.isGap : BookApply → Bool
  | .gap _ _ => true
  | _ => false

section LocalOrderBook

variable {P Q : Type*} [LinearOrder P] [Zero Q] [BEq Q]

/-- The order of the prices, as the maps need it. -/
instance transCmp_price (P : Type*) [LinearOrder P] : Std.TransCmp (compare : P → P → Ordering) :=
  inferInstance

/-- Set or remove levels: a size equal to zero removes, anything else overwrites. -/
def applyLevels (side : ExtTreeMap P Q compare) (levels : List (P × Q)) :
    ExtTreeMap P Q compare :=
  levels.foldl (fun side (price, qty) =>
    if qty == 0 then side.erase price else side.insert price qty) side

/-- A locally maintained order book assembled from snapshot and delta messages. -/
structure LocalOrderBook (P Q : Type*) [LinearOrder P] where
  bids : ExtTreeMap P Q compare
  asks : ExtTreeMap P Q compare
  lastUpdateId : Option UInt64
  synced : Bool
  symbol : String
  exchange : String
  exchangeTs : Int64

namespace LocalOrderBook

/-- An empty, unsynced book (`new`, the derived `Default`). -/
def new : LocalOrderBook P Q where
  bids := ∅
  asks := ∅
  lastUpdateId := none
  synced := false
  symbol := ""
  exchange := ""
  exchangeTs := 0

/-- `true` once a snapshot has been applied and no gap has been seen since. -/
def isSynced (book : LocalOrderBook P Q) : Bool := book.synced

/-- Record symbol, exchange and timestamp from an applied message. -/
def noteSource (book : LocalOrderBook P Q) (msg : OrderBookData P Q) : LocalOrderBook P Q :=
  let book := if book.symbol.isEmpty then
      { book with symbol := msg.symbol, exchange := msg.exchange }
    else book
  { book with exchangeTs := msg.exchangeTs }

/-- The snapshot branch of `apply`: replace the book wholesale and re-sync it. -/
def applySnapshot (book : LocalOrderBook P Q) (msg : OrderBookData P Q) : LocalOrderBook P Q :=
  { book with
    bids := applyLevels ∅ msg.bids
    asks := applyLevels ∅ msg.asks
    lastUpdateId := msg.lastUpdateId
    synced := true }.noteSource msg

/-- The last branch of `apply`: set the delta's levels and advance the id if it has one. -/
def applyDelta (book : LocalOrderBook P Q) (msg : OrderBookData P Q) : LocalOrderBook P Q :=
  { book with
    bids := applyLevels book.bids msg.bids
    asks := applyLevels book.asks msg.asks
    lastUpdateId :=
      if msg.lastUpdateId.isSome then msg.lastUpdateId else book.lastUpdateId }.noteSource msg

/-- Apply one snapshot or delta message and report what happened. -/
def apply (book : LocalOrderBook P Q) (msg : OrderBookData P Q) :
    LocalOrderBook P Q × BookApply :=
  if msg.isSnapshot then (book.applySnapshot msg, .snapshot)
  else if !book.synced then (book, .awaitingSnapshot)
  else match book.lastUpdateId, msg.lastUpdateId with
    | some prev, some last =>
      if last ≤ prev then (book, .stale)
      else
        let first := msg.firstUpdateId.getD last
        if prev + 1 < first then
          ({ book with synced := false }, .gap (prev + 1) first)
        else (book.applyDelta msg, .delta)
    | _, _ => (book.applyDelta msg, .delta)

/-- The book after a sequence of messages, each fed through `apply`. -/
def applyAll (book : LocalOrderBook P Q) (msgs : List (OrderBookData P Q)) :
    LocalOrderBook P Q :=
  msgs.foldl (fun book msg => (book.apply msg).1) book

/-! ## Read access -/

/-- Highest bid as `(price, size)`. -/
def bestBid (book : LocalOrderBook P Q) : Option (P × Q) := book.bids.maxEntry?

/-- Lowest ask as `(price, size)`. -/
def bestAsk (book : LocalOrderBook P Q) : Option (P × Q) := book.asks.minEntry?

/-- `true` when the best bid is at or above the best ask. -/
def isCrossed (book : LocalOrderBook P Q) : Bool :=
  match book.bestBid, book.bestAsk with
  | some bid, some ask => decide (ask.1 ≤ bid.1)
  | _, _ => false

/-- Top `depth` bid levels, best (highest) first. -/
def topBids (book : LocalOrderBook P Q) (depth : ℕ) : List (P × Q) :=
  book.bids.toList.reverse.take depth

/-- Top `depth` ask levels, best (lowest) first. -/
def topAsks (book : LocalOrderBook P Q) (depth : ℕ) : List (P × Q) :=
  book.asks.toList.take depth

/-- Number of bid price levels in the book. -/
def bidDepth (book : LocalOrderBook P Q) : ℕ := book.bids.size

/-- Number of ask price levels in the book. -/
def askDepth (book : LocalOrderBook P Q) : ℕ := book.asks.size

/-- Export the current state as a full snapshot; `now` is the export time. -/
def snapshot (book : LocalOrderBook P Q) (now : Int64) : OrderBookData P Q where
  symbol := book.symbol
  exchange := book.exchange
  asks := book.asks.toList
  bids := book.bids.toList.reverse
  exchangeTs := book.exchangeTs
  receiptTs := now
  isSnapshot := true
  firstUpdateId := book.lastUpdateId
  lastUpdateId := book.lastUpdateId

/-! ## What the operations leave alone

Each operation's effect on each field, so that the proofs about whole runs never unfold
`noteSource`. -/

variable (book : LocalOrderBook P Q) (msg : OrderBookData P Q)

omit [Zero Q] [BEq Q] in
@[simp] theorem noteSource_bids : (book.noteSource msg).bids = book.bids := by
  simp only [noteSource]; split <;> rfl

omit [Zero Q] [BEq Q] in
@[simp] theorem noteSource_asks : (book.noteSource msg).asks = book.asks := by
  simp only [noteSource]; split <;> rfl

omit [Zero Q] [BEq Q] in
@[simp] theorem noteSource_lastUpdateId :
    (book.noteSource msg).lastUpdateId = book.lastUpdateId := by
  simp only [noteSource]; split <;> rfl

omit [Zero Q] [BEq Q] in
@[simp] theorem noteSource_synced : (book.noteSource msg).synced = book.synced := by
  simp only [noteSource]; split <;> rfl

@[simp] theorem applySnapshot_bids :
    (book.applySnapshot msg).bids = applyLevels ∅ msg.bids := noteSource_bids _ _

@[simp] theorem applySnapshot_asks :
    (book.applySnapshot msg).asks = applyLevels ∅ msg.asks := noteSource_asks _ _

@[simp] theorem applySnapshot_lastUpdateId :
    (book.applySnapshot msg).lastUpdateId = msg.lastUpdateId := noteSource_lastUpdateId _ _

@[simp] theorem applySnapshot_synced : (book.applySnapshot msg).synced = true :=
  noteSource_synced _ _

@[simp] theorem applyDelta_bids :
    (book.applyDelta msg).bids = applyLevels book.bids msg.bids := noteSource_bids _ _

@[simp] theorem applyDelta_asks :
    (book.applyDelta msg).asks = applyLevels book.asks msg.asks := noteSource_asks _ _

@[simp] theorem applyDelta_lastUpdateId : (book.applyDelta msg).lastUpdateId =
    if msg.lastUpdateId.isSome then msg.lastUpdateId else book.lastUpdateId :=
  noteSource_lastUpdateId _ _

@[simp] theorem applyDelta_synced : (book.applyDelta msg).synced = book.synced :=
  noteSource_synced _ _

end LocalOrderBook

end LocalOrderBook

end ExchangeApiws.Native
