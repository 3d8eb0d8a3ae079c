import ExchangeApiws.Native.BybitWs
import ExchangeApiws.Native.OkxWs

/-!
# The symbol of a multiplexed frame

OKX `books` and Bybit `kline` frames name their instrument once, for the whole frame. The
messages take their symbol from the rows, or from nowhere, so the instrument of the frame can
get lost and two instruments of one connection then share a stream.

## Key results

- `symbols_messages`: where the messages of a frame have their symbol from
- `carries_instrument_iff`: the frames whose messages carry the instrument of the frame
-/

namespace ExchangeApiws.Spec

open Native

variable {F : Type}

/-- The symbol that a consumer sorts a message by. -/
def symbolOf : DataMessage F → String
  | .trade data => data.symbol
  | .ticker data => data.symbol
  | .orderBook data => data.symbol
  | .candle data => data.symbol
  | .fundingRate data => data.symbol

/-- A frame whose instrument is named at the level of the frame. -/
inductive MultiplexedFrame (F : Type) where
  | okxBooks (json : Value F)
  | bybitKline (json : Value F)

namespace MultiplexedFrame

/-- The instrument that the frame names: in `arg.instId` of a `books` frame, at the end of the
    topic of a `kline` frame. -/
def Names (instrument : String) : MultiplexedFrame F → Prop
  | .okxBooks json =>
    (((json.get "arg").bind (·.get "channel")).bind Value.asStr) = some "books" ∧
      (((json.get "arg").bind (·.get "instId")).bind Value.asStr) = some instrument
  | .bybitKline json => ∃ interval : String, '.' ∉ interval.toList ∧
      (json.get "topic").bind Value.asStr = some ("kline." ++ interval ++ "." ++ instrument)

/-- The messages that the connector emits for the frame. -/
def messages [F64 F] (now : Int64) : MultiplexedFrame F → List (DataMessage F)
  | .okxBooks json => Okx.parseFrame now json
  | .bybitKline json => Bybit.parseFrame now json

/-- The data rows of a frame; none where it is a reply, marked by a field of its own. -/
def dataRows (reply : String) (json : Value F) : List (Value F) :=
  if (json.get reply).isSome then [] else ((json.get "data").bind Value.asArray).getD []

def rows : MultiplexedFrame F → List (Value F)
  | .okxBooks json => dataRows "event" json
  | .bybitKline json => dataRows "op" json

/-- The symbol that a row is given. -/
def rowSymbol (row : Value F) : MultiplexedFrame F → String
  | .okxBooks _ => row.strOr "instId" ""
  | .bybitKline _ => ""

/-- Whether a row names the instrument itself. -/
def RowNames (instrument : String) (row : Value F) : MultiplexedFrame F → Prop
  | .okxBooks _ => (row.get "instId").bind Value.asStr = some instrument
  | .bybitKline _ => False

/-- A topic that begins with another word is not taken for this one. -/
theorem startsWith_kline (s : String) :
    startsWith ("kline." ++ s) "publicTrade." = false ∧
      startsWith ("kline." ++ s) "tickers." = false ∧
      startsWith ("kline." ++ s) "kline." = true := by
  simp only [startsWith, String.toList_append]
  exact ⟨rfl, rfl, List.isPrefixOf_iff_prefix.mpr (List.prefix_append _ _)⟩

/-- The messages of a frame have their symbols from its rows. -/
theorem symbols_messages [F64 F] {frame : MultiplexedFrame F} {instrument : String}
    (h : frame.Names instrument) (now : Int64) :
    (frame.messages now).map symbolOf = frame.rows.map (frame.rowSymbol ·) := by
  cases frame with
  | okxBooks json =>
    obtain ⟨hchannel, -⟩ := h
    show (Okx.parseFrame now json).map symbolOf = (dataRows "event" json).map _
    unfold Okx.parseFrame dataRows
    by_cases hevent : (json.get "event").isSome = true
    · rw [if_pos hevent, if_pos hevent]
      rfl
    · rw [if_neg hevent, if_neg hevent, hchannel]
      cases (json.get "data").bind Value.asArray with
      | none => rfl
      | some data => simp [Okx.parseBook, Okx.book, symbolOf, rowSymbol, Function.comp_def]
  | bybitKline json =>
    -- the topic of a kline begins with none of the prefixes that are tested before
    obtain ⟨interval, -, htopic⟩ := h
    obtain ⟨htrade, hticker, hkline⟩ := startsWith_kline (interval ++ "." ++ instrument)
    have htopic' : json.strOr "topic" "" = "kline." ++ (interval ++ "." ++ instrument) := by
      rw [Value.strOr, htopic, Option.getD_some, String.append_assoc, String.append_assoc,
        String.append_assoc]
    show (Bybit.parseFrame now json).map symbolOf = (dataRows "op" json).map _
    unfold Bybit.parseFrame dataRows
    by_cases hop : (json.get "op").isSome = true
    · rw [if_pos hop, if_pos hop]
      rfl
    · rw [if_neg hop, if_neg hop, htopic']
      cases json.get "data" with
      | none => rfl
      | some data =>
        simp [htrade, hticker, hkline, Bybit.parseKlineBatch, symbolOf, rowSymbol,
          Function.comp_def]

/-- The messages carry the instrument of the frame if and only if every row names it, and a
    Bybit row never does. -/
theorem carries_instrument_iff [F64 F] {frame : MultiplexedFrame F} {instrument : String}
    (h : frame.Names instrument) (now : Int64) :
    (∀ message ∈ frame.messages now, symbolOf message = instrument ∧ symbolOf message ≠ "") ↔
      ∀ row ∈ frame.rows, instrument ≠ "" ∧ frame.RowNames instrument row := by
  have hall : (∀ message ∈ frame.messages now,
        symbolOf message = instrument ∧ symbolOf message ≠ "") ↔
      ∀ row ∈ frame.rows, frame.rowSymbol row = instrument ∧ frame.rowSymbol row ≠ "" := by
    -- Messages and rows correspond one to one, so the condition moves to the rows.
    have hsymbols := symbols_messages h now
    rw [← List.forall_mem_map (f := symbolOf) (P := fun s => s = instrument ∧ s ≠ ""), hsymbols,
      List.forall_mem_map]
  rw [hall]
  refine forall₂_congr fun row _ => ?_
  cases frame with
  | okxBooks json =>
    rw [rowSymbol, RowNames, Value.strOr]
    -- A row without the field is given the empty symbol, which is no instrument.
    cases (row.get "instId").bind Value.asStr with
    | none => simp
    | some s =>
      rw [Option.getD_some, Option.some_inj]
      constructor
      · rintro ⟨rfl, hne⟩
        exact ⟨hne, rfl⟩
      · rintro ⟨hne, rfl⟩
        exact ⟨rfl, hne⟩
  | bybitKline json => simp [rowSymbol, RowNames]

end MultiplexedFrame

/-- A `books` frame of one row, which names an instrument itself or does not. -/
def exampleBooks (instrument : String) (row : List (String × Value ℤ)) : MultiplexedFrame ℤ :=
  .okxBooks (.object
    [("arg", .object [("channel", .string "books"), ("instId", .string instrument)]),
      ("data", .array [.object row])])

/-- A `kline` frame of one bar. -/
def exampleKline (instrument : String) : MultiplexedFrame ℤ :=
  .bybitKline (.object
    [("topic", .string ("kline.1." ++ instrument)), ("data", .array [.object []])])

/-- A row that repeats the instrument of the frame. -/
theorem exampleBooks_carries :
    (exampleBooks "BTC-USDT" [("instId", .string "BTC-USDT")]).Names "BTC-USDT" ∧
      ∀ message ∈ (exampleBooks "BTC-USDT" [("instId", .string "BTC-USDT")]).messages 0,
        symbolOf message = "BTC-USDT" ∧ symbolOf message ≠ "" := by
  have hnames : (exampleBooks "BTC-USDT" [("instId", .string "BTC-USDT")]).Names "BTC-USDT" :=
    ⟨rfl, rfl⟩
  refine ⟨hnames, ?_⟩
  rw [MultiplexedFrame.carries_instrument_iff hnames]
  intro row hrow
  obtain rfl := List.mem_singleton.mp hrow
  exact ⟨by decide, rfl⟩

/-- The books of two instruments end up in one stream, and so do their bars. -/
theorem exampleBooks_merged :
    (exampleBooks "BTC-USDT" []).Names "BTC-USDT" ∧ (exampleBooks "ETH-USDT" []).Names "ETH-USDT" ∧
      ((exampleBooks "BTC-USDT" []).messages 0).map symbolOf = [""] ∧
      ((exampleBooks "ETH-USDT" []).messages 0).map symbolOf = [""] ∧
      (exampleKline "BTCUSDT").Names "BTCUSDT" ∧ (exampleKline "ETHUSDT").Names "ETHUSDT" ∧
      ((exampleKline "BTCUSDT").messages 0).map symbolOf = [""] ∧
      ((exampleKline "ETHUSDT").messages 0).map symbolOf = [""] :=
  ⟨⟨rfl, rfl⟩, ⟨rfl, rfl⟩, rfl, rfl, ⟨"1", by decide, rfl⟩, ⟨"1", by decide, rfl⟩, rfl, rfl⟩

end ExchangeApiws.Spec
