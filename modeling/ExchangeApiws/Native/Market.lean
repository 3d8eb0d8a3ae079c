import ExchangeApiws.Native.Error

/-!
# Klines

Translation of `Candle::from_raw` from `src/types.rs` and of the kline methods of
`src/rest/market.rs`. The GET request is a parameter, and so is the reading of the clock.
Window bounds are `i64`; an operation that leaves their range panics or wraps, as the crate is
built. Room for the candles of all pages is reserved first, which can fail. The paging loop has no
bound of its own, so it runs on fuel.
-/

namespace ExchangeApiws.Native

/-- OHLCV candle. -/
structure Candle (F : Type) where
  /-- Unix timestamp in milliseconds. -/
  time : Int64
  «open» : F
  high : F
  low : F
  close : F
  volume : F
  deriving DecidableEq, Repr

/-- The `{:?}` texts of strings and JSON values. -/
structure DebugFmt (F : Type) where
  string : String → String
  value : Value F → String

variable {F : Type} [F64 F]

/-- A number of a raw candle, given as a string or as a number. -/
def Candle.num (fmt : DebugFmt F) (i : ℕ) (field : String) (v : Value F) : Result F :=
  match v.asStr with
  | some s =>
    match F64.parse s with
    | some x => .ok x
    | none => .error <| .insufficientData <|
      "candle[" ++ toString i ++ "] (" ++ field ++ ") could not be parsed as f64: " ++ fmt.string s
  | none =>
    match v.asF64 with
    | some x => .ok x
    | none => .error <| .insufficientData <|
      "candle[" ++ toString i ++ "] (" ++ field ++ ") is not a number: " ++ fmt.value v

/-- Parse a raw kline array `[ts_ms, open, high, low, close, volume]`. -/
def Candle.fromRaw (fmt : DebugFmt F) (arr : List (Value F)) : Result (Candle F) :=
  match arr with
  | t :: o :: h :: l :: c :: v :: _ =>
    match t.asI64 with
    | none => .error <| .insufficientData <|
      "candle[0] (timestamp) is not an integer: " ++ fmt.value t
    | some time => do
      let o ← num fmt 1 "open" o
      let h ← num fmt 2 "high" h
      let l ← num fmt 3 "low" l
      let c ← num fmt 4 "close" c
      let v ← num fmt 5 "volume" v
      return { time := time, «open» := o, high := h, low := l, close := c, volume := v }
  | _ => .error <| .insufficientData <|
    "candle array too short: expected ≥6 elements, got " ++ toString arr.length

/-- A call that came to an end: it returned, it panicked, or the process ran out of memory. -/
inductive Ended (α : Type) where
  | returned (result : Result α)
  | panicked
  | aborted
  deriving DecidableEq, Repr

/-- The result of an `i64` operation, `none` where it overflows. -/
def checkI64 (x : ℤ) : Option ℤ := if -2 ^ 63 ≤ x ∧ x < 2 ^ 63 then some x else none

/-- What the build and the machine decide: whether an overflow panics, as it does in a debug build,
    or wraps, and the allocations, by their bytes, that are granted. -/
structure Build where
  overflowChecks : Bool
  allocates : ℕ → Bool

/-- A debug build with all the memory that it asks for. -/
def Build.debug : Build := ⟨true, fun _ => true⟩

/-- The result of an `i64` operation whose exact value is `x`; `none` where it panics. -/
def Build.i64 (build : Build) (x : ℤ) : Option ℤ :=
  if build.overflowChecks then checkI64 x else some (x.bmod (2 ^ 64))

/-- The size of a candle. -/
def CANDLE_BYTES : ℕ := 48

/-- `Vec::with_capacity(total)`: `none` if there is room, and otherwise how the call ends. More
    than `isize::MAX` bytes are a panic, and no bytes need no allocation. -/
def Build.withCapacity (build : Build) (α : Type) (total : ℕ) : Option (Ended α) :=
  if 2 ^ 63 ≤ CANDLE_BYTES * total then some .panicked
  else if total = 0 ∨ build.allocates (CANDLE_BYTES * total) = true then none
  else some .aborted

/-- `i64::try_from(n).unwrap_or(i64::MAX)`. -/
def i64OrMax (n : ℕ) : ℤ := if n < 2 ^ 63 then n else 2 ^ 63 - 1

/-- The parameters of a GET of `/api/v1/kline/query`; the bounds are sent as decimals. -/
structure KlineQuery where
  symbol : String
  granularity : String
  «from» : ℤ
  «to» : ℤ
  deriving DecidableEq, Repr

/-- The rows that are well-formed candles; the others are skipped with a warning. -/
def candles (fmt : DebugFmt F) (raw : List (List (Value F))) : List (Candle F) :=
  raw.filterMap fun r => (Candle.fromRaw fmt r).toOption

/-- `sort_by_key(|c| c.time)`, a stable sort. -/
def sortByTime (cs : List (Candle F)) : List (Candle F) :=
  cs.mergeSort fun a b => a.time ≤ b.time

/-- The granularity in minutes, `1` where the text is not an `i64`. -/
def granularityMinutes (granularity : String) : ℤ := ((parseI64 granularity).getD 1).toInt

section

variable (build : Build) (fmt : DebugFmt F) (get : KlineQuery → Result (List (List (Value F))))

/-- Fetch the most recent `limit` klines. -/
def fetchKlines (nowMs : Int64) (symbol : String) (limit : ℕ) (granularity : String) :
    Ended (List (Candle F)) :=
  let fromMs := do
    let stepMs ← build.i64 (granularityMinutes granularity * 60000)
    let windowMs ← build.i64 (stepMs * i64OrMax limit)
    build.i64 (nowMs.toInt - windowMs)
  match fromMs with
  | none => .panicked
  | some fromMs => .returned do
    let raw ← get ⟨symbol, granularity, fromMs, nowMs.toInt⟩
    return candles fmt raw

/-- The start of a window of `batch` bars that ends at `windowEndMs`. -/
def windowStart (granI : ℤ) (batch : ℕ) (windowEndMs : ℤ) : Option ℤ := do
  let stepMs ← build.i64 (granI * 60000)
  let windowMs ← build.i64 (stepMs * i64OrMax batch)
  build.i64 (windowEndMs - windowMs)

/-- The end of the window after one that starts at `windowStartMs`. -/
def windowAfter (granI windowStartMs : ℤ) : Option ℤ := do
  let stepMs ← build.i64 (granI * 60000)
  build.i64 (windowStartMs - stepMs)

/-- The final sort and `truncate` of the collected candles. -/
def finishKlines (total : ℕ) (all : List (Candle F)) : List (Candle F) :=
  (sortByTime all).take total

/-- The paging loop of `fetch_klines_extended`: `all` has been collected, and the next
    window ends at `windowEndMs`. -/
def fetchPages (symbol granularity : String) (total pageSize : ℕ) :
    ℕ → List (Candle F) → ℤ → Option (Ended (List (Candle F)))
  | 0, _, _ => none
  | fuel + 1, all, windowEndMs =>
    if all.length < total then
      let granI := granularityMinutes granularity
      let remaining := total - all.length
      let batch := min remaining pageSize
      match windowStart build granI batch windowEndMs with
      | none => some .panicked
      | some windowStartMs =>
        match get ⟨symbol, granularity, windowStartMs, windowEndMs⟩ with
        | .error e => some (.returned (.error e))
        | .ok raw =>
          let page := sortByTime (candles fmt raw)
          let all := all ++ page
          if raw.length = 0 then some (.returned (.ok (finishKlines total all)))
          else
            match windowAfter build granI windowStartMs with
            | none => some .panicked
            | some windowEndMs =>
              fetchPages symbol granularity total pageSize fuel all windowEndMs
    else some (.returned (.ok (finishKlines total all)))

/-- Paginated kline fetch in windows of at most `pageSize` bars. -/
def fetchKlinesExtended (fuel : ℕ) (nowMs : Int64) (symbol : String) (total : ℕ)
    (granularity : String) (pageSize : ℕ) : Option (Ended (List (Candle F))) :=
  match build.withCapacity (List (Candle F)) total with
  | some ended => some ended
  | none => fetchPages build fmt get symbol granularity total pageSize fuel [] nowMs.toInt

end

end ExchangeApiws.Native
