import Mathlib.Logic.Relation
import ExchangeApiws.Spec.Klines

/-!
# Requests of the paging loop

The loop of `fetch_klines_extended` goes on while it has collected fewer candles than were
asked for, and ends when a page has no rows. A page may have rows and no candle, since rows
that are not well-formed are skipped; then the loop goes on with nothing gained. This file
says against which servers, in which builds, every page that gains nothing is the last one.

## Key results

- `exists_nextQuery_iff`: when the window after a page without a candle is asked for
- `RowsHaveCandles.fetchPages_isSome`: what is missing bounds the iterations
- `pages_end_iff`: the loop ends, and at the first page without a candle, exactly when every answer
  with rows that it gets has a candle
-/

namespace ExchangeApiws.Spec

open Native

variable {F : Type} [F64 F]

/-! ## Iterations -/

/-- Where the loop stands: what it has collected and where the next window ends. -/
structure Paging (F : Type) where
  all : List (Candle F)
  windowEndMs : ℤ
  deriving DecidableEq, Repr

section

variable (build : Build) (fmt : DebugFmt F) (get : KlineQuery → Result (List (List (Value F))))
  (symbol granularity : String) (total pageSize : ℕ)

/-- The request that the next iteration makes, if it makes one. -/
def Paging.query? (s : Paging F) : Option KlineQuery :=
  if s.all.length < total then
    (windowStart build (granularityMinutes granularity) (min (total - s.all.length) pageSize)
      s.windowEndMs).map fun start => ⟨symbol, granularity, start, s.windowEndMs⟩
  else none

/-- The window end after a request. -/
def endAfter (q : KlineQuery) : Option ℤ :=
  windowAfter build (granularityMinutes q.granularity) q.from

/-- Where an iteration that goes on leaves the loop. -/
def Paging.next? (s : Paging F) : Option (Paging F) := do
  let q ← s.query? build symbol granularity total pageSize
  let raw ← (get q).toOption
  if raw.length = 0 then none
  else return ⟨s.all ++ sortByTime (candles fmt raw), ← endAfter build q⟩

/-- There is room for the candles, and the loop comes to `s` from where it begins. -/
def Paging.Reached (nowMs : Int64) (s : Paging F) : Prop :=
  build.withCapacity (List (Candle F)) total = none ∧
    Relation.ReflTransGen
      (fun s s' => s.next? build fmt get symbol granularity total pageSize = some s')
      ⟨[], nowMs.toInt⟩ s

/-- An iteration gets this answer to its request. -/
def Paging.Answered (s : Paging F) (q : KlineQuery) (raw : List (List (Value F))) : Prop :=
  s.query? build symbol granularity total pageSize = some q ∧ get q = .ok raw

/-- The requests of the loop come to an end, and a page without a candle is the last one. -/
structure PagesEnd (nowMs : Int64) : Prop where
  finite : ∃ fuel,
    (fetchKlinesExtended build fmt get fuel nowMs symbol total granularity pageSize).isSome
  stops : ∀ s q raw s', Paging.Reached build fmt get symbol granularity total pageSize nowMs s →
    s.Answered build get symbol granularity total pageSize q raw → candles fmt raw = [] →
    s.next? build fmt get symbol granularity total pageSize = some s' →
    s'.query? build symbol granularity total pageSize = none

end

/-- A window of the same length that ends a step before this one starts fits an `i64`. -/
def NextWindowFits (q : KlineQuery) : Prop :=
  let wend := q.from - stepOf q.granularity
  (-2 ^ 63 ≤ wend ∧ wend < 2 ^ 63) ∧
    -2 ^ 63 ≤ wend - (q.to - q.from) ∧ wend - (q.to - q.from) < 2 ^ 63

/-- Every answer with rows that the loop gets has a well-formed candle among them, or the build
    checks for overflow and the next window of this length does not fit an `i64`. -/
def RowsHaveCandles (build : Build) (fmt : DebugFmt F)
    (get : KlineQuery → Result (List (List (Value F)))) (symbol granularity : String)
    (total pageSize : ℕ) (nowMs : Int64) : Prop :=
  ∀ s q raw, Paging.Reached build fmt get symbol granularity total pageSize nowMs s →
    s.Answered build get symbol granularity total pageSize q raw → raw ≠ [] →
    (∃ row ∈ raw, ∃ c, Candle.fromRaw fmt row = .ok c) ∨
      build.overflowChecks = true ∧ ¬ NextWindowFits q

section

variable {build : Build} {fmt : DebugFmt F} {get : KlineQuery → Result (List (List (Value F)))}
  {symbol granularity : String} {total pageSize : ℕ}

omit [F64 F] in
/-- A request is made while candles are missing and the next window can be computed. -/
theorem Paging.query?_eq_some {s : Paging F} {q : KlineQuery} :
    s.query? build symbol granularity total pageSize = some q ↔
      s.all.length < total ∧ ∃ start, windowStart build (granularityMinutes granularity)
        (min (total - s.all.length) pageSize) s.windowEndMs = some start ∧
        ⟨symbol, granularity, start, s.windowEndMs⟩ = q := by
  unfold query?
  split
  · rename_i hall
    rw [Option.map_eq_some_iff, and_iff_right hall]
  · rename_i hall
    simp [hall]

omit [F64 F] in
/-- A page without a candle is followed by a request for the next window of the same length,
    unless the build checks for overflow and that window does not fit. -/
theorem exists_nextQuery_iff {s : Paging F} {q : KlineQuery}
    (hq : s.query? build symbol granularity total pageSize = some q) :
    (∃ wend q', endAfter build q = some wend ∧
      (⟨s.all, wend⟩ : Paging F).query? build symbol granularity total pageSize = some q') ↔
      (build.overflowChecks = true → NextWindowFits q) := by
  obtain ⟨hall, start, hstart, rfl⟩ := Paging.query?_eq_some.mp hq
  simp only [Paging.query?_eq_some, endAfter]
  cases hchecks : build.overflowChecks with
  | false =>
    -- an operation that wraps always has a value
    have hi64 (x : ℤ) : build.i64 x = some (x.bmod (2 ^ 64)) := by
      rw [Build.i64, hchecks]
      rfl
    simp only [windowAfter, windowStart, hi64, Option.bind_eq_bind, Option.bind_some]
    exact iff_of_true ⟨_, _, rfl, hall, _, rfl, rfl⟩ fun h => by cases h
  | true =>
    have hi64 (x : ℤ) : build.i64 x = checkI64 x := by
      rw [Build.i64, hchecks]
      rfl
    simp only [windowStart, hi64, Option.bind_eq_bind, Option.bind_eq_some_iff,
      checkI64_eq_some] at hstart
    obtain ⟨_, ⟨hstep, rfl⟩, _, ⟨hwindow, rfl⟩, hfits, rfl⟩ := hstart
    simp only [windowAfter, windowStart, hi64, Option.bind_eq_bind, Option.bind_eq_some_iff,
      checkI64_eq_some, NextWindowFits, stepOf, sub_sub_cancel]
    constructor
    · rintro ⟨wend, q', ⟨_, ⟨-, rfl⟩, hend, rfl⟩, -, _, ⟨_, ⟨-, rfl⟩, _, ⟨-, rfl⟩, hnext, -⟩, -⟩ -
      exact ⟨hend, hnext⟩
    · -- the step and the length of the window are those that have fitted before
      intro h
      obtain ⟨hend, hnext⟩ := h trivial
      exact ⟨_, _, ⟨_, ⟨hstep, rfl⟩, hend, rfl⟩, hall, _,
        ⟨_, ⟨hstep, rfl⟩, _, ⟨hwindow, rfl⟩, hnext, rfl⟩, rfl⟩

omit [F64 F] in
/-- With no window that fits, no request follows a page without a candle. -/
theorem query?_eq_none {s : Paging F} {q : KlineQuery}
    (hq : s.query? build symbol granularity total pageSize = some q)
    (hover : build.overflowChecks = true ∧ ¬ NextWindowFits q) {wend : ℤ}
    (hend : endAfter build q = some wend) :
    (⟨s.all, wend⟩ : Paging F).query? build symbol granularity total pageSize = none := by
  by_contra hne
  obtain ⟨q', hq'⟩ := Option.ne_none_iff_exists'.mp hne
  exact hover.2 ((exists_nextQuery_iff hq).mp ⟨wend, q', hend, hq'⟩ hover.1)

/-- An iteration that goes on has got rows, and goes on below its window. -/
theorem Paging.next?_eq_some {s s' : Paging F} :
    s.next? build fmt get symbol granularity total pageSize = some s' ↔
      ∃ q raw wend, s.Answered build get symbol granularity total pageSize q raw ∧ raw ≠ [] ∧
        endAfter build q = some wend ∧ ⟨s.all ++ sortByTime (candles fmt raw), wend⟩ = s' := by
  unfold next? Answered
  simp only [Option.bind_eq_bind, Option.bind_eq_some_iff, Option.pure_def]
  constructor
  · rintro ⟨q, hq, raw, hraw, hnext⟩
    split at hnext
    · cases hnext
    · rename_i hrows
      obtain ⟨wend, hend, hs'⟩ := Option.bind_eq_some_iff.mp hnext
      refine ⟨q, raw, wend, ⟨hq, ?_⟩, ?_, hend, Option.some.inj hs'⟩
      · cases hget : get q with
        | error e => simp [hget, Except.toOption] at hraw
        | ok raw' => simpa [hget, Except.toOption] using hraw
      · exact fun hnil => hrows (by rw [hnil, List.length_nil])
  · rintro ⟨q, raw, wend, ⟨hq, hget⟩, hrows, hend, hs'⟩
    refine ⟨q, hq, raw, by rw [hget]; rfl, ?_⟩
    rw [if_neg (by simpa using hrows), hend, ← hs']
    rfl

/-- A page with rows and no candle gains nothing, and the loop goes on. -/
theorem Paging.next?_of_candles_nil {s : Paging F} {q : KlineQuery}
    {raw : List (List (Value F))} {wend : ℤ}
    (hanswered : s.Answered build get symbol granularity total pageSize q raw) (hrows : raw ≠ [])
    (hnil : candles fmt raw = []) (hend : endAfter build q = some wend) :
    s.next? build fmt get symbol granularity total pageSize = some ⟨s.all, wend⟩ := by
  refine next?_eq_some.mpr ⟨q, raw, wend, hanswered, hrows, hend, ?_⟩
  rw [hnil, show sortByTime ([] : List (Candle F)) = [] from List.mergeSort_nil, List.append_nil]

/-- An iteration that goes on is followed by the rest of the loop. -/
theorem fetchPages_of_next {s s' : Paging F} (fuel : ℕ)
    (hnext : s.next? build fmt get symbol granularity total pageSize = some s') :
    fetchPages build fmt get symbol granularity total pageSize (fuel + 1) s.all s.windowEndMs =
      fetchPages build fmt get symbol granularity total pageSize fuel s'.all s'.windowEndMs := by
  obtain ⟨q, raw, wend, ⟨hq, hget⟩, hrows, hend, rfl⟩ := Paging.next?_eq_some.mp hnext
  obtain ⟨hall, start, hstart, rfl⟩ := Paging.query?_eq_some.mp hq
  rw [endAfter] at hend
  rw [fetchPages, if_pos hall]
  simp only [hstart, hget, if_neg (mt List.length_eq_zero_iff.mp hrows), hend]

/-- An iteration that does not go on ends the loop. -/
theorem fetchPages_of_last {s : Paging F} (fuel : ℕ)
    (hlast : s.next? build fmt get symbol granularity total pageSize = none) :
    (fetchPages build fmt get symbol granularity total pageSize (fuel + 1) s.all
      s.windowEndMs).isSome := by
  rw [fetchPages]
  split
  · rename_i hall
    dsimp only
    split
    · rfl
    · rename_i start hstart
      split
      · rfl
      · rename_i raw hget
        split
        · rfl
        · rename_i hrows
          split
          · rfl
          -- with rows and a next window the iteration would have gone on
          · rename_i wend hend
            have hnext : s.next? build fmt get symbol granularity total pageSize =
                some ⟨s.all ++ sortByTime (candles fmt raw), wend⟩ :=
              Paging.next?_eq_some.mpr ⟨_, raw, wend,
                ⟨Paging.query?_eq_some.mpr ⟨hall, start, hstart, rfl⟩, hget⟩,
                mt List.length_eq_zero_iff.mpr hrows, hend, rfl⟩
            rw [hlast] at hnext
            cases hnext
  · rfl

/-! ## The end of the loop -/

/-- An answer has no candles exactly if none of its rows is well formed. -/
theorem candles_eq_nil_iff {raw : List (List (Value F))} :
    candles fmt raw = [] ↔ ¬ ∃ row ∈ raw, ∃ c, Candle.fromRaw fmt row = .ok c := by
  rw [candles, List.filterMap_eq_nil_iff]
  constructor
  · rintro h ⟨row, hrow, c, hc⟩
    have hnone := h row hrow
    rw [hc] at hnone
    cases hnone
  · intro h row hrow
    cases hc : Candle.fromRaw fmt row with
    | error e => rfl
    | ok c => exact absurd ⟨row, hrow, c, hc⟩ h

/-- How many more candles the loop may collect; `0` where it asks for none. -/
def Paging.missing (build : Build) (symbol granularity : String) (total pageSize : ℕ)
    (s : Paging F) : ℕ :=
  if (s.query? build symbol granularity total pageSize).isSome then total - s.all.length else 0

/-- Where every answer with rows has a candle, an iteration that goes on collects one or is
    followed by no request. -/
theorem RowsHaveCandles.missing_lt {nowMs : Int64}
    (h : RowsHaveCandles build fmt get symbol granularity total pageSize nowMs) {s s' : Paging F}
    (hs : s.Reached build fmt get symbol granularity total pageSize nowMs)
    (hnext : s.next? build fmt get symbol granularity total pageSize = some s') :
    s'.missing build symbol granularity total pageSize <
      s.missing build symbol granularity total pageSize := by
  obtain ⟨q, raw, wend, hanswered, hrows, hend, rfl⟩ := Paging.next?_eq_some.mp hnext
  have hall := (Paging.query?_eq_some.mp hanswered.1).1
  have hbefore : s.missing build symbol granularity total pageSize = total - s.all.length := by
    rw [Paging.missing, hanswered.1]
    rfl
  rw [hbefore, Paging.missing]
  by_cases hnil : candles fmt raw = []
  · have hover := (h s q raw hs hanswered hrows).resolve_left (candles_eq_nil_iff.mp hnil)
    rw [hnil, show sortByTime ([] : List (Candle F)) = [] from List.mergeSort_nil,
      List.append_nil, query?_eq_none hanswered.1 hover hend]
    simpa using hall
  · have hpos : 0 < (sortByTime (candles fmt raw)).length := by
      rw [sortByTime, List.length_mergeSort, List.length_pos_iff]
      exact hnil
    split
    · rw [List.length_append]
      omega
    · omega

/-- Then what is missing bounds the iterations. -/
theorem RowsHaveCandles.fetchPages_isSome {nowMs : Int64}
    (h : RowsHaveCandles build fmt get symbol granularity total pageSize nowMs) {fuel : ℕ}
    {s : Paging F} (hs : s.Reached build fmt get symbol granularity total pageSize nowMs)
    (hfuel : s.missing build symbol granularity total pageSize ≤ fuel) :
    (fetchPages build fmt get symbol granularity total pageSize (fuel + 1) s.all
      s.windowEndMs).isSome := by
  induction fuel generalizing s with
  | zero =>
    cases hnext : s.next? build fmt get symbol granularity total pageSize with
    | none => exact fetchPages_of_last 0 hnext
    | some s' =>
      have hlt := h.missing_lt hs hnext
      omega
  | succ fuel ih =>
    cases hnext : s.next? build fmt get symbol granularity total pageSize with
    | none => exact fetchPages_of_last (fuel + 1) hnext
    | some s' =>
      have hlt := h.missing_lt hs hnext
      rw [fetchPages_of_next (fuel + 1) hnext]
      exact ih ⟨hs.1, hs.2.tail hnext⟩ (by omega)

end

/-- For every build, total, page size, granularity and server: the requests of the loop come to an
    end, and at the first page that adds no candle, exactly when every answer with rows that the
    loop gets has a well-formed candle (or the build checks for overflow and the next window does
    not fit an `i64`). Without room for the candles there are no requests. -/
theorem pages_end_iff (build : Build) (fmt : DebugFmt F)
    (get : KlineQuery → Result (List (List (Value F)))) (symbol granularity : String)
    (total pageSize : ℕ) (nowMs : Int64) :
    PagesEnd build fmt get symbol granularity total pageSize nowMs ↔
      RowsHaveCandles build fmt get symbol granularity total pageSize nowMs := by
  constructor
  · intro h s q raw hs hanswered hrows
    by_cases hcandle : ∃ row ∈ raw, ∃ c, Candle.fromRaw fmt row = .ok c
    · exact .inl hcandle
    · -- the page adds nothing, and the loop goes on unless the next window overflows
      refine .inr ?_
      by_contra hnot
      have hnil : candles fmt raw = [] := candles_eq_nil_iff.mpr hcandle
      obtain ⟨wend, q', hend, hq'⟩ := (exists_nextQuery_iff hanswered.1).mpr
        fun hchecks => by_contra fun hfits => hnot ⟨hchecks, hfits⟩
      have hnone := h.stops s q raw _ hs hanswered hnil
        (Paging.next?_of_candles_nil hanswered hrows hnil hend)
      rw [hnone] at hq'
      cases hq'
  · intro h
    constructor
    · cases hroom : build.withCapacity (List (Candle F)) total with
      | some ended => exact ⟨0, by rw [fetchKlinesExtended, hroom]; rfl⟩
      | none =>
        simp only [fetchKlinesExtended, hroom]
        exact ⟨_, h.fetchPages_isSome (s := ⟨[], nowMs.toInt⟩) ⟨hroom, .refl⟩ le_rfl⟩
    · intro s q raw s' hs hanswered hnil hnext
      obtain ⟨q', raw', wend, hanswered', hrows, hend, rfl⟩ := Paging.next?_eq_some.mp hnext
      obtain rfl : q = q' := Option.some.inj (hanswered.1.symm.trans hanswered'.1)
      obtain rfl : raw = raw' := Except.ok.inj (hanswered.2.symm.trans hanswered'.2)
      have hover := (h s q raw hs hanswered hrows).resolve_left (candles_eq_nil_iff.mp hnil)
      rw [Paging.next?_of_candles_nil hanswered hrows hnil hend] at hnext
      exact Option.some.inj hnext ▸ query?_eq_none hanswered.1 hover hend

/-- A server that always answers with one row, and no candle in it. -/
def emptyRows : KlineQuery → Result (List (List (Value ℤ))) := fun _ => .ok [[]]

/-- The loop repeats one request at granularity `0`, and at granularity `1` it goes on after a
    page without a candle. -/
theorem not_pages_end :
    (∀ fuel, fetchKlinesExtended .debug exampleFmt emptyRows fuel 0 "XBTUSDTM" 1 "0" 1 = none) ∧
      ¬ PagesEnd .debug exampleFmt emptyRows "XBTUSDTM" "1" 1 1 0 := by
  have hroom : Build.debug.withCapacity (List (Candle ℤ)) 1 = none := by decide
  constructor
  · intro fuel
    have hnext : (⟨[], 0⟩ : Paging ℤ).next? .debug exampleFmt emptyRows "XBTUSDTM" "0" 1 1 =
        some ⟨[], 0⟩ :=
      Paging.next?_of_candles_nil (q := ⟨"XBTUSDTM", "0", 0, 0⟩) ⟨by decide, rfl⟩ (by decide) rfl
        (by decide)
    simp only [fetchKlinesExtended, hroom]
    induction fuel with
    | zero => rfl
    | succ fuel ih => exact (fetchPages_of_next fuel hnext).trans ih
  · intro h
    have hanswered : (⟨[], 0⟩ : Paging ℤ).Answered .debug emptyRows "XBTUSDTM" "1" 1 1
        ⟨"XBTUSDTM", "1", -60000, 0⟩ [[]] := ⟨by decide, rfl⟩
    have hnone := h.stops _ _ _ ⟨[], -120000⟩ ⟨hroom, .refl⟩ hanswered rfl
      (Paging.next?_of_candles_nil hanswered (by decide) rfl (by decide))
    revert hnone
    decide

end ExchangeApiws.Spec
