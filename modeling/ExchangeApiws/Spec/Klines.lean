import ExchangeApiws.Native.Market
import Mathlib.Data.List.Perm.Basic
import Mathlib.Data.List.Chain
import Mathlib.Data.Int.ModEq
import Mathlib.Tactic.LinearCombination
import Mathlib.Tactic.Positivity
import Mathlib.Tactic.Ring
import Mathlib.Tactic.Push

/-!
# Paging through klines

`fetch_klines_extended` walks back from now in windows with inclusive bounds. On a gapless
history the result is decided by the grid: when now is on the grid each window yields one
bar more than its batch, and otherwise the bar at each page boundary falls between two
windows. The file determines the exact inputs for which the result is the `total` most
recent bars.

## Key results

- `GaplessHistory.filter_newer`: the bars newer than a point of the grid
- `fetchPages_page`: one page of the loop
- `aligned_sound`, `aligned_complete`: the loop when now is on the grid
- `fetchPages_avoids`: a bar that no later window can reach is missing from the result
- `fetchKlinesExtended_recent_iff`: when the result is right
-/

namespace ExchangeApiws.Spec

open Native

/-! ## Lists in order of time -/

/-- Filtering a list by a predicate that is false up to `n` and true from there. -/
theorem filter_eq_drop {α : Type*} {p : α → Bool} {l : List α} {n : ℕ}
    (hlow : ∀ i (hi : i < l.length), i < n → p l[i] = false)
    (hhigh : ∀ i (hi : i < l.length), n ≤ i → p l[i] = true) : l.filter p = l.drop n := by
  have htake : (l.take n).filter p = [] := by
    rw [List.filter_eq_nil_iff]
    intro a ha
    obtain ⟨i, hi, rfl⟩ := List.mem_take_iff_getElem.mp ha
    rw [hlow i (by omega) (by omega)]
    exact Bool.false_ne_true
  have hdrop : (l.drop n).filter p = l.drop n := by
    rw [List.filter_eq_self]
    intro a ha
    obtain ⟨i, hi, rfl⟩ := List.mem_drop_iff_getElem.mp ha
    exact hhigh _ (by omega) (by omega)
  conv_lhs => rw [← List.take_append_drop n l, List.filter_append, htake, hdrop]
  rfl

/-- The elements above `y` and those of the window below it are those above its lower end. -/
theorem filter_append_window_perm {α : Type*} (t : α → ℤ) (l : List α) {x y : ℤ} (hxy : x ≤ y) :
    (l.filter (fun a => y < t a) ++ l.filter (fun a => x < t a ∧ t a ≤ y)).Perm
      (l.filter fun a => x < t a) := by
  have h := List.filter_append_perm (fun a => decide (y < t a)) (l.filter fun a => x < t a)
  rw [List.filter_filter, List.filter_filter] at h
  -- the two filters of `h` are those of the statement
  convert h using 3
  · funext a
    simp only [← Bool.decide_and, decide_eq_decide]
    exact ⟨fun ha => ⟨ha, by omega⟩, fun ha => ha.1⟩
  · funext a
    rw [← decide_not, ← Bool.decide_and, decide_eq_decide]
    constructor <;> rintro ⟨h₁, h₂⟩ <;> constructor <;> omega

variable {F : Type} [F64 F]

omit [F64 F] in
/-- Candles in strict order of time are determined by their times. -/
theorem eq_of_time_eq {l : List (Candle F)} (hl : l.Pairwise fun a b => a.time < b.time)
    {a b : Candle F} (ha : a ∈ l) (hb : b ∈ l) (h : a.time = b.time) : a = b := by
  obtain ⟨i, hi, rfl⟩ := List.mem_iff_getElem.mp ha
  obtain ⟨j, hj, rfl⟩ := List.mem_iff_getElem.mp hb
  rw [List.pairwise_iff_getElem] at hl
  -- of two different positions, one time is below the other
  rcases Nat.lt_trichotomy i j with hij | rfl | hij
  · exact (Int64.lt_irrefl (h ▸ hl i j hi hj hij)).elim
  · rfl
  · exact (Int64.lt_irrefl (h ▸ hl j i hj hi hij)).elim

omit [F64 F] in
/-- Sorting any arrangement of candles that are in strict order gives them in order. -/
theorem sortByTime_eq_of_perm {all l : List (Candle F)}
    (hl : l.Pairwise fun a b => a.time < b.time) (hperm : all.Perm l) : sortByTime all = l := by
  have htrans : ∀ a b c : Candle F, decide (a.time ≤ b.time) = true →
      decide (b.time ≤ c.time) = true → decide (a.time ≤ c.time) = true := by
    intro a b c hab hbc
    simp only [decide_eq_true_eq] at hab hbc ⊢
    exact Int64.le_trans hab hbc
  have htotal : ∀ a b : Candle F,
      (decide (a.time ≤ b.time) || decide (b.time ≤ a.time)) = true := by
    intro a b
    simp only [Bool.or_eq_true, decide_eq_true_eq]
    exact Int64.le_total _ _
  have hsorted : (sortByTime all).Pairwise fun a b => a.time ≤ b.time :=
    (List.pairwise_mergeSort htrans htotal all).imp fun hab => by simpa using hab
  have hl' : l.Pairwise fun a b => a.time ≤ b.time := hl.imp fun hab => Int64.le_of_lt hab
  -- two candles of the same time are the same candle, so the order is antisymmetric here
  have hantisymm : ∀ a b, a ∈ sortByTime all → b ∈ l → a.time ≤ b.time → b.time ≤ a.time →
      a = b := by
    intro a b ha hb hab hba
    have ha' : a ∈ l := hperm.mem_iff.mp (List.mem_mergeSort.mp ha)
    exact eq_of_time_eq hl ha' hb (Int64.le_antisymm hab hba)
  exact List.Perm.eq_of_pairwise hantisymm hsorted hl' ((List.mergeSort_perm _ _).trans hperm)

/-! ## Gapless histories -/

/-- One bar at each multiple of `stepMs` up to now, oldest first. -/
structure GaplessHistory (nowMs stepMs : ℤ) (history : List (Candle F)) : Prop where
  time : ∀ i (hi : i < history.length),
    history[i].time.toInt = (nowMs / stepMs - (history.length - 1 - i)) * stepMs

/-- `candles` are the `total` most recent bars of the history, in ascending order, each
    once, and `stepMs` apart. -/
def IsRecentKlines (stepMs : ℤ) (history : List (Candle F)) (total : ℕ)
    (candles : List (Candle F)) : Prop :=
  candles = history.drop (history.length - total) ∧ candles.length = total ∧
    candles.IsChain fun a b => b.time.toInt = a.time.toInt + stepMs

/-- The endpoint returns exactly the bars with `from ≤ t ≤ to`, in some order, as rows that
    parse. -/
def ServesKlines (fmt : DebugFmt F) (get : KlineQuery → Result (List (List (Value F))))
    (symbol granularity : String) (history : List (Candle F)) : Prop :=
  ∀ start stop : ℤ, ∃ raw cs, get ⟨symbol, granularity, start, stop⟩ = .ok raw ∧
    List.Forall₂ (fun row c => Candle.fromRaw fmt row = .ok c) raw cs ∧
    cs.Perm (history.filter fun c => start ≤ c.time.toInt ∧ c.time.toInt ≤ stop)

namespace GaplessHistory

variable {nowMs stepMs : ℤ} {history : List (Candle F)}

omit [F64 F] in
/-- The bars are in strict order of time. -/
theorem pairwise (h : GaplessHistory nowMs stepMs history) (hstep : 0 < stepMs) :
    history.Pairwise fun a b => a.time < b.time := by
  rw [List.pairwise_iff_getElem]
  intro i j hi hj hij
  rw [Int64.lt_iff_toInt_lt, h.time i hi, h.time j hj]
  exact mul_lt_mul_of_pos_right (by omega) hstep

omit [F64 F] in
/-- Neighbouring bars are one step apart. -/
theorem isChain (h : GaplessHistory nowMs stepMs history) :
    history.IsChain fun a b => b.time.toInt = a.time.toInt + stepMs := by
  rw [List.isChain_iff_getElem]
  intro i hi
  rw [h.time i (by omega), h.time (i + 1) hi]
  push_cast
  ring

omit [F64 F] in
/-- The `total` most recent bars are recent klines. -/
theorem isRecentKlines (h : GaplessHistory nowMs stepMs history) {total : ℕ}
    (hlen : total ≤ history.length) :
    IsRecentKlines stepMs history total (history.drop (history.length - total)) :=
  ⟨rfl, by rw [List.length_drop]; omega, h.isChain.drop _⟩

omit [F64 F] in
/-- The bars newer than `e` steps back from the newest one are the `e` most recent. -/
theorem filter_newer (h : GaplessHistory nowMs stepMs history) (hstep : 0 < stepMs) (e : ℕ) :
    history.filter (fun c => (nowMs / stepMs - e) * stepMs < c.time.toInt) =
      history.drop (history.length - e) := by
  refine filter_eq_drop ?_ ?_
  · intro i hi hlow
    rw [decide_eq_false_iff_not, h.time i hi, not_lt]
    exact mul_le_mul_of_nonneg_right (by omega) hstep.le
  · intro i hi hhigh
    rw [decide_eq_true_eq, h.time i hi]
    exact mul_lt_mul_of_pos_right (by omega) hstep

omit [F64 F] in
/-- Every bar is on the grid. -/
theorem dvd_time (h : GaplessHistory nowMs stepMs history) {c : Candle F} (hc : c ∈ history) :
    stepMs ∣ c.time.toInt := by
  obtain ⟨i, hi, rfl⟩ := List.mem_iff_getElem.mp hc
  rw [h.time i hi]
  exact Dvd.intro_left _ rfl

omit [F64 F] in
/-- Bars a minute or more apart whose times fit an `i64` leave room for themselves. -/
theorem length_lt (h : GaplessHistory nowMs stepMs history) (hstep : 60000 ≤ stepMs) :
    CANDLE_BYTES * history.length < 2 ^ 63 := by
  simp only [CANDLE_BYTES]
  rcases Nat.eq_zero_or_pos history.length with hzero | hpos
  · omega
  · -- the oldest bar and the newest one
    have hold := h.time 0 hpos
    have hnew := h.time (history.length - 1) (by omega)
    have hlow := history[0].time.le_toInt
    have hhigh := history[history.length - 1].time.toInt_lt
    have hspan : (history.length - 1 : ℤ) * stepMs =
        history[history.length - 1].time.toInt - history[0].time.toInt := by
      rw [hold, hnew]
      push_cast [Nat.cast_sub hpos]
      ring
    have hminutes : (history.length - 1 : ℤ) * 60000 ≤ (history.length - 1 : ℤ) * stepMs :=
      mul_le_mul_of_nonneg_left hstep (by omega)
    omega

end GaplessHistory

/-! ## One page -/

/-- The granularity in milliseconds. -/
def stepOf (granularity : String) : ℤ := granularityMinutes granularity * 60000

/-- A checked operation gives its value exactly when that fits an `i64`. -/
theorem checkI64_eq_some {x y : ℤ} :
    checkI64 x = some y ↔ (-2 ^ 63 ≤ x ∧ x < 2 ^ 63) ∧ x = y := by
  unfold checkI64
  split
  · rename_i h
    simp only [Option.some.injEq, h, true_and]
  · rename_i h
    simp only [reduceCtorEq, h, false_and]

/-- Going down from a time that fits an `i64`, only the lower bound can fail. -/
theorem checkI64_of_lt {x : ℤ} (hx : x < 2 ^ 63) :
    checkI64 x = if -2 ^ 63 ≤ x then some x else none := by
  unfold checkI64
  by_cases hlow : -2 ^ 63 ≤ x
  · rw [if_pos ⟨hlow, hx⟩, if_pos hlow]
  · rw [if_neg (fun h => hlow h.1), if_neg hlow]

/-- Of a window whose length fits an `i64`, the batch fits too. -/
theorem i64OrMax_eq {step : ℤ} (hstep : 0 < step) {batch : ℕ} (hfit : step * batch < 2 ^ 63) :
    i64OrMax batch = batch := by
  have hle : (batch : ℤ) ≤ step * batch := le_mul_of_one_le_left (by omega) (by omega)
  unfold i64OrMax
  rw [if_pos (by omega)]

/-- Capping the batch at `i64::MAX` does not hide an overflow of the window's length. -/
theorem mul_i64OrMax_lt_iff {step : ℤ} (hstep : 1 < step) {batch : ℕ} :
    step * i64OrMax batch < 2 ^ 63 ↔ step * batch < 2 ^ 63 := by
  unfold i64OrMax
  split
  · rfl
  · rename_i hbig
    have hle : (batch : ℤ) ≤ step * batch := le_mul_of_one_le_left (by omega) (by omega)
    constructor <;> intro h <;> omega

/-- Going up or down by a step that fitted before, only the new bound can fail. -/
theorem windowAfter_eq {granI : ℤ} {batch : ℕ} {wend start : ℤ}
    (hstart : windowStart .debug granI batch wend = some start) :
    windowAfter .debug granI start = checkI64 (start - granI * 60000) := by
  obtain ⟨stepMs, hstep, -⟩ := Option.bind_eq_some_iff.mp hstart
  obtain ⟨hfit, rfl⟩ := checkI64_eq_some.mp hstep
  have hsame : checkI64 (granI * 60000) = some (granI * 60000) := checkI64_eq_some.mpr ⟨hfit, rfl⟩
  simp only [windowAfter, Build.i64, Build.debug, if_true, hsame, Option.bind_eq_bind,
    Option.bind_some]

/-- The start of a window: its length and its start both fit an `i64`. -/
theorem windowStart_eq_some {granularity : String} (hstep : 0 < stepOf granularity) {batch : ℕ}
    (hbatch : 0 < batch) {wend start : ℤ} (hwend : wend < 2 ^ 63) :
    windowStart .debug (granularityMinutes granularity) batch wend = some start ↔
      stepOf granularity * batch < 2 ^ 63 ∧ -2 ^ 63 ≤ start ∧
        start = wend - stepOf granularity * batch := by
  have hone : stepOf granularity ≤ stepOf granularity * batch :=
    le_mul_of_one_le_right hstep.le (by exact_mod_cast hbatch)
  have hlt : 1 < stepOf granularity := by unfold stepOf at hstep ⊢; omega
  unfold windowStart
  simp only [Build.i64, Build.debug, if_true, Option.bind_eq_bind, Option.bind_eq_some_iff,
    checkI64_eq_some,
    show granularityMinutes granularity * 60000 = stepOf granularity from rfl]
  constructor
  · -- the three checked operations have all gone through
    rintro ⟨_, ⟨_, rfl⟩, _, ⟨⟨_, hfit⟩, rfl⟩, ⟨hlow, _⟩, rfl⟩
    have hfit := (mul_i64OrMax_lt_iff hlt).mp hfit
    rw [i64OrMax_eq hstep hfit] at hlow ⊢
    exact ⟨hfit, hlow, rfl⟩
  · rintro ⟨hfit, hlow, rfl⟩
    refine ⟨_, ⟨⟨?_, ?_⟩, rfl⟩, _, ⟨⟨?_, ?_⟩, rfl⟩, ⟨?_, ?_⟩, ?_⟩ <;>
      (try rw [i64OrMax_eq hstep hfit]) <;> omega

section

variable {fmt : DebugFmt F} {get : KlineQuery → Result (List (List (Value F)))}
  {symbol granularity : String} {total pageSize : ℕ} {history : List (Candle F)}

/-- The candles of rows that all parse. -/
theorem candles_eq_of_forall₂ {raw : List (List (Value F))} {cs : List (Candle F)}
    (h : List.Forall₂ (fun row c => Candle.fromRaw fmt row = .ok c) raw cs) :
    candles fmt raw = cs := by
  induction h with
  | nil => rfl
  | cons hrow _ ih =>
    rw [candles, List.filterMap_cons, hrow]
    exact congrArg _ ih

/-- One page of the loop. The window is served in full; an empty one ends the loop, and
    otherwise the next window ends one bar below. -/
theorem fetchPages_page (hserve : ServesKlines fmt get symbol granularity history)
    {all : List (Candle F)} {wend start : ℤ} (hall : all.length < total)
    (hstart : windowStart .debug (granularityMinutes granularity)
      (min (total - all.length) pageSize) wend = some start) :
    ∃ page : List (Candle F),
      page.Perm (history.filter fun c => start ≤ c.time.toInt ∧ c.time.toInt ≤ wend) ∧
      ∀ fuel, fetchPages .debug fmt get symbol granularity total pageSize (fuel + 1) all wend =
        if page = [] then some (.returned (.ok (finishKlines total (all ++ page))))
        else match checkI64 (start - stepOf granularity) with
          | none => some .panicked
          | some wend' =>
            fetchPages .debug fmt get symbol granularity total pageSize fuel
              (all ++ page) wend' := by
  obtain ⟨raw, cs, hget, hrows, hperm⟩ := hserve start wend
  have hcs : candles fmt raw = cs := candles_eq_of_forall₂ hrows
  refine ⟨sortByTime cs, (List.mergeSort_perm _ _).trans hperm, fun fuel => ?_⟩
  have hempty : raw.length = 0 ↔ sortByTime cs = [] := by
    rw [hrows.length_eq, ← List.length_eq_zero_iff, sortByTime, List.length_mergeSort]
  rw [fetchPages, if_pos hall]
  simp only [hstart, hget, hcs, hempty, windowAfter_eq hstart]
  rfl

/-- A page whose window does not fit an `i64` panics. -/
theorem fetchPages_panic {all : List (Candle F)} {wend : ℤ} (hall : all.length < total)
    (hstart : windowStart .debug (granularityMinutes granularity)
      (min (total - all.length) pageSize) wend = none) (fuel : ℕ) :
    fetchPages .debug fmt get symbol granularity total pageSize (fuel + 1) all wend =
      some .panicked := by
  rw [fetchPages, if_pos hall]
  simp only [hstart]

/-- With enough bars collected the loop ends. -/
theorem fetchPages_done {all : List (Candle F)} {wend : ℤ} (hall : total ≤ all.length)
    (fuel : ℕ) :
    fetchPages .debug fmt get symbol granularity total pageSize (fuel + 1) all wend =
      some (.returned (.ok (finishKlines total all))) := by
  rw [fetchPages, if_neg (by omega)]

/-- More fuel does not change the result. -/
theorem fetchPages_mono (hserve : ServesKlines fmt get symbol granularity history)
    {r : Ended (List (Candle F))} {fuel : ℕ} {all : List (Candle F)} {wend : ℤ}
    (hret : fetchPages .debug fmt get symbol granularity total pageSize fuel all wend = some r) :
    fetchPages .debug fmt get symbol granularity total pageSize (fuel + 1) all wend = some r := by
  induction fuel generalizing all wend with
  | zero => cases hret
  | succ fuel ih =>
    rcases Nat.lt_or_ge all.length total with hlt | hge
    · cases hstart : windowStart .debug (granularityMinutes granularity)
          (min (total - all.length) pageSize) wend with
      | none =>
        rw [fetchPages_panic hlt hstart] at hret ⊢
        exact hret
      | some start =>
        obtain ⟨page, _, hrun⟩ := fetchPages_page hserve hlt hstart
        rw [hrun] at hret ⊢
        by_cases hempty : page = []
        · rw [if_pos hempty] at hret ⊢
          exact hret
        · rw [if_neg hempty] at hret ⊢
          cases hcheck : checkI64 (start - stepOf granularity) with
          | none => rw [hcheck] at hret; exact hret
          | some wend' => rw [hcheck] at hret; exact ih hret
    · rw [fetchPages_done hge] at hret ⊢
      exact hret

/-! ## Now is on the grid -/

/-- How far back the loop has to go when now is on the grid. Each full page covers one bar
    more than the page size, so the loop overshoots unless these pages end at `total`. -/
def slots (total pageSize : ℕ) : ℕ := if pageSize + 1 ∣ total then total else total + 1

/-- There are slots for all candles that are asked for. -/
theorem le_slots_self (total pageSize : ℕ) : total ≤ slots total pageSize := by
  unfold slots
  split <;> omega

/-- No window of the loop overflows when now is on the grid: the longest of them is the
    first, and the lowest bound is the one after the last. -/
def WindowsFit (nowMs stepMs : ℤ) (total pageSize : ℕ) : Prop :=
  stepMs * (min total pageSize : ℕ) < 2 ^ 63 ∧ -2 ^ 63 ≤ nowMs - slots total pageSize * stepMs

instance (nowMs stepMs : ℤ) (total pageSize : ℕ) :
    Decidable (WindowsFit nowMs stepMs total pageSize) :=
  inferInstanceAs (Decidable (_ ∧ _))

/-- The loop has collected the `e` most recent bars and its next window ends `e` bars back. -/
structure Collected (nowMs stepMs : ℤ) (total pageSize : ℕ) (history : List (Candle F)) (e : ℕ)
    (all : List (Candle F)) (wend : ℤ) : Prop where
  perm : all.Perm (history.drop (history.length - e))
  wend : wend = nowMs - e * stepMs
  full : pageSize + 1 ∣ e ∧ e ≤ total ∨ e = slots total pageSize

namespace Collected

variable {nowMs stepMs wend : ℤ} {e : ℕ} {all : List (Candle F)}

omit [F64 F] in
/-- What has been collected are the newest candles, as many as were asked for so far. -/
theorem length (h : Collected nowMs stepMs total pageSize history e all wend) :
    all.length = min history.length e := by
  rw [h.perm.length_eq, List.length_drop]
  omega

omit [F64 F] in
/-- The loop goes no further than its slots. -/
theorem le_slots (h : Collected nowMs stepMs total pageSize history e all wend) :
    e ≤ slots total pageSize := by
  have hle := le_slots_self total pageSize
  rcases h.full with ⟨_, he⟩ | he <;> omega

/-- After another page the loop is still at a full page within `total`, or at its end. -/
theorem full_next (hfull : pageSize + 1 ∣ e ∧ e ≤ total ∨ e = slots total pageSize)
    (he : e < total) :
    pageSize + 1 ∣ e + min (total - e) pageSize + 1 ∧ e + min (total - e) pageSize + 1 ≤ total ∨
      e + min (total - e) pageSize + 1 = slots total pageSize := by
  obtain ⟨hdvd, _⟩ | heq := hfull
  · rcases Nat.lt_or_ge pageSize (total - e) with hlt | hge
    · -- a full page
      refine Or.inl ⟨?_, by omega⟩
      rw [min_eq_right hlt.le, Nat.add_assoc]
      exact Nat.dvd_add hdvd (dvd_refl _)
    · -- the last page is short, and what is left is no multiple of a full page
      refine Or.inr ?_
      have hnot : ¬ pageSize + 1 ∣ total := by
        intro htotal
        have hrest : pageSize + 1 ∣ total - e := Nat.dvd_sub htotal hdvd
        exact absurd (Nat.le_of_dvd (by omega) hrest) (by omega)
      rw [slots, if_neg hnot]
      omega
  · unfold slots at heq
    split at heq <;> omega

omit [F64 F] in
/-- A loop that has collected enough bars has gone through all its slots. -/
theorem eq_slots (h : Collected nowMs stepMs total pageSize history e all wend)
    (hlen : total ≤ history.length) (hall : total ≤ all.length) : e = slots total pageSize := by
  have hle : total ≤ e := by have := h.length; omega
  rcases h.full with ⟨hdvd, he⟩ | he
  · obtain rfl : e = total := by omega
    rw [slots, if_pos hdvd]
  · exact he

end Collected

/-- A point of the grid is at or above another one when it is above the one below that. -/
theorem grid_le_iff {stepMs a t : ℤ} (hstep : 0 < stepMs) (ht : stepMs ∣ t) :
    a * stepMs ≤ t ↔ (a - 1) * stepMs < t := by
  obtain ⟨m, rfl⟩ := ht
  rw [mul_comm stepMs m, mul_le_mul_iff_of_pos_right hstep, mul_lt_mul_iff_of_pos_right hstep]
  omega

omit [F64 F] in
/-- The bars of a window of `b` bars that ends `e` bars back are the next `b + 1`. -/
theorem GaplessHistory.perm_window {nowMs stepMs : ℤ} (h : GaplessHistory nowMs stepMs history)
    (hstep : 0 < stepMs) (hnow : stepMs ∣ nowMs) {e b : ℕ} {all page : List (Candle F)}
    (hall : all.Perm (history.drop (history.length - e)))
    (hpage : page.Perm (history.filter fun c =>
      nowMs - e * stepMs - stepMs * b ≤ c.time.toInt ∧ c.time.toInt ≤ nowMs - e * stepMs)) :
    (all ++ page).Perm (history.drop (history.length - (e + b + 1))) := by
  have hgrid : nowMs = nowMs / stepMs * stepMs := (Int.ediv_mul_cancel hnow).symm
  have hend : nowMs - e * stepMs = (nowMs / stepMs - e) * stepMs := by
    rw [sub_mul, ← hgrid]
  have hstart : nowMs - e * stepMs - stepMs * b = (nowMs / stepMs - e - b) * stepMs := by
    rw [hend]; ring
  -- the inclusive lower end is one bar above an exclusive one
  have hwindow : history.filter (fun c =>
        nowMs - e * stepMs - stepMs * b ≤ c.time.toInt ∧ c.time.toInt ≤ nowMs - e * stepMs) =
      history.filter (fun c => (nowMs / stepMs - (e + b + 1 : ℕ)) * stepMs < c.time.toInt ∧
        c.time.toInt ≤ (nowMs / stepMs - e) * stepMs) := by
    refine List.filter_congr fun c hc => ?_
    rw [decide_eq_decide, hstart, hend, grid_le_iff hstep (h.dvd_time hc),
      show nowMs / stepMs - e - b - 1 = nowMs / stepMs - (e + b + 1 : ℕ) by push_cast; ring]
  rw [hwindow] at hpage
  rw [← h.filter_newer hstep] at hall ⊢
  exact (hall.append hpage).trans (filter_append_window_perm _ _
    (mul_le_mul_of_nonneg_right (by push_cast; omega) hstep.le))

section

variable {nowMs : ℤ} (hserve : ServesKlines fmt get symbol granularity history)
  (hhist : GaplessHistory nowMs (stepOf granularity) history)
  (hstep : 0 < stepOf granularity) (hnow : stepOf granularity ∣ nowMs) (hmax : nowMs < 2 ^ 63)
  (hlen : total ≤ history.length) (hpage : 0 < pageSize)

include hserve hhist hstep hnow hmax hlen hpage

/-- A page of `b` bars takes the loop `b + 1` bars further back, if its window fits an
    `i64`. -/
theorem aligned_page {e : ℕ} {all : List (Candle F)} {wend : ℤ}
    (h : Collected nowMs (stepOf granularity) total pageSize history e all wend)
    (hall : all.length < total) :
    ∃ (e' : ℕ) (all' : List (Candle F)), e' = e + min (total - e) pageSize + 1 ∧
      Collected nowMs (stepOf granularity) total pageSize history e' all'
        (nowMs - e' * stepOf granularity) ∧
      ∀ fuel, fetchPages .debug fmt get symbol granularity total pageSize (fuel + 1) all wend =
        if stepOf granularity * (min (total - e) pageSize : ℕ) < 2 ^ 63 ∧
            -2 ^ 63 ≤ nowMs - e' * stepOf granularity then
          fetchPages .debug fmt get symbol granularity total pageSize fuel all'
            (nowMs - e' * stepOf granularity)
        else some .panicked := by
  have hlength := h.length
  have he : e < total := by omega
  have hb : 0 < min (total - e) pageSize := by omega
  have hrem : total - all.length = total - e := by omega
  set b := min (total - e) pageSize with hbdef
  have hwend : wend = nowMs - e * stepOf granularity := h.wend
  have hlow : nowMs - (e + b + 1 : ℕ) * stepOf granularity =
      wend - stepOf granularity * b - stepOf granularity := by
    rw [hwend]; push_cast; ring
  have hwend_lt : wend < 2 ^ 63 := by
    have : 0 ≤ e * stepOf granularity := by positivity
    omega
  refine ⟨e + b + 1, ?_⟩
  cases hstart : windowStart .debug (granularityMinutes granularity) b wend with
  | none =>
    -- the page panics, so one of the two bounds fails
    have hfail : ¬ (stepOf granularity * b < 2 ^ 63 ∧
        -2 ^ 63 ≤ nowMs - (e + b + 1 : ℕ) * stepOf granularity) := by
      rintro ⟨hfit, hbound⟩
      simp [(windowStart_eq_some hstep hb hwend_lt).mpr ⟨hfit, by omega, rfl⟩] at hstart
    refine ⟨history.drop (history.length - (e + b + 1)), rfl,
      ⟨.refl _, rfl, Collected.full_next h.full he⟩, fun fuel => ?_⟩
    rw [if_neg hfail, fetchPages_panic hall (by rw [hrem]; exact hstart)]
  | some start =>
    obtain ⟨hfit, hbound, rfl⟩ := (windowStart_eq_some hstep hb hwend_lt).mp hstart
    obtain ⟨page, hperm, hrun⟩ := fetchPages_page hserve hall (by rw [hrem]; exact hstart)
    have hperm' : (all ++ page).Perm (history.drop (history.length - (e + b + 1))) :=
      hhist.perm_window hstep hnow h.perm (by rw [← hwend]; exact hperm)
    -- the history is long enough for the page to hold a bar
    have hne : page ≠ [] := by
      rintro rfl
      have hlen' := hperm'.length_eq
      rw [List.append_nil, List.length_drop] at hlen'
      omega
    refine ⟨all ++ page, rfl, ⟨hperm', rfl, Collected.full_next h.full he⟩, fun fuel => ?_⟩
    -- the next window ends one bar below this one, if that still fits an `i64`
    have hpos : 0 ≤ (e + b + 1 : ℕ) * stepOf granularity := by positivity
    rw [hrun, if_neg hne, ← hlow, checkI64_of_lt (by omega)]
    by_cases hbound' : -2 ^ 63 ≤ nowMs - (e + b + 1 : ℕ) * stepOf granularity
    · rw [if_pos hbound', if_pos ⟨hfit, hbound'⟩]
    · rw [if_neg hbound', if_neg (fun h => hbound' h.2)]

/-- When the loop returns, it has gone through all its slots and every window has fitted. -/
theorem aligned_sound (htotal : 0 < total) {cs : List (Candle F)} {fuel e : ℕ}
    {all : List (Candle F)} {wend : ℤ}
    (h : Collected nowMs (stepOf granularity) total pageSize history e all wend)
    (hfits : 0 < e → stepOf granularity * (min total pageSize : ℕ) < 2 ^ 63 ∧
      -2 ^ 63 ≤ nowMs - e * stepOf granularity)
    (hret : fetchPages .debug fmt get symbol granularity total pageSize fuel all wend =
      some (.returned (.ok cs))) :
    WindowsFit nowMs (stepOf granularity) total pageSize ∧
      cs = (history.drop (history.length - slots total pageSize)).take total := by
  induction fuel generalizing e all wend with
  | zero => cases hret
  | succ fuel ih =>
    rcases Nat.lt_or_ge all.length total with hall | hall
    · obtain ⟨e', all', he', h', hrun⟩ :=
        aligned_page hserve hhist hstep hnow hmax hlen hpage h hall
      rw [hrun] at hret
      split at hret
      · rename_i hok
        refine ih h' (fun _ => ⟨?_, hok.2⟩) hret
        -- the first page has the largest batch
        rcases Nat.eq_zero_or_pos e with rfl | hpos
        · exact hok.1
        · exact (hfits hpos).1
      · cases hret
    · -- the loop has enough and sorts what it has
      obtain rfl := h.eq_slots hlen hall
      rw [fetchPages_done hall] at hret
      simp only [Option.some.injEq, Ended.returned.injEq, Except.ok.injEq] at hret
      have hslots : 0 < slots total pageSize := lt_of_lt_of_le htotal (le_slots_self _ _)
      refine ⟨hfits hslots, ?_⟩
      rw [← hret, finishKlines, sortByTime_eq_of_perm ((hhist.pairwise hstep).drop) h.perm]

/-- When every window fits, the loop returns. -/
theorem aligned_complete (hfits : WindowsFit nowMs (stepOf granularity) total pageSize) {e : ℕ}
    {all : List (Candle F)} {wend : ℤ}
    (h : Collected nowMs (stepOf granularity) total pageSize history e all wend) :
    ∃ fuel, fetchPages .debug fmt get symbol granularity total pageSize fuel all wend =
      some (.returned (.ok
        ((history.drop (history.length - slots total pageSize)).take total))) := by
  -- on the bars that are left before the last slot
  induction hn : slots total pageSize - e using Nat.strong_induction_on generalizing e all wend with
  | _ n ih =>
    rcases Nat.lt_or_ge all.length total with hall | hall
    · obtain ⟨e', all', he', h', hrun⟩ :=
        aligned_page hserve hhist hstep hnow hmax hlen hpage h hall
      have hle : (e' : ℤ) ≤ slots total pageSize := by exact_mod_cast h'.le_slots
      have hbatch : ((min (total - e) pageSize : ℕ) : ℤ) ≤ (min total pageSize : ℕ) := by omega
      have hbound : e' * stepOf granularity ≤ slots total pageSize * stepOf granularity :=
        mul_le_mul_of_nonneg_right hle hstep.le
      have hfit := mul_le_mul_of_nonneg_left hbatch hstep.le
      obtain ⟨fuel, hfuel⟩ := ih (slots total pageSize - e') (by omega) h' rfl
      refine ⟨fuel + 1, ?_⟩
      rw [hrun, if_pos ⟨lt_of_le_of_lt hfit hfits.1, le_trans hfits.2 (by omega)⟩, hfuel]
    · obtain rfl := h.eq_slots hlen hall
      refine ⟨1, ?_⟩
      rw [fetchPages_done hall, finishKlines,
        sortByTime_eq_of_perm ((hhist.pairwise hstep).drop) h.perm]

end

omit [F64 F] in
/-- Nothing is collected before the first page. -/
theorem Collected.start (nowMs stepMs : ℤ) (total pageSize : ℕ) (history : List (Candle F)) :
    Collected nowMs stepMs total pageSize history 0 [] nowMs where
  perm := by rw [Nat.sub_zero, List.drop_length]
  wend := by simp
  full := Or.inl ⟨dvd_zero _, Nat.zero_le _⟩

omit [F64 F] in
/-- The result on the grid is right when the loop stops at `total` bars, or when there are
    no more. -/
theorem take_slots_eq_iff {nowMs stepMs : ℤ} (h : GaplessHistory nowMs stepMs history)
    (hstep : 0 < stepMs) (htotal : 0 < total) (hlen : total ≤ history.length) :
    (history.drop (history.length - slots total pageSize)).take total =
        history.drop (history.length - total) ↔
      pageSize + 1 ∣ total ∨ history.length = total := by
  unfold slots
  split
  · rename_i hdvd
    refine ⟨fun _ => Or.inl hdvd, fun _ => List.take_of_length_le ?_⟩
    rw [List.length_drop]
    omega
  · rename_i hdvd
    constructor
    · intro heq
      refine Or.inr ?_
      by_contra hne
      -- the oldest candle of the result is one bar too old
      have hfirst := congrArg (fun cs => cs[0]?) heq
      simp only [List.getElem?_take, htotal, if_true, List.getElem?_drop, Nat.add_zero] at hfirst
      rw [List.getElem?_eq_getElem (by omega), List.getElem?_eq_getElem (by omega),
        Option.some.injEq] at hfirst
      have hlt := (List.pairwise_iff_getElem.mp (h.pairwise hstep))
        (history.length - (total + 1)) (history.length - total) (by omega) (by omega) (by omega)
      rw [hfirst] at hlt
      exact Int64.lt_irrefl hlt
    · rintro (h' | h')
      · exact absurd h' hdvd
      · -- there is no older bar to take
        rw [show history.length - (total + 1) = 0 by omega,
          show history.length - total = 0 by omega]
        exact List.take_of_length_le (by rw [List.length_drop]; omega)

/-! ## Now is between two bars -/

/-- Away from the grid, now is less than a step past the newest bar. -/
theorem emod_bounds {stepMs nowMs : ℤ} (hstep : 0 < stepMs) (hnow : ¬ stepMs ∣ nowMs) :
    0 < nowMs % stepMs ∧ nowMs % stepMs < stepMs ∧
      stepMs * (nowMs / stepMs) + nowMs % stepMs = nowMs :=
  ⟨lt_of_le_of_ne (Int.emod_nonneg _ hstep.ne') fun h0 => hnow (Int.dvd_of_emod_eq_zero h0.symm),
    Int.emod_lt_of_pos _ hstep, Int.mul_ediv_add_emod _ _⟩

omit [F64 F] in
/-- When now is between two bars, a window of `b` bars that ends now has the last `b`. -/
theorem GaplessHistory.filter_window {nowMs stepMs : ℤ} (h : GaplessHistory nowMs stepMs history)
    (hstep : 0 < stepMs) (hnow : ¬ stepMs ∣ nowMs) (b : ℕ) :
    history.filter (fun c => nowMs - stepMs * b ≤ c.time.toInt ∧ c.time.toInt ≤ nowMs) =
      history.drop (history.length - b) := by
  obtain ⟨hmod, hlt, hdiv⟩ := emod_bounds hstep hnow
  rw [← h.filter_newer hstep]
  refine List.filter_congr fun c hc => ?_
  rw [decide_eq_decide]
  obtain ⟨i, hi, rfl⟩ := List.mem_iff_getElem.mp hc
  have hlow : nowMs - stepMs * b = (nowMs / stepMs - b) * stepMs + nowMs % stepMs := by
    linear_combination -hdiv
  have hold : (nowMs / stepMs - (history.length - 1 - i)) * stepMs ≤ nowMs / stepMs * stepMs :=
    mul_le_mul_of_nonneg_right (by omega) hstep.le
  rw [h.time i hi, hlow]
  constructor
  · rintro ⟨hge, _⟩
    omega
  · -- a bar above a point of the grid is at least one step above it
    intro hgt
    have hsucc : (nowMs / stepMs - b + 1) * stepMs ≤
        (nowMs / stepMs - (history.length - 1 - i)) * stepMs :=
      mul_le_mul_of_nonneg_right (lt_of_mul_lt_mul_right hgt hstep.le) hstep.le
    rw [add_mul, one_mul] at hsucc
    rw [mul_comm] at hdiv
    omega

/-- A bar that the next window misses, being above its end or in the step below its start,
    is missing from the result if it has not been collected. -/
theorem fetchPages_avoids (hserve : ServesKlines fmt get symbol granularity history)
    (hstep : 0 < stepOf granularity) (hpage : 0 < pageSize) {t : ℤ} {cs : List (Candle F)}
    {fuel : ℕ} {all : List (Candle F)} {wend : ℤ} (hmax : wend < 2 ^ 63)
    (hskip : wend < t ∨
      t < wend - stepOf granularity * (min (total - all.length) pageSize : ℕ) ∧
        wend - stepOf granularity * (min (total - all.length) pageSize : ℕ) -
          stepOf granularity < t)
    (hall : ∀ c ∈ all, c.time.toInt ≠ t)
    (hret : fetchPages .debug fmt get symbol granularity total pageSize fuel all wend =
      some (.returned (.ok cs))) : ∀ c ∈ cs, c.time.toInt ≠ t := by
  have hfinish : ∀ all : List (Candle F), (∀ c ∈ all, c.time.toInt ≠ t) →
      ∀ c ∈ finishKlines total all, c.time.toInt ≠ t := fun all hall c hc =>
    hall c (List.mem_mergeSort.mp (List.mem_of_mem_take hc))
  induction fuel generalizing all wend with
  | zero => cases hret
  | succ fuel ih =>
    rcases Nat.lt_or_ge all.length total with hlt | hge
    · cases hstart : windowStart .debug (granularityMinutes granularity)
          (min (total - all.length) pageSize) wend with
      | none => simp [fetchPages_panic hlt hstart] at hret
      | some start =>
        obtain ⟨page, hperm, hrun⟩ := fetchPages_page hserve hlt hstart
        obtain ⟨_, _, hstarteq⟩ := (windowStart_eq_some hstep (by omega) hmax).mp hstart
        rw [← hstarteq] at hskip
        -- neither what was collected nor this window has the bar
        have hall' : ∀ c ∈ all ++ page, c.time.toInt ≠ t := by
          intro c hc
          rcases List.mem_append.mp hc with hc | hc
          · exact hall c hc
          · have hin := List.mem_filter.mp (hperm.mem_iff.mp hc)
            simp only [decide_eq_true_eq] at hin
            omega
        have hbatch : 0 ≤ stepOf granularity * (min (total - all.length) pageSize : ℕ) := by
          positivity
        rw [hrun] at hret
        split at hret
        · simp only [Option.some.injEq, Ended.returned.injEq, Except.ok.injEq] at hret
          exact hret ▸ hfinish _ hall'
        · split at hret
          · cases hret
          · rename_i wend' hwend'
            obtain ⟨_, rfl⟩ := checkI64_eq_some.mp hwend'
            -- from now on the windows end below the bar
            exact ih (by omega) (Or.inl (by omega)) hall' hret
    · rw [fetchPages_done hge] at hret
      simp only [Option.some.injEq, Ended.returned.injEq, Except.ok.injEq] at hret
      exact hret ▸ hfinish _ hall

/-- When more than one page is needed, the bar `pageSize` back from the newest is missing. -/
theorem missing_bar {nowMs : ℤ} (hserve : ServesKlines fmt get symbol granularity history)
    (hhist : GaplessHistory nowMs (stepOf granularity) history) (hstep : 0 < stepOf granularity)
    (hnow : ¬ stepOf granularity ∣ nowMs) (hmax : nowMs < 2 ^ 63) (hpage : 0 < pageSize)
    (hlt : pageSize < total) (hlen : total ≤ history.length) {fuel : ℕ} {cs : List (Candle F)}
    (hret : fetchPages .debug fmt get symbol granularity total pageSize fuel [] nowMs =
      some (.returned (.ok cs))) : cs ≠ history.drop (history.length - total) := by
  obtain ⟨hmod, hmodlt, hdiv⟩ := emod_bounds hstep hnow
  -- the right result has the bar `pageSize` back from the newest
  rintro rfl
  have hidx : history.length - 1 - pageSize < history.length := by omega
  have hmem : history[history.length - 1 - pageSize] ∈
      history.drop (history.length - total) :=
    List.mem_drop_iff_getElem.mpr ⟨total - 1 - pageSize, by omega, by congr 1; omega⟩
  have hmin : min (total - ([] : List (Candle F)).length) pageSize = pageSize :=
    min_eq_right hlt.le
  have htime := hhist.time (history.length - 1 - pageSize) hidx
  rw [show (history.length : ℤ) - 1 - (history.length - 1 - pageSize : ℕ) = pageSize by omega,
    sub_mul, mul_comm _ (stepOf granularity), mul_comm (pageSize : ℤ)] at htime
  refine fetchPages_avoids hserve hstep hpage hmax (Or.inr ?_)
    (fun c hc => absurd hc List.not_mem_nil) hret _ hmem htime
  rw [hmin]
  omega

/-- Between two bars and with one page to fetch, the loop returns that page if the window
    fits an `i64`. -/
theorem single_page {nowMs : ℤ} (hserve : ServesKlines fmt get symbol granularity history)
    (hhist : GaplessHistory nowMs (stepOf granularity) history) (hstep : 0 < stepOf granularity)
    (hnow : ¬ stepOf granularity ∣ nowMs) (hmax : nowMs < 2 ^ 63) (htotal : 0 < total)
    (hlen : total ≤ history.length) (hpage : total ≤ pageSize) (fuel : ℕ) :
    fetchPages .debug fmt get symbol granularity total pageSize (fuel + 2) [] nowMs =
      if WindowsFit nowMs (stepOf granularity) total pageSize then
        some (.returned (.ok (history.drop (history.length - total))))
      else some .panicked := by
  have hslots : slots total pageSize = total + 1 := by
    rw [slots, if_neg fun h => absurd (Nat.le_of_dvd htotal h) (by omega)]
  have hmin : min total pageSize = total := min_eq_left hpage
  have hall : ([] : List (Candle F)).length < total := htotal
  have hrem : min (total - ([] : List (Candle F)).length) pageSize = total := hmin
  have hlow : nowMs - (total + 1 : ℕ) * stepOf granularity =
      nowMs - stepOf granularity * total - stepOf granularity := by
    push_cast; ring
  have hfits : WindowsFit nowMs (stepOf granularity) total pageSize ↔
      stepOf granularity * total < 2 ^ 63 ∧
        -2 ^ 63 ≤ nowMs - stepOf granularity * total - stepOf granularity := by
    rw [WindowsFit, hslots, hmin, hlow]
  simp only [hfits]
  cases hstart : windowStart .debug (granularityMinutes granularity) total nowMs with
  | none =>
    rw [fetchPages_panic hall (by rw [hrem]; exact hstart), if_neg]
    rintro ⟨hfit, hbound⟩
    simp [(windowStart_eq_some hstep htotal hmax).mpr ⟨hfit, by omega, rfl⟩] at hstart
  | some start =>
    obtain ⟨hfit, _, rfl⟩ := (windowStart_eq_some hstep htotal hmax).mp hstart
    obtain ⟨page, hperm, hrun⟩ := fetchPages_page hserve hall (by rw [hrem]; exact hstart)
    rw [hhist.filter_window hstep hnow] at hperm
    have hlength : page.length = total := by
      rw [hperm.length_eq, List.length_drop]
      omega
    have hne : page ≠ [] := by
      rintro rfl
      exact absurd hlength htotal.ne
    have hpos : 0 ≤ stepOf granularity * total := by positivity
    rw [hrun, if_neg hne, List.nil_append, checkI64_of_lt (by omega)]
    by_cases hbound : -2 ^ 63 ≤ nowMs - stepOf granularity * total - stepOf granularity
    · -- the second turn of the loop finds that it has enough
      rw [if_pos hbound, if_pos ⟨hfit, hbound⟩]
      dsimp only
      rw [fetchPages_done hlength.ge, finishKlines,
        sortByTime_eq_of_perm ((hhist.pairwise hstep).drop) hperm, List.take_of_length_le]
      rw [List.length_drop]
      omega
    · rw [if_neg hbound, if_neg (fun h => hbound h.2)]

/-! ## When the result is right -/

/-- An operation that does not overflow has the same value in every build. -/
theorem i64_of_checkI64 (build : Build) {x y : ℤ} (h : checkI64 x = some y) :
    build.i64 x = some y := by
  obtain ⟨hfit, rfl⟩ := checkI64_eq_some.mp h
  unfold Build.i64
  split
  · exact h
  · rw [Int.bmod_eq_of_le (by omega) (by omega)]

/-- A window that no check stops is the same in every build. -/
theorem windowStart_of_debug (build : Build) {granI wend start : ℤ} {batch : ℕ}
    (h : windowStart .debug granI batch wend = some start) :
    windowStart build granI batch wend = some start := by
  obtain ⟨stepMs, hstep, h⟩ := Option.bind_eq_some_iff.mp h
  obtain ⟨windowMs, hwindow, hstart⟩ := Option.bind_eq_some_iff.mp h
  simp only [windowStart, i64_of_checkI64 build hstep, i64_of_checkI64 build hwindow,
    i64_of_checkI64 build hstart, Option.bind_eq_bind, Option.bind_some]

/-- A next window that no check stops is the same in every build. -/
theorem windowAfter_of_debug (build : Build) {granI start wend : ℤ}
    (h : windowAfter .debug granI start = some wend) :
    windowAfter build granI start = some wend := by
  obtain ⟨stepMs, hstep, hend⟩ := Option.bind_eq_some_iff.mp h
  simp only [windowAfter, i64_of_checkI64 build hstep, i64_of_checkI64 build hend,
    Option.bind_eq_bind, Option.bind_some]

/-- A debug build that returns does not overflow, so every build returns the same. -/
theorem fetchPages_of_debug (build : Build) {r : Result (List (Candle F))} {fuel : ℕ}
    {all : List (Candle F)} {wend : ℤ}
    (h : fetchPages .debug fmt get symbol granularity total pageSize fuel all wend =
      some (.returned r)) :
    fetchPages build fmt get symbol granularity total pageSize fuel all wend =
      some (.returned r) := by
  induction fuel generalizing all wend with
  | zero => cases h
  | succ fuel ih =>
    rw [fetchPages] at h ⊢
    split at h
    · rename_i hall
      rw [if_pos hall]
      dsimp only at h ⊢
      -- each check of the debug build was passed, so the wrapped value is the exact one
      split at h
      · cases h
      · rename_i start hstart
        simp only [windowStart_of_debug build hstart]
        split at h
        · exact h
        · split at h
          · rename_i hrows
            rw [if_pos hrows]
            exact h
          · rename_i hrows
            rw [if_neg hrows]
            split at h
            · cases h
            · rename_i wend' hend
              simp only [windowAfter_of_debug build hend]
              exact ih h
    · rename_i hall
      rw [if_neg hall]
      exact h

omit [F64 F] in
/-- There is room for the candles of a history. -/
theorem GaplessHistory.withCapacity {nowMs stepMs : ℤ} (h : GaplessHistory nowMs stepMs history)
    (hstep : 60000 ≤ stepMs) (hlen : total ≤ history.length) {build : Build}
    (halloc : build.allocates (CANDLE_BYTES * total) = true) :
    build.withCapacity (List (Candle F)) total = none := by
  have hroom := h.length_lt hstep
  have hle : CANDLE_BYTES * total ≤ CANDLE_BYTES * history.length := Nat.mul_le_mul_left _ hlen
  rw [Build.withCapacity, if_neg (by omega), if_pos (.inr halloc)]

/-- The inputs for which `fetch_klines_extended` returns the `total` most recent bars of a
    gapless history of `len` bars: the windows fit an `i64`, and either now is on the grid
    and the full pages end at `total` (or the history does), or now is between two bars and
    one page is enough. -/
def KlinesOk (nowMs stepMs : ℤ) (total pageSize len : ℕ) : Prop :=
  total = 0 ∨ WindowsFit nowMs stepMs total pageSize ∧
    (stepMs ∣ nowMs ∧ (pageSize + 1 ∣ total ∨ len = total) ∨
      ¬ stepMs ∣ nowMs ∧ total ≤ pageSize)

instance (nowMs stepMs : ℤ) (total pageSize len : ℕ) :
    Decidable (KlinesOk nowMs stepMs total pageSize len) :=
  inferInstanceAs (Decidable (_ ∨ _ ∧ (_ ∧ _ ∨ _ ∧ _)))

/-- On a gapless history, `fetch_klines_extended` returns exactly the `total` most recent
    bars, in ascending order and one step apart, if and only if the inputs are `KlinesOk`. Nothing
    overflows then, so a build that wraps returns them too. -/
theorem fetchKlinesExtended_recent_iff (fmt : DebugFmt F)
    (get : KlineQuery → Result (List (List (Value F)))) (symbol granularity : String) (g : Int64)
    (nowMs : Int64) (total pageSize : ℕ) (history : List (Candle F))
    (hg : parseI64 granularity = some g) (hpos : 0 < g.toInt) (hpage : 1 ≤ pageSize)
    (hhist : GaplessHistory nowMs.toInt (g.toInt * 60000) history)
    (hlen : total ≤ history.length) (hserve : ServesKlines fmt get symbol granularity history) :
    ((∃ fuel cs, fetchKlinesExtended .debug fmt get fuel nowMs symbol total granularity pageSize =
        some (.returned (.ok cs)) ∧ IsRecentKlines (g.toInt * 60000) history total cs) ↔
      KlinesOk nowMs.toInt (g.toInt * 60000) total pageSize history.length) ∧
    (KlinesOk nowMs.toInt (g.toInt * 60000) total pageSize history.length → ∀ build : Build,
      build.allocates (CANDLE_BYTES * total) = true →
      ∃ fuel cs, fetchKlinesExtended build fmt get fuel nowMs symbol total granularity pageSize =
        some (.returned (.ok cs)) ∧ IsRecentKlines (g.toInt * 60000) history total cs) := by
  have hgran : g.toInt * 60000 = stepOf granularity := by
    rw [stepOf, granularityMinutes, hg, Option.getD_some]
  rw [hgran] at hhist ⊢
  have hstep : 0 < stepOf granularity := by omega
  have hmax : nowMs.toInt < 2 ^ 63 := nowMs.toInt_lt
  have hrecent := hhist.isRecentKlines hlen
  have hroom (build : Build) (halloc : build.allocates (CANDLE_BYTES * total) = true) :
      build.withCapacity (List (Candle F)) total = none :=
    hhist.withCapacity (by rw [← hgran]; omega) hlen halloc
  have hdebug : (∃ fuel cs, fetchPages .debug fmt get symbol granularity total pageSize fuel []
      nowMs.toInt = some (.returned (.ok cs)) ∧
        IsRecentKlines (stepOf granularity) history total cs) ↔
      KlinesOk nowMs.toInt (stepOf granularity) total pageSize history.length := by
    unfold KlinesOk
    rcases Nat.eq_zero_or_pos total with rfl | htotal
    · -- nothing is asked for and nothing fetched
      refine iff_of_true ⟨1, [], ?_, ?_⟩ (Or.inl rfl)
      · exact fetchPages_done (Nat.zero_le _) 0
      · exact ⟨by simp, rfl, List.IsChain.nil⟩
    by_cases hnow : stepOf granularity ∣ nowMs.toInt
    · have hstart := Collected.start nowMs.toInt (stepOf granularity) total pageSize history
      constructor
      · rintro ⟨fuel, cs, hret, hcs, _⟩
        obtain ⟨hfits, heq⟩ := aligned_sound hserve hhist hstep hnow hmax hlen hpage htotal hstart
          (fun h => absurd h (lt_irrefl 0)) hret
        exact Or.inr ⟨hfits, Or.inl
          ⟨hnow, (take_slots_eq_iff hhist hstep htotal hlen).mp (heq.symm.trans hcs)⟩⟩
      · rintro (h0 | ⟨hfits, ⟨_, hdone⟩ | ⟨hoff, _⟩⟩)
        · omega
        · obtain ⟨fuel, hret⟩ :=
            aligned_complete hserve hhist hstep hnow hmax hlen hpage hfits hstart
          rw [(take_slots_eq_iff hhist hstep htotal hlen).mpr hdone] at hret
          exact ⟨fuel, _, hret, hrecent⟩
        · exact absurd hnow hoff
    · rcases Nat.lt_or_ge pageSize total with hlt | hge
      · refine iff_of_false ?_ (by omega)
        rintro ⟨fuel, cs, hret, hcs, _⟩
        exact missing_bar hserve hhist hstep hnow hmax hpage hlt hlen hret hcs
      · have hsingle := single_page hserve hhist hstep hnow hmax htotal hlen hge
        constructor
        · rintro ⟨fuel, cs, hret, _⟩
          -- the single page needs two turns of the loop
          have hret' := fetchPages_mono hserve (fetchPages_mono hserve hret)
          rw [hsingle] at hret'
          split at hret'
          · exact Or.inr ⟨‹_›, Or.inr ⟨hnow, hge⟩⟩
          · cases hret'
        · rintro (h0 | ⟨hfits, _⟩)
          · omega
          · exact ⟨0 + 2, _, by rw [hsingle 0, if_pos hfits], hrecent⟩
  simp only [fetchKlinesExtended, hroom .debug rfl]
  refine ⟨hdebug, fun hok build halloc => ?_⟩
  obtain ⟨fuel, cs, hret, hcs⟩ := hdebug.mpr hok
  simp only [hroom build halloc]
  exact ⟨fuel, cs, fetchPages_of_debug build hret, hcs⟩

end

/-! ### Three one-minute bars -/

def exampleBar (time : Int64) : Candle ℤ where
  time := time
  «open» := 5
  high := 9
  low := 4
  close := 7
  volume := 100

/-- The bars of the first two minutes after the epoch. -/
def exampleHistory : List (Candle ℤ) := [exampleBar 0, exampleBar 60000, exampleBar 120000]

/-- A candle as a row of the response. -/
def exampleRow (c : Candle ℤ) : List (Value ℤ) :=
  [.number (.posInt c.time.toUInt64), .number (.float c.open), .number (.float c.high),
    .number (.float c.low), .number (.float c.close), .number (.float c.volume)]

/-- An endpoint that serves the history. -/
def exampleGet (q : KlineQuery) : Result (List (List (Value ℤ))) :=
  .ok ((exampleHistory.filter fun c => q.from ≤ c.time.toInt ∧ c.time.toInt ≤ q.to).map exampleRow)

def exampleFmt : DebugFmt ℤ where
  string := String.quote
  value _ := "Number"

/-- The history of the example has a candle for each minute. -/
theorem exampleHistory_gapless : GaplessHistory (120000 : Int64).toInt 60000 exampleHistory where
  time := by decide

/-- The server of the example answers with its history. -/
theorem exampleGet_serves : ServesKlines exampleFmt exampleGet "XBTUSDTM" "1" exampleHistory := by
  intro start stop
  refine ⟨_, _, rfl, ?_, .refl _⟩
  have hrow : ∀ c ∈ exampleHistory, Candle.fromRaw exampleFmt (exampleRow c) = .ok c := by decide
  rw [List.forall₂_map_left_iff, List.forall₂_same]
  exact fun c hc => hrow c (List.mem_filter.mp hc).1

/-- One bar is asked for, the window has two, and the older one is returned. -/
theorem fetchKlinesExtended_not_recent :
    ¬ ∃ fuel cs, fetchKlinesExtended .debug exampleFmt exampleGet fuel 120000 "XBTUSDTM" 1 "1" 1 =
        some (.returned (.ok cs)) ∧ IsRecentKlines 60000 exampleHistory 1 cs := by
  rintro ⟨fuel, cs, hret, hcs, _⟩
  obtain ⟨_, heq⟩ := aligned_sound exampleGet_serves exampleHistory_gapless (by decide) (by decide)
    (by decide) (by decide) (by decide) (by decide)
    (Collected.start (120000 : Int64).toInt 60000 1 1 exampleHistory)
    (fun h => absurd h (lt_irrefl 0)) hret
  exact absurd (heq.symm.trans hcs) (by decide)

/-- Two candles are fetched one by one, and they are the newest two. -/
theorem fetchKlinesExtended_recent_example :
    ∃ fuel cs, fetchKlinesExtended .debug exampleFmt exampleGet fuel 120000 "XBTUSDTM" 2 "1" 1 =
        some (.returned (.ok cs)) ∧ IsRecentKlines 60000 exampleHistory 2 cs :=
  (fetchKlinesExtended_recent_iff exampleFmt exampleGet "XBTUSDTM" "1" 1 120000 2 1 exampleHistory
    (by decide) (by decide) (by decide) exampleHistory_gapless (by decide)
    exampleGet_serves).1.mpr (by decide)

end ExchangeApiws.Spec
