import ExchangeApiws.Native.PublicRest

/-!
# Pair-keyed maps

The maps of OHLC, Trades and Spread responses hold the rows of one pair and a cursor. The loop
over their entries keeps the last one of each kind, so the rows of every other pair are lost.

## Key results

- `splitPairKeyed_eq_ok_iff`: the last entry of each kind is returned
- `splitPairKeyed_iff`: the maps that are split if and only if they have one entry of each kind
-/

namespace ExchangeApiws.Spec

open Native Native.Kraken

variable {V Row Cursor : Type}

/-! ## The entries of a map -/

/-- The entries of pairs. -/
def pairEntries (entries : List (String × V)) : List (String × V) :=
  entries.filter fun entry => entry.1 ≠ "last"

/-- The entries of cursors. -/
def cursorEntries (entries : List (String × V)) : List (String × V) :=
  entries.filter fun entry => entry.1 = "last"

section

variable (decodeRows : V → Except String (List Row)) (decodeCursor : V → Except String Cursor)

/-- The value of the entry decodes, to rows or to a cursor. -/
def EntryDecodes (entry : String × V) : Prop :=
  if entry.1 = "last" then ∃ last, decodeCursor entry.2 = .ok last
  else ∃ rows, decodeRows entry.2 = .ok rows

/-- The map has exactly one pair and one cursor, and they decode to the given ones. -/
def IsPairKeyed (entries : List (String × V)) (pair : String) (rows : List Row) (last : Cursor) :
    Prop :=
  (∃ v, pairEntries entries = [(pair, v)] ∧ decodeRows v = .ok rows) ∧
    ∃ c, cursorEntries entries = [("last", c)] ∧ decodeCursor c = .ok last

/-- All entries decode, there are a pair and a cursor, and one of them more than once. -/
def Overwrites (entries : List (String × V)) : Prop :=
  (∀ entry ∈ entries, EntryDecodes decodeRows decodeCursor entry) ∧
    pairEntries entries ≠ [] ∧ cursorEntries entries ≠ [] ∧
    (1 < (pairEntries entries).length ∨ 1 < (cursorEntries entries).length)

/-! ## The loop -/

/-- What the loop keeps: the last entry of each kind. -/
def keptState (entries : List (String × V)) : PairKeyed Row Cursor where
  pair := (pairEntries entries).getLast?.map Prod.fst
  rows := (pairEntries entries).getLast?.bind fun entry => (decodeRows entry.2).toOption
  last := (cursorEntries entries).getLast?.bind fun entry => (decodeCursor entry.2).toOption

variable {decodeRows decodeCursor}

/-- An iteration keeps its entry if it decodes. -/
theorem splitEntry_keptState {entries : List (String × V)} {entry : String × V}
    (h : EntryDecodes decodeRows decodeCursor entry) :
    splitEntry decodeRows decodeCursor (keptState decodeRows decodeCursor entries) entry =
      .ok (keptState decodeRows decodeCursor (entries ++ [entry])) := by
  unfold EntryDecodes at h
  by_cases hkey : entry.1 = "last"
  · rw [if_pos hkey] at h
    obtain ⟨last, hlast⟩ := h
    simp [splitEntry, keptState, pairEntries, cursorEntries, hkey, hlast, Except.toOption]
  · rw [if_neg hkey] at h
    obtain ⟨rows, hrows⟩ := h
    simp [splitEntry, keptState, pairEntries, cursorEntries, hkey, hrows, Except.toOption]

/-- Where every entry decodes, the loop keeps the last rows and the last cursor. -/
theorem loop_eq_keptState {entries : List (String × V)}
    (h : ∀ entry ∈ entries, EntryDecodes decodeRows decodeCursor entry) :
    entries.foldlM (splitEntry decodeRows decodeCursor) ⟨none, none, none⟩ =
      .ok (keptState decodeRows decodeCursor entries) := by
  -- From the end of the map: the last entry replaces what was kept of its kind.
  induction entries using List.reverseRecOn with
  | nil => rfl
  | append_singleton entries entry ih =>
    rw [List.foldlM_append, ih fun e he => h e (List.mem_append_left _ he)]
    show splitEntry decodeRows decodeCursor _ entry >>= pure = _
    rw [bind_pure, splitEntry_keptState (h entry (List.mem_append_right _ List.mem_cons_self))]

/-- An iteration goes on only if its entry decodes. -/
theorem entryDecodes_of_splitEntry {state state' : PairKeyed Row Cursor} {entry : String × V}
    (h : splitEntry decodeRows decodeCursor state entry = .ok state') :
    EntryDecodes decodeRows decodeCursor entry := by
  unfold splitEntry at h
  unfold EntryDecodes
  split at h
  · rename_i hkey
    rw [if_pos hkey]
    cases hlast : decodeCursor entry.2 with
    | error e =>
      rw [hlast] at h
      cases h
    | ok last => exact ⟨last, rfl⟩
  · rename_i hkey
    rw [if_neg hkey]
    cases hrows : decodeRows entry.2 with
    | error e =>
      rw [hrows] at h
      cases h
    | ok rows => exact ⟨rows, rfl⟩

/-- A loop that succeeds has decoded every entry. -/
theorem entryDecodes_of_loop {entries : List (String × V)} {state state' : PairKeyed Row Cursor}
    (h : entries.foldlM (splitEntry decodeRows decodeCursor) state = .ok state') :
    ∀ entry ∈ entries, EntryDecodes decodeRows decodeCursor entry := by
  induction entries generalizing state with
  | nil => exact List.forall_mem_nil _
  | cons entry entries ih =>
    rw [List.foldlM_cons] at h
    cases hstep : splitEntry decodeRows decodeCursor state entry with
    | error e =>
      rw [hstep] at h
      cases h
    | ok next =>
      rw [hstep] at h
      exact List.forall_mem_cons.mpr ⟨entryDecodes_of_splitEntry hstep, ih h⟩

/-- The value under a pair key decodes to rows. -/
theorem rows_of_mem_pairEntries {entries : List (String × V)}
    (h : ∀ entry ∈ entries, EntryDecodes decodeRows decodeCursor entry) {entry : String × V}
    (hmem : entry ∈ pairEntries entries) : ∃ rows, decodeRows entry.2 = .ok rows := by
  obtain ⟨hentry, hkey⟩ := List.mem_filter.mp hmem
  have hdecodes := h entry hentry
  unfold EntryDecodes at hdecodes
  rw [if_neg (of_decide_eq_true hkey)] at hdecodes
  exact hdecodes

/-- The value under the cursor's key decodes to a cursor. -/
theorem cursor_of_mem_cursorEntries {entries : List (String × V)}
    (h : ∀ entry ∈ entries, EntryDecodes decodeRows decodeCursor entry) {entry : String × V}
    (hmem : entry ∈ cursorEntries entries) :
    entry.1 = "last" ∧ ∃ last, decodeCursor entry.2 = .ok last := by
  obtain ⟨hentry, hkey⟩ := List.mem_filter.mp hmem
  have hdecodes := h entry hentry
  unfold EntryDecodes at hdecodes
  rw [if_pos (of_decide_eq_true hkey)] at hdecodes
  exact ⟨of_decide_eq_true hkey, hdecodes⟩

/-- The loop ends when all entries decode, and the last entry of each kind is returned. -/
theorem splitPairKeyed_eq_ok_iff {entries : List (String × V)} {pair : String} {rows : List Row}
    {last : Cursor} :
    splitPairKeyed decodeRows decodeCursor entries = .ok (pair, rows, last) ↔
      (∀ entry ∈ entries, EntryDecodes decodeRows decodeCursor entry) ∧
        (∃ v, (pairEntries entries).getLast? = some (pair, v) ∧ decodeRows v = .ok rows) ∧
        ∃ c, (cursorEntries entries).getLast? = some ("last", c) ∧ decodeCursor c = .ok last := by
  unfold splitPairKeyed
  constructor
  · intro h
    cases hloop : entries.foldlM (splitEntry decodeRows decodeCursor) ⟨none, none, none⟩ with
    | error e =>
      rw [hloop] at h
      cases h
    | ok state =>
      -- A loop that ends has decoded every entry, so what it kept is known.
      have hdecodes := entryDecodes_of_loop hloop
      refine ⟨hdecodes, ?_⟩
      rw [hloop] at h
      obtain rfl := Except.ok.inj (hloop.symm.trans (loop_eq_keptState hdecodes))
      replace h : finishSplit (keptState decodeRows decodeCursor entries) =
        .ok (pair, rows, last) := h
      unfold finishSplit keptState at h
      cases hpair : (pairEntries entries).getLast? with
      | none =>
        rw [hpair] at h
        cases h
      | some entry =>
        cases hcursor : (cursorEntries entries).getLast? with
        | none =>
          rw [hpair, hcursor] at h
          cases h
        | some entry' =>
          obtain ⟨k, v⟩ := entry
          obtain ⟨k', c⟩ := entry'
          obtain ⟨rows', hrows⟩ := rows_of_mem_pairEntries hdecodes (List.mem_of_getLast? hpair)
          obtain ⟨hkey, last', hlast⟩ :=
            cursor_of_mem_cursorEntries hdecodes (List.mem_of_getLast? hcursor)
          -- The empty rows that stand in for missing ones are never used.
          simp only [hpair, hcursor, hrows, hlast, Option.map_some, Option.bind_some,
            Except.toOption, Option.getD_some] at h
          obtain ⟨rfl, rfl, rfl⟩ : k = pair ∧ rows' = rows ∧ last' = last := by simpa using h
          obtain rfl : k' = "last" := hkey
          exact ⟨⟨v, rfl, hrows⟩, c, rfl, hlast⟩
  · rintro ⟨hdecodes, ⟨v, hpair, hrows⟩, c, hcursor, hlast⟩
    rw [loop_eq_keptState hdecodes]
    show finishSplit _ = _
    simp [finishSplit, keptState, hpair, hrows, hcursor, hlast, Except.toOption]

/-! ## One entry of each kind -/

/-- A list of at most one element is its last element. -/
theorem eq_singleton_of_getLast? {A : Type} {l : List A} {a : A} (h : l.getLast? = some a)
    (hlen : l.length ≤ 1) : l = [a] := by
  cases l with
  | nil => cases h
  | cons b l =>
    obtain rfl : l = [] := List.length_eq_zero_iff.mp (by simpa using hlen)
    cases h
    rfl

/-- Every entry of a well-formed object decodes. -/
theorem entryDecodes_of_isPairKeyed {entries : List (String × V)} {pair : String}
    {rows : List Row} {last : Cursor}
    (h : IsPairKeyed decodeRows decodeCursor entries pair rows last) :
    ∀ entry ∈ entries, EntryDecodes decodeRows decodeCursor entry := by
  obtain ⟨⟨v, hpair, hrows⟩, c, hcursor, hlast⟩ := h
  intro entry hentry
  unfold EntryDecodes
  by_cases hkey : entry.1 = "last"
  · have hmem : entry ∈ cursorEntries entries :=
      List.mem_filter.mpr ⟨hentry, decide_eq_true hkey⟩
    rw [hcursor, List.mem_singleton] at hmem
    rw [if_pos hkey, hmem]
    exact ⟨last, hlast⟩
  · have hmem : entry ∈ pairEntries entries := List.mem_filter.mpr ⟨hentry, decide_eq_true hkey⟩
    rw [hpair, List.mem_singleton] at hmem
    rw [if_neg hkey, hmem]
    exact ⟨rows, hrows⟩

/-- A map is split if and only if it has one pair and one cursor that decode, unless all of its
    entries decode and there is more than one of a kind. -/
theorem splitPairKeyed_iff (decodeRows : V → Except String (List Row))
    (decodeCursor : V → Except String Cursor) (entries : List (String × V)) :
    (∀ pair rows last, splitPairKeyed decodeRows decodeCursor entries = .ok (pair, rows, last) ↔
      IsPairKeyed decodeRows decodeCursor entries pair rows last) ↔
      ¬ Overwrites decodeRows decodeCursor entries := by
  constructor
  · rintro h ⟨hdecodes, hpairs, hcursors, hlen⟩
    have hpair := List.getLast?_eq_some_getLast hpairs
    have hcursor := List.getLast?_eq_some_getLast hcursors
    obtain ⟨rows, hrows⟩ := rows_of_mem_pairEntries hdecodes (List.mem_of_getLast? hpair)
    obtain ⟨hkey, last, hlast⟩ :=
      cursor_of_mem_cursorEntries hdecodes (List.mem_of_getLast? hcursor)
    -- the last pair is returned, so it would have to be the only one
    have hok := splitPairKeyed_eq_ok_iff.mpr ⟨hdecodes, ⟨_, hpair, hrows⟩, _,
      hcursor.trans (congrArg some (Prod.ext hkey rfl)), hlast⟩
    obtain ⟨⟨v, hone, -⟩, c, hone', -⟩ := (h _ _ _).mp hok
    rw [hone, hone'] at hlen
    exact hlen.elim (lt_irrefl 1) (lt_irrefl 1)
  · intro hover pair rows last
    constructor
    · intro hok
      obtain ⟨hdecodes, ⟨v, hpair, hrows⟩, c, hcursor, hlast⟩ := splitPairKeyed_eq_ok_iff.mp hok
      have hpairs : pairEntries entries ≠ [] := List.ne_nil_of_mem (List.mem_of_getLast? hpair)
      have hcursors : cursorEntries entries ≠ [] :=
        List.ne_nil_of_mem (List.mem_of_getLast? hcursor)
      have hlen : ¬ (1 < (pairEntries entries).length ∨ 1 < (cursorEntries entries).length) :=
        fun h => hover ⟨hdecodes, hpairs, hcursors, h⟩
      rw [not_or, not_lt, not_lt] at hlen
      exact ⟨⟨v, eq_singleton_of_getLast? hpair hlen.1, hrows⟩, c,
        eq_singleton_of_getLast? hcursor hlen.2, hlast⟩
    · intro hkeyed
      have hdecodes := entryDecodes_of_isPairKeyed hkeyed
      obtain ⟨⟨v, hpair, hrows⟩, c, hcursor, hlast⟩ := hkeyed
      exact splitPairKeyed_eq_ok_iff.mpr
        ⟨hdecodes, ⟨v, by rw [hpair]; rfl, hrows⟩, c, by rw [hcursor]; rfl, hlast⟩

end

/-! ## A concrete response -/

def candleJson (time : UInt64) : Value ℤ :=
  .array [.number (.posInt time), .string "4", .string "9", .string "2", .string "5",
    .string "5", .string "30", .number (.posInt 3)]

def exampleCandle (time : Int64) : KrakenCandle := ⟨time, "4", "9", "2", "5", "5", "30", 3⟩

/-- A response with the candles of two pairs. -/
def twoPairs : List (String × Value ℤ) :=
  [("XETHZUSD", .array [candleJson 60]), ("XXBTZUSD", .array [candleJson 120]),
    ("last", .number (.posInt 120))]

/-- The response passes for one of the second pair, and the candle of the first pair is lost. -/
theorem twoPairs_dropped :
    let invalid : Value ℤ → String := fun _ => "invalid type"
    let readCandles := readVec invalid (KrakenCandle.deserialize invalid)
    let readLast := readAs invalid Value.asI64
    KrakenOhlc.deserialize invalid (.object twoPairs) =
        .ok ⟨"XXBTZUSD", [exampleCandle 120], 120⟩ ∧
      readCandles (.array [candleJson 60]) = .ok [exampleCandle 60] ∧
      ¬ ∀ pair rows last, splitPairKeyed readCandles readLast twoPairs = .ok (pair, rows, last) ↔
        IsPairKeyed readCandles readLast twoPairs pair rows last := by
  intro invalid readCandles readLast
  refine ⟨rfl, rfl, fun h => ?_⟩
  obtain ⟨⟨v, hpair, -⟩, -⟩ := (h "XXBTZUSD" [exampleCandle 120] 120).mp rfl
  have hlen : (pairEntries twoPairs).length = 1 := congrArg List.length hpair
  exact absurd hlen (by decide)

end ExchangeApiws.Spec
