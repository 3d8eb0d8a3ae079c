import ExchangeApiws.ForStd.List
import ExchangeApiws.ForStd.UInt64
import ExchangeApiws.Spec.BookFeed

/-!
# The ids of chained messages

OKX and Crypto.com number their book messages and name in each the id of the previous one. The
connectors turn that into the first update that the message covers, one past the previous id.
The sum has a fixed width, and the largest id has no successor in it; OKX's ids are also signed,
and an id below `-1` has no unsigned successor.

## Key results

- `startsAtSuccessor_iff`: when the message of an entry starts one past the previous id
- `apply_gap_iff`: the book's own successors are exact, for any ids
- `sequence_ids_exact_iff`: which frames are read exactly, and that these hide no gap
-/

namespace ExchangeApiws.Native

/-- A conversion to `u64` keeps the value, and succeeds when there is one to keep. -/
theorem tryFromI64_eq_some {i : Int64} {u : UInt64} :
    tryFromI64 i = some u ↔ (u.toNat : ℤ) = i.toInt := by
  have hnonneg : 0 ≤ i ↔ 0 ≤ i.toInt := by rw [Int64.le_iff_toInt_le, Int64.toInt_zero]
  have hvalue : 0 ≤ i → (i.toUInt64.toNat : ℤ) = i.toInt := by
    intro hle
    rw [Int64.toNat_toUInt64_of_le hle, Int64.cast_toNatClampNeg i hle]
  unfold tryFromI64
  split
  · rename_i hle
    rw [Option.some_inj, ← UInt64.toNat_inj, ← hvalue hle]
    omega
  · rename_i hneg
    rw [hnonneg] at hneg
    exact ⟨nofun, fun h => by omega⟩

/-- The sum that OKX's previous id gives, when it fits. -/
theorem tryFromI64_add_one {p : Int64} {u : UInt64} :
    tryFromI64 (p + 1) = some u ↔ p.toInt ≠ 2 ^ 63 - 1 ∧ (u.toNat : ℤ) = p.toInt + 1 := by
  rw [tryFromI64_eq_some]
  have hlt := p.toInt_lt
  by_cases hmax : p.toInt = 2 ^ 63 - 1
  · -- the sum has wrapped and is negative
    rw [Int64.toInt_add_one_of_eq hmax]
    omega
  · rw [Int64.toInt_add_one_of_lt (by omega)]
    exact ⟨fun h => ⟨hmax, h⟩, fun h => h.2⟩

end ExchangeApiws.Native

namespace ExchangeApiws.Spec

open Native

variable {F : Type} [F64 F]

/-! ## Entries that name the previous id -/

/-- The connectors whose book entries name the id of the previous message. -/
inductive ChainedConnector where
  | okx
  | cryptocom
  deriving DecidableEq, Repr

def ChainedConnector.sequenced : ChainedConnector → SequencedConnector
  | .okx => .okx
  | .cryptocom => .cryptocom

/-- The id of the previous message, when the entry names one. -/
def ChainedConnector.previousId (entry : Value F) : ChainedConnector → Option ℤ
  | .okx => ((entry.get "prevSeqId").bind Value.asI64).map Int64.toInt
  | .cryptocom => ((entry.get "pu").bind Value.asU64).map fun pu => (pu.toNat : ℤ)

/-- The first update id that the connector gives the message of an entry. -/
def ChainedConnector.firstId (entry : Value F) : ChainedConnector → Option UInt64
  | .okx => (((entry.get "prevSeqId").bind Value.asI64).bind fun p => tryFromI64 (p + 1)).or
      (SequencedConnector.okx.entryId entry)
  | .cryptocom => (((entry.get "pu").bind Value.asU64).map (· + 1)).or
      (SequencedConnector.cryptocom.entryId entry)

/-- Whether the book entries of a frame are snapshots. -/
def ChainedConnector.isSnapshot (json : Value F) : ChainedConnector → Bool
  | .okx => json.strOr "action" "snapshot" == "snapshot"
  | .cryptocom =>
    ((json.get "result").map fun result => result.strOr "type" "update" == "snapshot").getD false

/-- The entries of a frame that carry book snapshots or deltas. -/
def ChainedConnector.bookEntries (json : Value F) : ChainedConnector → List (Value F)
  | .okx =>
    if (json.get "event").isNone ∧
        (((json.get "arg").bind (·.get "channel")).bind Value.asStr).getD "" = "books" then
      ((json.get "data").bind Value.asArray).getD []
    else []
  | .cryptocom =>
    if (json.get "method").bind Value.asStr ≠ some "public/heartbeat" then
      ((json.get "result").bind fun result =>
        if result.strOr "channel" "" = "book" then (result.get "data").bind Value.asArray
        else none).getD []
    else []

/-- The book entries of the text of a frame; none when it is not JSON. -/
def ChainedConnector.textEntries (conn : ChainedConnector) (fromStr : String → Result (Value F))
    (raw : String) : List (Value F) :=
  ((conn.sequenced.frameJson fromStr raw).map fun json => conn.bookEntries json).getD []

/-- The message starts one past the previous id, if the entry names one. -/
def StartsAtSuccessor (previous : Option ℤ) (msg : OrderBookData F F) : Prop :=
  ∀ p ∈ previous, ∃ first, msg.firstUpdateId = some first ∧ (first.toNat : ℤ) = p + 1

/-- The frame is rejected, or the message of every book entry starts one past the previous id. -/
def ChainedConnector.FrameExact (conn : ChainedConnector) (fromStr : String → Result (Value F))
    (now : Int64) (raw : String) : Prop :=
  ∀ msgs, conn.sequenced.parseMessage fromStr now raw = .ok msgs →
    List.Forall₂ (fun entry => StartsAtSuccessor (conn.previousId entry))
      (conn.textEntries fromStr raw) (msgs.filterMap DataMessage.asOrderBook)

/-- The previous id has a successor of the connector's width. -/
def ChainedConnector.HasSuccessor (entry : Value F) (conn : ChainedConnector) : Prop :=
  ∀ p ∈ conn.previousId entry, match conn with
    | .okx => -1 ≤ p ∧ p ≠ 2 ^ 63 - 1
    | .cryptocom => p ≠ 2 ^ 64 - 1

/-! ## How a frame is parsed -/

/-- The ids of the message of an entry. -/
structure IsChainedBook (conn : ChainedConnector) (isSnapshot : Bool) (entry : Value F)
    (msg : OrderBookData F F) : Prop where
  isSnapshot : msg.isSnapshot = isSnapshot
  firstUpdateId : msg.firstUpdateId = conn.firstId entry
  lastUpdateId : msg.lastUpdateId = conn.sequenced.entryId entry

/-- A trade of OKX is no book. -/
theorem Okx.asOrderBook_parseTrade {now : Int64} {t : Value F} {msg : DataMessage F}
    (h : Okx.parseTrade now t = some msg) : msg.asOrderBook = none := by
  simp only [Okx.parseTrade, Option.bind_eq_bind, Option.bind_eq_some_iff, Option.pure_def,
    Option.some_inj] at h
  obtain ⟨_, _, _, _, rfl⟩ := h
  rfl

/-- A ticker of OKX is no book. -/
theorem Okx.asOrderBook_parseTicker {now : Int64} {t : Value F} {msg : DataMessage F}
    (h : Okx.parseTicker now t = some msg) : msg.asOrderBook = none := by
  simp only [Okx.parseTicker, Option.bind_eq_bind, Option.bind_eq_some_iff, Option.pure_def,
    Option.some_inj] at h
  obtain ⟨_, _, _, _, rfl⟩ := h
  rfl

omit [F64 F] in
/-- A parser of rows that yields no book. -/
theorem filterMap_asOrderBook_eq_nil {f : Value F → Option (DataMessage F)}
    (h : ∀ {t msg}, f t = some msg → msg.asOrderBook = none) (data : List (Value F)) :
    (data.filterMap f).filterMap DataMessage.asOrderBook = [] := by
  rw [List.filterMap_eq_nil_iff]
  intro msg hmsg
  obtain ⟨t, -, ht⟩ := List.mem_filterMap.mp hmsg
  exact h ht

omit [F64 F] in
/-- A parser of all rows that yields no book. -/
theorem map_asOrderBook_eq_nil {f : Value F → DataMessage F}
    (h : ∀ t, (f t).asOrderBook = none) (data : List (Value F)) :
    (data.map f).filterMap DataMessage.asOrderBook = [] := by
  rw [List.filterMap_map, List.filterMap_eq_nil_iff]
  exact fun t _ => h t

/-- The book messages of an OKX frame are those of its book entries. -/
theorem Okx.asOrderBook_parseFrame (now : Int64) (json : Value F) :
    (Okx.parseFrame now json).filterMap DataMessage.asOrderBook =
      (ChainedConnector.okx.bookEntries json).map fun entry =>
        Okx.book now entry (ChainedConnector.okx.isSnapshot json) := by
  unfold Okx.parseFrame ChainedConnector.bookEntries
  by_cases hevent : (json.get "event").isSome = true
  · rw [if_pos hevent, if_neg (by simp [Option.isSome_iff_ne_none.mp hevent])]
    rfl
  rw [if_neg hevent]
  have hevent' : (json.get "event").isNone = true := by simpa using hevent
  cases hdata : (json.get "data").bind Value.asArray with
  | none =>
    simp only [Option.getD_none, ite_self]
    rfl
  | some data =>
    simp only [Option.getD_some, hevent', true_and]
    by_cases hbooks : (((json.get "arg").bind (·.get "channel")).bind Value.asStr).getD "" = "books"
    · simp only [hbooks, String.reduceEq, if_false, if_true, Okx.parseBook]
      exact asOrderBook_map _ data
    · -- the other channels yield no books
      rw [if_neg hbooks, if_neg hbooks]
      split
      · exact filterMap_asOrderBook_eq_nil Okx.asOrderBook_parseTrade data
      split
      · exact filterMap_asOrderBook_eq_nil Okx.asOrderBook_parseTicker data
      · rfl

/-- An OKX frame has a chained book for each of its entries. -/
theorem Okx.books_parseFrame (now : Int64) (json : Value F) :
    List.Forall₂ (IsChainedBook .okx (ChainedConnector.okx.isSnapshot json))
      (ChainedConnector.okx.bookEntries json)
      ((Okx.parseFrame now json).filterMap DataMessage.asOrderBook) := by
  rw [Okx.asOrderBook_parseFrame]
  exact forall₂_map (fun entry => ⟨rfl, rfl, rfl⟩) _

/-- The book messages of a Crypto.com frame are those of its book entries. -/
theorem Cryptocom.asOrderBook_parseFrame (now : Int64) (json : Value F) :
    (Cryptocom.parseFrame now json).filterMap DataMessage.asOrderBook =
      (ChainedConnector.cryptocom.bookEntries json).map fun entry =>
        Cryptocom.book now entry ((json.index "result").strOr "instrument_name" "")
          (ChainedConnector.cryptocom.isSnapshot json) := by
  unfold Cryptocom.parseFrame ChainedConnector.bookEntries
  -- a heartbeat parses to nothing, and the other channels to messages that are no books
  by_cases hbeat : (json.get "method").bind Value.asStr = some "public/heartbeat"
  · rw [if_pos hbeat, if_neg (not_not.mpr hbeat)]
    rfl
  rw [if_neg hbeat, if_pos hbeat]
  cases hresult : json.get "result" with
  | none => rfl
  | some result =>
    have hsnap : ChainedConnector.cryptocom.isSnapshot json =
        (result.strOr "type" "update" == "snapshot") := by
      rw [ChainedConnector.isSnapshot, hresult]
      rfl
    have hindex : json.index "result" = result := by
      rw [Value.index, hresult]
      rfl
    simp only [hsnap, hindex, Option.bind_some]
    cases hdata : (result.get "data").bind Value.asArray with
    | none =>
      simp only [ite_self, Option.getD_none]
      rfl
    | some data =>
      dsimp only
      by_cases hbooks : result.strOr "channel" "" = "book"
      · simp only [hbooks, String.reduceEq, if_false, if_true, Option.getD_some,
          Cryptocom.parseBooks]
        exact asOrderBook_map _ data
      · rw [if_neg hbooks, if_neg hbooks, Option.getD_none]
        split
        · exact map_asOrderBook_eq_nil (fun _ => rfl) data
        split
        · exact map_asOrderBook_eq_nil (fun _ => rfl) data
        split
        · exact map_asOrderBook_eq_nil (fun _ => rfl) data
        · rfl

/-- A Crypto.com frame has a chained book for each of its entries. -/
theorem Cryptocom.books_parseFrame (now : Int64) (json : Value F) :
    List.Forall₂ (IsChainedBook .cryptocom (ChainedConnector.cryptocom.isSnapshot json))
      (ChainedConnector.cryptocom.bookEntries json)
      ((Cryptocom.parseFrame now json).filterMap DataMessage.asOrderBook) := by
  rw [Cryptocom.asOrderBook_parseFrame]
  exact forall₂_map (fun entry => ⟨rfl, rfl, rfl⟩) _

/-- The book messages of a frame that is JSON are those of its book entries. -/
theorem ChainedConnector.books_parseMessage (conn : ChainedConnector)
    {fromStr : String → Result (Value F)} (now : Int64) {raw : String} {json : Value F}
    (hjson : conn.sequenced.frameJson fromStr raw = some json) :
    ∃ msgs, conn.sequenced.parseMessage fromStr now raw = .ok msgs ∧
      List.Forall₂ (IsChainedBook conn (conn.isSnapshot json)) (conn.bookEntries json)
        (msgs.filterMap DataMessage.asOrderBook) := by
  obtain ⟨hpong, hfrom⟩ := SequencedConnector.frameJson_eq_some hjson
  cases conn with
  | okx =>
    have hraw : raw ≠ "pong" := fun h => hpong ⟨rfl, h⟩
    refine ⟨Okx.parseFrame now json, ?_, Okx.books_parseFrame now json⟩
    rw [sequenced, SequencedConnector.parseMessage, Okx.parseMessage, if_neg hraw, hfrom]
    rfl
  | cryptocom =>
    refine ⟨Cryptocom.parseFrame now json, ?_, Cryptocom.books_parseFrame now json⟩
    rw [sequenced, SequencedConnector.parseMessage, Cryptocom.parseMessage, hfrom]
    rfl

/-- A frame that is not JSON yields nothing. -/
theorem ChainedConnector.parseMessage_of_not_json (conn : ChainedConnector)
    {fromStr : String → Result (Value F)} {now : Int64} {raw : String} {msgs : List (DataMessage F)}
    (hjson : conn.sequenced.frameJson fromStr raw = none)
    (hparse : conn.sequenced.parseMessage fromStr now raw = .ok msgs) : msgs = [] := by
  unfold SequencedConnector.frameJson at hjson
  split at hjson
  · rename_i hpong
    obtain ⟨hconn, hraw⟩ := hpong
    rw [hconn, SequencedConnector.parseMessage, Okx.parseMessage, if_pos hraw] at hparse
    cases hparse
    rfl
  rename_i hpong
  -- neither connector reads a text that does not parse
  cases hr : fromStr raw with
  | ok v => simp [hr, Except.toOption] at hjson
  | error e =>
    cases conn with
    | okx =>
      have hraw : raw ≠ "pong" := fun h => hpong ⟨rfl, h⟩
      rw [sequenced, SequencedConnector.parseMessage, Okx.parseMessage, if_neg hraw, hr] at hparse
      cases hparse
    | cryptocom =>
      rw [sequenced, SequencedConnector.parseMessage, Cryptocom.parseMessage, hr] at hparse
      cases hparse

/-! ## Successors -/

omit [F64 F] in
/-- The sum is exact when the previous id has a successor; otherwise the message starts
    elsewhere. -/
theorem startsAtSuccessor_iff {conn : ChainedConnector} {isSnapshot : Bool} {entry : Value F}
    {msg : OrderBookData F F} (h : IsChainedBook conn isSnapshot entry msg) :
    StartsAtSuccessor (conn.previousId entry) msg ↔ conn.HasSuccessor entry := by
  unfold StartsAtSuccessor
  rw [h.firstUpdateId]
  cases conn with
  | okx =>
    unfold ChainedConnector.HasSuccessor ChainedConnector.firstId ChainedConnector.previousId
    cases hprev : (entry.get "prevSeqId").bind Value.asI64 with
    | none => simp
    | some p =>
      simp only [Option.map_some, Option.mem_some_iff, forall_eq', Option.bind_some]
      have hlt := p.toInt_lt
      constructor
      · rintro ⟨first, hfirst, hsucc⟩
        cases hsum : tryFromI64 (p + 1) with
        | some u =>
          have hu := tryFromI64_add_one.mp hsum
          exact ⟨by omega, hu.1⟩
        | none =>
          -- the id of the entry itself is an `i64`, so it is no successor either
          rw [hsum, Option.none_or] at hfirst
          obtain ⟨i, -, hi⟩ := Option.bind_eq_some_iff.mp hfirst
          have hvalue := tryFromI64_eq_some.mp hi
          have hlt' := i.toInt_lt
          omega
      · rintro ⟨hle, hmax⟩
        have hsum : tryFromI64 (p + 1) = some (UInt64.ofNat (p.toInt + 1).toNat) := by
          rw [tryFromI64_add_one, UInt64.toNat_ofNat_of_lt' (by
            rw [UInt64.size]
            omega)]
          omega
        exact ⟨_, by rw [hsum, Option.some_or], (tryFromI64_add_one.mp hsum).2⟩
  | cryptocom =>
    unfold ChainedConnector.HasSuccessor ChainedConnector.firstId ChainedConnector.previousId
    cases hprev : (entry.get "pu").bind Value.asU64 with
    | none => simp
    | some p =>
      have hsucc := UInt64.toNat_add_one_iff (u := p)
      simp only [Option.map_some, Option.mem_some_iff, forall_eq', Option.some_or,
        Option.some_inj, exists_eq_left']
      omega

/-- The first ids of a frame are exact if and only if every entry has a successor id. -/
theorem ChainedConnector.frameExact_iff (conn : ChainedConnector)
    (fromStr : String → Result (Value F)) (now : Int64) (raw : String) :
    conn.FrameExact fromStr now raw ↔
      ∀ entry ∈ conn.textEntries fromStr raw, conn.HasSuccessor entry := by
  unfold FrameExact textEntries
  cases hjson : conn.sequenced.frameJson fromStr raw with
  | none =>
    constructor
    · intro _ entry hmem
      cases hmem
    · intro _ msgs hparse
      rw [conn.parseMessage_of_not_json hjson hparse]
      exact .nil
  | some json =>
    obtain ⟨msgs, hparse, hbooks⟩ := conn.books_parseMessage now hjson
    have hiff := hbooks.congr_forall startsAtSuccessor_iff
    simp only [Option.map_some, Option.getD_some]
    rw [← hiff]
    constructor
    · intro h
      exact h msgs hparse
    · intro h msgs' hparse'
      cases hparse.symm.trans hparse'
      exact h

/-! ## Gaps -/

/-- Both successors that `apply` computes are exact: a gap is a first id more than one past the
    id of the book, and it is reported as such. -/
theorem apply_gap_iff {P Q : Type*} [LinearOrder P] [Zero Q] [BEq Q] (book : LocalOrderBook P Q)
    (msg : OrderBookData P Q) (expected got : UInt64) :
    (book.apply msg).2 = .gap expected got ↔
      msg.isSnapshot = false ∧ book.synced = true ∧ ∃ prev last,
        book.lastUpdateId = some prev ∧ msg.lastUpdateId = some last ∧ prev < last ∧
        got = msg.firstUpdateId.getD last ∧ prev.toNat + 1 < got.toNat ∧
        expected.toNat = prev.toNat + 1 := by
  constructor
  · intro hgap
    have hout := book.apply_outcome msg
    generalize book.apply msg = r at hout hgap
    cases hout with
    | gap hsnap hsync hprev hlast hlt hfirst =>
      cases hgap
      have hsucc := LocalOrderBook.toNat_prev_add_one hlt
      rw [UInt64.lt_iff_toNat_lt, hsucc] at hfirst
      exact ⟨hsnap, hsync, _, _, hprev, hlast, hlt, rfl, hfirst, hsucc⟩
    | snapshot | awaiting | stale | delta | unchecked => cases hgap
  · rintro ⟨hsnap, hsync, prev, last, hprev, hlast, hlt, rfl, hfirst, hexpected⟩
    have hsucc := LocalOrderBook.toNat_prev_add_one hlt
    have hnext : prev + 1 < msg.firstUpdateId.getD last := by
      rwa [UInt64.lt_iff_toNat_lt, hsucc]
    obtain rfl : expected = prev + 1 := UInt64.toNat_inj.mp (hexpected.trans hsucc.symm)
    simp only [LocalOrderBook.apply, hsnap, hsync, hprev, hlast, if_neg (UInt64.not_le.mpr hlt),
      if_pos hnext]
    rfl

/-- A later entry loses the sync of a book exactly when the previous id that it names is one
    that the book has not seen. -/
def GapLaw (conn : ChainedConnector) (entry : Value F) (before after : LocalOrderBook F F) :
    Prop :=
  ∀ p ∈ conn.previousId entry, ∀ prev ∈ before.lastUpdateId,
    ∀ last ∈ conn.sequenced.entryId entry, before.synced = true → prev < last →
      (after.synced = false ↔ (prev.toNat : ℤ) < p)

/-- A delta is applied, dropped or refused as the id before it says. -/
theorem gapLaw_apply {conn : ChainedConnector} {entry : Value F} {msg : OrderBookData F F}
    (hmsg : IsChainedBook conn false entry msg) (hsucc : conn.HasSuccessor entry)
    (book : LocalOrderBook F F) : GapLaw conn entry book (book.apply msg).1 := by
  intro p hp prev hprev last hlast hsync hlt
  obtain ⟨first, hfirst, hvalue⟩ := (startsAtSuccessor_iff hmsg).mpr hsucc p hp
  have hprev' := LocalOrderBook.toNat_prev_add_one hlt
  -- the book and the entry both carry ids, so the ids are compared
  rw [LocalOrderBook.apply, if_neg (by simp [hmsg.isSnapshot]), if_neg (by simp [hsync]),
    Option.mem_def.mp hprev, hmsg.lastUpdateId, Option.mem_def.mp hlast]
  simp only [if_neg (UInt64.not_le.mpr hlt), hfirst, Option.getD_some]
  by_cases hgap : prev + 1 < first
  · rw [if_pos hgap]
    rw [UInt64.lt_iff_toNat_lt] at hgap
    exact ⟨fun _ => by omega, fun _ => rfl⟩
  · rw [if_neg hgap, LocalOrderBook.applyDelta_synced, hsync]
    rw [UInt64.lt_iff_toNat_lt] at hgap
    exact ⟨nofun, fun h => by omega⟩

/-- The entries of a delta frame, each with a successor, act on a book under the law. -/
theorem gapLaw_applyAll {conn : ChainedConnector} {entries : List (Value F)}
    {msgs : List (OrderBookData F F)} (h : List.Forall₂ (IsChainedBook conn false) entries msgs)
    (hsucc : ∀ entry ∈ entries, conn.HasSuccessor entry) (book : LocalOrderBook F F) :
    EntryByEntry (GapLaw conn) book entries (book.applyAll msgs) := by
  induction h generalizing book with
  | nil => exact .nil book
  | cons hmsg _ ih =>
    rw [List.forall_mem_cons] at hsucc
    exact .cons (gapLaw_apply hmsg hsucc.1 book) (ih hsucc.2 _)

/-- A frame is read exactly when every previous id in it has a successor of its width. The
    book's own sums are always exact, and after any frames such a frame loses the sync of the
    book when updates are missing and only then. -/
theorem sequence_ids_exact_iff (conn : ChainedConnector) (fromStr : String → Result (Value F)) :
    (∀ (now : Int64) (raw : String), conn.FrameExact fromStr now raw ↔
      ∀ entry ∈ conn.textEntries fromStr raw, conn.HasSuccessor entry) ∧
    (∀ (book : LocalOrderBook F F) (msg : OrderBookData F F) (expected got : UInt64),
      (book.apply msg).2 = .gap expected got ↔
        msg.isSnapshot = false ∧ book.synced = true ∧ ∃ prev last,
          book.lastUpdateId = some prev ∧ msg.lastUpdateId = some last ∧ prev < last ∧
          got = msg.firstUpdateId.getD last ∧ prev.toNat + 1 < got.toNat ∧
          expected.toNat = prev.toNat + 1) ∧
    ∀ (frames : List (Int64 × String)) (frame : Int64 × String) (json : Value F),
      conn.sequenced.frameJson fromStr frame.2 = some json → conn.isSnapshot json = false →
      (∀ entry ∈ conn.textEntries fromStr frame.2, conn.HasSuccessor entry) →
      EntryByEntry (GapLaw conn) (feed conn.sequenced fromStr frames)
        (conn.textEntries fromStr frame.2) (feed conn.sequenced fromStr (frames ++ [frame])) := by
  refine ⟨conn.frameExact_iff fromStr, apply_gap_iff, ?_⟩
  intro frames frame json hjson hdelta hsucc
  obtain ⟨msgs, hparse, hbooks⟩ := conn.books_parseMessage frame.1 hjson
  have hentries : conn.textEntries fromStr frame.2 = conn.bookEntries json := by
    rw [ChainedConnector.textEntries, hjson]
    rfl
  rw [hentries] at hsucc ⊢
  rw [hdelta] at hbooks
  -- the books of the frame are applied one by one to the book so far
  have hfeed : feed conn.sequenced fromStr (frames ++ [frame]) =
      (feed conn.sequenced fromStr frames).applyAll (msgs.filterMap DataMessage.asOrderBook) := by
    rw [feed, List.foldl_append, List.foldl_cons, List.foldl_nil, feedFrame, hparse]
    rfl
  rw [hfeed]
  exact gapLaw_applyAll hbooks hsucc _

/-! ### Crypto.com frames -/

/-- A book entry without rows, with its id and the previous one. -/
def cryptocomEntry (u pu : UInt64) : Value ℤ :=
  .object [("u", .number (.posInt u)), ("pu", .number (.posInt pu))]

def cryptocomFrame (type : String) (entry : Value ℤ) : Value ℤ :=
  .object [("result", .object [("channel", .string "book"), ("type", .string type),
    ("data", .array [entry])])]

def bookText (type u pu : String) : String :=
  "\x7b\"result\":\x7b\"channel\":\"book\",\"type\":\"" ++ type ++ "\",\"data\":[\x7b\"u\":" ++ u ++
    ",\"pu\":" ++ pu ++ "\x7d]\x7d\x7d"

def bookSnapshotText : String := bookText "snapshot" "5" "4"

def bookDeltaText : String := bookText "update" "9" "7"

def largestIdText : String := bookText "update" "9" "18446744073709551615"

/-- `serde_json::from_str` on the three texts. -/
def cryptocomFromStr (raw : String) : Result (Value ℤ) :=
  if raw = bookSnapshotText then .ok (cryptocomFrame "snapshot" (cryptocomEntry 5 4))
  else if raw = bookDeltaText then .ok (cryptocomFrame "update" (cryptocomEntry 9 7))
  else if raw = largestIdText then
    .ok (cryptocomFrame "update" (cryptocomEntry 9 18446744073709551615))
  else .error (.json "expected value")

/-- A frame that follows id 7 loses the sync of a book at id 5. -/
theorem sequence_ids_exact_delta :
    EntryByEntry (GapLaw .cryptocom) (feed .cryptocom cryptocomFromStr [(0, bookSnapshotText)])
      [cryptocomEntry 9 7]
      (feed .cryptocom cryptocomFromStr [(0, bookSnapshotText), (1, bookDeltaText)]) := by
  refine (sequence_ids_exact_iff .cryptocom cryptocomFromStr).2.2 [(0, bookSnapshotText)]
    (1, bookDeltaText) (cryptocomFrame "update" (cryptocomEntry 9 7)) rfl rfl ?_
  intro entry hmem p hp
  obtain rfl := List.mem_singleton.mp hmem
  obtain rfl := Option.mem_some_iff.mp hp
  decide

/-- The successor of the largest id wraps: the frame is not rejected, its message starts at
    zero, and a book at id 5 takes it for the next one. -/
theorem not_sequence_ids_exact :
    ¬ ChainedConnector.cryptocom.FrameExact cryptocomFromStr 1 largestIdText ∧
    (feed .cryptocom cryptocomFromStr [(0, bookSnapshotText)]).lastUpdateId = some 5 ∧
    (feed .cryptocom cryptocomFromStr [(0, bookSnapshotText), (1, largestIdText)]).isSynced = true ∧
    (feed .cryptocom cryptocomFromStr [(0, bookSnapshotText), (1, largestIdText)]).lastUpdateId =
      some 9 := by
  refine ⟨?_, by decide, by decide, by decide⟩
  intro h
  have hbooks := h _ rfl
  rw [show ChainedConnector.cryptocom.textEntries cryptocomFromStr largestIdText =
    [cryptocomEntry 9 18446744073709551615] from rfl] at hbooks
  obtain ⟨first, hfirst, hsucc⟩ := (List.forall₂_cons.mp hbooks).1 18446744073709551615 rfl
  obtain rfl : 0 = first := Option.some.inj hfirst
  cases hsucc

end ExchangeApiws.Spec
