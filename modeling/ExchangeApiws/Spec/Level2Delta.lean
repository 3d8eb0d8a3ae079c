import ExchangeApiws.Native.KucoinWs
import ExchangeApiws.Spec.BookFeed

/-!
# KuCoin level 2 deltas

A change is the text `price,side,qty`. Each part that is missing or does not parse has a default
of its own: no price skips the change, no side is a sale, any side other than `sell` is a
purchase, and no quantity is zero, which removes a level of the book. So some texts that are not
of that form still become a delta, and a book applies it.

## Key results

- `splitn_three`: the parts of a change
- `isChange_iff`: the form of a change, by its parts
- `level2_delta_exact_iff`: which data objects are read exactly, and leave books alone when
  they are malformed
-/

namespace ExchangeApiws.Native.KucoinWs

/-! ## Splitting a text -/

/-- A text without the separator is its one part. -/
theorem splitn_of_not_mem {sep : Char} {s : String} (h : sep ∉ s.toList) (n : ℕ) :
    splitn (n + 1) sep s = [s] := by
  cases n with
  | zero => rfl
  | succ n =>
    have hdrop : s.toList.dropWhile (· ≠ sep) = [] := by
      rw [List.dropWhile_eq_nil_iff]
      intro c hc
      exact decide_eq_true fun heq => h (heq ▸ hc)
    rw [splitn, hdrop]

/-- The text before the first separator is the first part. -/
theorem splitn_append {sep : Char} {p : String} (hp : sep ∉ p.toList) (n : ℕ) (rest : String) :
    splitn (n + 2) sep (p ++ String.singleton sep ++ rest) = p :: splitn (n + 1) sep rest := by
  have hall : ∀ c ∈ p.toList, (decide (c ≠ sep)) = true :=
    fun c hc => decide_eq_true fun heq => hp (heq ▸ hc)
  have hlist : (p ++ String.singleton sep ++ rest).toList = p.toList ++ sep :: rest.toList := by
    simp
  have hdrop : (p.toList ++ sep :: rest.toList).dropWhile (· ≠ sep) = sep :: rest.toList := by
    rw [List.dropWhile_append_of_pos hall]
    simp
  have htake : (p.toList ++ sep :: rest.toList).takeWhile (· ≠ sep) = p.toList := by
    rw [List.takeWhile_append_of_pos hall]
    simp
  rw [splitn, hlist, hdrop, htake]
  simp only [String.ofList_toList]

/-- A text with a separator has a first one. -/
theorem exists_first_sep {sep : Char} {s : String} (h : sep ∈ s.toList) :
    ∃ p rest, sep ∉ p.toList ∧ s = p ++ String.singleton sep ++ rest := by
  obtain ⟨before, after, hs, hbefore⟩ := List.eq_append_cons_of_mem h
  refine ⟨String.ofList before, String.ofList after, by rwa [String.toList_ofList], ?_⟩
  rw [← String.toList_inj, hs]
  simp

/-- A text of three parts or more is split at its first two separators. -/
theorem splitn_three {sep : Char} {s p d q : String} :
    splitn 3 sep s = [p, d, q] ↔
      s = p ++ String.singleton sep ++ (d ++ String.singleton sep ++ q) ∧
        sep ∉ p.toList ∧ sep ∉ d.toList := by
  constructor
  · intro hsplit
    by_cases hs : sep ∈ s.toList
    · obtain ⟨p', rest, hp', rfl⟩ := exists_first_sep hs
      rw [splitn_append hp'] at hsplit
      obtain ⟨rfl, hrest⟩ := List.cons.inj hsplit
      by_cases hsep : sep ∈ rest.toList
      · obtain ⟨d', q', hd', rfl⟩ := exists_first_sep hsep
        rw [splitn_append hd'] at hrest
        obtain ⟨rfl, hq⟩ := List.cons.inj hrest
        obtain ⟨rfl, -⟩ := List.cons.inj hq
        exact ⟨rfl, hp', hd'⟩
      · rw [splitn_of_not_mem hsep] at hrest
        cases hrest
    · rw [splitn_of_not_mem hs] at hsplit
      cases hsplit
  · rintro ⟨rfl, hp, hd⟩
    rw [splitn_append hp, splitn_append hd]
    rfl

/-- There are never more than `n` parts. -/
theorem length_splitn_le (n : ℕ) (sep : Char) (s : String) : (splitn n sep s).length ≤ n := by
  induction n, sep, s using splitn.induct with
  | case1 => exact Nat.zero_le _
  | case2 => exact le_refl _
  | case3 n sep s hdrop =>
    rw [splitn, hdrop]
    exact Nat.succ_le_succ (Nat.zero_le _)
  | case4 n sep s c rest hdrop ih =>
    rw [splitn, hdrop]
    exact Nat.succ_le_succ ih

end ExchangeApiws.Native.KucoinWs

namespace ExchangeApiws.Spec

open Native Native.KucoinWs

variable {F : Type} [F64 F]

/-! ## The form of a change -/

/-- The side that the middle part of a change names. -/
def sideNamed (d : String) : Option BookSide :=
  if eqIgnoreAsciiCase d "sell" then some .ask
  else if eqIgnoreAsciiCase d "buy" then some .bid
  else none

/-- The change of a data object is `price,side,qty`: a price that is a number other than zero,
    a side that is `buy` or `sell`, and a quantity that is a number. -/
def IsChange (data : Value F) (side : BookSide) (price qty : F) : Prop :=
  ∃ p d q : String, (data.index "change").asStr = some (p ++ "," ++ (d ++ "," ++ q)) ∧
    ',' ∉ p.toList ∧ ',' ∉ d.toList ∧ F64.parse p = some price ∧ (price == 0) = false ∧
    sideNamed d = some side ∧ F64.parse q = some qty

/-- The parts of the change of a data object. -/
def changeParts (data : Value F) : List String :=
  splitn 3 ',' ((data.index "change").asStr.getD "")

/-- The form of a change, by its parts. -/
theorem isChange_iff {data : Value F} {side : BookSide} {price qty : F} :
    IsChange data side price qty ↔
      (changeParts data)[0]?.bind F64.parse = some price ∧ (price == 0) = false ∧
        (changeParts data)[1]?.bind sideNamed = some side ∧
        (changeParts data)[2]?.bind F64.parse = some qty := by
  constructor
  · rintro ⟨p, d, q, hchange, hp, hd, hprice, hzero, hside, hqty⟩
    have hparts : changeParts data = [p, d, q] := by
      rw [changeParts, hchange, Option.getD_some]
      exact splitn_three.mpr ⟨rfl, hp, hd⟩
    rw [hparts]
    exact ⟨hprice, hzero, hside, hqty⟩
  · rintro ⟨hprice, hzero, hside, hqty⟩
    -- there is a third part, so there are exactly three
    have hthree : ∃ p d q, changeParts data = [p, d, q] := by
      have hle := length_splitn_le 3 ',' ((data.index "change").asStr.getD "")
      rw [← changeParts] at hle
      match hparts : changeParts data with
      | [] | [_] | [_, _] => simp [hparts] at hqty
      | [p, d, q] => exact ⟨p, d, q, rfl⟩
      | _ :: _ :: _ :: _ :: _ =>
        simp only [hparts, List.length_cons] at hle
        omega
    obtain ⟨p, d, q, hparts⟩ := hthree
    rw [hparts] at hprice hside hqty
    obtain ⟨hchange, hp, hd⟩ := splitn_three.mp hparts
    refine ⟨p, d, q, ?_, hp, hd, hprice, hzero, hside, hqty⟩
    cases hstr : (data.index "change").asStr with
    | some change =>
      rw [hstr] at hchange
      exact congrArg some hchange
    | none =>
      -- an empty text has no separator
      rw [changeParts, hstr] at hparts
      cases hparts

/-! ## What the connector makes of it -/

/-- The rows of a message on one side. -/
def rowsOn (msg : OrderBookData F F) : BookSide → List (F × F)
  | .bid => msg.bids
  | .ask => msg.asks

/-- The side that the connector reads. -/
def sideRead (parts : List String) : BookSide :=
  if eqIgnoreAsciiCase (parts[1]?.getD "sell") "sell" then .ask else .bid

/-- A change without a price, or with price zero, is skipped. -/
theorem parseLevel2Delta_eq_nil (hzero : ((0 : F) == 0) = true) {data : Value F}
    (hprice : ∀ price : F, (changeParts data)[0]?.bind F64.parse = some price → (price == 0) = true)
    (now : Int64) (symbol exchange : String) :
    parseLevel2Delta now symbol exchange data = [] := by
  have hskip : (((changeParts data)[0]?.bind F64.parse).getD 0 == (0 : F)) = true := by
    cases h : (changeParts data)[0]?.bind (F64.parse : String → Option F) with
    | none => exact hzero
    | some price => exact hprice price h
  exact if_pos hskip

/-- Any other change becomes a delta of one row. -/
theorem parseLevel2Delta_eq_delta {data : Value F} {price : F}
    (hprice : (changeParts data)[0]?.bind F64.parse = some price) (hnonzero : (price == 0) = false)
    (now : Int64) (symbol exchange : String) :
    ∃ msg, parseLevel2Delta now symbol exchange data = [.orderBook msg] ∧
      msg.isSnapshot = false ∧ msg.lastUpdateId = (data.index "sequence").asU64 ∧
      ∀ side, rowsOn msg side = if side = sideRead (changeParts data) then
        [(price, ((changeParts data)[2]?.bind F64.parse).getD 0)] else [] := by
  have hread : ¬ ((((changeParts data)[0]?.bind F64.parse).getD 0 == (0 : F)) = true) := by
    rw [hprice, Option.getD_some, hnonzero]
    exact Bool.false_ne_true
  refine ⟨_, if_neg hread, rfl, rfl, fun side => ?_⟩
  unfold sideRead
  rw [← changeParts, hprice, Option.getD_some]
  by_cases hsell : eqIgnoreAsciiCase ((changeParts data)[1]?.getD "sell") "sell" = true
  · cases side <;> simp [rowsOn, hsell]
  · cases side <;> simp [rowsOn, hsell]

/-- The side named is the side read. -/
theorem sideRead_eq {parts : List String} {side : BookSide}
    (h : parts[1]?.bind sideNamed = some side) : sideRead parts = side := by
  obtain ⟨d, hd, hside⟩ := Option.bind_eq_some_iff.mp h
  unfold sideNamed at hside
  rw [sideRead, hd, Option.getD_some]
  split at hside
  · rename_i hsell
    rw [if_pos hsell]
    exact Option.some.inj hside
  · rename_i hsell
    rw [if_neg hsell]
    split at hside
    · exact Option.some.inj hside
    · cases hside

/-- The connector yields a delta exactly for the data objects of the form, with their row on
    their side. -/
structure ReadsExactly (now : Int64) (symbol exchange : String) (data : Value F) : Prop where
  row : ∀ side price qty, IsChange data side price qty →
    ∃ msg, parseLevel2Delta now symbol exchange data = [.orderBook msg] ∧
      msg.isSnapshot = false ∧
      ∀ side', rowsOn msg side' = if side' = side then [(price, qty)] else []
  form : parseLevel2Delta now symbol exchange data ≠ [] →
    ∃ side price qty, IsChange data side price qty

/-- A data object that is not of the form leaves the levels and the id of every synced book. -/
def LeavesBooks (now : Int64) (symbol exchange : String) (data : Value F) : Prop :=
  (¬ ∃ side price qty, IsChange data side price qty) →
    ∀ book : LocalOrderBook F F, book.synced = true →
      SameBook book (book.applyAll ((parseLevel2Delta now symbol exchange data).filterMap
        DataMessage.asOrderBook))

/-- A change with a price other than zero also has a side that is `buy` or `sell` and a quantity
    that is a number. -/
def SideAndQtyFollow (data : Value F) : Prop :=
  ∀ price : F, (changeParts data)[0]?.bind F64.parse = some price → (price == 0) = false →
    ((changeParts data)[1]?.bind sideNamed).isSome = true ∧
      ((changeParts data)[2]?.bind (F64.parse : String → Option F)).isSome = true

/-- A well-formed change is read as one delta with the row on its side. -/
theorem readsExactly_row {data : Value F} {side : BookSide} {price qty : F}
    (h : IsChange data side price qty) (now : Int64) (symbol exchange : String) :
    ∃ msg, parseLevel2Delta now symbol exchange data = [.orderBook msg] ∧
      msg.isSnapshot = false ∧
      ∀ side', rowsOn msg side' = if side' = side then [(price, qty)] else [] := by
  obtain ⟨hprice, hnonzero, hside, hqty⟩ := isChange_iff.mp h
  obtain ⟨msg, hparse, hsnap, -, hrows⟩ :=
    parseLevel2Delta_eq_delta hprice hnonzero now symbol exchange
  refine ⟨msg, hparse, hsnap, fun side' => ?_⟩
  rw [hrows, sideRead_eq hside, hqty, Option.getD_some]

/-- Under the condition, a change with a price is of the form. -/
theorem SideAndQtyFollow.isChange {data : Value F} {price : F} (h : SideAndQtyFollow data)
    (hprice : (changeParts data)[0]?.bind F64.parse = some price)
    (hnonzero : (price == 0) = false) : ∃ side price qty, IsChange data side price qty := by
  obtain ⟨hside, hqty⟩ := h price hprice hnonzero
  obtain ⟨side, hside⟩ := Option.isSome_iff_exists.mp hside
  obtain ⟨qty, hqty⟩ := Option.isSome_iff_exists.mp hqty
  exact ⟨side, price, qty, isChange_iff.mpr ⟨hprice, hnonzero, hside, hqty⟩⟩

/-- So a data object that is not of the form is skipped. -/
theorem SideAndQtyFollow.eq_nil (hzero : ((0 : F) == 0) = true) {data : Value F}
    (h : SideAndQtyFollow data) (hform : ¬ ∃ side price qty, IsChange data side price qty)
    (now : Int64) (symbol exchange : String) :
    parseLevel2Delta now symbol exchange data = [] := by
  refine parseLevel2Delta_eq_nil hzero (fun price hprice => ?_) now symbol exchange
  by_contra hnonzero
  exact hform (h.isChange hprice (Bool.not_eq_true _ ▸ hnonzero))

/-! ## What a book makes of it -/

/-- The books after a delta of one row assign that row. -/
theorem levels_applyDelta_row (book : LocalOrderBook F F) {msg : OrderBookData F F}
    {side : BookSide} {price qty : F}
    (hrows : ∀ side', rowsOn msg side' = if side' = side then [(price, qty)] else []) :
    levels (book.applyDelta msg) = Function.update (levels book) (side, price) (levelOf qty) := by
  have hbids : msg.bids = _ := hrows .bid
  have hasks : msg.asks = _ := hrows .ask
  rw [levels_applyDelta, rows, hbids, hasks]
  cases side <;> rfl

/-- Some synced book has another content at the level that a row sets. -/
theorem exists_book_differs (side : BookSide) (price qty : F) :
    ∃ book : LocalOrderBook F F, book.synced = true ∧ book.lastUpdateId = none ∧
      levels book (side, price) ≠ levelOf qty := by
  cases hqty : levelOf qty with
  | some q =>
    let empty : LocalOrderBook F F :=
      { (LocalOrderBook.new : LocalOrderBook F F) with synced := true }
    have hempty : levels empty (side, price) = none :=
      congrFun (levels_new (P := F) (Q := F)) (side, price)
    exact ⟨empty, rfl, rfl, by rw [hempty]; exact nofun⟩
  | none =>
    -- the row removes the level, so both sides have it
    let full : LocalOrderBook F F := { (LocalOrderBook.new : LocalOrderBook F F) with
      bids := Std.ExtTreeMap.insert ∅ price price
      asks := Std.ExtTreeMap.insert ∅ price price
      synced := true }
    have hfull : levels full (side, price) = some price := by
      cases side <;> exact Std.ExtTreeMap.getElem?_insert_self
    exact ⟨full, rfl, rfl, by rw [hfull]; exact nofun⟩

/-- A delta is read exactly, and malformed ones leave every synced book alone, exactly when a
    change with a price other than zero always has a side and a quantity. -/
theorem level2_delta_exact_iff (hzero : ((0 : F) == 0) = true) (now : Int64)
    (symbol exchange : String) (data : Value F) :
    (ReadsExactly now symbol exchange data ↔ SideAndQtyFollow data) ∧
      (LeavesBooks now symbol exchange data ↔ SideAndQtyFollow data) := by
  refine ⟨⟨?_, ?_⟩, ?_, ?_⟩
  · intro h price hprice hnonzero
    obtain ⟨msg, hparse, -⟩ := parseLevel2Delta_eq_delta hprice hnonzero now symbol exchange
    obtain ⟨side, price', qty, hchange⟩ := h.form (by rw [hparse]; exact nofun)
    obtain ⟨-, -, hside, hqty⟩ := isChange_iff.mp hchange
    rw [hside, hqty]
    exact ⟨rfl, rfl⟩
  · intro h
    refine ⟨fun side price qty hchange => readsExactly_row hchange now symbol exchange, ?_⟩
    intro hdelta
    by_contra hform
    exact hdelta (h.eq_nil hzero hform now symbol exchange)
  · intro h price hprice hnonzero
    by_contra hparts
    -- a change without a side or a quantity is malformed, and still sets a level
    have hform : ¬ ∃ side price qty, IsChange data side price qty := by
      rintro ⟨side, price', qty, hchange⟩
      obtain ⟨-, -, hside, hqty⟩ := isChange_iff.mp hchange
      rw [hside, hqty] at hparts
      exact hparts ⟨rfl, rfl⟩
    obtain ⟨msg, hparse, hsnap, -, hrows⟩ :=
      parseLevel2Delta_eq_delta hprice hnonzero now symbol exchange
    obtain ⟨book, hsync, hid, hdiffers⟩ := exists_book_differs
      (sideRead (changeParts data)) price (((changeParts data)[2]?.bind F64.parse).getD 0)
    have hsame := (h hform book hsync).1
    have happly : book.apply msg = (book.applyDelta msg, .delta) := by
      simp only [LocalOrderBook.apply, hsnap, hsync, hid]
      rfl
    have happlied : levels (book.applyDelta msg) = levels book := by
      rw [hparse] at hsame
      simpa only [List.filterMap_cons, List.filterMap_nil, DataMessage.asOrderBook,
        LocalOrderBook.applyAll, List.foldl_cons, List.foldl_nil, happly] using hsame
    rw [levels_applyDelta_row book hrows] at happlied
    refine hdiffers ?_
    rw [← happlied, Function.update_self]
  · intro h hform book _
    rw [h.eq_nil hzero hform now symbol exchange]
    exact ⟨rfl, rfl⟩

/-! ### Changes without a quantity -/

/-- A data object with a change and a sequence number. -/
def level2Data (change : String) : Value ℤ :=
  .object [("change", .string change), ("sequence", .number (.posInt 8))]

/-- The change of the example is read exactly, and books are left as they should be. -/
theorem level2_delta_exact_sell :
    ReadsExactly 0 "XBTUSDTM" "kucoin" (level2Data "100,sell,7") ∧
      LeavesBooks 0 "XBTUSDTM" "kucoin" (level2Data "100,sell,7") := by
  have hparts : changeParts (level2Data "100,sell,7") = ["100", "sell", "7"] := by decide
  have hfollow : SideAndQtyFollow (level2Data "100,sell,7") := by
    intro price _ _
    rw [hparts]
    decide
  obtain ⟨hreads, hleaves⟩ := level2_delta_exact_iff (F := ℤ) (by decide) 0 "XBTUSDTM" "kucoin"
    (level2Data "100,sell,7")
  exact ⟨hreads.mpr hfollow, hleaves.mpr hfollow⟩

/-- The best bid of a book, with the sequence number before the one of the data objects. -/
def level2Snapshot : OrderBookData ℤ ℤ where
  symbol := "XBTUSDTM"
  exchange := "kucoin"
  asks := [(101, 3)]
  bids := [(100, 5)]
  exchangeTs := 0
  receiptTs := 0
  isSnapshot := true
  firstUpdateId := some 7
  lastUpdateId := some 7

/-- A change without a quantity removes the level of its price and advances the id, and a side
    that is neither `buy` nor `sell` is a purchase. -/
theorem not_level2_delta_exact :
    (¬ ∃ side price qty, IsChange (level2Data "100,buy") side price qty) ∧
    (let book := (LocalOrderBook.new : LocalOrderBook ℤ ℤ).applyAll [level2Snapshot]
     let after := book.applyAll ((parseLevel2Delta 0 "XBTUSDTM" "kucoin"
       (level2Data "100,buy")).filterMap DataMessage.asOrderBook)
     book.synced = true ∧ levels book (.bid, 100) = some 5 ∧ book.lastUpdateId = some 7 ∧
       levels after (.bid, 100) = none ∧ after.lastUpdateId = some 8) ∧
    (¬ ∃ side price qty, IsChange (level2Data "99,hold,4") side price qty) ∧
    ∃ msg, parseLevel2Delta 0 "XBTUSDTM" "kucoin" (level2Data "99,hold,4") = [.orderBook msg] ∧
      msg.bids = [(99, 4)] := by
  have hbuy : changeParts (level2Data "100,buy") = ["100", "buy"] := by decide
  have hhold : changeParts (level2Data "99,hold,4") = ["99", "hold", "4"] := by decide
  refine ⟨?_, ⟨by decide, by decide, by decide, by decide, by decide⟩, ?_, _, rfl, by decide⟩
  · rintro ⟨side, price, qty, hchange⟩
    obtain ⟨-, -, -, hqty⟩ := isChange_iff.mp hchange
    rw [hbuy] at hqty
    cases hqty
  · rintro ⟨side, price, qty, hchange⟩
    obtain ⟨-, -, hside, -⟩ := isChange_iff.mp hchange
    rw [hhold] at hside
    revert hside
    cases side <;> decide

end ExchangeApiws.Spec
