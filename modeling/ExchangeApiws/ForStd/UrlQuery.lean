import ExchangeApiws.ForStd.PercentEncoding
import Mathlib.Data.List.DropRight

/-!
# The query of a URL

What a URL parser takes from the text of a URL as its query. Spaces and control characters at
the end are trimmed, tabs and line breaks are removed, a `#` ends the query, and the characters
that a query cannot hold are escaped. The file says which values survive this and the reading
of the parameters when they are put behind `name=` as they are.

## Key results

- `decode_escapeChars`: the parser's own escapes change nothing for the reader
- `query_append`: the query of a URL whose end is put in as it is
- `parse_raw_iff`: the values that are read back from such a query
-/

namespace UrlQuery

open PercentEncoding

/-! ## The URL parser -/

def isControlOrSpace (c : Char) : Bool := c.toNat ≤ 0x20

def isTabOrNewline (c : Char) : Bool := c == '\t' || c == '\n' || c == '\r'

/-- What is left of the end of a URL: trimmed, without tabs and line breaks, and up to the
    fragment. -/
def tidy (cs : List Char) : List Char :=
  ((cs.rdropWhile isControlOrSpace).filter (!isTabOrNewline ·)).takeWhile (· ≠ '#')

/-- The characters that are escaped in a query. -/
def isEscaped (c : Char) : Bool :=
  isControlOrSpace c || 0x7E < c.toNat || c == '"' || c == '#' || c == '<' || c == '>' || c == '\''

def escapeChar (c : Char) : List Char :=
  if isEscaped c then (String.utf8EncodeChar c).flatMap escapeByte else [c]

/-- The query of a URL: what is behind the first `?`. -/
def query (url : List Char) : List Char :=
  ((tidy url).dropWhile (· ≠ '?')).tail.flatMap escapeChar

/-! ## The parser's escapes -/

variable {plus : Bool}

/-- A character outside the escape set is left alone. -/
theorem escapeChar_of_not {c : Char} (h : isEscaped c = false) : escapeChar c = [c] := by
  rw [escapeChar, h]
  rfl

/-- A hexadecimal digit in the escaped text was there before. -/
theorem escapeChars_eq_cons {cs : List Char} {d : Char} {ds : List Char}
    (h : cs.flatMap escapeChar = d :: ds) (hd : (hexValue? d).isSome) :
    ∃ cs', cs = d :: cs' ∧ cs'.flatMap escapeChar = ds := by
  cases cs with
  | nil => simp at h
  | cons c cs =>
    rw [List.flatMap_cons] at h
    cases hc : isEscaped c with
    | false =>
      rw [escapeChar_of_not hc, List.singleton_append] at h
      obtain ⟨rfl, hds⟩ := List.cons.inj h
      exact ⟨cs, rfl, hds⟩
    | true =>
      -- an escaped character begins with `%`
      rw [escapeChar, hc, if_pos rfl] at h
      obtain ⟨b, bytes, hbytes⟩ :=
        List.exists_cons_of_ne_nil (String.utf8EncodeChar_ne_nil (c := c))
      rw [hbytes] at h
      obtain ⟨rfl, -⟩ := List.cons.inj h
      exact absurd hd (by decide)

/-- An escaped character decodes as the character does. -/
theorem decode_escapeChar {c : Char} (hc : c ≠ '%') (ds : List Char) :
    decode plus (escapeChar c ++ ds) = decodeChar plus c ++ decode plus ds := by
  cases hesc : isEscaped c with
  | false => rw [escapeChar_of_not hesc, List.singleton_append, decode_cons_of_ne hc]
  | true =>
    have hplus : ¬(plus = true ∧ c = '+') := by
      intro h
      rw [h.2] at hesc
      exact absurd hesc (by decide)
    rw [escapeChar, hesc, if_pos rfl, decode_escapeBytes, decodeChar, if_neg hplus]

/-- Hexadecimal digits are not escaped. -/
theorem isEscaped_of_hexValue? {c : Char} (h : (hexValue? c).isSome) : isEscaped c = false := by
  have hall : ∀ n < 103, (hexValue? (Char.ofNat n)).isSome → isEscaped (Char.ofNat n) = false := by
    decide
  have hlt : c.toNat < 103 := by
    unfold hexValue? at h
    simp only [Char.le_def, UInt32.le_iff_toNat_le] at h
    by_contra hge
    have hval : 103 ≤ c.val.toNat := Nat.le_of_not_lt hge
    rw [if_neg, if_neg, if_neg] at h
    · exact absurd h (by decide)
    all_goals
      rintro ⟨-, hle⟩
      have hle' := hle.trans (by decide : _ ≤ 102)
      omega
  have hc := hall c.toNat hlt
  rw [Char.ofNat_toNat] at hc
  exact hc h

/-- A lone `%` is its own byte. -/
theorem decodeChar_percent : decodeChar plus '%' = [0x25] :=
  if_neg fun h => absurd h.2 (by decide)

/-- A `%` before anything but two hexadecimal digits is its own byte. -/
theorem decode_percent {ds : List Char}
    (hno : ∀ hi lo rest, ds = hi :: lo :: rest →
      (hexValue? hi).isSome → (hexValue? lo).isSome → False) :
    decode plus ('%' :: ds) = 0x25 :: decode plus ds := by
  match ds with
  | [] => rw [decode_cons (by simp), decodeChar_percent, List.singleton_append]
  | [c] => rw [decode_cons (by simp), decodeChar_percent, List.singleton_append]
  | hi :: lo :: rest =>
    refine decode_of_not_escape (fun h l hhi hlo => ?_) rest
    exact hno hi lo rest rfl (by simp [hhi]) (by simp [hlo])

/-- The parser's own escapes change nothing for the reader. -/
theorem decode_escapeChars (cs : List Char) :
    decode plus (cs.flatMap escapeChar) = decode plus cs := by
  have hpercent : ∀ ds : List Char, ('%' :: ds).flatMap escapeChar = '%' :: ds.flatMap escapeChar :=
    fun _ => rfl
  -- Along the decoder: an escape of two digits, a `%` without them, and any other character.
  induction cs using decode.induct with
  | case1 hi lo rest l h hlo hhi ih =>
    have hhi' : isEscaped hi = false := isEscaped_of_hexValue? (by simp [hhi])
    have hlo' : isEscaped lo = false := isEscaped_of_hexValue? (by simp [hlo])
    rw [hpercent, List.flatMap_cons, List.flatMap_cons, escapeChar_of_not hhi',
      escapeChar_of_not hlo', List.singleton_append, List.singleton_append,
      decode_escape hhi hlo, decode_escape hhi hlo, ih]
  | case2 hi lo rest hno ih =>
    rw [decode_of_not_escape hno, hpercent, decode_percent, ih]
    intro hi' lo' rest' h hhi hlo
    obtain ⟨cs, hcs, htail⟩ := escapeChars_eq_cons h hhi
    obtain ⟨cs', rfl, -⟩ := escapeChars_eq_cons htail hlo
    obtain ⟨rfl, rfl, -⟩ : hi = hi' ∧ lo = lo' ∧ rest = cs' := by simpa using hcs
    obtain ⟨h, hh⟩ := Option.isSome_iff_exists.mp hhi
    obtain ⟨l, hl⟩ := Option.isSome_iff_exists.mp hlo
    exact hno h l hh hl
  | case3 c rest hno ih =>
    by_cases hc : c = '%'
    · subst hc
      rw [decode_cons hno, hpercent, decode_percent, ih, decodeChar_percent,
        List.singleton_append]
      intro hi lo rest' h hhi hlo
      obtain ⟨cs, hcs, htail⟩ := escapeChars_eq_cons h hhi
      obtain ⟨cs', rfl, -⟩ := escapeChars_eq_cons htail hlo
      exact hno hi lo cs' rfl hcs
    · rw [List.flatMap_cons, decode_escapeChar hc, decode_cons_of_ne hc, ih]
  | case4 => rfl

/-! ## What a URL parser leaves out -/

/-- Tidying only drops characters. -/
theorem tidy_sublist (cs : List Char) : (tidy cs).Sublist cs :=
  ((List.takeWhile_sublist _).trans List.filter_sublist).trans
    (List.rdropWhile_prefix _ cs).sublist

/-- The texts that are left as they are. -/
theorem tidy_eq_self_iff {cs : List Char} :
    tidy cs = cs ↔
      (∀ h : cs ≠ [], ¬isControlOrSpace (cs.getLast h) = true) ∧
        (∀ c ∈ cs, ¬isTabOrNewline c = true) ∧ '#' ∉ cs := by
  unfold tidy
  constructor
  · intro h
    -- each of the three steps can only shorten the text
    have hlen := (List.takeWhile_sublist (fun c => decide (c ≠ '#'))
      (l := (cs.rdropWhile isControlOrSpace).filter (!isTabOrNewline ·))).length_le
    rw [h] at hlen
    have hdrop : cs.rdropWhile isControlOrSpace = cs :=
      (List.rdropWhile_prefix _ cs).sublist.eq_of_length_le
        (hlen.trans List.filter_sublist.length_le)
    rw [hdrop] at h hlen
    have hfilter : cs.filter (!isTabOrNewline ·) = cs := List.filter_sublist.eq_of_length_le hlen
    rw [hfilter] at h
    have htake := List.takeWhile_eq_self_iff.mp h
    refine ⟨List.rdropWhile_eq_self_iff.mp hdrop, ?_, fun hmem => ?_⟩
    · simpa using List.filter_eq_self.mp hfilter
    · exact absurd (htake '#' hmem) (by decide)
  · intro ⟨hlast, htab, hhash⟩
    rw [List.rdropWhile_eq_self_iff.mpr hlast, List.filter_eq_self.mpr (by simpa using htab),
      List.takeWhile_eq_self_iff]
    intro c hc
    exact decide_eq_true (ne_of_mem_of_not_mem hc hhash)

/-- A clean beginning is kept. -/
theorem tidy_append {p : List Char} (hp : ∀ c ∈ p, isControlOrSpace c = false ∧ c ≠ '#')
    (v : List Char) : tidy (p ++ v) = p ++ tidy v := by
  -- Trimming stops at the latest at the last character of `p`.
  have hdrop : (p ++ v).rdropWhile isControlOrSpace = p ++ v.rdropWhile isControlOrSpace := by
    have hkeep : p.rdropWhile isControlOrSpace = p := by
      refine List.rdropWhile_eq_self_iff.mpr fun h => ?_
      rw [(hp _ (List.getLast_mem h)).1]
      exact Bool.false_ne_true
    rw [List.rdropWhile] at hkeep ⊢
    rw [List.reverse_append, List.dropWhile_append]
    split
    · rename_i hempty
      rw [hkeep, List.rdropWhile, List.isEmpty_iff.mp hempty, List.reverse_nil, List.append_nil]
    · rw [List.reverse_append, List.reverse_reverse, List.rdropWhile]
  have htab : ∀ c ∈ p, (!isTabOrNewline c) = true := by
    intro c hc
    have hcontrol := (hp c hc).1
    rw [Bool.not_eq_true']
    by_contra htab
    simp only [isTabOrNewline, Bool.not_eq_false, Bool.or_eq_true, beq_iff_eq] at htab
    obtain (rfl | rfl) | rfl := htab <;> exact absurd hcontrol (by decide)
  unfold tidy
  rw [hdrop, List.filter_append, List.filter_eq_self.mpr htab,
    List.takeWhile_append_of_pos fun c hc => decide_eq_true (hp c hc).2]

/-- A character that is not escaped is neither a control, a space nor a `#`. -/
theorem isEscaped_false {c : Char} (h : isEscaped c = false) :
    isControlOrSpace c = false ∧ c ≠ '#' := by
  simp only [isEscaped, Bool.or_eq_false_iff, beq_eq_false_iff_ne] at h
  exact ⟨h.1.1.1.1.1.1, h.1.1.1.2⟩

/-- The query of a URL whose end is put in as it is. -/
theorem query_append {p q : List Char}
    (hp : ∀ c ∈ p, (isControlOrSpace c = false ∧ c ≠ '#') ∧ c ≠ '?')
    (hq : ∀ c ∈ q, isEscaped c = false) (v : List Char) :
    query (p ++ '?' :: (q ++ v)) = q ++ (tidy v).flatMap escapeChar := by
  have hclean : ∀ c ∈ p ++ '?' :: q, isControlOrSpace c = false ∧ c ≠ '#' := by
    intro c hc
    rcases List.mem_append.mp hc with hc | hc
    · exact (hp c hc).1
    · rcases List.mem_cons.mp hc with rfl | hc
      · decide
      · exact isEscaped_false (hq c hc)
  have hkeep : q.flatMap escapeChar = q := by
    rw [List.flatMap_congr fun c hc => escapeChar_of_not (hq c hc), List.flatMap_singleton']
  unfold query
  rw [← List.cons_append, ← List.append_assoc, tidy_append hclean, List.append_assoc,
    List.dropWhile_append_of_pos fun c hc => decide_eq_true (hp c hc).2]
  simp [hkeep]

/-! ## Values put in as they are -/

/-- The value arrives as it is: nothing in it is dropped, read as a separator or undone. -/
structure Intact (plus : Bool) (v : List Char) : Prop where
  ends : ∀ h : v ≠ [], ¬isControlOrSpace (v.getLast h) = true
  breaks : ∀ c ∈ v, ¬isTabOrNewline c = true
  separators : '#' ∉ v ∧ '&' ∉ v
  escapes : ¬HasEscape v
  pluses : plus = true → '+' ∉ v

/-- A part of a text has fewer bytes, at least one for each character that it lacks. -/
theorem length_utf8_of_sublist {w v : List Char} (h : w.Sublist v) :
    (utf8 w).length + v.length ≤ (utf8 v).length + w.length := by
  induction h with
  | slnil => exact Nat.le_refl _
  | cons c hsub ih =>
    rename_i w v
    have hc := length_utf8_cons c v
    rw [List.length_cons]
    omega
  | cons_cons c _ ih =>
    rw [utf8_cons, utf8_cons, List.length_append, List.length_append, List.length_cons,
      List.length_cons]
    omega

/-- Escaping adds no `&`. -/
theorem amp_notMem_escapeChars {cs : List Char} (h : '&' ∉ cs) : '&' ∉ cs.flatMap escapeChar := by
  intro hmem
  obtain ⟨c, hc, hcmem⟩ := List.mem_flatMap.mp hmem
  unfold escapeChar at hcmem
  split at hcmem
  · obtain ⟨b, -, hb⟩ := List.mem_flatMap.mp hcmem
    exact (escapeByte_clean b '&' hb).1 rfl
  · rw [List.mem_singleton] at hcmem
    exact h (hcmem ▸ hc)

/-- One parameter, with a value that a parser has taken from a URL. -/
theorem parse_escapeChars_single {name : String} {cs : List Char}
    (hname : ∀ c ∈ name.toList, c ≠ '%' ∧ c ≠ '+' ∧ c ≠ '&' ∧ c ≠ '=') (hcs : '&' ∉ cs)
    {ps : List (String × String)} :
    parse plus (name.toList ++ '=' :: cs.flatMap escapeChar) = some ps ↔
      ∃ v : String, ps = [(name, v)] ∧ decode plus cs = utf8 v.toList := by
  have hamp : '&' ∉ name.toList ++ '=' :: cs.flatMap escapeChar := by
    intro h
    rcases List.mem_append.mp h with h | h
    · exact (hname _ h).2.2.1 rfl
    · rcases List.mem_cons.mp h with h | h
      · exact absurd h (by decide)
      · exact amp_notMem_escapeChars hcs h
  have hnameBytes : decode plus name.toList = utf8 name.toList :=
    decode_plain fun c hc => ⟨(hname c hc).1, (hname c hc).2.1⟩
  have hread : ∀ p, parseParam plus (name.toList ++ '=' :: cs.flatMap escapeChar) = some p ↔
      utf8 name.toList = utf8 p.1.toList ∧ decode plus cs = utf8 p.2.toList := by
    intro p
    rw [parseParam_append fun h => (hname _ h).2.2.2 rfl, hnameBytes, decode_escapeChars]
  rw [parse_single (by simp) hamp, Option.map_eq_some_iff]
  constructor
  · rintro ⟨p, hp, rfl⟩
    obtain ⟨hfst, hsnd⟩ := (hread p).mp hp
    have hname' : name = p.1 := by
      have hof := ofUtf8_eq_some.mpr hfst
      rw [ofUtf8_eq_some.mpr rfl] at hof
      exact Option.some.inj hof
    exact ⟨p.2, by rw [hname'], hsnd⟩
  · rintro ⟨v, rfl, hv⟩
    exact ⟨(name, v), (hread (name, v)).mpr ⟨rfl, hv⟩, rfl⟩

/-- The values that are read back from a query that they are put in as they are. -/
theorem parse_raw_iff {name v : String}
    (hname : ∀ c ∈ name.toList, c ≠ '%' ∧ c ≠ '+' ∧ c ≠ '&' ∧ c ≠ '=') :
    parse plus (name.toList ++ '=' :: (tidy v.toList).flatMap escapeChar) = some [(name, v)] ↔
      Intact plus v.toList := by
  have hsub := tidy_sublist v.toList
  by_cases hamp : '&' ∈ tidy v.toList
  · -- the value ends in front of the `&`, so bytes of it are missing
    obtain ⟨a, b, hw, ha⟩ := List.eq_append_cons_of_mem hamp
    refine iff_of_false (fun hread => ?_) (fun h => ?_)
    · have hsplit : name.toList ++ '=' :: (a ++ '&' :: b).flatMap escapeChar =
          (name.toList ++ '=' :: a.flatMap escapeChar) ++ '&' :: b.flatMap escapeChar := by
        rw [List.flatMap_append, List.flatMap_cons, List.append_assoc]
        rfl
      rw [hw, hsplit, parse_append, Option.bind_eq_some_iff] at hread
      obtain ⟨ps, hps, hrest⟩ := hread
      obtain ⟨qs, -, hqs⟩ := Option.map_eq_some_iff.mp hrest
      obtain ⟨x, rfl, hx⟩ := (parse_escapeChars_single hname ha).mp hps
      obtain ⟨rfl, -⟩ : x = v ∧ qs = [] := by simpa using hqs
      have hlen : a.length < x.toList.length := by
        have hle := hsub.length_le
        rw [hw, List.length_append, List.length_cons] at hle
        omega
      have hbytes := length_utf8_of_sublist ((List.sublist_append_left a _).trans (hw ▸ hsub))
      have hdecode := length_decode_le plus a
      rw [hx] at hdecode
      omega
    · rw [tidy_eq_self_iff.mpr ⟨h.ends, h.breaks, h.separators.1⟩] at hamp
      exact h.separators.2 hamp
  · rw [parse_escapeChars_single hname hamp]
    constructor
    · rintro ⟨x, hx, hread⟩
      obtain rfl : v = x := by simpa using hx
      -- Every character that the parser drops is a byte that the reader cannot give back.
      have htidy : tidy v.toList = v.toList := by
        refine hsub.eq_of_length_le ?_
        have hbytes := length_utf8_of_sublist hsub
        have hdecode := length_decode_le plus (tidy v.toList)
        rw [hread] at hdecode
        omega
      rw [htidy] at hread hamp
      obtain ⟨hends, hbreaks, hhash⟩ := tidy_eq_self_iff.mp htidy
      obtain ⟨hescape, hplus⟩ := (decode_eq_utf8_iff _).mp hread
      exact ⟨hends, hbreaks, ⟨hhash, hamp⟩, hescape, hplus⟩
    · intro h
      refine ⟨v, rfl, ?_⟩
      rw [tidy_eq_self_iff.mpr ⟨h.ends, h.breaks, h.separators.1⟩]
      exact (decode_eq_utf8_iff _).mpr ⟨h.escapes, h.pluses⟩

end UrlQuery
