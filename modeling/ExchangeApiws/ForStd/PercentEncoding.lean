import Mathlib.Data.List.Basic
import Mathlib.Tactic.Common
import Mathlib.Tactic.IntervalCases

/-!
# Percent-encoded parameter lists

A list of parameters is written `name=value&name=value…`, with the bytes of names and values
escaped. The file has the standard reader of such texts: split at `&`, split each part at its
first `=`, undo the escapes `%XX`, and read the bytes as UTF-8. The flag `plus` says whether
`+` stands for a space, as it does in forms. An `Escaping` is a way to write bytes that the
reader undoes and that leaves the separators alone.

## Key results

- `Escaping.parse_params`: what an escaping writes is read back
- `decode_eq_utf8_iff`: the texts that decoding leaves as they are
-/

namespace PercentEncoding

/-! ## UTF-8 -/

/-- The UTF-8 bytes of a text. -/
def utf8 (cs : List Char) : List UInt8 := cs.flatMap String.utf8EncodeChar

/-- The string of some UTF-8 bytes; `none` where they are not UTF-8. -/
def ofUtf8 (bytes : List UInt8) : Option String := String.fromUTF8? bytes.toByteArray

@[simp] theorem utf8_nil : utf8 [] = [] := rfl

/-- A text is encoded character by character. -/
theorem utf8_cons (c : Char) (cs : List Char) :
    utf8 (c :: cs) = String.utf8EncodeChar c ++ utf8 cs := List.flatMap_cons

/-- The bytes are those of the string. -/
theorem toByteArray_utf8 (s : String) : (utf8 s.toList).toByteArray = s.toByteArray := by
  rw [← String.utf8Encode_toList]
  rfl

/-- Bytes are read as a string exactly if they are its encoding. -/
theorem ofUtf8_eq_some {bytes : List UInt8} {s : String} :
    ofUtf8 bytes = some s ↔ bytes = utf8 s.toList := by
  unfold ofUtf8 String.fromUTF8?
  constructor
  · intro h
    split at h
    · rename_i hvalid
      have hbytes : bytes.toByteArray = (utf8 s.toList).toByteArray := by
        rw [toByteArray_utf8, ← Option.some.inj h]
        rfl
      simpa using congrArg (·.data.toList) hbytes
    · cases h
  · intro h
    subst h
    have hvalid : (utf8 s.toList).toByteArray.IsValidUTF8 := by
      rw [toByteArray_utf8]
      exact s.isValidUTF8
    rw [dif_pos hvalid, Option.some.injEq, ← String.toByteArray_inj]
    exact toByteArray_utf8 s

/-! ## Escapes -/

/-- The value of a hexadecimal digit. -/
def hexValue? (c : Char) : Option ℕ :=
  if '0' ≤ c ∧ c ≤ '9' then some (c.toNat - '0'.toNat)
  else if 'A' ≤ c ∧ c ≤ 'F' then some (c.toNat - 'A'.toNat + 10)
  else if 'a' ≤ c ∧ c ≤ 'f' then some (c.toNat - 'a'.toNat + 10)
  else none

/-- The bytes of a character that begins no escape. -/
def decodeChar (plus : Bool) (c : Char) : List UInt8 :=
  if plus ∧ c = '+' then [0x20] else String.utf8EncodeChar c

/-- Undo the escapes of a text. A `%` without two hexadecimal digits stands for itself. -/
def decode (plus : Bool) : List Char → List UInt8
  | '%' :: hi :: lo :: rest =>
    match hexValue? hi, hexValue? lo with
    | some h, some l => .ofNat (16 * h + l) :: decode plus rest
    | _, _ => 0x25 :: decode plus (hi :: lo :: rest)
  | c :: rest => decodeChar plus c ++ decode plus rest
  | [] => []

/-! ## Parameter lists -/

/-- Read `name=value`; a part without `=` is a name. -/
def parseParam (plus : Bool) (cs : List Char) : Option (String × String) := do
  let name ← ofUtf8 (decode plus (cs.takeWhile (· ≠ '=')))
  let value ← ofUtf8 (decode plus (cs.dropWhile (· ≠ '=')).tail)
  return (name, value)

/-- Read a list of parameters; empty parts are skipped. -/
def parse (plus : Bool) (cs : List Char) : Option (List (String × String)) :=
  ((cs.splitOn '&').filter (· ≠ [])).mapM (parseParam plus)

variable {plus : Bool}

/-- A character other than `%` stands for itself. -/
theorem decode_cons_of_ne {c : Char} (hc : c ≠ '%') (rest : List Char) :
    decode plus (c :: rest) = decodeChar plus c ++ decode plus rest := by
  rw [decode]
  intro hi lo rest' h
  exact absurd h hc

/-- An escape stands for the byte that its two digits give. -/
theorem decode_escape {hi lo : Char} {h l : ℕ} (hhi : hexValue? hi = some h)
    (hlo : hexValue? lo = some l) (rest : List Char) :
    decode plus ('%' :: hi :: lo :: rest) = .ofNat (16 * h + l) :: decode plus rest := by
  simp only [decode, hhi, hlo]

/-- A `%` that two hexadecimal digits do not follow stands for itself. -/
theorem decode_of_not_escape {hi lo : Char}
    (hno : ∀ h l, hexValue? hi = some h → hexValue? lo = some l → False) (rest : List Char) :
    decode plus ('%' :: hi :: lo :: rest) = 0x25 :: decode plus (hi :: lo :: rest) := by
  rw [decode]
  split
  · rename_i h l hhi hlo
    exact absurd (hno h l hhi hlo) not_false
  · rfl

/-- A character that does not begin three characters of an escape stands for itself. -/
theorem decode_cons {c : Char} {rest : List Char}
    (hno : ∀ hi lo rest', c = '%' → rest = hi :: lo :: rest' → False) :
    decode plus (c :: rest) = decodeChar plus c ++ decode plus rest := by
  rw [decode]
  exact hno

/-! ## Texts without escapes -/

/-- The text has a `%` with two hexadecimal digits behind it. -/
def HasEscape (cs : List Char) : Prop :=
  ∃ hi lo, ['%', hi, lo] <:+: cs ∧ (hexValue? hi).isSome ∧ (hexValue? lo).isSome

/-- An escape in a text is at its head or further on. -/
theorem hasEscape_cons {c : Char} {cs : List Char} :
    HasEscape (c :: cs) ↔
      (∃ hi lo, ['%', hi, lo] <+: c :: cs ∧ (hexValue? hi).isSome ∧ (hexValue? lo).isSome) ∨
        HasEscape cs := by
  simp only [HasEscape, List.infix_cons_iff, or_and_right, exists_or]

/-- A character decodes to no more bytes than it is encoded in. -/
theorem length_decodeChar_le (plus : Bool) (c : Char) :
    (decodeChar plus c).length ≤ (String.utf8EncodeChar c).length := by
  unfold decodeChar
  split
  · rename_i h
    rw [h.2]
    decide
  · exact Nat.le_refl _

/-- Every character takes at least one byte. -/
theorem length_utf8_cons (c : Char) (cs : List Char) :
    (utf8 cs).length + 1 ≤ (utf8 (c :: cs)).length := by
  have hpos : 0 < (String.utf8EncodeChar c).length :=
    List.length_pos_of_ne_nil String.utf8EncodeChar_ne_nil
  rw [utf8_cons, List.length_append]
  omega

/-- Decoding never yields more bytes than the text has. -/
theorem length_decode_le (plus : Bool) (cs : List Char) :
    (decode plus cs).length ≤ (utf8 cs).length := by
  -- An escape turns three characters into one byte.
  induction cs using decode.induct with
  | case1 hi lo rest l h hlo hhi ih =>
    have hlen := length_utf8_cons '%' (hi :: lo :: rest)
    have hlen' := length_utf8_cons hi (lo :: rest)
    have hlen'' := length_utf8_cons lo rest
    rw [decode_escape hhi hlo, List.length_cons]
    omega
  | case2 hi lo rest hno ih =>
    have hlen := length_utf8_cons '%' (hi :: lo :: rest)
    rw [decode_of_not_escape hno, List.length_cons]
    omega
  | case3 c rest hno ih =>
    have hc := length_decodeChar_le plus c
    rw [decode_cons hno, List.length_append, utf8_cons, List.length_append]
    omega
  | case4 => exact Nat.le_refl 0

/-- The texts that decoding leaves as they are. -/
theorem decode_eq_utf8_iff (cs : List Char) :
    decode plus cs = utf8 cs ↔ ¬HasEscape cs ∧ (plus = true → '+' ∉ cs) := by
  induction cs using decode.induct with
  | case1 hi lo rest l h hlo hhi ih =>
    -- two bytes are lost
    have hescape : HasEscape ('%' :: hi :: lo :: rest) :=
      hasEscape_cons.mpr (.inl ⟨hi, lo, List.prefix_append _ rest, by simp [hhi], by simp [hlo]⟩)
    have hlen := length_utf8_cons '%' (hi :: lo :: rest)
    have hlen' := length_utf8_cons hi (lo :: rest)
    have hlen'' := length_utf8_cons lo rest
    have hle := length_decode_le plus rest
    refine iff_of_false (fun heq => ?_) (fun hno => hno.1 hescape)
    have hcount := congrArg List.length heq
    rw [decode_escape hhi hlo, List.length_cons] at hcount
    omega
  | case2 hi lo rest hno ih =>
    have hescape : HasEscape ('%' :: hi :: lo :: rest) ↔ HasEscape (hi :: lo :: rest) := by
      rw [hasEscape_cons]
      refine or_iff_right fun ⟨hi', lo', hstart, hhi, hlo⟩ => ?_
      obtain ⟨h, hh⟩ := Option.isSome_iff_exists.mp hhi
      obtain ⟨l, hl⟩ := Option.isSome_iff_exists.mp hlo
      simp only [List.cons_prefix_cons, true_and] at hstart
      obtain ⟨rfl, rfl, -⟩ := hstart
      exact hno h l hh hl
    rw [decode_of_not_escape hno, utf8_cons, hescape]
    show (0x25 :: decode plus (hi :: lo :: rest) = 0x25 :: utf8 (hi :: lo :: rest)) ↔ _
    rw [List.cons_inj_right, ih]
    simp
  | case3 c rest hno ih =>
    have hescape : HasEscape (c :: rest) ↔ HasEscape rest := by
      rw [hasEscape_cons]
      refine or_iff_right fun ⟨hi, lo, ⟨tail, htail⟩, _⟩ => ?_
      obtain ⟨rfl, rfl⟩ := List.cons.inj htail
      exact hno hi lo tail rfl rfl
    rw [decode_cons hno, utf8_cons, hescape]
    by_cases hplus : plus = true ∧ c = '+'
    · obtain ⟨rfl, rfl⟩ := hplus
      refine iff_of_false (fun heq => ?_) (fun h => h.2 rfl List.mem_cons_self)
      exact absurd (List.cons.inj heq).1 (by decide)
    · rw [decodeChar, if_neg hplus, List.append_cancel_left_eq, ih]
      have hmem : (plus = true → '+' ∉ c :: rest) ↔ (plus = true → '+' ∉ rest) := by
        refine forall_congr' fun htrue => ?_
        have hne : '+' ≠ c := fun h => hplus ⟨htrue, h.symm⟩
        simp [hne]
      rw [hmem]
  | case4 =>
    refine iff_of_true rfl ⟨fun ⟨hi, lo, hpart, _⟩ => ?_, fun _ => List.not_mem_nil⟩
    exact absurd (List.infix_nil.mp hpart) (by simp)

/-- A text without `%` and `+` stands for itself. -/
theorem decode_plain {cs : List Char} (h : ∀ c ∈ cs, c ≠ '%' ∧ c ≠ '+') :
    decode plus cs = utf8 cs := by
  refine (decode_eq_utf8_iff cs).mpr ⟨fun ⟨hi, lo, hpart, _⟩ => ?_, fun _ hmem => ?_⟩
  · exact (h '%' (hpart.subset List.mem_cons_self)).1 rfl
  · exact (h '+' hmem).2 rfl

/-! ## Escaped bytes -/

/-- `%XX`, with uppercase digits. -/
def escapeByte (b : UInt8) : List Char :=
  ['%', (Nat.digitChar (b >>> 4).toNat).toUpper, (Nat.digitChar (b &&& 0xF).toNat).toUpper]

/-- The digit of a value has that value. -/
theorem hexValue?_digitChar {n : ℕ} (h : n < 16) :
    hexValue? (Nat.digitChar n).toUpper = some n := by
  interval_cases n <;> decide

/-- The high half of a byte is one digit. -/
theorem high_lt (b : UInt8) : (b >>> 4).toNat < 16 := by
  have hb := b.toNat_lt
  rw [UInt8.toNat_shiftRight]
  show b.toNat >>> 4 < 16
  rw [Nat.shiftRight_eq_div_pow]
  omega

/-- The low half of a byte is its remainder by 16. -/
theorem low_eq (b : UInt8) : (b &&& 0xF).toNat = b.toNat % 16 := by
  rw [UInt8.toNat_and]
  exact Nat.and_two_pow_sub_one_eq_mod b.toNat 4

/-- The low half of a byte is one digit. -/
theorem low_lt (b : UInt8) : (b &&& 0xF).toNat < 16 := by
  rw [low_eq]
  exact Nat.mod_lt b.toNat (by decide)

/-- A byte is put together from its halves. -/
theorem ofNat_halves (b : UInt8) :
    UInt8.ofNat (16 * (b >>> 4).toNat + (b &&& 0xF).toNat) = b := by
  have hhigh : (b >>> 4).toNat = b.toNat / 16 := by
    rw [UInt8.toNat_shiftRight]
    exact Nat.shiftRight_eq_div_pow b.toNat 4
  rw [hhigh, low_eq, Nat.div_add_mod]
  exact UInt8.ofNat_toNat

/-- An escaped byte decodes to the byte. -/
theorem decode_escapeByte (b : UInt8) (rest : List Char) :
    decode plus (escapeByte b ++ rest) = b :: decode plus rest := by
  show decode plus ('%' :: _ :: _ :: rest) = _
  rw [decode_escape (hexValue?_digitChar (high_lt b)) (hexValue?_digitChar (low_lt b)),
    ofNat_halves]

/-- Escaped bytes decode to the bytes. -/
theorem decode_escapeBytes (bytes : List UInt8) (rest : List Char) :
    decode plus (bytes.flatMap escapeByte ++ rest) = bytes ++ decode plus rest := by
  induction bytes with
  | nil => rfl
  | cons b bytes ih =>
    rw [List.flatMap_cons, List.append_assoc, decode_escapeByte, ih, List.cons_append]

/-- An escape contains no separator of a query. -/
theorem escapeByte_clean (b : UInt8) : ∀ c ∈ escapeByte b, c ≠ '&' ∧ c ≠ '=' := by
  have hdigit : ∀ n < 16, (Nat.digitChar n).toUpper ≠ '&' ∧ (Nat.digitChar n).toUpper ≠ '=' := by
    decide
  simp only [escapeByte, List.forall_mem_cons]
  exact ⟨by decide, hdigit _ (high_lt b), hdigit _ (low_lt b), by simp⟩

/-! ## Reading parameters -/

/-- A parameter is read exactly as the pair that its two sides decode to. -/
theorem parseParam_eq_some {cs : List Char} {p : String × String} :
    parseParam plus cs = some p ↔
      decode plus (cs.takeWhile (· ≠ '=')) = utf8 p.1.toList ∧
        decode plus (cs.dropWhile (· ≠ '=')).tail = utf8 p.2.toList := by
  rw [← ofUtf8_eq_some, ← ofUtf8_eq_some]
  obtain ⟨name, value⟩ := p
  simp [parseParam, Option.bind_eq_some_iff]

/-- A name without `=` is read up to the first `=`. -/
theorem parseParam_append {name value : List Char} {p : String × String} (hname : '=' ∉ name) :
    parseParam plus (name ++ '=' :: value) = some p ↔
      decode plus name = utf8 p.1.toList ∧ decode plus value = utf8 p.2.toList := by
  have hall : ∀ c ∈ name, (decide (c ≠ '=')) = true := by
    intro c hc
    exact decide_eq_true (ne_of_mem_of_not_mem hc hname)
  rw [parseParam_eq_some, List.takeWhile_append_of_pos hall, List.dropWhile_append_of_pos hall]
  simp

/-- A list of parameters in front of a `&` is read before those behind it. -/
theorem parse_append (cs ds : List Char) :
    parse plus (cs ++ '&' :: ds) =
      (parse plus cs).bind fun ps => (parse plus ds).map (ps ++ ·) := by
  unfold parse
  rw [List.splitOn_append_cons_self, List.filter_append, List.mapM_append]
  cases ((cs.splitOn '&').filter (· ≠ [])).mapM (parseParam plus) with
  | none => rfl
  | some ps =>
    cases ((ds.splitOn '&').filter (· ≠ [])).mapM (parseParam plus) with
    | none => rfl
    | some qs => rfl

@[simp] theorem parse_nil : parse plus [] = some [] := rfl

/-- A text without `&` is one parameter. -/
theorem parse_single {cs : List Char} (hne : cs ≠ []) (hamp : '&' ∉ cs) :
    parse plus cs = (parseParam plus cs).map ([·]) := by
  unfold parse
  rw [List.splitOn_eq_singleton hamp, List.filter_singleton, decide_eq_true hne]
  cases hparam : parseParam plus cs with
  | none => simp [hparam]
  | some p => simp [hparam]

/-- A parameter without escapes and separators is read as it is. -/
theorem parse_plain {name value : String}
    (hname : (name.toList.all fun c => c ≠ '%' ∧ c ≠ '+' ∧ c ≠ '&' ∧ c ≠ '=') = true)
    (hvalue : ∀ c ∈ value.toList, c ≠ '%' ∧ c ≠ '+' ∧ c ≠ '&') :
    parse plus (name.toList ++ '=' :: value.toList) = some [(name, value)] := by
  replace hname : ∀ c ∈ name.toList, c ≠ '%' ∧ c ≠ '+' ∧ c ≠ '&' ∧ c ≠ '=' :=
    fun c hc => of_decide_eq_true (List.all_eq_true.mp hname c hc)
  have hamp : '&' ∉ name.toList ++ '=' :: value.toList := by
    intro h
    rcases List.mem_append.mp h with h | h
    · exact (hname _ h).2.2.1 rfl
    · rcases List.mem_cons.mp h with h | h
      · exact absurd h (by decide)
      · exact (hvalue _ h).2.2 rfl
  have hread : parseParam plus (name.toList ++ '=' :: value.toList) = some (name, value) := by
    refine (parseParam_append fun h => (hname _ h).2.2.2 rfl).mpr ⟨?_, ?_⟩
    · exact decode_plain fun c hc => ⟨(hname c hc).1, (hname c hc).2.1⟩
    · exact decode_plain fun c hc => ⟨(hvalue c hc).1, (hvalue c hc).2.1⟩
  rw [parse_single (by simp) hamp, hread]
  rfl

/-! ## Writing parameters -/

/-- A way to write bytes as text that decoding undoes and that leaves the separators of a
    parameter list alone. -/
structure Escaping (plus : Bool) where
  escape : UInt8 → List Char
  decode_escape : ∀ b rest, decode plus (escape b ++ rest) = b :: decode plus rest
  clean : ∀ b, ∀ c ∈ escape b, c ≠ '&' ∧ c ≠ '='

namespace Escaping

variable (e : Escaping plus)

/-- A name or a value with its bytes escaped. -/
def text (s : String) : List Char := (utf8 s.toList).flatMap e.escape

/-- `name=value`, escaped. -/
def param (p : String × String) : List Char := e.text p.1 ++ '=' :: e.text p.2

/-- `name=value&name=value…`, escaped. -/
def params (ps : List (String × String)) : List Char := ['&'].intercalate (ps.map e.param)

/-- An encoded text decodes to its bytes. -/
theorem decode_text (s : String) : decode plus (e.text s) = utf8 s.toList := by
  unfold text
  induction utf8 s.toList with
  | nil => rfl
  | cons b bytes ih => rw [List.flatMap_cons, e.decode_escape, ih]

/-- An encoded text contains no separator of a query. -/
theorem text_clean {s : String} {c : Char} (h : c ∈ e.text s) : c ≠ '&' ∧ c ≠ '=' := by
  obtain ⟨b, -, hc⟩ := List.mem_flatMap.mp h
  exact e.clean b c hc

/-- No parameter is written as nothing, since it has a `=`. -/
theorem param_ne_nil (p : String × String) : e.param p ≠ [] := by simp [param]

/-- A parameter contains no separator of parameters. -/
theorem param_clean (p : String × String) : '&' ∉ e.param p := by
  intro h
  rcases List.mem_append.mp h with h | h
  · exact (e.text_clean h).1 rfl
  · rcases List.mem_cons.mp h with h | h
    · exact absurd h (by decide)
    · exact (e.text_clean h).1 rfl

/-- A parameter is read as itself. -/
theorem parse_param (p : String × String) : parse plus (e.param p) = some [p] := by
  have hname : '=' ∉ e.text p.1 := fun h => (e.text_clean h).2 rfl
  have hread : parseParam plus (e.param p) = some p :=
    (parseParam_append hname).mpr ⟨e.decode_text p.1, e.decode_text p.2⟩
  rw [parse_single (e.param_ne_nil p) (e.param_clean p), hread]
  rfl

@[simp] theorem params_nil : e.params [] = [] := rfl

/-- Only an empty list of parameters is written as nothing. -/
theorem params_eq_nil {ps : List (String × String)} : e.params ps = [] ↔ ps = [] := by
  cases ps with
  | nil => simp
  | cons p ps => cases ps <;> simp [params, param]

/-- The last parameter is behind a `&`, unless it is the first. -/
theorem params_concat (ps : List (String × String)) (p : String × String) :
    e.params (ps ++ [p]) = (if ps = [] then [] else e.params ps ++ ['&']) ++ e.param p := by
  induction ps with
  | nil => simp [params]
  | cons q qs ih =>
    cases qs with
    | nil => simp [params]
    | cons r rs =>
      have hstep : ∀ ts, e.params (q :: r :: ts) = e.param q ++ '&' :: e.params (r :: ts) := by
        simp [params]
      rw [List.cons_append, List.cons_append, hstep, hstep, ← List.cons_append, ih]
      simp

/-- What an escaping writes is read back. -/
theorem parse_params (ps : List (String × String)) : parse plus (e.params ps) = some ps := by
  unfold params
  induction ps with
  | nil => rfl
  | cons p ps ih =>
    -- Between two parameters there is one separator, at which the reader splits.
    cases ps with
    | nil => simpa using e.parse_param p
    | cons q qs =>
      rw [List.map_cons, List.map_cons, List.intercalate_cons_cons, List.append_assoc,
        List.singleton_append, parse_append, e.parse_param p, ← List.map_cons, ih]
      rfl

end Escaping

end PercentEncoding
