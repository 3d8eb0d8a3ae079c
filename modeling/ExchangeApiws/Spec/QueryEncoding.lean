import ExchangeApiws.Native.Query
import Mathlib.Data.List.Induction

/-!
# Encoded parameters are read back

The two encoders write a list of parameters so that the standard reader gives back exactly
that list: no key and no value introduces, removes or merges a parameter. The query that
Binance signs is read as the caller's parameters with `recvWindow`, `timestamp` and the
signature behind them.

## Key results

- `queryEscaping`, `formEscaping`: what the encoders push for a byte, as escapings
- `encoders_round_trip`: both encoders and the signed query
-/

namespace ExchangeApiws.Spec

open Native PercentEncoding

/-! ## Bytes -/

/-- An escaped byte decodes to the byte. -/
theorem decode_percentByte (plus : Bool) (b : UInt8) (rest : List Char) :
    decode plus (percentByte b ++ rest) = b :: decode plus rest := decode_escapeByte b rest

/-- An escape contains no separator of a query. -/
theorem percentByte_clean (b : UInt8) : ∀ c ∈ percentByte b, c ≠ '&' ∧ c ≠ '=' :=
  escapeByte_clean b

/-- An unreserved byte stands for itself and is no separator. -/
theorem unreserved_plain {b : UInt8} (h : isUnreserved b = true) :
    String.utf8EncodeChar (Char.ofUInt8 b) = [b] ∧
      (Char.ofUInt8 b ≠ '%' ∧ Char.ofUInt8 b ≠ '+') ∧
        Char.ofUInt8 b ≠ '&' ∧ Char.ofUInt8 b ≠ '=' := by
  -- A byte is one of 256, so its escape can be checked.
  have hall : ∀ n < 256, isUnreserved (.ofNat n) = true →
      String.utf8EncodeChar (Char.ofUInt8 (.ofNat n)) = [.ofNat n] ∧
        (Char.ofUInt8 (.ofNat n) ≠ '%' ∧ Char.ofUInt8 (.ofNat n) ≠ '+') ∧
          Char.ofUInt8 (.ofNat n) ≠ '&' ∧ Char.ofUInt8 (.ofNat n) ≠ '=' := by
    decide +kernel
  have hb := hall b.toNat b.toNat_lt
  rw [UInt8.ofNat_toNat] at hb
  exact hb h

/-- An unreserved byte decodes to itself. -/
theorem decode_unreserved {plus : Bool} {b : UInt8} (h : isUnreserved b = true)
    (rest : List Char) : decode plus (Char.ofUInt8 b :: rest) = b :: decode plus rest := by
  obtain ⟨hbytes, ⟨hpercent, hplus⟩, -⟩ := unreserved_plain h
  rw [decode_cons_of_ne hpercent, decodeChar, if_neg (fun hc => hplus hc.2), hbytes]
  rfl

/-! ## The encoders -/

/-- `percent_encode` is undone whether or not `+` is read as a space. -/
def queryEscaping (plus : Bool) : Escaping plus where
  escape := percentEncodeByte
  decode_escape b rest := by
    unfold percentEncodeByte
    split
    · rename_i h
      exact decode_unreserved h rest
    · exact decode_percentByte plus b rest
  clean b := by
    unfold percentEncodeByte
    split
    · rename_i h
      simpa using (unreserved_plain h).2.2
    · exact percentByte_clean b

/-- `form_url_encode` is undone by the readers that read `+` as a space. -/
def formEscaping : Escaping true where
  escape := Kraken.formUrlEncodeByte
  decode_escape b rest := by
    unfold Kraken.formUrlEncodeByte
    split
    · rename_i h
      exact decode_unreserved h rest
    · split
      · rename_i h
        rw [h]
        rfl
      · exact decode_percentByte true b rest
  clean b := by
    unfold Kraken.formUrlEncodeByte
    split
    · rename_i h
      simpa using (unreserved_plain h).2.2
    · split
      · simp
      · exact percentByte_clean b

/-- `percent_encode` is an escaping of texts. -/
theorem toList_percentEncode (plus : Bool) (s : String) :
    (percentEncode s).toList = (queryEscaping plus).text s := String.toList_ofList

/-- `form_url_encode` is an escaping of texts. -/
theorem toList_formUrlEncode (s : String) :
    (Kraken.formUrlEncode s).toList = formEscaping.text s := String.toList_ofList

/-- A query string without its `?`. -/
def stripMark : List Char → List Char
  | '?' :: rest => rest
  | cs => cs

/-- Texts that are made of each entry, as characters. -/
theorem map_toList_map {A : Type} {f : A → String} {g : A → List Char} {l : List A}
    (h : ∀ a, (f a).toList = g a) : (l.map f).map String.toList = l.map g := by
  rw [List.map_map]
  exact List.map_congr_left fun a _ => h a

/-- `build_query_string` writes its parameters behind a question mark. -/
theorem toList_buildQueryString (plus : Bool) (params : List (String × String)) :
    stripMark (buildQueryString params).toList = (queryEscaping plus).params params := by
  cases params with
  | nil => rfl
  | cons p ps =>
    rw [buildQueryString, if_neg (by simp)]
    have hparam : ∀ q : String × String,
        (percentEncode q.1 ++ "=" ++ percentEncode q.2).toList = (queryEscaping plus).param q := by
      intro q
      simp [Escaping.param, toList_percentEncode plus]
    rw [String.toList_append, String.toList_intercalate,
      map_toList_map (g := (queryEscaping plus).param)]
    · rfl
    · exact hparam

/-- The loop of `form_encode` puts a `&` in front of every parameter but the first. -/
theorem toList_formLoop {f : String → (String × String) × ℕ → String}
    (hf : ∀ out p i, f out (p, i) = (if i > 0 then out ++ "&" else out) ++
      Kraken.formUrlEncode p.1 ++ "=" ++ Kraken.formUrlEncode p.2)
    (params : List (String × String)) :
    (params.zipIdx.foldl f "").toList = formEscaping.params params := by
  -- Induction from the end, as the loop appends the last parameter last.
  induction params using List.reverseRecOn with
  | nil => rfl
  | append_singleton ps p ih =>
    rw [List.zipIdx_append, List.foldl_append, Escaping.params_concat, ← ih, List.zipIdx_cons,
      List.zipIdx_nil, List.foldl_cons, List.foldl_nil, hf]
    by_cases hps : ps = []
    · simp [hps, Escaping.param, toList_formUrlEncode]
    · have hpos : 0 < 0 + ps.length := by
        rw [Nat.zero_add]
        exact List.length_pos_of_ne_nil hps
      simp only [if_neg hps, if_pos hpos, String.toList_append, Escaping.param,
        toList_formUrlEncode, List.append_assoc]
      rfl

/-- `form_encode` writes its parameters. -/
theorem toList_formEncode (params : List (String × String)) :
    (Kraken.formEncode params).toList = formEscaping.params params := by
  cases params with
  | nil => rfl
  | cons p ps =>
    rw [Kraken.formEncode, if_neg (by simp)]
    exact toList_formLoop (fun _ _ _ => rfl) (p :: ps)

/-- The loop of `signed_query` does so too: it sees that it is past the first parameter by the
    text that is already there. -/
theorem toList_pushParams (plus : Bool) (params : List (String × String)) :
    (Binance.pushParams params).toList = (queryEscaping plus).params params := by
  induction params using List.reverseRecOn with
  | nil => rfl
  | append_singleton ps p ih =>
    have hstep : Binance.pushParams (ps ++ [p]) =
        (if (Binance.pushParams ps).isEmpty then Binance.pushParams ps
          else Binance.pushParams ps ++ "&") ++ percentEncode p.1 ++ "=" ++ percentEncode p.2 := by
      rw [Binance.pushParams, List.foldl_append]
      rfl
    rw [hstep, Escaping.params_concat]
    by_cases hps : ps = []
    · subst hps
      have hempty : Binance.pushParams [] = "" := rfl
      simp [hempty, Escaping.param, toList_percentEncode plus]
    · have hempty : ¬(Binance.pushParams ps).isEmpty = true := by
        rw [String.isEmpty_iff, ← String.toList_eq_nil_iff, ih, Escaping.params_eq_nil]
        exact hps
      simp only [if_neg hps, if_neg hempty, String.toList_append, Escaping.param, ih,
        toList_percentEncode plus, List.append_assoc]
      rfl

/-! ## Round trips -/

/-- A decimal has neither escapes nor separators. -/
theorem decimal_plain (n : UInt64) : ∀ c ∈ (toString n).toList, c ≠ '%' ∧ c ≠ '+' ∧ c ≠ '&' := by
  intro c hc
  have hdigit : c.isDigit = true := by
    refine Nat.isDigit_of_mem_toDigits (b := 10) (n := n.toNat) (by decide) (by decide) ?_
    simpa [toString, Nat.repr] using hc
  refine ⟨?_, ?_, ?_⟩
  all_goals
    rintro rfl
    exact absurd hdigit (by decide)

/-- A signature has neither escapes nor separators. -/
theorem hexEncode_plain (bytes : List UInt8) :
    ∀ c ∈ (hexEncode bytes).toList, c ≠ '%' ∧ c ≠ '+' ∧ c ≠ '&' := by
  have hdigit : ∀ n < 16,
      Nat.digitChar n ≠ '%' ∧ Nat.digitChar n ≠ '+' ∧ Nat.digitChar n ≠ '&' := by
    decide
  intro c hc
  rw [hexEncode, String.toList_ofList] at hc
  obtain ⟨b, -, hb⟩ := List.mem_flatMap.mp hc
  simp only [hexByte, List.mem_cons, List.not_mem_nil, or_false] at hb
  rcases hb with rfl | rfl
  · exact hdigit _ (high_lt b)
  · exact hdigit _ (low_lt b)

/-- The query that is signed is read as the parameters with the two of the client behind. -/
theorem parse_unsignedQuery (plus : Bool) (recvWindow now : UInt64)
    (params : List (String × String)) :
    parse plus (Binance.unsignedQuery recvWindow now params).toList =
      some (params ++ [("recvWindow", toString recvWindow), ("timestamp", toString now)]) := by
  have hown : parse plus (("recvWindow".toList ++ '=' :: (toString recvWindow).toList) ++
      '&' :: ("timestamp".toList ++ '=' :: (toString now).toList)) =
        some [("recvWindow", toString recvWindow), ("timestamp", toString now)] := by
    rw [parse_append, parse_plain (by decide) (decimal_plain recvWindow),
      parse_plain (by decide) (decimal_plain now)]
    rfl
  -- Without parameters of the caller there is no `&` in front of the client's own.
  by_cases hparams : params = []
  · subst hparams
    have htext : (Binance.unsignedQuery recvWindow now []).toList =
        ("recvWindow".toList ++ '=' :: (toString recvWindow).toList) ++
          '&' :: ("timestamp".toList ++ '=' :: (toString now).toList) := by
      simp [Binance.unsignedQuery, show Binance.pushParams [] = "" from rfl]
    rw [htext, hown]
    rfl
  · have hempty : ¬(Binance.pushParams params).isEmpty = true := by
      rw [String.isEmpty_iff, ← String.toList_eq_nil_iff, toList_pushParams plus,
        Escaping.params_eq_nil]
      exact hparams
    have htext : (Binance.unsignedQuery recvWindow now params).toList =
        (queryEscaping plus).params params ++
          '&' :: (("recvWindow".toList ++ '=' :: (toString recvWindow).toList) ++
            '&' :: ("timestamp".toList ++ '=' :: (toString now).toList)) := by
      simp only [Binance.unsignedQuery, if_neg hempty, String.toList_append,
        toList_pushParams plus, List.append_assoc]
      rfl
    rw [htext, parse_append, Escaping.parse_params, hown]
    rfl

/-- Both encoders are undone by the standard reader, and so is the signed query. -/
theorem encoders_round_trip :
    (∀ plus params, parse plus (stripMark (buildQueryString params).toList) = some params) ∧
      (∀ params, parse true (Kraken.formEncode params).toList = some params) ∧
      Function.Injective buildQueryString ∧ Function.Injective Kraken.formEncode ∧
      ∀ plus hmac apiSecret recvWindow now params,
        parse plus (Binance.signedQuery hmac apiSecret recvWindow now params).toList =
          some (params ++ [("recvWindow", toString recvWindow), ("timestamp", toString now),
            ("signature", Binance.signQuery hmac apiSecret
              (Binance.unsignedQuery recvWindow now params))]) := by
  have hquery : ∀ plus params,
      parse plus (stripMark (buildQueryString params).toList) = some params := by
    intro plus params
    rw [toList_buildQueryString plus, Escaping.parse_params]
  have hform : ∀ params, parse true (Kraken.formEncode params).toList = some params := by
    intro params
    rw [toList_formEncode, Escaping.parse_params]
  refine ⟨hquery, hform, ?_, ?_, ?_⟩
  · intro ps qs heq
    have hread := hquery false ps
    rw [heq, hquery false qs] at hread
    exact (Option.some.inj hread).symm
  · intro ps qs heq
    have hread := hform ps
    rw [heq, hform qs] at hread
    exact (Option.some.inj hread).symm
  · intro plus hmac apiSecret recvWindow now params
    -- The signature is appended as it is: hexadecimal digits need no escape.
    have hsign : parse plus ("signature".toList ++ '=' ::
        (Binance.signQuery hmac apiSecret
          (Binance.unsignedQuery recvWindow now params)).toList) =
        some [("signature", Binance.signQuery hmac apiSecret
          (Binance.unsignedQuery recvWindow now params))] :=
      parse_plain (by decide) (hexEncode_plain _)
    have htext : (Binance.signedQuery hmac apiSecret recvWindow now params).toList =
        (Binance.unsignedQuery recvWindow now params).toList ++
          '&' :: ("signature".toList ++ '=' ::
            (Binance.signQuery hmac apiSecret
              (Binance.unsignedQuery recvWindow now params)).toList) := by
      simp only [Binance.signedQuery, String.toList_append, List.append_assoc]
      rfl
    rw [htext, parse_append, parse_unsignedQuery, hsign]
    simp

end ExchangeApiws.Spec
