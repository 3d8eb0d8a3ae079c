import ExchangeApiws.Native.KucoinClient

/-!
# KuCoin signatures

Every header that is computed from a request is a valid header value, so that a request can be
signed whenever the API key is one, and what is sent carries the signature of exactly that.

## Key results

- `signRequest_ok`: what a signed request carries
- `buildRequest_eq`: signing a request is building it, with signatures
-/

namespace ExchangeApiws.Native.KucoinClient

open Kucoin RetryLoops

/-! ## Header values -/

/-- A visible ASCII character. -/
def IsVisibleChar (c : Char) : Prop := 32 < c.toNat ∧ c.toNat < 127

/-- A text of visible ASCII is a header value. -/
theorem hv_of_isVisibleChar [HeaderValue] {s : String} (h : ∀ c ∈ s.toList, IsVisibleChar c) :
    hv s = .ok () := by
  rw [hv, if_pos (HeaderValue.fromStr_visible s fun c hc => ⟨(h c hc).1.le, (h c hc).2⟩)]

/-- The base64 alphabet is visible ASCII. -/
theorem isVisibleChar_base64Char (n : ℕ) : IsVisibleChar (base64Char n) := by
  have hbelow : ∀ n < 63, IsVisibleChar (base64Char n) := by
    simp only [IsVisibleChar]
    decide
  by_cases h : n < 63
  · exact hbelow n h
  · have hslash : base64Char n = '/' := by
      simp only [base64Char]
      rw [if_neg (by omega), if_neg (by omega), if_neg (by omega), if_neg (by omega)]
    rw [hslash]
    exact ⟨by decide, by decide⟩

/-- What base64 writes is visible ASCII, its padding included. -/
theorem isVisibleChar_of_mem_base64 {input : List UInt8} {c : Char} (h : c ∈ base64 input) :
    IsVisibleChar c := by
  have hpad : IsVisibleChar '=' := ⟨by decide, by decide⟩
  induction input using base64.induct with
  | case1 => cases h
  | case2 a =>
    simp only [base64, List.mem_cons, List.not_mem_nil, or_false] at h
    rcases h with rfl | rfl | rfl | rfl
    all_goals first | exact hpad | exact isVisibleChar_base64Char _
  | case3 a b =>
    simp only [base64, List.mem_cons, List.not_mem_nil, or_false] at h
    rcases h with rfl | rfl | rfl | rfl
    all_goals first | exact hpad | exact isVisibleChar_base64Char _
  | case4 a b c rest ih =>
    simp only [base64, List.mem_cons] at h
    rcases h with rfl | rfl | rfl | rfl | h
    · exact isVisibleChar_base64Char _
    · exact isVisibleChar_base64Char _
    · exact isVisibleChar_base64Char _
    · exact isVisibleChar_base64Char _
    · exact ih h

/-- A signature is visible ASCII. -/
theorem isVisibleChar_hmacB64 (hmac : List UInt8 → List UInt8 → List UInt8)
    (key message : String) : ∀ c ∈ (hmacB64 hmac key message).toList, IsVisibleChar c := by
  intro c hc
  rw [hmacB64, String.toList_ofList] at hc
  exact isVisibleChar_of_mem_base64 hc

/-- A signature is a header value. -/
theorem hv_hmacB64 [HeaderValue] (hmac : List UInt8 → List UInt8 → List UInt8)
    (key message : String) : hv (hmacB64 hmac key message) = .ok () :=
  hv_of_isVisibleChar (isVisibleChar_hmacB64 hmac key message)

/-- Digits are visible ASCII. -/
theorem isVisibleChar_of_isDigit {c : Char} (h : c.isDigit = true) : IsVisibleChar c := by
  simp only [Char.isDigit, Bool.and_eq_true, decide_eq_true_eq] at h
  have hlow : 48 ≤ c.toNat := h.1
  have hhigh : c.toNat ≤ 57 := h.2
  exact ⟨by omega, by omega⟩

/-- A timestamp is visible ASCII, a negative one too. -/
theorem isVisibleChar_toString (i : Int64) : ∀ c ∈ (toString i).toList, IsVisibleChar c := by
  have hnat : ∀ n : ℕ, ∀ c ∈ (Nat.repr n).toList, IsVisibleChar c := by
    intro n c hc
    rw [Nat.toList_repr] at hc
    exact isVisibleChar_of_isDigit (Nat.isDigit_of_mem_toDigits (by decide) (by decide) hc)
  intro c hc
  have hrepr : toString i = Int.repr i.toInt := rfl
  rw [hrepr] at hc
  cases hi : i.toInt with
  | ofNat n =>
    rw [hi] at hc
    exact hnat n c hc
  | negSucc n =>
    rw [hi, Int.repr, String.toList_append, List.mem_append] at hc
    rcases hc with hc | hc
    · have hminus : c = '-' := by simpa using hc
      rw [hminus]
      exact ⟨by decide, by decide⟩
    · exact hnat _ c hc

/-- A timestamp is a header value. -/
theorem hv_toString [HeaderValue] (i : Int64) : hv (toString i) = .ok () :=
  hv_of_isVisibleChar (isVisibleChar_toString i)

/-! ## Signed requests -/

section

variable {hmac : List UInt8 → List UInt8 → List UInt8} {creds : Credentials}

/-- The headers of a request that is signed at `localMs`. -/
def headersOf (hmac : List UInt8 → List UInt8 → List UInt8) (creds : Credentials)
    (method endpoint body : String) (timestamp : Int64) : List (String × String) :=
  [("KC-API-KEY", creds.key),
    ("KC-API-SIGN", hmacB64 hmac creds.secret (prehash (toString timestamp) method endpoint body)),
    ("KC-API-TIMESTAMP", toString timestamp),
    ("KC-API-PASSPHRASE", hmacB64 hmac creds.secret creds.passphrase),
    ("KC-API-KEY-VERSION", "2"), ("content-type", "application/json")]

/-- The API key alone decides. -/
theorem buildHeadersWithOffset_eq [HeaderValue] (method endpoint body : String)
    (localMs offsetMs : Int64) :
    buildHeadersWithOffset hmac creds method endpoint body localMs offsetMs =
      (Kucoin.buildHeaders creds.key).map fun _ =>
        headersOf hmac creds method endpoint body (skewedTimestampMs localMs offsetMs) := by
  simp only [buildHeadersWithOffset, hv_hmacB64, hv_toString, Kucoin.buildHeaders]
  cases hv creds.key with
  | error e => rfl
  | ok _ => rfl

/-- What is sent of a body: nothing, if it is empty. -/
def sentBody (spec : CallSpec) : Option String :=
  if (spec.body.getD "").isEmpty then none else some (spec.body.getD "")

/-- The body that is signed is the one that is sent, or empty. -/
theorem getD_sentBody (spec : CallSpec) : (sentBody spec).getD "" = spec.body.getD "" := by
  rw [sentBody]
  split
  · rename_i hempty
    rw [String.isEmpty_iff] at hempty
    rw [hempty, Option.getD_none]
  · rw [Option.getD_some]

variable {spec : CallSpec} {localMs offset : Int64}

/-- The API key decides, then the verb. -/
theorem signRequest_eq [HeaderValue] :
    signRequest hmac creds spec localMs offset =
      (Kucoin.buildHeaders creds.key).bind fun _ =>
        if spec.verb ∈ ["GET", "POST", "DELETE", "PUT"] then
          .ok ⟨spec.verb, spec.url, headersOf hmac creds spec.verb spec.endpoint
            (spec.body.getD "") (skewedTimestampMs localMs offset), sentBody spec⟩
        else .error (.config ("unsupported HTTP verb: " ++ spec.verb)) := by
  simp only [signRequest, buildHeadersWithOffset_eq]
  cases Kucoin.buildHeaders creds.key with
  | error e => rfl
  | ok _ => rfl

/-- Signing a request is building it, with signatures. -/
theorem buildRequest_eq [HeaderValue] (timestamp : ℤ) :
    buildRequest creds.key spec.verb spec.url spec.body timestamp =
      (signRequest hmac creds spec localMs offset).map fun request =>
        ⟨request.verb, request.url, creds.key, timestamp, request.body⟩ := by
  rw [signRequest_eq, buildRequest]
  cases Kucoin.buildHeaders creds.key with
  | error e => rfl
  | ok _ =>
    simp only [Except.bind]
    split
    · rfl
    · rfl

/-- What a signed request carries. -/
theorem signRequest_ok [HeaderValue] {request : SignedRequest}
    (h : signRequest hmac creds spec localMs offset = .ok request) :
    request = ⟨spec.verb, spec.url, headersOf hmac creds spec.verb spec.endpoint
      (spec.body.getD "") (skewedTimestampMs localMs offset), sentBody spec⟩ := by
  rw [signRequest_eq] at h
  cases hkey : Kucoin.buildHeaders creds.key with
  | error e =>
    rw [hkey] at h
    cases h
  | ok _ =>
    rw [hkey] at h
    simp only [Except.bind] at h
    split at h
    · cases h
      rfl
    · cases h

end

end ExchangeApiws.Native.KucoinClient
