import ExchangeApiws.ForStd.ClockOffset
import ExchangeApiws.ForStd.UrlQuery
import ExchangeApiws.Spec.ConcurrentCalls
import ExchangeApiws.Spec.QueryEncoding

/-!
# Server time

`sync_server_time` measures how far the venue's clock is ahead, and every later request of every
clone is stamped with the local clock corrected by that. The measurement begins before the first
attempt of its call, so what the call spends on retries counts as latency. The URL parser of the
HTTP client stands between what is signed and what arrives; it is a parameter.

## Key results

- `Synced.step`: what every step keeps of the offset, wherever it has got to
- `isPlainEndpoint_get`: the URL parser changes nothing in the encoded parameters of a GET
- `signed_requests_are_accepted`: the venue accepts what is signed with a measured offset
-/

namespace ExchangeApiws.Native.KucoinClient

open Kucoin RetryLoops

variable {F : Type} (setting : Setting F) (venueMs : ℕ → ℤ) (latency : ℤ)

/-- The local clock as a number. -/
def Setting.localInt (time : ℕ) : ℤ := (setting.localMs time).toInt

/-- The offset was measured by a call of `sync_server_time`. -/
def OffsetTrue (time : ℕ) (offset : Int64) : Prop :=
  MeasuredOffset setting.localInt venueMs latency time offset.toInt

/-- A request of one of the methods is signed at its time, with an offset that was measured if one
    was stored by then. -/
def StampTrue [HeaderValue] (stamped : Stamped) : Prop :=
  ∃ (method : Method) (offset : Int64),
    signRequest setting.hmac setting.creds (method.spec setting.baseUrl)
        (setting.localMs stamped.signedAt) offset = .ok stamped.request ∧
      (0 < stamped.syncs → OffsetTrue setting venueMs latency stamped.signedAt offset)

/-- What a call holds of the offset and the clock. -/
structure Call.Synced [HeaderValue] (call : Call F) (now : ℕ) : Prop where
  spec : call.phase ≠ .notStarted → ∃ method : Method, call.spec = method.spec setting.baseUrl
  began : ∀ localMs, call.syncFrom = some localMs →
    localMs = setting.localMs call.startedAt ∧ call.startedAt ≤ now
  loaded : ∀ offset syncs, call.phase = .loaded offset syncs → 0 < syncs →
    OffsetTrue setting venueMs latency now offset
  signed : ∀ stamped, call.phase = .signed stamped → StampTrue setting venueMs latency stamped
  storing : ∀ offset response, call.phase = .storing offset response →
    OffsetTrue setting venueMs latency now offset

/-- What a state holds of the offset. -/
structure State.Synced [HeaderValue] (s : State F) : Prop where
  shared : 0 < s.syncs → OffsetTrue setting venueMs latency s.now s.offset
  calls : ∀ c, (s.calls c).Synced setting venueMs latency s.now
  wire : ∀ sending ∈ s.wire, StampTrue setting venueMs latency sending.stamped

/-! ## What the venue does -/

/-- The venue answers a request for its time with the time, read while the call was waiting. -/
def AnswersTime (s : State F) : Action F → Prop
  | .receive c (.ok answer) _ => (s.calls c).syncFrom.isSome → ∀ serverMs,
      unwrapResponse setting.i64FromValue answer.response = .ok serverMs →
        ∃ stamped, (s.calls c).startedAt ≤ stamped ∧ stamped ≤ s.now ∧
          serverMs.toInt = venueMs stamped
  | _ => True

/-- No call of `sync_server_time` takes longer than `latency`, all its attempts together. -/
def SyncsWithin (s : State F) : Action F → Prop
  | .receive c _ _ => (s.calls c).syncFrom.isSome →
      venueMs s.now - venueMs (s.calls c).startedAt ≤ latency
  | _ => True

/-- The clocks are far from the ends of the 64-bit numbers, and the venue's does not go back. -/
structure ClocksFit : Prop where
  localMs : ∀ time, -2 ^ 61 < setting.localInt time ∧ setting.localInt time < 2 ^ 61
  venue : ∀ time, -2 ^ 61 < venueMs time ∧ venueMs time < 2 ^ 61
  venue_mono : Monotone venueMs

variable {setting venueMs latency}

/-- A synced call stays synced while time goes on. -/
theorem Call.Synced.mono [HeaderValue] {call : Call F} {now later : ℕ}
    (h : call.Synced setting venueMs latency now) (hle : now ≤ later) :
    call.Synced setting venueMs latency later where
  spec := h.spec
  began localMs hfrom := ⟨(h.began localMs hfrom).1, (h.began localMs hfrom).2.trans hle⟩
  loaded offset syncs hphase hsyncs := (h.loaded offset syncs hphase hsyncs).mono hle
  signed := h.signed
  storing offset response hphase := (h.storing offset response hphase).mono hle

/-- The difference that `sync_server_time` takes does not overflow. -/
theorem ClocksFit.toInt_sub (hclocks : ClocksFit setting venueMs) {serverMs localMs : Int64}
    {began stamped : ℕ} (hserver : serverMs.toInt = venueMs stamped)
    (hlocal : localMs = setting.localMs began) :
    (serverMs - localMs).toInt = venueMs stamped - setting.localInt began := by
  have hvenue := hclocks.venue stamped
  have hbegan := hclocks.localMs began
  rw [Int64.toInt_sub, hserver, hlocal]
  exact Int.bmod_eq_of_le (by simp only [Setting.localInt] at hbegan; omega)
    (by simp only [Setting.localInt] at hbegan; omega)

/-- A call that holds neither an offset nor a request. -/
theorem Call.Synced.idle [HeaderValue] {call call' : Call F} {now : ℕ}
    (h : call.Synced setting venueMs latency now) (hspec : call'.spec = call.spec)
    (hstarted : call'.startedAt = call.startedAt) (hfrom : call'.syncFrom = call.syncFrom)
    (hphase : call.phase ≠ .notStarted)
    (hphase' : call'.phase = .top ∨ call'.phase = .inFlight ∨
      (∃ deadline, call'.phase = .sleeping deadline) ∨ ∃ result, call'.phase = .returned result) :
    call'.Synced setting venueMs latency now where
  spec _ := hspec ▸ h.spec hphase
  began localMs hsync := by
    rw [hstarted]
    exact h.began localMs (hfrom ▸ hsync)
  loaded offset syncs hloaded := by
    rw [hloaded] at hphase'
    rcases hphase' with h | h | ⟨_, h⟩ | ⟨_, h⟩ <;> cases h
  signed stamped hsigned := by
    rw [hsigned] at hphase'
    rcases hphase' with h | h | ⟨_, h⟩ | ⟨_, h⟩ <;> cases h
  storing offset response hstoring := by
    rw [hstoring] at hphase'
    rcases hphase' with h | h | ⟨_, h⟩ | ⟨_, h⟩ <;> cases h

/-- Where a call stands with a response: one of `sync_server_time` holds a true offset. -/
theorem Call.Synced.finish [HeaderValue] {call : Call F} {now : ℕ} {response : Response F}
    (h : call.Synced setting venueMs latency now) (hclocks : ClocksFit setting venueMs)
    (hphase : call.phase ≠ .notStarted)
    (hanswer : call.syncFrom.isSome → ∀ serverMs,
      unwrapResponse setting.i64FromValue response = .ok serverMs →
        ∃ stamped, call.startedAt ≤ stamped ∧ stamped ≤ now ∧ serverMs.toInt = venueMs stamped)
    (hwithin : call.syncFrom.isSome → venueMs now - venueMs call.startedAt ≤ latency) :
    Call.Synced setting venueMs latency { call with phase := call.finish setting response }
      now := by
  -- only a synchronisation with an answer that decodes has an offset to store
  cases hfrom : call.syncFrom with
  | none =>
    refine h.idle rfl rfl hfrom.symm hphase (.inr (.inr (.inr ⟨.ok response, ?_⟩)))
    simp only [Call.finish, hfrom]
  | some localMs =>
    cases hserver : unwrapResponse setting.i64FromValue response with
    | error e =>
      refine h.idle rfl rfl hfrom.symm hphase (.inr (.inr (.inr ⟨.ok response, ?_⟩)))
      simp only [Call.finish, hfrom, hserver]
    | ok serverMs =>
      have hsome : call.syncFrom.isSome := by rw [hfrom]; rfl
      obtain ⟨stamped, hbegan, hnow, htime⟩ := hanswer hsome serverMs hserver
      have hfinish : call.finish setting response = .storing (serverMs - localMs) response := by
        simp only [Call.finish, hfrom, hserver]
      rw [hfinish]
      exact
        { spec := fun _ => h.spec hphase
          began := fun localMs' hsync => h.began localMs' (hfrom.trans hsync)
          loaded := fun _ _ hloaded => by cases hloaded
          signed := fun _ hsigned => by cases hsigned
          storing := by
            intro offset response' hstoring
            cases hstoring
            refine ⟨call.startedAt, stamped, hbegan, hnow,
              hclocks.toInt_sub htime (h.began localMs hfrom).1, ?_⟩
            have hle := hclocks.venue_mono hnow
            have htotal := hwithin hsome
            omega }

/-- What an outcome leaves a call with. -/
theorem Receives.synced [HeaderValue] {call call' : Call F} {now : ℕ}
    {outcome : Except String (Answer F)}
    (h : Receives setting { call with received := call.received ++ [(now, outcome)] } now outcome
      call')
    (hinv : call.Synced setting venueMs latency now) (hclocks : ClocksFit setting venueMs)
    (hphase : call.phase = .inFlight)
    (hanswer : ∀ answer, outcome = .ok answer → call.syncFrom.isSome → ∀ serverMs,
      unwrapResponse setting.i64FromValue answer.response = .ok serverMs →
        ∃ stamped, call.startedAt ≤ stamped ∧ stamped ≤ now ∧ serverMs.toInt = venueMs stamped)
    (hwithin : call.syncFrom.isSome → venueMs now - venueMs call.startedAt ≤ latency) :
    call'.Synced setting venueMs latency now := by
  have hstarted : call.phase ≠ .notStarted := hphase.trans_ne (by simp)
  cases h with
  | rateLimited => exact hinv.idle rfl rfl rfl hstarted (.inr (.inr (.inl ⟨_, rfl⟩)))
  | gaveUp => exact hinv.idle rfl rfl rfl hstarted (.inr (.inr (.inr ⟨_, rfl⟩)))
  | @finished answer =>
    refine Call.Synced.finish ?_ hclocks hstarted (hanswer answer rfl) hwithin
    exact ⟨hinv.spec, hinv.began, hinv.loaded, hinv.signed, hinv.storing⟩
  | backedOff => exact hinv.idle rfl rfl rfl hstarted (.inr (.inr (.inl ⟨_, rfl⟩)))
  | failed => exact hinv.idle rfl rfl rfl hstarted (.inr (.inr (.inr ⟨_, rfl⟩)))

/-- A step that only replaces a call. -/
theorem State.Synced.setCall [HeaderValue] {s : State F} (h : s.Synced setting venueMs latency)
    {c : ℕ} {call : Call F} (hcall : call.Synced setting venueMs latency s.now) :
    (s.setCall c call).Synced setting venueMs latency where
  shared := h.shared
  calls d := by
    by_cases hd : d = c
    · rw [hd, State.calls_setCall_self]
      exact hcall
    · rw [State.calls_setCall_of_ne _ _ hd]
      exact h.calls d
  wire := h.wire

/-- What every step keeps. -/
theorem State.Synced.step [HeaderValue] {s s' : State F} {a : Action F}
    (h : s.Synced setting venueMs latency) (hclocks : ClocksFit setting venueMs)
    (hanswers : AnswersTime setting venueMs s a) (hwithin : SyncsWithin venueMs latency s a)
    (hstep : KucoinClient.step setting s a = some s') : s'.Synced setting venueMs latency := by
  cases step_effect hstep with
  | @advance nanos =>
    have hle : s.now ≤ s.now + nanos := Nat.le_add_right ..
    exact
      { shared := fun hsyncs => (h.shared hsyncs).mono hle
        calls := fun c => (h.calls c).mono hle
        wire := h.wire }
  | @start c method hphase =>
    refine h.setCall
      { spec := fun _ => ⟨method, rfl⟩
        began := fun _ hfrom => by cases hfrom
        loaded := fun _ _ hloaded => by cases hloaded
        signed := fun _ hsigned => by cases hsigned
        storing := fun _ _ hstoring => by cases hstoring }
  | startSync hphase =>
    refine h.setCall
      { spec := fun _ => ⟨getServerTime, rfl⟩
        began := fun _ hfrom => by cases hfrom; exact ⟨rfl, le_rfl⟩
        loaded := fun _ _ hloaded => by cases hloaded
        signed := fun _ hsigned => by cases hsigned
        storing := fun _ _ hstoring => by cases hstoring }
  | @load c hphase hattempt =>
    -- what is loaded was stored, and what was stored is true
    have hcall := h.calls c
    refine h.setCall
      { spec := fun _ => hcall.spec (hphase.trans_ne (by simp))
        began := hcall.began
        loaded := fun _ _ hloaded hsyncs => by cases hloaded; exact h.shared hsyncs
        signed := fun _ hsigned => by cases hsigned
        storing := fun _ _ hstoring => by cases hstoring }
  | @exhausted c hphase hattempt =>
    exact h.setCall ((h.calls c).idle rfl rfl rfl (hphase.trans_ne (by simp))
      (.inr (.inr (.inr ⟨_, rfl⟩))))
  | @sign c syncs offset request hphase hsign =>
    have hcall := h.calls c
    obtain ⟨method, hmethod⟩ := hcall.spec (hphase.trans_ne (by simp))
    rw [hmethod] at hsign
    refine h.setCall
      { spec := fun _ => ⟨method, hmethod⟩
        began := hcall.began
        loaded := fun _ _ hloaded => by cases hloaded
        signed := fun _ hsigned => by
          cases hsigned
          exact ⟨method, offset, hsign, fun hsyncs => hcall.loaded offset syncs hphase hsyncs⟩
        storing := fun _ _ hstoring => by cases hstoring }
  | @refuse c syncs offset e hphase hsign =>
    exact h.setCall ((h.calls c).idle rfl rfl rfl (hphase.trans_ne (by simp))
      (.inr (.inr (.inr ⟨_, rfl⟩))))
  | @send c stamped hphase =>
    have hcall : Call.Synced setting venueMs latency { s.calls c with phase := .inFlight } s.now :=
      (h.calls c).idle rfl rfl rfl (hphase.trans_ne (by simp)) (.inr (.inl rfl))
    have hset := h.setCall (c := c) hcall
    -- the new request on the wire is the one that its call had signed
    refine ⟨hset.shared, hset.calls, fun sending hmem => ?_⟩
    rcases List.mem_append.mp hmem with hmem | hmem
    · exact h.wire sending hmem
    · obtain rfl := List.mem_singleton.mp hmem
      exact (h.calls c).signed stamped hphase
  | @receive c nanos outcome call hphase hreceives =>
    refine h.setCall (hreceives.synced (h.calls c) hclocks hphase ?_ hwithin)
    rintro answer rfl
    exact hanswers
  | @wake c deadline hphase hdeadline =>
    exact h.setCall ((h.calls c).idle rfl rfl rfl (hphase.trans_ne (by simp)) (.inl rfl))
  | @store c offset response hphase =>
    have hcall : Call.Synced setting venueMs latency
        { s.calls c with phase := .returned (.ok response) } s.now :=
      (h.calls c).idle rfl rfl rfl (hphase.trans_ne (by simp)) (.inr (.inr (.inr ⟨_, rfl⟩)))
    have hset := h.setCall (c := c) hcall
    exact ⟨fun _ => (h.calls c).storing offset response hphase, hset.calls, hset.wire⟩

/-- A new client has no offset to be wrong. -/
theorem State.Synced.new [HeaderValue] : (State.new F).Synced setting venueMs latency where
  shared hsyncs := by cases hsyncs
  calls _ :=
    { spec := fun hnot => absurd rfl hnot
      began := fun _ hfrom => by cases hfrom
      loaded := fun _ _ hloaded => by cases hloaded
      signed := fun _ hsigned => by cases hsigned
      storing := fun _ _ hstoring => by cases hstoring }
  wire _ hmem := by cases hmem

/-! ## Acceptance -/

/-- A request as the venue receives it. -/
structure Arrived where
  method : String
  target : String
  headers : List (String × String)
  body : String
  deriving DecidableEq, Repr

def isBlank (c : Char) : Bool := c == ' ' || c == '\t'

/-- A header value as it is read, without the blanks around it. -/
def readValue (value : String) : String :=
  String.ofList ((value.toList.dropWhile isBlank).rdropWhile isBlank)

/-- Visible text is read as it is. -/
theorem readValue_of_visible {value : String} (h : ∀ c ∈ value.toList, IsVisibleChar c) :
    readValue value = value := by
  have hno : ∀ c ∈ value.toList, isBlank c = false := by
    intro c hc
    have hlow := (h c hc).1
    simp only [isBlank, Bool.or_eq_false_iff, beq_eq_false_iff_ne]
    constructor
    · rintro rfl
      exact absurd hlow (by decide)
    · rintro rfl
      exact absurd hlow (by decide)
  have hdrop : value.toList.dropWhile isBlank = value.toList :=
    List.dropWhile_eq_self_iff.mpr fun hlt => by simp [hno _ (List.getElem_mem hlt)]
  have hrdrop : value.toList.rdropWhile isBlank = value.toList :=
    List.rdropWhile_eq_self_iff.mpr fun hne => by simp [hno _ (List.getLast_mem hne)]
  rw [readValue, hdrop, hrdrop, String.ofList_toList]

/-- How a request arrives. `target` is the URL parser of the HTTP client: the path and query that
    a URL is requested under, if it is a URL. -/
def SignedRequest.arrive (target : String → Option String) (request : SignedRequest) :
    Option Arrived :=
  (target request.url).map fun path => ⟨request.verb, path,
    request.headers.map fun (name, value) => (name, readValue value), request.body.getD ""⟩

/-- What the venue checks of a request that arrives when its clock shows `venueNow`: the signature
    of the request as it arrived, the signed passphrase, and a timestamp within five seconds. -/
def Accepts (setting : Setting F) (venueNow : ℤ) (arrived : Arrived) : Prop :=
  ∃ timestamp : Int64,
    arrived.headers.lookup "KC-API-KEY" = some setting.creds.key ∧
    arrived.headers.lookup "KC-API-TIMESTAMP" = some (toString timestamp) ∧
    arrived.headers.lookup "KC-API-SIGN" = some (hmacB64 setting.hmac setting.creds.secret
      (prehash (toString timestamp) arrived.method arrived.target arrived.body)) ∧
    arrived.headers.lookup "KC-API-PASSPHRASE" =
      some (hmacB64 setting.hmac setting.creds.secret setting.creds.passphrase) ∧
    |timestamp.toInt - venueNow| ≤ 5000

/-- A character of a path in which the URL parser has nothing to change, escape or resolve. -/
def isPlainPathChar (c : Char) : Bool := c.isAlphanum || c == '-' || c == '_' || c == '/'

/-- A path and query in which the URL parser has nothing to change. -/
def isPlainEndpoint (endpoint : String) : Bool :=
  endpoint.toList.head? == some '/' &&
    (endpoint.toList.takeWhile (· ≠ '?')).all isPlainPathChar &&
    (endpoint.toList.dropWhile (· ≠ '?')).all (!UrlQuery.isEscaped ·)

/-- Behind this base URL, a path and query in which there is nothing to change are requested as
    they are; so it is when the base URL is an origin. -/
def KeepsEndpoints (target : String → Option String) (baseUrl : String) : Prop :=
  ∀ endpoint, isPlainEndpoint endpoint = true → target (baseUrl ++ endpoint) = some endpoint

/-- What is written for a byte is left alone by the URL parser. -/
theorem isEscaped_percentEncodeByte (b : UInt8) :
    ∀ c ∈ percentEncodeByte b, UrlQuery.isEscaped c = false := by
  have hdigit : ∀ n < 16, UrlQuery.isEscaped (Nat.digitChar n).toUpper = false := by decide
  -- a byte is one of 256
  have hunreserved : ∀ n < 256, isUnreserved (.ofNat n) = true →
      UrlQuery.isEscaped (Char.ofUInt8 (.ofNat n)) = false := by
    decide +kernel
  unfold percentEncodeByte
  split
  · rename_i h
    have hb := hunreserved b.toNat b.toNat_lt
    rw [UInt8.ofNat_toNat] at hb
    simpa using hb h
  · simp only [percentByte, hexByte, List.map_cons, List.map_nil, List.forall_mem_cons]
    exact ⟨by decide, hdigit _ (PercentEncoding.high_lt b), hdigit _ (PercentEncoding.low_lt b),
      fun _ hc => by cases hc⟩

/-- What the pieces and the separator share, their join shares. -/
theorem forall_mem_intercalate {P : Char → Prop} {sep : List Char} (hsep : ∀ c ∈ sep, P c)
    {l : List (List Char)} (hl : ∀ cs ∈ l, ∀ c ∈ cs, P c) : ∀ c ∈ sep.intercalate l, P c := by
  induction l with
  | nil => exact nofun
  | cons cs rest ih =>
    have hrest := ih fun ds hds => hl ds (List.mem_cons_of_mem _ hds)
    have hcs := hl cs List.mem_cons_self
    cases rest with
    | nil =>
      rw [List.intercalate_singleton]
      exact hcs
    | cons ds rest =>
      rw [List.intercalate_cons_cons]
      simp only [List.mem_append]
      rintro c ((hc | hc) | hc)
      · exact hcs c hc
      · exact hsep c hc
      · exact hrest c hc

/-- An encoded name or value is left alone by the URL parser. -/
theorem isEscaped_percentEncode (s : String) :
    ∀ c ∈ (percentEncode s).toList, UrlQuery.isEscaped c = false := by
  intro c hc
  rw [percentEncode, String.toList_ofList] at hc
  obtain ⟨b, -, hc⟩ := List.mem_flatMap.mp hc
  exact isEscaped_percentEncodeByte b c hc

/-- A query string is empty or begins with its mark, and is left alone by the URL parser. -/
theorem buildQueryString_plain (params : List (String × String)) :
    (∀ c ∈ (buildQueryString params).toList.head?, c = '?') ∧
      ∀ c ∈ (buildQueryString params).toList, UrlQuery.isEscaped c = false := by
  rw [buildQueryString]
  split
  · constructor
    · simp
    · simp
  · refine ⟨fun c hc => by simpa [eq_comm] using hc, fun c hc => ?_⟩
    rw [String.toList_append, String.toList_intercalate] at hc
    rcases List.mem_append.mp hc with hmark | hc
    · obtain rfl : c = '?' := by simpa using hmark
      decide
    · have hamp : ∀ d ∈ "&".toList, UrlQuery.isEscaped d = false := by
        intro d hd
        obtain rfl : d = '&' := by simpa using hd
        decide
      refine forall_mem_intercalate hamp ?_ c hc
      simp only [List.mem_map, forall_exists_index, and_imp]
      rintro _ _ q - rfl rfl d hd
      simp only [String.toList_append, List.mem_append] at hd
      rcases hd with (hd | hd) | hd
      · exact isEscaped_percentEncode q.1 d hd
      · obtain rfl : d = '=' := by simpa using hd
        decide
      · exact isEscaped_percentEncode q.2 d hd

/-- A GET of a plain path is plain, whatever its parameters are. -/
theorem isPlainEndpoint_get {path : String} (hslash : path.toList.head? = some '/')
    (hpath : path.toList.all isPlainPathChar = true) (params : List (String × String)) :
    isPlainEndpoint (path ++ buildQueryString params) = true := by
  obtain ⟨hmark, hescaped⟩ := buildQueryString_plain params
  have hno : ∀ c ∈ path.toList, c ≠ '?' := by
    rintro c hc rfl
    exact absurd (List.all_eq_true.mp hpath _ hc) (by decide)
  have htake : (path.toList ++ (buildQueryString params).toList).takeWhile (· ≠ '?') =
      path.toList := by
    rw [List.takeWhile_append_of_pos (by simpa using hno)]
    cases hquery : (buildQueryString params).toList with
    | nil => simp
    | cons c cs =>
      rw [hquery] at hmark
      simp [hmark c rfl]
  have hdrop : (path.toList ++ (buildQueryString params).toList).dropWhile (· ≠ '?') =
      (buildQueryString params).toList := by
    rw [List.dropWhile_append_of_pos (by simpa using hno)]
    cases hquery : (buildQueryString params).toList with
    | nil => rfl
    | cons c cs =>
      rw [hquery] at hmark
      simp [hmark c rfl]
  have hhead : (path.toList ++ (buildQueryString params).toList).head? = some '/' := by
    rw [List.head?_append, hslash, Option.some_or]
  simp only [isPlainEndpoint, String.toList_append, htake, hdrop, hhead, hpath]
  simpa using hescaped

/-- Every method asks for its endpoint behind the base URL. -/
theorem Method.url_spec (baseUrl : String) (method : Method) :
    (method.spec baseUrl).url = baseUrl ++ (method.spec baseUrl).endpoint := by
  cases method <;> rfl

/-- The corrected clock does not overflow. -/
theorem ClocksFit.toInt_skewedTimestampMs (hclocks : ClocksFit setting venueMs) {time signed : ℕ}
    {offset : Int64} (hoffset : OffsetTrue setting venueMs latency time offset) :
    (skewedTimestampMs (setting.localMs signed) offset).toInt =
      setting.localInt signed + offset.toInt := by
  obtain ⟨began, stamped, -, -, hmeasured, -⟩ := hoffset
  have hlocal := hclocks.localMs signed
  have hbegan := hclocks.localMs began
  have hvenue := hclocks.venue stamped
  simp only [Setting.localInt] at hlocal hbegan hmeasured ⊢
  rw [skewedTimestampMs, Int64.toInt_ofIntClamp]
  · rw [Int64.toInt_minValue]
    omega
  · rw [Int64.toInt_maxValue]
    omega

end ExchangeApiws.Native.KucoinClient

namespace ExchangeApiws.Spec

open TransitionSystem Native Native.KucoinClient
open scoped Kucoin.SampleHeaders

/-- In every run of any number of calls through any clones of a client, some of them
    synchronising, every request that is signed with an offset that was read after a first one had
    been stored is accepted, if the URL parser changes nothing in its path and query, and as long
    as the latency of the synchronisations, the drift of the clocks and the time in transit leave
    room within the five seconds. -/
theorem signed_requests_are_accepted [Kucoin.HeaderValue] {F : Type} {setting : Setting F}
    {target : String → Option String} (htarget : KeepsEndpoints target setting.baseUrl)
    (hkey : readValue setting.creds.key = setting.creds.key) {venueMs : ℕ → ℤ}
    {latency drift : ℤ} (hclocks : ClocksFit setting venueMs)
    (hdrift : DriftWithin setting.localInt venueMs drift)
    {actions : List (Action F)} {s : State F}
    (hrun : run (step setting) (State.new F) actions = some s)
    (hanswers : StepsMeet (step setting) (AnswersTime setting venueMs) (State.new F) actions)
    (hwithin : StepsMeet (step setting) (SyncsWithin venueMs latency) (State.new F) actions)
    (hlatency : latency + drift ≤ 5000) {sending : Sending} (hmem : sending ∈ s.wire)
    (hsynced : 0 < sending.stamped.syncs) {endpoint : String}
    (hurl : sending.stamped.request.url = setting.baseUrl ++ endpoint)
    (hplain : isPlainEndpoint endpoint = true) {time : ℕ}
    (htime : sending.stamped.signedAt ≤ time)
    (htransit : venueMs time - venueMs sending.stamped.signedAt + drift ≤ 5000) :
    ∃ arrived, sending.stamped.request.arrive target = some arrived ∧
      Accepts setting (venueMs time) arrived := by
  have hinv : s.Synced setting venueMs latency :=
    run_invariant_of_stepsMeet (step setting)
      (fun _ _ _ hinv hok hstep => hinv.step hclocks hok.1 hok.2 hstep)
      (hanswers.and (step setting) hwithin) hrun State.Synced.new
  obtain ⟨method, offset, hsign, hoffset⟩ := hinv.wire sending hmem
  have htrue := hoffset hsynced
  have hcarries := signRequest_ok hsign
  obtain rfl : endpoint = (method.spec setting.baseUrl).endpoint := by
    rw [hcarries, method.url_spec] at hurl
    exact ((String.append_right_inj _).mp hurl).symm
  refine ⟨_, Option.map_eq_some_iff.mpr ⟨_, hurl ▸ htarget _ hplain, rfl⟩, skewedTimestampMs
    (setting.localMs sending.stamped.signedAt) offset, ?_⟩
  rw [hcarries]
  -- the key, the timestamp, the passphrase and the signature are read back as they were written
  refine ⟨congrArg some hkey, congrArg some (readValue_of_visible (isVisibleChar_toString _)),
    ?_, congrArg some (readValue_of_visible (isVisibleChar_hmacB64 _ _ _)), ?_⟩
  · rw [getD_sentBody]
    exact congrArg some (readValue_of_visible (isVisibleChar_hmacB64 _ _ _))
  · have hahead := htrue.corrected_le hdrift (t := sending.stamped.signedAt)
    have hbehind := htrue.le_corrected hclocks.venue_mono hdrift (t := sending.stamped.signedAt)
    have hpassed := hclocks.venue_mono htime
    rw [hclocks.toInt_skewedTimestampMs htrue, abs_le]
    constructor
    · omega
    · omega

/-- A venue whose clock is seven seconds ahead of the client's. -/
def aheadMs (time : ℕ) : ℤ := 7000 + min (time / 1000000) 900000

/-- The local clock of the example, as a number. -/
theorem localInt_sampleSetting (time : ℕ) :
    sampleSetting.localInt time = (min (time / 1000000) 900000 : ℕ) :=
  Int64.toInt_ofNat_of_lt (by omega)

/-- The clocks of the example are in range. -/
theorem clocksFit_sampleSetting : ClocksFit sampleSetting aheadMs where
  localMs time := by
    rw [localInt_sampleSetting]
    omega
  venue time := by
    rw [aheadMs]
    omega
  venue_mono time later hle := by
    have hdiv := Nat.div_le_div_right (c := 1000000) hle
    simp only [aheadMs]
    omega

/-- A synchronisation that takes twenty milliseconds, and a call after it. -/
def syncedActions : List (Action ℤ) :=
  [.startSync 0, .load 0, .sign 0, .send 0, .advance 20000000,
    .receive 0 (.ok ⟨⟨200, .ok "", .ok (.object [("code", .string "200000"),
      ("data", .number (.posInt 7010))])⟩, none⟩) 0,
    .store 0, .start 1 (.get "/a" [("symbol", "#")]), .load 1, .sign 1, .send 1]

/-- The actions of the example are enabled one after the other. -/
theorem isSome_run_syncedActions :
    (run (step sampleSetting) (State.new ℤ) syncedActions).isSome = true := rfl

/-- The state that the synchronised run leads to. -/
def syncedState : State ℤ := Option.get _ isSome_run_syncedActions

/-- The venue of the example answers with its time. -/
theorem answersTime_syncedActions :
    StepsMeet (step sampleSetting) (AnswersTime sampleSetting aheadMs) (State.new ℤ)
      syncedActions := by
  iterate 5 apply StepsMeet.cons _ trivial rfl
  · refine StepsMeet.cons _ (fun _ serverMs hserver => ⟨10000000, by decide, by decide, ?_⟩) rfl ?_
    · obtain rfl : 7010 = serverMs := Except.ok.inj hserver
      decide
    · iterate 5 apply StepsMeet.cons _ trivial rfl
      exact stepsMeet_nil _ _ _

/-- The exchange of the example takes no longer than 20 milliseconds. -/
theorem syncsWithin_syncedActions :
    StepsMeet (step sampleSetting) (SyncsWithin aheadMs 20) (State.new ℤ) syncedActions := by
  iterate 5 apply StepsMeet.cons _ trivial rfl
  · refine StepsMeet.cons _ (fun _ => by decide) rfl ?_
    iterate 5 apply StepsMeet.cons _ trivial rfl
    exact stepsMeet_nil _ _ _

/-- A URL parser that takes what is behind the base URL as it is. -/
def targetBehind (baseUrl url : String) : Option String :=
  if baseUrl.toList.isPrefixOf url.toList then
    some (String.ofList (url.toList.drop baseUrl.length))
  else none

/-- Such a parser keeps every endpoint. -/
theorem keepsEndpoints_targetBehind (baseUrl : String) :
    KeepsEndpoints (targetBehind baseUrl) baseUrl := by
  intro endpoint _
  simp [targetBehind, String.toList_append, ← String.length_toList]

/-- The request that is signed after the synchronisation arrives ten milliseconds later, with an
    encoded `#` in its query. -/
theorem signed_requests_are_accepted_ahead :
    ∃ sending ∈ syncedState.wire, ∃ arrived,
      sending.stamped.request.arrive (targetBehind "https://api") = some arrived ∧
        Accepts sampleSetting (aheadMs (sending.stamped.signedAt + 10000000)) arrived := by
  have hlength : 1 < syncedState.wire.length := by decide +kernel
  have hsynced : 0 < syncedState.wire[1].stamped.syncs := by decide +kernel +revert
  have hdrift : DriftWithin sampleSetting.localInt aheadMs 0 := by
    intro t t'
    rw [localInt_sampleSetting, localInt_sampleSetting, aheadMs, aheadMs]
    omega
  have hurl : syncedState.wire[1].stamped.request.url =
      sampleSetting.baseUrl ++ ("/a" ++ buildQueryString [("symbol", "#")]) := rfl
  refine ⟨_, List.getElem_mem hlength, ?_⟩
  refine signed_requests_are_accepted (keepsEndpoints_targetBehind "https://api") (by decide)
    clocksFit_sampleSetting hdrift
    (Option.some_get isSome_run_syncedActions).symm answersTime_syncedActions
    syncsWithin_syncedActions (by decide) (List.getElem_mem hlength) hsynced
    hurl (isPlainEndpoint_get (by decide) (by decide) _) (Nat.le_add_right ..) ?_
  simp only [aheadMs]
  omega

end ExchangeApiws.Spec
