import ExchangeApiws.ForStd.UrlQuery
import ExchangeApiws.Native.KucoinRest
import ExchangeApiws.Native.SignedRest
import ExchangeApiws.Spec.RetryLoop

/-!
# Queries with a caller's text put in as it is

Five calls put an argument into their query without encoding it. The URL parser of the HTTP
client and then the server read that text again, so an argument with reserved characters can
end the query, add a parameter or arrive changed.

## Key results

- `RawQuery.sends`: the URL of every request of such a call
- `sentParams_iff`: the arguments with which a request carries the intended parameters
-/

namespace ExchangeApiws.Spec

open Native PercentEncoding UrlQuery

variable {F T : Type} [F64 F]

/-- A call that puts a text of the caller into its query, with its arguments. -/
inductive RawQuery where
  | cancelAllOrders (symbol : String)
  | cancelAllStopOrders (symbol : String)
  | getOpenOrders (category : Bybit.Category) (symbol : Option String)
  | getPositions (category : Bybit.Category) (symbol : Option String)
  | getWalletBalance (accountType : String)
  deriving DecidableEq, Repr

/-- What the two clients are configured with and read from outside. -/
structure QueryClient (F T : Type) where
  key : String
  timestamp : ℕ → ℤ
  fromValue : Value F → Except String T
  envelope : Value F → Except String (Int64 × String × Value F)

/-- The requests of the call, given what its sends come back with. -/
def RawQuery.requests [Kucoin.HeaderValue] (client : QueryClient F T)
    (outcomes : List (Except String (Response F))) : RawQuery → Option (List (Request F))
  | .cancelAllOrders symbol =>
    (Kucoin.cancelAllOrders client.key client.timestamp client.fromValue symbol outcomes).map
      Sent.requests
  | .cancelAllStopOrders symbol =>
    (Kucoin.cancelAllStopOrders client.key client.timestamp client.fromValue symbol outcomes).map
      Sent.requests
  | .getOpenOrders category symbol =>
    (Bybit.getOpenOrders client.timestamp client.envelope category symbol outcomes).map
      Sent.requests
  | .getPositions category symbol =>
    (Bybit.getPositions client.timestamp client.envelope category symbol outcomes).map
      Sent.requests
  | .getWalletBalance accountType =>
    (Bybit.getWalletBalance client.timestamp client.envelope client.fromValue accountType
      outcomes).map Sent.requests

/-- The parameters that the call is meant to carry. -/
def RawQuery.intended : RawQuery → List (String × String)
  | .cancelAllOrders symbol | .cancelAllStopOrders symbol => [("symbol", symbol)]
  | .getOpenOrders category symbol | .getPositions category symbol =>
    ("category", category.asStr) :: (symbol.map fun s => ("symbol", s)).toList
  | .getWalletBalance accountType => [("accountType", accountType)]

/-- The text of the caller that the call puts into its query, if it has one. -/
def RawQuery.argument : RawQuery → Option String
  | .cancelAllOrders symbol | .cancelAllStopOrders symbol => some symbol
  | .getOpenOrders _ symbol | .getPositions _ symbol => symbol
  | .getWalletBalance accountType => some accountType

/-- The parameters that a server reads in a request. -/
def sentParams (plus : Bool) (request : Request F) : Option (List (String × String)) :=
  parse plus (query request.path.toList)

/-! ## The requests -/

/-- What the client puts behind its base URL. -/
def RawQuery.url : RawQuery → String
  | .cancelAllOrders symbol => "/api/v1/orders?symbol=" ++ symbol
  | .cancelAllStopOrders symbol => "/api/v1/stopOrders?symbol=" ++ symbol
  | .getOpenOrders category symbol =>
    "/v5/order/realtime" ++ "?" ++ Bybit.categoryQuery category symbol
  | .getPositions category symbol =>
    "/v5/position/list" ++ "?" ++ Bybit.categoryQuery category symbol
  | .getWalletBalance accountType =>
    "/v5/account/wallet-balance" ++ "?" ++ ("accountType=" ++ accountType)

omit [F64 F] in
/-- Every attempt of a DELETE goes to its endpoint. -/
theorem AllFrom.kucoinDelete [Kucoin.HeaderValue] (key : String) (timestamp : ℕ → ℤ)
    (endpoint : String) (fromValue : Value F → Except String T)
    (outcomes : List (Except String (Response F))) :
    AllFrom (fun n => ⟨endpoint, [("KC-API-TIMESTAMP", timestamp n)], .form []⟩)
      (Kucoin.delete key timestamp endpoint fromValue outcomes) :=
  (AllFrom.retryLoop _ _ _ outcomes).map _

omit [F64 F] in
/-- A query that is not empty stands behind a `?`. -/
theorem AllFrom.bybitGet (timestamp : ℕ → ℤ) (path : String) {query : String}
    (hquery : query.toList ≠ []) (outcomes : List (Except String (Response F))) :
    AllFrom (fun n => ⟨path ++ "?" ++ query, [("X-BAPI-TIMESTAMP", timestamp n)], .form []⟩)
      (Bybit.signedGet timestamp path query outcomes) := by
  have hne : ¬query.isEmpty = true := by
    rwa [String.isEmpty_iff, ← String.toList_eq_nil_iff]
  simp only [Bybit.signedGet, if_neg hne]
  exact AllFrom.retryLoop _ _ _ outcomes

/-- The query always has its category. -/
theorem categoryQuery_ne_empty (category : Bybit.Category) (symbol : Option String) :
    (Bybit.categoryQuery category symbol).toList ≠ [] := by
  cases symbol <;> simp [Bybit.categoryQuery]

omit [F64 F] in
/-- All requests of a call have the path of the call. -/
theorem AllFrom.path_eq {U : Type} {path : String} {stamp : ℕ → List (String × ℤ)}
    {params : Params F} {call : Option (Sent F U)}
    (h : AllFrom (fun n => ⟨path, stamp n, params⟩) call) {requests : List (Request F)}
    (hrequests : call.map Sent.requests = some requests) :
    ∀ request ∈ requests, request.path = path := by
  intro request hmem
  obtain ⟨sent, hsent, rfl⟩ := Option.map_eq_some_iff.mp hrequests
  obtain ⟨n, rfl⟩ := h.mem sent hsent request hmem
  rfl

omit [F64 F] in
/-- Every request of the call has the same URL. -/
theorem RawQuery.sends [Kucoin.HeaderValue] {client : QueryClient F T}
    {outcomes : List (Except String (Response F))} {call : RawQuery} {requests : List (Request F)}
    (h : call.requests client outcomes = some requests) :
    ∀ request ∈ requests, request.path = call.url := by
  cases call with
  | cancelAllOrders symbol => exact (AllFrom.kucoinDelete _ _ _ _ _).path_eq h
  | cancelAllStopOrders symbol => exact (AllFrom.kucoinDelete _ _ _ _ _).path_eq h
  | getOpenOrders category symbol =>
    have hget := AllFrom.bybitGet client.timestamp "/v5/order/realtime"
      (categoryQuery_ne_empty category symbol) outcomes
    exact (hget.map (Bybit.unwrapResult client.envelope .ok)).path_eq h
  | getPositions category symbol =>
    have hget := AllFrom.bybitGet client.timestamp "/v5/position/list"
      (categoryQuery_ne_empty category symbol) outcomes
    exact (hget.map (Bybit.unwrapResult client.envelope .ok)).path_eq h
  | getWalletBalance accountType =>
    have hquery : ("accountType=" ++ accountType).toList ≠ [] := by simp
    have hget := AllFrom.bybitGet client.timestamp "/v5/account/wallet-balance" hquery outcomes
    exact (hget.map (Bybit.unwrapResult client.envelope client.fromValue)).path_eq h

/-! ## What the server reads -/

/-- A character of a path. -/
def isPathChar (c : Char) : Bool := !isControlOrSpace c && c != '#' && c != '?'

/-- A character of a parameter's name. -/
def isNameChar (c : Char) : Bool :=
  !isEscaped c && c != '%' && c != '+' && c != '&' && c != '='

/-- The characters of a path are left alone by the URL parser, and none begins a query. -/
theorem path_clean {path : String} (h : path.toList.all isPathChar = true) :
    ∀ c ∈ path.toList, (isControlOrSpace c = false ∧ c ≠ '#') ∧ c ≠ '?' := by
  intro c hc
  simpa [isPathChar] using List.all_eq_true.mp h c hc

/-- The characters of a parameter name are left alone by the URL parser and by the venue's
    decoder. -/
theorem name_clean {name : String} (h : name.toList.all isNameChar = true) :
    ∀ c ∈ name.toList, isEscaped c = false ∧ c ≠ '%' ∧ c ≠ '+' ∧ c ≠ '&' ∧ c ≠ '=' := by
  intro c hc
  simpa [isNameChar, and_assoc] using List.all_eq_true.mp h c hc

/-- `name=value` in front of the text of the caller is kept by the parser. -/
theorem param_clean {name value : String} (hname : name.toList.all isNameChar = true)
    (hvalue : value.toList.all isNameChar = true) :
    ∀ c ∈ name.toList ++ '=' :: value.toList, isEscaped c = false := by
  intro c hc
  rcases List.mem_append.mp hc with hc | hc
  · exact (name_clean hname c hc).1
  · rcases List.mem_cons.mp hc with rfl | hc
    · decide
    · exact (name_clean hvalue c hc).1

/-- A name and its `=`, behind which the text of the caller starts. -/
theorem nameEq_clean {name : String} (hname : name.toList.all isNameChar = true) :
    ∀ c ∈ name.toList ++ ['='], isEscaped c = false :=
  param_clean hname (show "".toList.all isNameChar = true from rfl)

/-- A statement about the one element of `some`. -/
theorem forall_mem_some {α : Type} {a : α} {P : α → Prop} : (∀ x ∈ some a, P x) ↔ P a := by
  simp

/-- A query of one parameter with a raw value. -/
theorem parse_query_single (plus : Bool) {path name : String}
    (hpath : path.toList.all isPathChar = true) (hname : name.toList.all isNameChar = true)
    {head : String} (hhead : head.toList = path.toList ++ '?' :: (name.toList ++ ['=']))
    (arg : String) :
    parse plus (query (head ++ arg).toList) = some [(name, arg)] ↔
      ∀ s ∈ some arg, Intact plus s.toList := by
  have htext : (head ++ arg).toList =
      path.toList ++ '?' :: ((name.toList ++ ['=']) ++ arg.toList) := by
    simp [hhead]
  rw [htext, query_append (path_clean hpath) (nameEq_clean hname), List.append_assoc,
    List.singleton_append, parse_raw_iff fun c hc => (name_clean hname c hc).2, forall_mem_some]

/-- A raw value behind parameters that the call spells out itself. -/
theorem parse_query_last (plus : Bool) {path name : String}
    (hpath : path.toList.all isPathChar = true) (hname : name.toList.all isNameChar = true)
    {fixed : List Char} {ps : List (String × String)}
    (hclean : ∀ c ∈ fixed, isEscaped c = false) (hfixed : parse plus fixed = some ps)
    (arg : String) :
    parse plus
        (query (path.toList ++ '?' :: (fixed ++ '&' :: (name.toList ++ '=' :: arg.toList)))) =
          some (ps ++ [(name, arg)]) ↔
      Intact plus arg.toList := by
  -- Up to the last `=` the query is the call's own text, which the URL parser keeps.
  have htext : fixed ++ '&' :: (name.toList ++ '=' :: arg.toList) =
      (fixed ++ '&' :: (name.toList ++ ['='])) ++ arg.toList := by
    simp
  have hclean' : ∀ c ∈ fixed ++ '&' :: (name.toList ++ ['=']), isEscaped c = false := by
    intro c hc
    rcases List.mem_append.mp hc with hc | hc
    · exact hclean c hc
    · rcases List.mem_cons.mp hc with rfl | hc
      · decide
      · exact nameEq_clean hname c hc
  have hquery : fixed ++ '&' :: (name.toList ++ ['=']) ++ (tidy arg.toList).flatMap escapeChar =
      fixed ++ '&' :: (name.toList ++ '=' :: (tidy arg.toList).flatMap escapeChar) := by
    simp
  rw [htext, query_append (path_clean hpath) hclean', hquery, parse_append, hfixed,
    Option.bind_some, ← parse_raw_iff fun c hc => (name_clean hname c hc).2,
    Option.map_eq_some_iff]
  -- The fixed parameters cancel on the left, so the last one is read for itself.
  constructor
  · intro h
    obtain ⟨last, hlast, heq⟩ := h
    rw [List.append_cancel_left heq] at hlast
    exact hlast
  · intro h
    exact ⟨_, h, rfl⟩

/-- A category is written with the characters of a name. -/
theorem category_name (category : Bybit.Category) :
    category.asStr.toList.all isNameChar = true := by
  cases category <;> decide

/-- A query that names the category, with or without a raw symbol behind it. -/
theorem parse_query_category {plus : Bool} {path : String}
    (hpath : path.toList.all isPathChar = true) (category : Bybit.Category)
    (symbol : Option String) :
    parse plus (query (path ++ "?" ++ Bybit.categoryQuery category symbol).toList) =
        some (("category", category.asStr) :: (symbol.map fun s => ("symbol", s)).toList) ↔
      ∀ s ∈ symbol, Intact plus s.toList := by
  have hname : "category".toList.all isNameChar = true := by decide
  have hcategory : parse plus ("category".toList ++ '=' :: category.asStr.toList) =
      some [("category", category.asStr)] :=
    parse_plain (by decide) fun c hc =>
      ⟨(name_clean (category_name category) c hc).2.1,
        (name_clean (category_name category) c hc).2.2.1,
        (name_clean (category_name category) c hc).2.2.2.1⟩
  have hclean := param_clean hname (category_name category)
  cases symbol with
  | none =>
    -- No text of the caller: the query is read as it was written.
    have htext : (path ++ "?" ++ Bybit.categoryQuery category none).toList =
        path.toList ++ '?' :: (("category".toList ++ '=' :: category.asStr.toList) ++ []) := by
      simp [Bybit.categoryQuery]
    have htidy : (tidy []).flatMap escapeChar = [] := rfl
    rw [htext, query_append (path_clean hpath) hclean, htidy, List.append_nil, hcategory]
    simp
  | some s =>
    have htext : (path ++ "?" ++ Bybit.categoryQuery category (some s)).toList =
        path.toList ++ '?' :: (("category".toList ++ '=' :: category.asStr.toList) ++
          '&' :: ("symbol".toList ++ '=' :: s.toList)) := by
      simp [Bybit.categoryQuery]
    rw [htext, forall_mem_some]
    exact parse_query_last plus hpath (show "symbol".toList.all isNameChar = true by decide)
      hclean hcategory s

omit [F64 F] in
/-- A request carries exactly the intended parameters if and only if the caller's text arrives
    as it is, for servers that read `+` as a space and for those that do not. -/
theorem sentParams_iff [Kucoin.HeaderValue] (plus : Bool) {client : QueryClient F T}
    {outcomes : List (Except String (Response F))} {call : RawQuery}
    {requests : List (Request F)} (h : call.requests client outcomes = some requests) :
    ∀ request ∈ requests,
      sentParams plus request = some call.intended ↔
        ∀ arg ∈ call.argument, Intact plus arg.toList := by
  intro request hmem
  rw [sentParams, RawQuery.sends h request hmem]
  -- What is left is how the server reads the URL of each call.
  cases call with
  | cancelAllOrders symbol =>
    have hpath : "/api/v1/orders".toList.all isPathChar = true := by decide
    have hname : "symbol".toList.all isNameChar = true := by decide
    have hhead : "/api/v1/orders?symbol=".toList =
        "/api/v1/orders".toList ++ '?' :: ("symbol".toList ++ ['=']) := by decide
    exact parse_query_single plus hpath hname hhead symbol
  | cancelAllStopOrders symbol =>
    have hpath : "/api/v1/stopOrders".toList.all isPathChar = true := by decide
    have hname : "symbol".toList.all isNameChar = true := by decide
    have hhead : "/api/v1/stopOrders?symbol=".toList =
        "/api/v1/stopOrders".toList ++ '?' :: ("symbol".toList ++ ['=']) := by decide
    exact parse_query_single plus hpath hname hhead symbol
  | getOpenOrders category symbol => exact parse_query_category (by decide) category symbol
  | getPositions category symbol => exact parse_query_category (by decide) category symbol
  | getWalletBalance accountType =>
    have hpath : "/v5/account/wallet-balance".toList.all isPathChar = true := by decide
    have hname : "accountType".toList.all isNameChar = true := by decide
    have hhead : ("/v5/account/wallet-balance" ++ "?" ++ "accountType=").toList =
        "/v5/account/wallet-balance".toList ++ '?' :: ("accountType".toList ++ ['=']) := by decide
    have hurl : RawQuery.url (.getWalletBalance accountType) =
        "/v5/account/wallet-balance" ++ "?" ++ "accountType=" ++ accountType :=
      String.append_assoc.symm
    rw [hurl]
    exact parse_query_single plus hpath hname hhead accountType

open scoped Kucoin.SampleHeaders

/-- A client that reads any answer as a success. -/
def exampleQueryClient : QueryClient ℤ Unit where
  key := "key"
  timestamp n := n
  fromValue _ := .ok ()
  envelope _ := .ok (0, "OK", .null)

/-- The requests of a call that is answered at once. -/
def exampleQueryRequests (call : RawQuery) : List (Request ℤ) :=
  (call.requests exampleQueryClient [.ok ⟨200, .ok "{}", .ok (.object [])⟩]).getD []

/-- The symbol of a perpetual arrives, so it is one that does. -/
theorem intact_xbtusdtm : Intact false "XBTUSDTM".toList := by
  have hsent : RawQuery.requests exampleQueryClient [.ok ⟨200, .ok "{}", .ok (.object [])⟩]
      (.cancelAllOrders "XBTUSDTM") = some (exampleQueryRequests (.cancelAllOrders "XBTUSDTM")) :=
    rfl
  have harrives : ∀ request ∈ exampleQueryRequests (.cancelAllOrders "XBTUSDTM"),
      sentParams false request = some (RawQuery.intended (.cancelAllOrders "XBTUSDTM")) := by
    decide
  have hmem : exampleQueryRequests (.cancelAllOrders "XBTUSDTM") ≠ [] := by decide
  obtain ⟨request, rest, hrequests⟩ := List.exists_cons_of_ne_nil hmem
  have hfirst : request ∈ exampleQueryRequests (.cancelAllOrders "XBTUSDTM") := by simp [hrequests]
  exact (sentParams_iff false hsent request hfirst).mp (harrives request hfirst) _ rfl

/-- Behind a `#` the symbol is cut off, which cancels the orders of every symbol, and an `&` adds
    a second one. -/
theorem cancelAllOrders_widened :
    (exampleQueryRequests (.cancelAllOrders "#XBTUSDTM")).map (sentParams false) =
        [some [("symbol", "")]] ∧
      (exampleQueryRequests (.cancelAllOrders "XBTUSDTM&symbol=ETHUSDTM")).map (sentParams false) =
        [some [("symbol", "XBTUSDTM"), ("symbol", "ETHUSDTM")]] ∧
      ¬∀ call, ∀ request ∈ exampleQueryRequests call,
        sentParams false request = some call.intended := by
  have hcut : (exampleQueryRequests (.cancelAllOrders "#XBTUSDTM")).map (sentParams false) =
      [some [("symbol", "")]] := by decide
  have hadded : (exampleQueryRequests (.cancelAllOrders "XBTUSDTM&symbol=ETHUSDTM")).map
      (sentParams false) = [some [("symbol", "XBTUSDTM"), ("symbol", "ETHUSDTM")]] := by decide
  refine ⟨hcut, hadded, fun hall => ?_⟩
  have hcall := hall (.cancelAllOrders "#XBTUSDTM")
  revert hcall
  decide

end ExchangeApiws.Spec
