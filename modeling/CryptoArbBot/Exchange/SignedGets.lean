import CryptoArbBot.Exchange.Submission
import CryptoArbBot.Library.QueryStrings

/-!
# What is signed and what is sent (exchange/rest_client.cpp, exchange/*/*_rest.cpp)

An authenticated GET signs a query text put together at its call site, and the
client sends one rebuilt from a map, with the parameters in the order of their
keys. The two are the same text except for an order queried from MEXC.
-/

namespace CryptoArbBot
open QueryStrings

/-! ### GET requests -/

/-- Insertion into a `std::map` keyed by text; a key that is there keeps its value. -/
def insertEntry (entry : String × String) : List (String × String) → List (String × String)
  | [] => [entry]
  | first :: rest =>
    if entry.1.toList < first.1.toList then entry :: first :: rest
    else if entry.1 = first.1 then first :: rest
    else first :: insertEntry entry rest

/-- A `std::map` from its initializer list. -/
def mapOf (entries : List (String × String)) : List (String × String) :=
  entries.foldl (fun params entry => insertEntry entry params) []

/-- `escape` is `curl_easy_escape`. -/
def buildQueryString (escape : String → String) (params : List (String × String)) : String :=
  "&".intercalate (params.map fun param => escape param.1 ++ "=" ++ escape param.2)

def getTarget (escape : String → String) (path : String) (params : List (String × String)) : String :=
  let qs := buildQueryString escape params
  if qs ≠ "" then path ++ ("?" ++ qs) else path

def RestClient.get (c : RestClient) (escape : String → String) (server : Server) (path : String)
    (params headers : List (String × String)) (log : List Delivery) : HttpResponse × List Delivery :=
  c.perform server .get (c.baseUrl ++ getTarget escape path params) "" headers log

/-- The request of an authenticated GET; `signed` is the query text that the signature is
computed from, for OKX with the path before it. -/
structure SignedGet where
  path : String
  params : List (String × String) := []
  headers : List (String × String)
  signed : String

def SignedGet.target (escape : String → String) (g : SignedGet) : String :=
  getTarget escape g.path (mapOf g.params)

def SignedGet.send (g : SignedGet) (escape : String → String) (c : RestClient) (server : Server)
    (log : List Delivery) : HttpResponse × List Delivery :=
  c.get escape server g.path (mapOf g.params) g.headers log

namespace Binance

def signedGet (P : Platform) (a : Adapter) (clock : Clock) (endpoint queryString : String) : SignedGet where
  path := endpoint ++ "?" ++ signRequest P a (clock 0) queryString
  headers := [("X-MBX-APIKEY", a.apiKey)]
  signed := (if queryString ≠ "" then queryString ++ "&" else queryString) ++ "timestamp=" ++
    Nat.repr (clock 0)

def fetchTradeFee (P : Platform) (a : Adapter) (clock : Clock) (symbol : String) : SignedGet :=
  signedGet P a clock "/sapi/v1/asset/tradeFee" ("symbol=" ++ symbol)

def queryOrder (P : Platform) (a : Adapter) (clock : Clock) (symbol orderId : String) : SignedGet :=
  signedGet P a clock "/api/v3/order" ("symbol=" ++ symbol ++ "&orderId=" ++ orderId)

def fetchAccount (P : Platform) (a : Adapter) (clock : Clock) : SignedGet :=
  signedGet P a clock "/api/v3/account" ""

end Binance

namespace Okx

/-- `signed` is the request path given to `auth_headers`. -/
def signedGet (P : Platform) (a : Adapter) (clock : Clock) (path : String)
    (params : List (String × String)) (signed : String) : SignedGet where
  path := path
  params := params
  headers := authHeaders P a clock "GET" signed ""
  signed := signed

def fetchTradeFee (P : Platform) (a : Adapter) (clock : Clock) : SignedGet :=
  signedGet P a clock "/api/v5/account/trade-fee" [("instType", "SPOT")]
    "/api/v5/account/trade-fee?instType=SPOT"

def queryOrder (P : Platform) (a : Adapter) (clock : Clock) (instId orderId : String) : SignedGet :=
  signedGet P a clock "/api/v5/trade/order" [("instId", instId), ("ordId", orderId)]
    ("/api/v5/trade/order?instId=" ++ instId ++ "&ordId=" ++ orderId)

def fetchBalances (P : Platform) (a : Adapter) (clock : Clock) : SignedGet :=
  signedGet P a clock "/api/v5/account/balance" [] "/api/v5/account/balance"

end Okx

namespace Bybit

def signedGet (P : Platform) (a : Adapter) (clock : Clock) (path : String)
    (params : List (String × String)) (query : String) : SignedGet where
  path := path
  params := params
  headers := authHeaders P a clock query
  signed := query

def fetchTradeFee (P : Platform) (a : Adapter) (clock : Clock) (symbol : String) : SignedGet :=
  signedGet P a clock "/v5/account/fee-rate" [("category", "spot"), ("symbol", symbol)]
    ("category=spot&symbol=" ++ symbol)

def queryOrder (P : Platform) (a : Adapter) (clock : Clock) (orderId : String) : SignedGet :=
  signedGet P a clock "/v5/order/realtime" [("category", "spot"), ("orderId", orderId)]
    ("category=spot&orderId=" ++ orderId)

def fetchBalances (P : Platform) (a : Adapter) (clock : Clock) : SignedGet :=
  signedGet P a clock "/v5/account/wallet-balance" [("accountType", "UNIFIED")] "accountType=UNIFIED"

end Bybit

namespace Mexc

/-- The signature becomes one more parameter. -/
def signedGet (P : Platform) (a : Adapter) (path : String) (params : List (String × String))
    (query : String) : SignedGet where
  path := path
  params := params ++ [("signature", P.hmacSha256Hex a.secretKey query)]
  headers := [("X-MEXC-APIKEY", a.apiKey)]
  signed := query

def fetchTradeFee (P : Platform) (a : Adapter) (clock : Clock) (symbol : String) : SignedGet :=
  let ts := Nat.repr (clock 0)
  signedGet P a "/api/v3/account/commission" [("symbol", symbol), ("timestamp", ts)]
    ("symbol=" ++ symbol ++ "&timestamp=" ++ ts)

def queryOrder (P : Platform) (a : Adapter) (clock : Clock) (symbol orderId : String) : SignedGet :=
  let ts := Nat.repr (clock 0)
  signedGet P a "/api/v3/order" [("symbol", symbol), ("orderId", orderId), ("timestamp", ts)]
    ("symbol=" ++ symbol ++ "&orderId=" ++ orderId ++ "&timestamp=" ++ ts)

def fetchBalances (P : Platform) (a : Adapter) (clock : Clock) : SignedGet :=
  let ts := Nat.repr (clock 0)
  signedGet P a "/api/v3/account" [("timestamp", ts)] ("timestamp=" ++ ts)

end Mexc

namespace Gateio

def signedGet (P : Platform) (a : Adapter) (clock : Clock) (path : String)
    (params : List (String × String)) (query : String) : SignedGet where
  path := path
  params := params
  headers := authHeaders P a clock "GET" path query ""
  signed := query

def fetchTradeFee (P : Platform) (a : Adapter) (clock : Clock) (currencyPair : String) : SignedGet :=
  signedGet P a clock "/api/v4/wallet/fee" [("currency_pair", currencyPair)]
    ("currency_pair=" ++ currencyPair)

def queryOrder (P : Platform) (a : Adapter) (clock : Clock) (currencyPair orderId : String) : SignedGet :=
  signedGet P a clock ("/api/v4/spot/orders/" ++ orderId) [("currency_pair", currencyPair)]
    ("currency_pair=" ++ currencyPair)

def fetchBalances (P : Platform) (a : Adapter) (clock : Clock) : SignedGet :=
  signedGet P a clock "/api/v4/spot/accounts" [] ""

end Gateio

/-! ### The authenticated GETs of the five clients -/

inductive GetCall where
  | tradeFee (symbol : String)
  | queryOrder (symbol orderId : String)
  | balances
  deriving DecidableEq, Repr

def Venue.signedGet (P : Platform) (a : Adapter) (clock : Clock) : Venue → GetCall → SignedGet
  | .binance, .tradeFee symbol => Binance.fetchTradeFee P a clock symbol
  | .binance, .queryOrder symbol orderId => Binance.queryOrder P a clock symbol orderId
  | .binance, .balances => Binance.fetchAccount P a clock
  | .okx, .tradeFee _ => Okx.fetchTradeFee P a clock
  | .okx, .queryOrder instId orderId => Okx.queryOrder P a clock instId orderId
  | .okx, .balances => Okx.fetchBalances P a clock
  | .bybit, .tradeFee symbol => Bybit.fetchTradeFee P a clock symbol
  | .bybit, .queryOrder _ orderId => Bybit.queryOrder P a clock orderId
  | .bybit, .balances => Bybit.fetchBalances P a clock
  | .mexc, .tradeFee symbol => Mexc.fetchTradeFee P a clock symbol
  | .mexc, .queryOrder symbol orderId => Mexc.queryOrder P a clock symbol orderId
  | .mexc, .balances => Mexc.fetchBalances P a clock
  | .gateio, .tradeFee currencyPair => Gateio.fetchTradeFee P a clock currencyPair
  | .gateio, .queryOrder currencyPair orderId => Gateio.queryOrder P a clock currencyPair orderId
  | .gateio, .balances => Gateio.fetchBalances P a clock

/-- The signature of the request is computed from its signed text. -/
def Venue.Signs (P : Platform) (a : Adapter) (clock : Clock) (g : SignedGet) : Venue → Prop
  | .binance => ∃ front, g.path =
      front ++ g.signed ++ "&signature=" ++ P.hmacSha256Hex a.secretKey g.signed
  | .okx => ("OK-ACCESS-SIGN", P.base64Encode (P.hmacSha256 a.secretKey
      (P.formatUtc (clock 0) ++ "GET" ++ g.signed ++ ""))) ∈ g.headers
  | .bybit => ("X-BAPI-SIGN", P.hmacSha256Hex a.secretKey
      (Nat.repr (clock 0) ++ a.apiKey ++ Bybit.recvWindow ++ g.signed)) ∈ g.headers
  | .mexc => ("signature", P.hmacSha256Hex a.secretKey g.signed) ∈ g.params
  | .gateio => ("SIGN", P.hmacSha512Hex a.secretKey ("GET" ++ "\n" ++ g.path ++ "\n" ++ g.signed ++
      "\n" ++ P.sha512 "" ++ "\n" ++ Nat.repr (clock 1 / 1000))) ∈ g.headers

/-- The signed text is the query that is sent, without the signature itself; for OKX it
is the whole target. -/
def Venue.SignsSent (escape : String → String) (g : SignedGet) : Venue → Prop
  | .okx => g.signed = g.target escape
  | .binance | .bybit | .mexc | .gateio => g.signed = without "signature" (queryOf (g.target escape))

/-! ### The signature -/

theorem Binance.signedGet_signs (P : Platform) (a : Adapter) (clock : Clock)
    (endpoint queryString : String) :
    Venue.binance.Signs P a clock (Binance.signedGet P a clock endpoint queryString) := by
  refine ⟨endpoint ++ "?", ?_⟩
  unfold Binance.signedGet Binance.signRequest
  simp only [String.append_assoc]

theorem Venue.signedGet_signs (P : Platform) (a : Adapter) (clock : Clock) (venue : Venue)
    (call : GetCall) : venue.Signs P a clock (venue.signedGet P a clock call) := by
  cases venue with
  | binance => cases call <;> exact Binance.signedGet_signs ..
  | okx => cases call <;> exact List.mem_cons_of_mem _ (List.mem_cons_self ..)
  | bybit => cases call <;> exact List.mem_cons_of_mem _ (List.mem_cons_self ..)
  | mexc => cases call <;> exact List.mem_append_right _ (List.mem_cons_self ..)
  | gateio => cases call <;> exact List.mem_cons_of_mem _ (List.mem_cons_self ..)

/-! ### The target -/

/-- Letters, digits and the four marks that a URL keeps as they are. -/
def Unreserved (text : String) : Prop :=
  ∀ c ∈ text.toList, c.isAlphanum = true ∨ c ∈ ['-', '.', '_', '~']

instance (text : String) : Decidable (Unreserved text) := List.decidableBAll _ _

def GetCall.Unreserved : GetCall → Prop
  | .tradeFee symbol => CryptoArbBot.Unreserved symbol
  | .queryOrder symbol orderId => CryptoArbBot.Unreserved symbol ∧ CryptoArbBot.Unreserved orderId
  | .balances => True

theorem Unreserved.not_mem {text : String} (h : Unreserved text) {c : Char}
    (hc : c.isAlphanum = false) (hmarks : c ∉ ['-', '.', '_', '~']) : c ∉ text.toList := by
  intro hmem
  rcases h c hmem with halnum | hmark
  · rw [hc] at halnum
    cases halnum
  · exact hmarks hmark

theorem unreserved_repr (n : ℕ) : Unreserved (Nat.repr n) := by
  intro c hc
  refine .inl ?_
  have hdigit := isDigit_repr hc
  simp [Char.isAlphanum, hdigit]

theorem unreserved_words :
    Unreserved "signature" ∧ Unreserved "timestamp" ∧ Unreserved "symbol" ∧ Unreserved "orderId" ∧
      Unreserved "category" ∧ Unreserved "spot" ∧ Unreserved "accountType" ∧ Unreserved "UNIFIED" ∧
      Unreserved "instType" ∧ Unreserved "SPOT" ∧ Unreserved "instId" ∧ Unreserved "ordId" ∧
      Unreserved "currency_pair" := by
  decide

theorem digitChar_alphanum {n : ℕ} (h : n < 16) : (Nat.digitChar n).isAlphanum = true := by
  have hall : ∀ n < 16, (Nat.digitChar n).isAlphanum = true := by decide
  exact hall n h

theorem unreserved_toHex (data : String) : Unreserved (toHex data) := by
  intro c hc
  rw [toHex, String.toList_ofList] at hc
  obtain ⟨byte, -, hbyte⟩ := List.mem_flatMap.mp hc
  refine .inl ?_
  rcases List.mem_cons.mp hbyte with rfl | hlow
  · exact digitChar_alphanum (Nat.mod_lt _ (by decide))
  · rw [List.mem_singleton.mp hlow]
    exact digitChar_alphanum (Nat.mod_lt _ (by decide))

theorem unreserved_hmac (P : Platform) (key text : String) : Unreserved (P.hmacSha256Hex key text) :=
  unreserved_toHex _

def fieldOf (param : String × String) : String := param.1 ++ "=" ++ param.2

def Plain (params : List (String × String)) : Prop :=
  ∀ param ∈ params, Unreserved param.1 ∧ Unreserved param.2

@[simp] theorem plain_nil : Plain [] := fun _ h => absurd h List.not_mem_nil

@[simp] theorem plain_cons {param : String × String} {rest : List (String × String)} :
    Plain (param :: rest) ↔ (Unreserved param.1 ∧ Unreserved param.2) ∧ Plain rest :=
  List.forall_mem_cons

theorem Plain.append {params params' : List (String × String)} (h : Plain params) (h' : Plain params') :
    Plain (params ++ params') :=
  List.forall_mem_append.mpr ⟨h, h'⟩

theorem Plain.no_separator {params : List (String × String)} (h : Plain params) :
    ∀ field ∈ params.map fieldOf, '&' ∉ field.toList := by
  intro field hfield
  obtain ⟨param, hparam, rfl⟩ := List.mem_map.mp hfield
  have hkey := (h param hparam).1.not_mem (c := '&') (by decide) (by decide)
  have hvalue := (h param hparam).2.not_mem (c := '&') (by decide) (by decide)
  simp [fieldOf, hkey, hvalue]

section Target
variable {escape : String → String} (hescape : ∀ text, Unreserved text → escape text = text)
include hescape

theorem buildQueryString_eq {params : List (String × String)} (h : Plain params) :
    buildQueryString escape params = join (params.map fieldOf) := by
  unfold buildQueryString join
  refine congrArg _ (List.map_congr_left ?_)
  intro param hparam
  rw [hescape _ (h param hparam).1, hescape _ (h param hparam).2, fieldOf]

theorem queryOf_getTarget {path : String} (hpath : '?' ∉ path.toList) {params : List (String × String)}
    (h : Plain params) : queryOf (getTarget escape path params) = join (params.map fieldOf) := by
  unfold getTarget
  rw [buildQueryString_eq hescape h]
  dsimp only
  split
  · rw [← String.append_assoc]
    exact queryOf_append hpath _
  next hempty =>
    rw [queryOf_eq_empty hpath]
    exact (not_not.mp hempty).symm

end Target

def unsigned (params : List (String × String)) : List String :=
  (params.filter fun param => param.1 ≠ "signature").map fieldOf

theorem Plain.without_signature {params : List (String × String)} (h : Plain params)
    (hsome : params ≠ []) : without "signature" (join (params.map fieldOf)) = join (unsigned params) := by
  rw [without_join _ h.no_separator (by simpa using hsome), List.filter_map, unsigned]
  refine congrArg (fun left => join (left.map fieldOf)) (List.filter_congr ?_)
  intro param hparam
  have hkey := (h param hparam).1.not_mem (c := '=') (by decide) (by decide)
  rw [Function.comp_apply, fieldOf, named_eq (by decide) hkey]
  simp [eq_comm]

/-! ### The fifteen calls -/

theorem SignedGet.target_eq_path (escape : String → String) {g : SignedGet} (h : g.params = []) :
    g.target escape = g.path := by
  unfold SignedGet.target
  rw [h]
  rfl

section Calls

attribute [local simp] Venue.signedGet mapOf insertEntry List.cons_lt_cons_iff
attribute [local simp] unsigned fieldOf join_cons_cons join_singleton
attribute [local simp] Okx.signedGet Okx.fetchTradeFee Okx.queryOrder Okx.fetchBalances
attribute [local simp] Bybit.signedGet Bybit.fetchTradeFee Bybit.queryOrder Bybit.fetchBalances
attribute [local simp] Mexc.signedGet Mexc.fetchTradeFee Mexc.queryOrder Mexc.fetchBalances
attribute [local simp] Gateio.signedGet Gateio.fetchTradeFee Gateio.queryOrder Gateio.fetchBalances

section Binance
variable (escape : String → String) (P : Platform)

theorem binance_signed_eq_sent (a : Adapter) (clock : Clock) {endpoint query : String}
    {params : List (String × String)} (hpath : '?' ∉ endpoint.toList) (h : Plain params)
    (hkeys : ∀ param ∈ params, param.1 ≠ "signature")
    (hquery : (if query ≠ "" then query ++ "&" else query) ++ "timestamp=" ++ Nat.repr (clock 0) =
      join ((params ++ [("timestamp", Nat.repr (clock 0))]).map fieldOf)) :
    Venue.binance.SignsSent escape (Binance.signedGet P a clock endpoint query) := by
  obtain ⟨g, hg⟩ : ∃ g, g = Binance.signedGet P a clock endpoint query := ⟨_, rfl⟩
  obtain ⟨sig, hsig⟩ : ∃ sig, sig = P.hmacSha256Hex a.secretKey g.signed := ⟨_, rfl⟩
  have hsigned : g.signed = join ((params ++ [("timestamp", Nat.repr (clock 0))]).map fieldOf) := by
    rw [hg, ← hquery]
    rfl
  have hplain : Plain (params ++ [("timestamp", Nat.repr (clock 0)), ("signature", sig)]) := by
    refine h.append ?_
    rw [hsig]
    simp [unreserved_words, unreserved_repr, unreserved_hmac]
  have htarget : g.target escape = endpoint ++ "?" ++
      join ((params ++ [("timestamp", Nat.repr (clock 0)), ("signature", sig)]).map fieldOf) := by
    have hpath : g.path = endpoint ++ "?" ++ (g.signed ++ "&signature=" ++ sig) := by
      rw [hsig, hg]
      rfl
    have hparams : g.params = [] := by
      rw [hg]
      rfl
    have hfields : (params ++ [("timestamp", Nat.repr (clock 0)), ("signature", sig)]).map fieldOf =
        (params ++ [("timestamp", Nat.repr (clock 0))]).map fieldOf ++ ["signature=" ++ sig] := by
      simp
    have hmark : "&signature=" = "&" ++ "signature=" := rfl
    rw [SignedGet.target_eq_path escape hparams, hpath, hfields, join_concat _ (by simp), hsigned, hmark]
    simp only [String.append_assoc]
  have hleft : unsigned (params ++ [("timestamp", Nat.repr (clock 0)), ("signature", sig)]) =
      (params ++ [("timestamp", Nat.repr (clock 0))]).map fieldOf := by
    have hkept : params.filter (fun param => param.1 ≠ "signature") = params :=
      List.filter_eq_self.mpr (by simpa using hkeys)
    rw [unsigned, List.filter_append, hkept]
    simp
  have hsent : without "signature" (queryOf (g.target escape)) = g.signed := by
    rw [htarget, queryOf_append hpath, hplain.without_signature (by simp), hleft, hsigned]
  rw [hg] at hsent
  exact hsent.symm

theorem binance_sent (a : Adapter) (clock : Clock) {call : GetCall} (hcall : call.Unreserved) :
    Venue.binance.SignsSent escape (Venue.binance.signedGet P a clock call) := by
  cases call with
  | tradeFee symbol =>
    have hplain : Plain [("symbol", symbol)] := by
      have hsymbol : Unreserved symbol := hcall
      simp [unreserved_words, hsymbol]
    refine binance_signed_eq_sent escape P a clock (by decide) hplain (by simp) ?_
    apply String.toList_inj.mp
    simp
  | queryOrder symbol orderId =>
    have hplain : Plain [("symbol", symbol), ("orderId", orderId)] := by
      have hsymbol : Unreserved symbol := hcall.1
      have horder : Unreserved orderId := hcall.2
      simp [unreserved_words, hsymbol, horder]
    refine binance_signed_eq_sent escape P a clock (by decide) hplain (by simp) ?_
    apply String.toList_inj.mp
    simp
  | balances => exact binance_signed_eq_sent escape P a clock (by decide) plain_nil (by simp) (by simp)

end Binance

section Escaped
variable {escape : String → String} (hescape : ∀ text, Unreserved text → escape text = text)
include hescape

theorem SignedGet.target_eq {g : SignedGet} {sorted : List (String × String)} (h : Plain sorted)
    (hsorted : mapOf g.params = sorted) (hsome : join (sorted.map fieldOf) ≠ "") :
    g.target escape = g.path ++ ("?" ++ join (sorted.map fieldOf)) := by
  unfold SignedGet.target getTarget
  rw [hsorted, buildQueryString_eq hescape h]
  exact if_pos hsome

theorem SignedGet.sent_eq {g : SignedGet} {sorted : List (String × String)}
    (hpath : '?' ∉ g.path.toList) (h : Plain sorted) (hsorted : mapOf g.params = sorted)
    (hsome : sorted ≠ []) :
    without "signature" (queryOf (g.target escape)) = join (unsigned sorted) := by
  unfold SignedGet.target
  rw [hsorted, queryOf_getTarget hescape hpath h, h.without_signature hsome]

theorem SignedGet.signed_eq_sent {g : SignedGet} {sorted : List (String × String)}
    (hpath : '?' ∉ g.path.toList) (h : Plain sorted) (hsorted : mapOf g.params = sorted)
    (hsome : sorted ≠ []) (hsigned : g.signed = join (unsigned sorted)) :
    g.signed = without "signature" (queryOf (g.target escape)) := by
  rw [SignedGet.sent_eq hescape hpath h hsorted hsome, hsigned]

theorem okx_sent (P : Platform) (a : Adapter) (clock : Clock) {call : GetCall} (hcall : call.Unreserved) :
    Venue.okx.SignsSent escape (Venue.okx.signedGet P a clock call) := by
  unfold Venue.SignsSent
  cases call with
  | tradeFee symbol =>
    have hplain : Plain [("instType", "SPOT")] := by simp [unreserved_words]
    rw [SignedGet.target_eq hescape hplain (by simp) (by simp)]
    simp
  | queryOrder instId orderId =>
    have hplain : Plain [("instId", instId), ("ordId", orderId)] := by
      have hid : Unreserved instId := hcall.1
      have horder : Unreserved orderId := hcall.2
      simp [unreserved_words, hid, horder]
    rw [SignedGet.target_eq hescape hplain (by simp) (by simp)]
    apply String.toList_inj.mp
    simp
  | balances =>
    have hpath : (Okx.fetchBalances P a clock).target escape = "/api/v5/account/balance" :=
      SignedGet.target_eq_path escape rfl
    exact hpath.symm

theorem bybit_sent (P : Platform) (a : Adapter) (clock : Clock) {call : GetCall} (hcall : call.Unreserved) :
    Venue.bybit.SignsSent escape (Venue.bybit.signedGet P a clock call) := by
  cases call with
  | tradeFee symbol =>
    have hplain : Plain [("category", "spot"), ("symbol", symbol)] := by
      have hsymbol : Unreserved symbol := hcall
      simp [unreserved_words, hsymbol]
    refine SignedGet.signed_eq_sent hescape (by simp) hplain (by simp) (by simp) ?_
    simp [← String.append_assoc]
  | queryOrder symbol orderId =>
    have hplain : Plain [("category", "spot"), ("orderId", orderId)] := by
      have horder : Unreserved orderId := hcall.2
      simp [unreserved_words, horder]
    refine SignedGet.signed_eq_sent hescape (by simp) hplain (by simp) (by simp) ?_
    simp [← String.append_assoc]
  | balances =>
    have hplain : Plain [("accountType", "UNIFIED")] := by simp [unreserved_words]
    exact SignedGet.signed_eq_sent hescape (by simp) hplain (by simp) (by simp) (by simp)

theorem gateio_sent (P : Platform) (a : Adapter) (clock : Clock) {call : GetCall} (hcall : call.Unreserved) :
    Venue.gateio.SignsSent escape (Venue.gateio.signedGet P a clock call) := by
  cases call with
  | tradeFee currencyPair =>
    have hplain : Plain [("currency_pair", currencyPair)] := by
      have hpair : Unreserved currencyPair := hcall
      simp [unreserved_words, hpair]
    exact SignedGet.signed_eq_sent hescape (by simp) hplain (by simp) (by simp) (by simp)
  | queryOrder currencyPair orderId =>
    have hplain : Plain [("currency_pair", currencyPair)] := by
      have hpair : Unreserved currencyPair := hcall.1
      simp [unreserved_words, hpair]
    have hmark : '?' ∉ orderId.toList := hcall.2.not_mem (by decide) (by decide)
    exact SignedGet.signed_eq_sent hescape (by simp [hmark]) hplain (by simp) (by simp) (by simp)
  | balances =>
    have hnone : without "signature" (queryOf "/api/v4/spot/accounts") = "" := by decide
    unfold Venue.SignsSent
    rw [SignedGet.target_eq_path escape (by simp)]
    exact hnone.symm

/-- The keys of an order queried from MEXC are signed in another order than the map's. -/
theorem mexc_sent_iff (P : Platform) (a : Adapter) (clock : Clock) {call : GetCall}
    (hcall : call.Unreserved) :
    Venue.mexc.SignsSent escape (Venue.mexc.signedGet P a clock call) ↔
      ∀ symbol orderId, call ≠ .queryOrder symbol orderId := by
  have hts := unreserved_repr (clock 0)
  cases call with
  | tradeFee symbol =>
    have hplain : Plain [("signature", P.hmacSha256Hex a.secretKey ("symbol=" ++ symbol ++
        "&timestamp=" ++ Nat.repr (clock 0))), ("symbol", symbol), ("timestamp", Nat.repr (clock 0))] := by
      have hsymbol : Unreserved symbol := hcall
      simp [unreserved_words, hsymbol, unreserved_hmac, hts]
    refine iff_of_true ?_ (fun _ _ h => by cases h)
    refine SignedGet.signed_eq_sent hescape (by simp) hplain (by simp) (by simp) ?_
    apply String.toList_inj.mp
    simp
  | queryOrder symbol orderId =>
    have hplain : Plain [("orderId", orderId), ("signature", P.hmacSha256Hex a.secretKey ("symbol=" ++
        symbol ++ "&orderId=" ++ orderId ++ "&timestamp=" ++ Nat.repr (clock 0))), ("symbol", symbol),
        ("timestamp", Nat.repr (clock 0))] := by
      have hsymbol : Unreserved symbol := hcall.1
      have horder : Unreserved orderId := hcall.2
      simp [unreserved_words, hsymbol, horder, unreserved_hmac, hts]
    refine iff_of_false ?_ (fun hother => hother symbol orderId rfl)
    intro hsent
    -- The signed text begins with "symbol", the one sent with "orderId".
    have hsame := hsent.trans (SignedGet.sent_eq hescape (by simp) hplain (by simp) (by simp))
    have hfirst := congrArg (fun text => text.toList.head?) hsame
    simp at hfirst
  | balances =>
    have hplain : Plain [("signature", P.hmacSha256Hex a.secretKey ("timestamp=" ++ Nat.repr (clock 0))),
        ("timestamp", Nat.repr (clock 0))] := by
      simp [unreserved_words, unreserved_hmac, hts]
    refine iff_of_true ?_ (fun _ _ h => by cases h)
    exact SignedGet.signed_eq_sent hescape (by simp) hplain (by simp) (by simp) (by simp)

end Escaped

end Calls

/-! ### The request -/

theorem SignedGet.send_sends (g : SignedGet) (escape : String → String) (c : RestClient)
    (server : Server) (log : List Delivery) :
    ∃ sends, (g.send escape c server log).2 = log ++ sends ∧
      ∀ d ∈ sends, d.request.method = .get ∧ d.request.url = c.baseUrl ++ g.target escape := by
  obtain ⟨sends, hlog, hsends⟩ := performLoop_attempts server
    { method := .get, url := c.baseUrl ++ g.target escape, body := "", headers := sentHeaders .get g.headers }
    (c.retryCount + 1).toNat {} log
  refine ⟨sends, hlog, ?_⟩
  intro d hd
  rw [hsends.same d hd]
  exact ⟨rfl, rfl⟩

/-- Every authenticated GET but that of an order at MEXC sends the text it signs. -/
theorem Venue.signedGet_sent_iff (P : Platform) (escape : String → String)
    (hescape : ∀ text, Unreserved text → escape text = text) (venue : Venue) (a : Adapter)
    (clock : Clock) (server : Server) (log : List Delivery) (call : GetCall) (hcall : call.Unreserved) :
    let g := venue.signedGet P a clock call
    venue.Signs P a clock g ∧
      (∃ sends, (g.send escape a.client server log).2 = log ++ sends ∧
        ∀ d ∈ sends, d.request.method = .get ∧ d.request.url = a.client.baseUrl ++ g.target escape) ∧
      (venue.SignsSent escape g ↔
        ¬ (venue = .mexc ∧ ∃ symbol orderId, call = .queryOrder symbol orderId)) := by
  refine ⟨Venue.signedGet_signs P a clock venue call, SignedGet.send_sends .., ?_⟩
  cases venue with
  | binance =>
    exact iff_of_true (binance_sent escape P a clock hcall) (fun h => by cases h.1)
  | okx => exact iff_of_true (okx_sent hescape P a clock hcall) (fun h => by cases h.1)
  | bybit => exact iff_of_true (bybit_sent hescape P a clock hcall) (fun h => by cases h.1)
  | gateio => exact iff_of_true (gateio_sent hescape P a clock hcall) (fun h => by cases h.1)
  | mexc =>
    rw [mexc_sent_iff hescape P a clock hcall]
    simp

/-- The digest of what Bybit's client signs for order 1 at time 0, under the key `secret`. -/
def bybitOrderDigest : String := rawBytes [
  4, 23, 141, 137, 106, 51, 250, 147, 34, 85, 102, 149, 43, 168, 12, 56, 212, 27, 11, 158,
  21, 58, 24, 111, 177, 48, 138, 152, 177, 225, 219, 182]

/-- The same of MEXC's. -/
def mexcOrderDigest : String := rawBytes [
  242, 55, 149, 176, 108, 41, 33, 46, 66, 22, 59, 120, 199, 126, 214, 189, 102, 198, 8, 36,
  166, 66, 109, 54, 38, 97, 174, 90, 31, 183, 255, 239]

def orderPlatform : Platform :=
  { plainPlatform with
    hmacSha256 := fun _ text =>
      if text = "0" ++ "key" ++ "5000" ++ "category=spot&orderId=1" then bybitOrderDigest
      else mexcOrderDigest }

theorem signedGet_sent_iff_order :
    let g := Venue.bybit.signedGet orderPlatform plainAdapter (fun _ => 0) (.queryOrder "BTCUSDT" "1")
    Venue.bybit.Signs orderPlatform plainAdapter (fun _ => 0) g ∧
      (∃ sends, (g.send id plainAdapter.client lossyServer []).2 = [] ++ sends ∧
        ∀ d ∈ sends, d.request.method = .get ∧ d.request.url = plainAdapter.client.baseUrl ++ g.target id) ∧
      (Venue.bybit.SignsSent id g ↔ ¬ (Venue.bybit = .mexc ∧
        ∃ symbol orderId, GetCall.queryOrder "BTCUSDT" "1" = .queryOrder symbol orderId)) :=
  Venue.signedGet_sent_iff orderPlatform id (fun _ _ => rfl) .bybit plainAdapter (fun _ => 0)
    lossyServer [] (.queryOrder "BTCUSDT" "1") ⟨by decide, by decide⟩

/-- An order queried from MEXC: `symbol` is signed first and `orderId` is sent first. -/
theorem mexc_order_sent_in_another_order : ¬ ∀ (P : Platform) (escape : String → String),
    (∀ text, Unreserved text → escape text = text) →
    ∀ (venue : Venue) (a : Adapter) (clock : Clock) (call : GetCall), call.Unreserved →
      venue.SignsSent escape (venue.signedGet P a clock call) := by
  intro h
  have hcall : (GetCall.queryOrder "BTCUSDT" "1").Unreserved := ⟨by decide, by decide⟩
  have hsent := h orderPlatform id (fun _ _ => rfl) .mexc plainAdapter (fun _ => 0) _ hcall
  exact (mexc_sent_iff (fun _ _ => rfl) orderPlatform plainAdapter _ hcall).mp hsent "BTCUSDT" "1" rfl

end CryptoArbBot
