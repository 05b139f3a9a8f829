import CryptoArbBot.Exchange.Json
import CryptoArbBot.Exchange.RestClient

/-!
# Placing an order on the five exchanges (exchange/*/*_rest.cpp, *_adapter.cpp)

Each `place_order` builds one request, hands it to `RestClient::post` once and
reads the response. The digests of OpenSSL, the text functions of nlohmann::json
and the formatting of a UTC time are parameters.
-/

namespace CryptoArbBot

/-- The digests are raw bytes, one character a byte. -/
structure Platform where
  hmacSha256 : String → String → String
  hmacSha512 : String → String → String
  base64Encode : String → String
  sha512 : String → String
  parseJson : String → Except String Json
  dumpJson : Json → String
  formatUtc : ℕ → String

/-! ### Hex texts (common/crypto_utils.cpp) -/

def hexByte (byte : Char) : List Char :=
  [Nat.digitChar (byte.toNat / 16 % 16), Nat.digitChar (byte.toNat % 16)]

/-- Two lower-case hex digits for every byte. -/
def toHex (data : String) : String := String.ofList (data.toList.flatMap hexByte)

def Platform.hmacSha256Hex (P : Platform) (key data : String) : String := toHex (P.hmacSha256 key data)

def Platform.hmacSha512Hex (P : Platform) (key data : String) : String := toHex (P.hmacSha512 key data)

structure Adapter where
  client : RestClient
  apiKey : String
  secretKey : String
  pairMap : String → Option String

/-- The clock readings of one call in milliseconds, in order. -/
abbrev Clock := ℕ → ℕ

abbrev Placed := Except String OrderResult × List Delivery

def removeHyphens (pair : String) : String := String.ofList (pair.toList.filter (· ≠ '-'))

/-- A `catch` that rejects: what was assigned to the order id before stays. -/
def caught (exchangeOrderId : String) (result : Except String OrderResult) : OrderResult :=
  match result with
  | .ok r => { r with exchangeOrderId := exchangeOrderId }
  | .error e => { exchangeOrderId := exchangeOrderId, status := .rejected, errorMessage := e }

/-! ### Binance -/

namespace Binance

def normalizePair (a : Adapter) (pair : String) : String :=
  (a.pairMap pair).getD (removeHyphens pair)

def signRequest (P : Platform) (a : Adapter) (nowMs : ℕ) (queryString : String) : String :=
  let qs := (if queryString ≠ "" then queryString ++ "&" else queryString) ++
    "timestamp=" ++ Nat.repr nowMs
  qs ++ "&signature=" ++ P.hmacSha256Hex a.secretKey qs

def orderStatus (statusStr : String) : OrderStatus :=
  if statusStr = "NEW" then .opened
  else if statusStr = "PARTIALLY_FILLED" then .partiallyFilled
  else if statusStr = "FILLED" then .filled
  else if statusStr = "CANCELED" then .cancelled
  else if statusStr = "REJECTED" ∨ statusStr = "EXPIRED" then .rejected
  else .pending

def totalCommission : List Json → ℚ → Except String ℚ
  | [], total => .ok total
  | fill :: fills, total => do
    let commission ← stod (← fill.valueString "commission" "0")
    totalCommission fills (total + commission)

def parseOrderResponse (j : Json) : Except String OrderResult := do
  let orderId ← j.valueInt64 "orderId" 0
  let statusStr ← j.valueString "status" ""
  let filledQuantity ← stod (← j.valueString "executedQty" "0")
  let cumQuote ← stod (← j.valueString "cummulativeQuoteQty" "0")
  let feePaid ← match j.member? "fills" with
    | none => pure 0
    | some fills => totalCommission fills.elements 0
  return {
    exchangeOrderId := Int.repr orderId
    status := orderStatus statusStr
    filledQuantity
    avgFillPrice := if filledQuantity > 0 then cumQuote / filledQuantity else 0
    feePaid }

/-- A parse error leaves the call as an exception. -/
def readPlaced (P : Platform) (resp : HttpResponse) : Except String OrderResult :=
  if resp.statusCode ≠ 200 then
    .ok {
      status := .rejected
      errorMessage := "HTTP " ++ Int.repr resp.statusCode ++ ": " ++ resp.body }
  else P.parseJson resp.body >>= parseOrderResponse

def placeOrder (P : Platform) (a : Adapter) (clock : Clock) (server : Server) (symbol : String)
    (side : Side) (type : String) (price quantity : ℚ) (log : List Delivery) : Placed :=
  let qs := "symbol=" ++ symbol ++ "&side=" ++ (if side = .buy then "BUY" else "SELL") ++
    "&type=" ++ type ++ "&timeInForce=GTC" ++ "&quantity=" ++ ostreamDouble quantity ++
    "&price=" ++ ostreamDouble price
  let (resp, log) := a.client.post server
    ("/api/v3/order?" ++ signRequest P a (clock 0) qs) "" [("X-MBX-APIKEY", a.apiKey)] log
  (readPlaced P resp, log)

def placeLimitOrder (P : Platform) (a : Adapter) (clock : Clock) (server : Server)
    (req : OrderRequest) (log : List Delivery) : Placed :=
  placeOrder P a clock server (normalizePair a req.pair) req.side "LIMIT" req.price req.quantity log

end Binance

/-! ### OKX -/

namespace Okx

def normalizePair (a : Adapter) (pair : String) : String := (a.pairMap pair).getD pair

def authHeaders (P : Platform) (a : Adapter) (clock : Clock) (method path body : String) :
    List (String × String) :=
  let ts := P.formatUtc (clock 0)
  [("OK-ACCESS-KEY", a.apiKey),
    ("OK-ACCESS-SIGN", P.base64Encode (P.hmacSha256 a.secretKey (ts ++ method ++ path ++ body))),
    ("OK-ACCESS-TIMESTAMP", ts), ("OK-ACCESS-PASSPHRASE", ""),
    ("Content-Type", "application/json")]

/-- Without a `data` member, or with an empty one, the result keeps its defaults. -/
def parsePlaced (parsed : Except String Json) : OrderResult :=
  match parsed with
  | .error e => caught "" (.error e)
  | .ok j =>
    match j.member? "data" with
    | none => {}
    | some data =>
      if data.empty then {}
      else
        match (do let d ← data.first; return (d, ← d.valueString "ordId" "")) with
        | .error e => caught "" (.error e)
        | .ok (d, ordId) => caught ordId do
          let sCode ← d.valueString "sCode" "1"
          if sCode = "0" then return { status := .opened }
          else return { status := .rejected, errorMessage := ← d.valueString "sMsg" "Unknown error" }

def placeOrder (P : Platform) (a : Adapter) (clock : Clock) (server : Server) (instId side : String)
    (price size : ℚ) (log : List Delivery) : Placed :=
  let body := P.dumpJson (.object [("instId", .string instId), ("tdMode", .string "cash"),
    ("side", .string side), ("ordType", .string "limit"), ("px", .string (toStringDouble price)),
    ("sz", .string (toStringDouble size))])
  let (resp, log) := a.client.post server "/api/v5/trade/order" body
    (authHeaders P a clock "POST" "/api/v5/trade/order" body) log
  (.ok (parsePlaced (P.parseJson resp.body)), log)

def placeLimitOrder (P : Platform) (a : Adapter) (clock : Clock) (server : Server)
    (req : OrderRequest) (log : List Delivery) : Placed :=
  placeOrder P a clock server (normalizePair a req.pair) (if req.side = .buy then "buy" else "sell")
    req.price req.quantity log

end Okx

/-! ### Bybit -/

namespace Bybit

def normalizePair (a : Adapter) (pair : String) : String :=
  (a.pairMap pair).getD (removeHyphens pair)

def recvWindow : String := "5000"

def authHeaders (P : Platform) (a : Adapter) (clock : Clock) (payload : String) :
    List (String × String) :=
  let ts := Nat.repr (clock 0)
  [("X-BAPI-API-KEY", a.apiKey),
    ("X-BAPI-SIGN", P.hmacSha256Hex a.secretKey (ts ++ a.apiKey ++ recvWindow ++ payload)),
    ("X-BAPI-TIMESTAMP", ts), ("X-BAPI-RECV-WINDOW", recvWindow),
    ("Content-Type", "application/json")]

def parsePlaced (parsed : Except String Json) : OrderResult :=
  match (do
    let j ← parsed
    let retCode ← j.valueInt "retCode" (-1)
    match j.member? "result" with
    | some result =>
      if retCode = 0 then
        return { exchangeOrderId := ← result.valueString "orderId" "", status := .opened }
      else return { status := .rejected, errorMessage := ← j.valueString "retMsg" "Unknown error" }
    | none =>
      return { status := .rejected, errorMessage := ← j.valueString "retMsg" "Unknown error" } :
    Except String OrderResult) with
  | .ok r => r
  | .error e => caught "" (.error e)

def placeOrder (P : Platform) (a : Adapter) (clock : Clock) (server : Server) (symbol side : String)
    (price qty : ℚ) (log : List Delivery) : Placed :=
  let body := P.dumpJson (.object [("category", .string "spot"), ("symbol", .string symbol),
    ("side", .string (if side = "buy" then "Buy" else "Sell")), ("orderType", .string "Limit"),
    ("price", .string (toStringDouble price)), ("qty", .string (toStringDouble qty))])
  let (resp, log) := a.client.post server "/v5/order/create" body (authHeaders P a clock body) log
  (.ok (parsePlaced (P.parseJson resp.body)), log)

def placeLimitOrder (P : Platform) (a : Adapter) (clock : Clock) (server : Server)
    (req : OrderRequest) (log : List Delivery) : Placed :=
  placeOrder P a clock server (normalizePair a req.pair) (if req.side = .buy then "buy" else "sell")
    req.price req.quantity log

end Bybit

/-- The reading of a placed order that MEXC and Gate.io share: the id, then a
status text, then an error text under the given names. -/
def parseByStatus (idKey errorKey : String) (status : String → Option OrderStatus)
    (parsed : Except String Json) : OrderResult :=
  match (do let j ← parsed; return (j, ← j.valueString idKey "")) with
  | .error e => caught "" (.error e)
  | .ok (j, id) => caught id do
    match status (← j.valueString "status" "") with
    | some status => return { status }
    | none =>
      return { status := .rejected, errorMessage := ← j.valueString errorKey "Unknown error" }

/-! ### MEXC -/

namespace Mexc

def normalizePair (a : Adapter) (pair : String) : String :=
  (a.pairMap pair).getD (removeHyphens pair)

def placedStatus (status : String) : Option OrderStatus :=
  if status = "NEW" then some .opened
  else if status = "FILLED" then some .filled
  else if status = "PARTIALLY_FILLED" then some .partiallyFilled
  else none

def parsePlaced (parsed : Except String Json) : OrderResult :=
  parseByStatus "orderId" "msg" placedStatus parsed

def placeOrder (P : Platform) (a : Adapter) (clock : Clock) (server : Server) (symbol side : String)
    (price qty : ℚ) (log : List Delivery) : Placed :=
  let query := "symbol=" ++ symbol ++ "&side=" ++ side ++ "&type=LIMIT" ++ "&price=" ++
    toStringDouble price ++ "&quantity=" ++ toStringDouble qty ++ "&timestamp=" ++ Nat.repr (clock 0)
  let sig := P.hmacSha256Hex a.secretKey query
  let (resp, log) := a.client.post server ("/api/v3/order?" ++ query ++ "&signature=" ++ sig) ""
    [("X-MEXC-APIKEY", a.apiKey)] log
  (.ok (parsePlaced (P.parseJson resp.body)), log)

def placeLimitOrder (P : Platform) (a : Adapter) (clock : Clock) (server : Server)
    (req : OrderRequest) (log : List Delivery) : Placed :=
  placeOrder P a clock server (normalizePair a req.pair) (if req.side = .buy then "BUY" else "SELL")
    req.price req.quantity log

end Mexc

/-! ### Gate.io -/

namespace Gateio

def normalizePair (a : Adapter) (pair : String) : String :=
  (a.pairMap pair).getD (String.ofList (pair.toList.map fun c => if c = '-' then '_' else c))

/-- The clock is read for the header and again inside `sign_request`. -/
def authHeaders (P : Platform) (a : Adapter) (clock : Clock) (method path query body : String) :
    List (String × String) :=
  let ts := Nat.repr (clock 0 / 1000)
  let signedTs := Nat.repr (clock 1 / 1000)
  let prehash := method ++ "\n" ++ path ++ "\n" ++ query ++ "\n" ++ P.sha512 body ++ "\n" ++ signedTs
  [("KEY", a.apiKey), ("SIGN", P.hmacSha512Hex a.secretKey prehash), ("Timestamp", ts),
    ("Content-Type", "application/json")]

def placedStatus (status : String) : Option OrderStatus :=
  if status = "open" then some .opened
  else if status = "closed" then some .filled
  else none

def parsePlaced (parsed : Except String Json) : OrderResult :=
  parseByStatus "id" "message" placedStatus parsed

def placeOrder (P : Platform) (a : Adapter) (clock : Clock) (server : Server)
    (currencyPair side : String) (price amount : ℚ) (log : List Delivery) : Placed :=
  let body := P.dumpJson (.object [("currency_pair", .string currencyPair), ("side", .string side),
    ("type", .string "limit"), ("price", .string (toStringDouble price)),
    ("amount", .string (toStringDouble amount)), ("time_in_force", .string "gtc")])
  let (resp, log) := a.client.post server "/api/v4/spot/orders" body
    (authHeaders P a clock "POST" "/api/v4/spot/orders" "" body) log
  (.ok (parsePlaced (P.parseJson resp.body)), log)

def placeLimitOrder (P : Platform) (a : Adapter) (clock : Clock) (server : Server)
    (req : OrderRequest) (log : List Delivery) : Placed :=
  placeOrder P a clock server (normalizePair a req.pair) (if req.side = .buy then "buy" else "sell")
    req.price req.quantity log

end Gateio

inductive Venue where
  | binance | okx | bybit | mexc | gateio
  deriving DecidableEq, Repr

def Venue.placeLimitOrder (P : Platform) (a : Adapter) (clock : Clock) (server : Server)
    (req : OrderRequest) (log : List Delivery) : Venue → Placed
  | .binance => Binance.placeLimitOrder P a clock server req log
  | .okx => Okx.placeLimitOrder P a clock server req log
  | .bybit => Bybit.placeLimitOrder P a clock server req log
  | .mexc => Mexc.placeLimitOrder P a clock server req log
  | .gateio => Gateio.placeLimitOrder P a clock server req log

end CryptoArbBot
