import CryptoArbBot.Common.Types
import CryptoArbBot.Exchange.Json
import CryptoArbBot.Library.TextStream

/-!
# The trade log (persistence/trade_logger.cpp)

One JSON object a line. `dump` and `parse` of nlohmann::json are parameters; a
text of the file is its bytes, each as the character of its code. A file that
is not there is `none`.
-/

namespace CryptoArbBot.TradeLogger

/-! ### Records as JSON -/

def resultJson (r : OrderResult) : Json :=
  .ofInitializerList [
    ("exchange_order_id", .string r.exchangeOrderId),
    ("status", .string r.status.toString),
    ("filled_quantity", .float r.filledQuantity),
    ("avg_fill_price", .float r.avgFillPrice),
    ("fee_paid", .float r.feePaid),
    ("error_message", .string r.errorMessage)]

def toJson (r : TradeRecord) : Json :=
  .ofInitializerList [
    ("id", .string r.id),
    ("pair", .string r.pair),
    ("buy_exchange", .string r.buyExchange.toString),
    ("sell_exchange", .string r.sellExchange.toString),
    ("buy_price", .float r.buyPrice),
    ("sell_price", .float r.sellPrice),
    ("quantity", .float r.quantity),
    ("gross_spread_bps", .float r.grossSpreadBps),
    ("net_spread_bps", .float r.netSpreadBps),
    ("buy_result", resultJson r.buyResult),
    ("sell_result", resultJson r.sellResult),
    ("realized_pnl", .float r.realizedPnl),
    ("timestamp", .string r.timestampIso),
    ("mode", .string r.mode.toString)]

def parseOrderStatus (s : String) : OrderStatus :=
  if s = "FILLED" then .filled
  else if s = "PARTIALLY_FILLED" then .partiallyFilled
  else if s = "OPEN" then .opened
  else if s = "CANCELLED" then .cancelled
  else if s = "REJECTED" then .rejected
  else .pending

def parseMode (s : String) : TradingMode :=
  if s = "PAPER" then .paper
  else if s = "BACKTEST" then .backtest
  else .live

/-- The block for `buy_result` and the one for `sell_result`; without the key
the record keeps the result it was made with. -/
def readResult (j : Json) (key : String) : Except String OrderResult :=
  match j.member? key with
  | none => .ok {}
  | some result => do
    let exchangeOrderId ← result.valueString "exchange_order_id" ""
    let status ← result.valueString "status" "PENDING"
    let filledQuantity ← result.valueDouble "filled_quantity" 0
    let avgFillPrice ← result.valueDouble "avg_fill_price" 0
    let feePaid ← result.valueDouble "fee_paid" 0
    let errorMessage ← result.valueString "error_message" ""
    return {
      exchangeOrderId, status := parseOrderStatus status, filledQuantity, avgFillPrice, feePaid
      errorMessage }

def fromJson (j : Json) : Except String TradeRecord := do
  let id ← j.valueString "id" ""
  let pair ← j.valueString "pair" ""
  let buyExchange ← exchangeFromString (← j.valueString "buy_exchange" "BINANCE")
  let sellExchange ← exchangeFromString (← j.valueString "sell_exchange" "OKX")
  let buyPrice ← j.valueDouble "buy_price" 0
  let sellPrice ← j.valueDouble "sell_price" 0
  let quantity ← j.valueDouble "quantity" 0
  let grossSpreadBps ← j.valueDouble "gross_spread_bps" 0
  let netSpreadBps ← j.valueDouble "net_spread_bps" 0
  let realizedPnl ← j.valueDouble "realized_pnl" 0
  let timestampIso ← j.valueString "timestamp" ""
  let modeStr ← j.valueString "mode" "LIVE"
  let buyResult ← readResult j "buy_result"
  let sellResult ← readResult j "sell_result"
  return {
    id, pair, buyExchange, sellExchange, buyPrice, sellPrice, quantity, grossSpreadBps
    netSpreadBps, buyResult, sellResult, realizedPnl, timestampIso, mode := parseMode modeStr }

/-! ### The file -/

/-- What the system does with one append: `open` fails, or `write` stores so
many bytes of the line. -/
inductive Append where
  | unopened
  | stored (count : ℕ)
  deriving DecidableEq, Repr

def appendToFile (call : Append) (file : Option String) (jsonLine : String) : Option String :=
  let line := jsonLine ++ "\n"
  match call with
  | .unopened => file
  | .stored count => some (file.getD "" ++ String.ofList (line.toList.take count))

section Calls
variable (dump : Json → String) (parse : String → Except String Json)

def logTrade (call : Append) (file : Option String) (record : TradeRecord) : Option String :=
  appendToFile call file (dump (toJson record))

/-- The file after the calls, each with what the system does with its append. -/
def logTrades (file : Option String) (calls : List (Append × TradeRecord)) : Option String :=
  calls.foldl (fun file call => logTrade dump call.1 file call.2) file

/-- What one round of the loop pushes; any exception skips the line. -/
def loadLine (line : String) : Option TradeRecord :=
  if line = "" then none else ((parse line).bind fromJson).toOption

def loadAllTrades (file : Option String) : List TradeRecord :=
  match file with
  | none => []
  | some text => ((TextStream.ofString text).lines '\n').filterMap (loadLine parse)

def totalRealizedPnl (file : Option String) : ℚ :=
  (loadAllTrades parse file).foldl (fun total t => total + t.realizedPnl) 0

def pnlForPair (file : Option String) (pair : String) : ℚ :=
  (loadAllTrades parse file).foldl
    (fun total t => if t.pair = pair then total + t.realizedPnl else total) 0

end Calls

end CryptoArbBot.TradeLogger
