import CryptoArbBot.Execution.DriftAlerts
import CryptoArbBot.Exchange.Json
import CryptoArbBot.Library.Assignments
import Mathlib.Data.String.Basic

/-!
# The messages for the dashboard (server/message_types.cpp)

An envelope names its type and the time it was made. The members of `data` are
assigned one after another, so that a key assigned twice keeps its last value.
Maps are given by their entries, in order.
-/

namespace CryptoArbBot.MessageTypes
open Assignments

/-- `data[key] = value` for each entry. -/
def ofAssignments (entries : List (String × Json)) : Json := .object (assignAll entries [])

structure ExchangePrice where
  exchange : String
  bid : ℚ := 0
  ask : ℚ := 0
  ageMs : ℤ := 0
  deriving DecidableEq

/-- The gross and the net spread of each buy and sell exchange. -/
abbrev SpreadMatrix := List (String × List (String × ℚ × ℚ))

/-- `timestamp` is the `now_iso8601()` of the call. -/
def makeEnvelope (timestamp type : String) (data : Json) : Json :=
  .ofInitializerList [("type", .string type), ("timestamp", .string timestamp), ("data", data)]

def tradeData (trade : TradeRecord) : Json :=
  ofAssignments [
    ("id", .string trade.id),
    ("pair", .string trade.pair),
    ("buy_exchange", .string trade.buyExchange.toString),
    ("sell_exchange", .string trade.sellExchange.toString),
    ("buy_price", .float trade.buyPrice),
    ("sell_price", .float trade.sellPrice),
    ("quantity", .float trade.quantity),
    ("gross_spread_bps", .float trade.grossSpreadBps),
    ("net_spread_bps", .float trade.netSpreadBps),
    ("realized_pnl", .float trade.realizedPnl),
    ("timestamp", .string trade.timestampIso),
    ("mode", .string trade.mode.toString),
    ("buy_order_id", .string trade.buyResult.exchangeOrderId),
    ("buy_status", .string trade.buyResult.status.toString),
    ("buy_filled_qty", .float trade.buyResult.filledQuantity),
    ("buy_fill_price", .float trade.buyResult.avgFillPrice),
    ("buy_fee", .float trade.buyResult.feePaid),
    ("sell_order_id", .string trade.sellResult.exchangeOrderId),
    ("sell_status", .string trade.sellResult.status.toString),
    ("sell_filled_qty", .float trade.sellResult.filledQuantity),
    ("sell_fill_price", .float trade.sellResult.avgFillPrice),
    ("sell_fee", .float trade.sellResult.feePaid)]

def makeTradeMessage (timestamp : String) (trade : TradeRecord) : Json :=
  makeEnvelope timestamp "trade" (tradeData trade)

def route (buyExch sellExch : String) : String := buyExch ++ "->" ++ sellExch

def bpsData (bps : ℚ × ℚ) : Json :=
  .ofInitializerList [("gross_bps", .float bps.1), ("net_bps", .float bps.2)]

def pairData (spreads : SpreadMatrix) : Json :=
  ofAssignments (spreads.flatMap fun row =>
    row.2.map fun entry => (route row.1 entry.1, bpsData entry.2))

def makeSpreadsMessage (timestamp pair : String) (spreads : SpreadMatrix) : Json :=
  makeEnvelope timestamp "spreads" (ofAssignments [(pair, pairData spreads)])

def balancesData (balances : List (Exchange × List (String × ℚ))) : Json :=
  ofAssignments (balances.map fun entry =>
    (entry.1.toString, ofAssignments (entry.2.map fun asset => (asset.1, .float asset.2))))

def makeBalancesMessage (timestamp : String) (balances : List (Exchange × List (String × ℚ))) : Json :=
  makeEnvelope timestamp "balances" (balancesData balances)

structure PnlStats where
  totalPnl : ℚ
  pnlPerPair : List (String × ℚ)
  totalTrades : ℤ
  winRate : ℚ
  totalFees : ℚ
  feesPerExchange : List (String × ℚ)
  deriving DecidableEq

def pnlData (stats : PnlStats) : Json :=
  ofAssignments [
    ("total_pnl", .float stats.totalPnl),
    ("total_trades", .integer stats.totalTrades),
    ("win_rate", .float stats.winRate),
    ("total_fees", .float stats.totalFees),
    ("pnl_per_pair", ofAssignments (stats.pnlPerPair.map fun entry => (entry.1, .float entry.2))),
    ("fees_per_exchange",
      ofAssignments (stats.feesPerExchange.map fun entry => (entry.1, .float entry.2)))]

def makePnlMessage (timestamp : String) (stats : PnlStats) : Json :=
  makeEnvelope timestamp "pnl" (pnlData stats)

def heartbeatData (seq droppedCount : ℕ) : Json :=
  ofAssignments [("seq", .integer seq), ("dropped_count", .integer droppedCount)]

def makeHeartbeatMessage (timestamp : String) (seq droppedCount : ℕ) : Json :=
  makeEnvelope timestamp "heartbeat" (heartbeatData seq droppedCount)

def alertData (alert : DriftAlert) (message : String) : Json :=
  ofAssignments [
    ("asset", .string alert.asset),
    ("excess_exchange", .string alert.excessExchange.toString),
    ("deficit_exchange", .string alert.deficitExchange.toString),
    ("imbalance_pct", .float alert.imbalancePct),
    ("message", .string message)]

def makeAlertMessage (timestamp : String) (alert : DriftAlert) (message : String) : Json :=
  makeEnvelope timestamp "alert" (alertData alert message)

def priceData (ep : ExchangePrice) : Json :=
  .ofInitializerList [
    ("exchange", .string ep.exchange),
    ("bid", .float ep.bid),
    ("ask", .float ep.ask),
    ("age_ms", .integer ep.ageMs)]

def pricesData (prices : List (String × List ExchangePrice)) : Json :=
  ofAssignments (prices.map fun entry => (entry.1, .array (entry.2.map priceData)))

def makePricesMessage (timestamp : String) (prices : List (String × List ExchangePrice)) : Json :=
  makeEnvelope timestamp "prices" (pricesData prices)

/-! ### All messages -/

inductive ServerMessage where
  | trade (trade : TradeRecord)
  | spreads (pair : String) (spreads : SpreadMatrix)
  | balances (balances : List (Exchange × List (String × ℚ)))
  | pnl (stats : PnlStats)
  | heartbeat (seq droppedCount : ℕ)
  | alert (alert : DriftAlert) (message : String)
  | prices (prices : List (String × List ExchangePrice))
  deriving DecidableEq

namespace ServerMessage

def type : ServerMessage → String
  | .trade _ => "trade"
  | .spreads _ _ => "spreads"
  | .balances _ => "balances"
  | .pnl _ => "pnl"
  | .heartbeat _ _ => "heartbeat"
  | .alert _ _ => "alert"
  | .prices _ => "prices"

def data : ServerMessage → Json
  | .trade t => tradeData t
  | .spreads pair matrix => ofAssignments [(pair, pairData matrix)]
  | .balances entries => balancesData entries
  | .pnl stats => pnlData stats
  | .heartbeat seq droppedCount => heartbeatData seq droppedCount
  | .alert drift message => alertData drift message
  | .prices entries => pricesData entries

def envelope (timestamp : String) : ServerMessage → Json
  | .trade t => makeTradeMessage timestamp t
  | .spreads pair matrix => makeSpreadsMessage timestamp pair matrix
  | .balances entries => makeBalancesMessage timestamp entries
  | .pnl stats => makePnlMessage timestamp stats
  | .heartbeat seq droppedCount => makeHeartbeatMessage timestamp seq droppedCount
  | .alert drift message => makeAlertMessage timestamp drift message
  | .prices entries => makePricesMessage timestamp entries

theorem envelope_eq (timestamp : String) (m : ServerMessage) :
    m.envelope timestamp = makeEnvelope timestamp m.type m.data := by
  cases m <;> rfl

/-! What a message puts on display, for each type. -/

def trade? : ServerMessage → Option Json
  | .trade t => some (tradeData t)
  | _ => none

def spreads? (pair : String) : ServerMessage → Option SpreadMatrix
  | .spreads pair' matrix => if pair = pair' then some matrix else none
  | _ => none

def balances? : ServerMessage → Option Json
  | .balances entries => some (balancesData entries)
  | _ => none

def pnl? : ServerMessage → Option Json
  | .pnl stats => some (pnlData stats)
  | _ => none

def heartbeat? : ServerMessage → Option (Json × Json)
  | .heartbeat seq droppedCount => some (.integer seq, .integer droppedCount)
  | _ => none

def alert? : ServerMessage → Option Json
  | .alert drift message => some (alertData drift message)
  | _ => none

def prices? : ServerMessage → Option Json
  | .prices entries => some (pricesData entries)
  | _ => none

end ServerMessage

/-! ### Reading the members back -/

theorem member?_object (members : List (String × Json)) (key : String) :
    (Json.object members).member? key = members.lookup key := by
  unfold Json.member?
  dsimp only
  induction members with
  | nil => rfl
  | cons m members ih =>
    obtain ⟨name, v⟩ := m
    rw [lookup_cons_if, ← ih, List.find?_cons]
    by_cases hkey : name = key
    · simp [hkey]
    · simp [hkey, Ne.symm hkey]

theorem member?_ofAssignments (entries : List (String × Json)) (key : String) :
    (ofAssignments entries).member? key = entries.reverse.lookup key := by
  rw [ofAssignments, member?_object, lookup_assignAll]
  exact Option.or_none

theorem member?_ofAssignments_of_nodup {entries : List (String × Json)}
    (hkeys : (entries.map Prod.fst).Nodup) (key : String) :
    (ofAssignments entries).member? key = entries.lookup key := by
  rw [member?_ofAssignments, lookup_reverse hkeys]

@[simp] theorem member?_type (timestamp type : String) (data : Json) :
    (makeEnvelope timestamp type data).member? "type" = some (.string type) := by
  simp [makeEnvelope, Json.member?_ofInitializerList]

@[simp] theorem member?_data (timestamp type : String) (data : Json) :
    (makeEnvelope timestamp type data).member? "data" = some data := by
  simp [makeEnvelope, Json.member?_ofInitializerList]

end CryptoArbBot.MessageTypes
