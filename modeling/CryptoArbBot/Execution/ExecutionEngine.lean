import CryptoArbBot.Execution.InventoryTracker
import CryptoArbBot.Execution.OrderManager
import Mathlib.Tactic.Linarith

/-!
# Live execution (execution/execution_engine.cpp)

One call of `execute` holds `execution_mutex_` from start to end. The exchanges
are a party that answers every request in view of all earlier ones, with an
order result or an exception; the state keeps the events, the balance changes
passed to `record_fill` and the records passed to the trade logger. An exception
ends the call with the state it had reached.
-/

namespace CryptoArbBot

/-! ### The surroundings of a call -/

inductive Request where
  | place (req : OrderRequest)
  | query (exchange : Exchange) (pair orderId : String)
  | cancel (exchange : Exchange) (pair orderId : String)
  deriving DecidableEq, Repr

structure Event where
  request : Request
  answer : Except String OrderResult

/-- The exchanges; `sellFirst` tells which of the two concurrent placements
arrives first. -/
structure Market where
  respond : List Event → Request → Except String OrderResult
  sellFirst : List Event → Bool

/-- The random ids of `generate_uuid`, taken to be distinct. -/
structure UuidSupply where
  next : ℕ → String
  injective : Function.Injective next

/-- What surrounds the engine. `logError` is the exception, if any, that leaves
`log_trade` when the record cannot be written as JSON. -/
structure LiveEnv where
  exchanges : List Exchange
  market : Market
  uuid : UuidSupply
  logError : TradeRecord → Option String

/-- One call of `record_fill`; `quoteLeg` tells the two legs of a trade apart. -/
structure Fill where
  exchange : Exchange
  asset : String
  delta : ℚ
  quoteLeg : Bool
  deriving DecidableEq, Repr

structure LiveState where
  orders : OrderManager := {}
  inventory : InventoryTracker
  tradeLog : List TradeRecord := []
  events : List Event := []
  fills : List Fill := []
  uuids : ℕ := 0

def LiveState.recordFill (st : LiveState) (f : Fill) : LiveState :=
  { st with
    inventory := st.inventory.recordFill f.exchange f.asset f.delta
    fills := st.fills ++ [f] }

/-! ### The engine -/

structure DualOrderResult where
  buy : OrderResult
  sell : OrderResult
  deriving DecidableEq, Repr

def validateOpportunity (exchanges : List Exchange) (opp : ArbitrageOpportunity) : Bool :=
  if opp.netSpreadBps ≤ 0 then false
  else if opp.quantity ≤ 0 then false
  else if opp.buyExchange ∉ exchanges then false
  else if opp.sellExchange ∉ exchanges then false
  else true

/-- `check_balances`, which no other function calls. -/
def checkBalances (inventory : InventoryTracker) (opp : ArbitrageOpportunity) : Bool :=
  let buyState := inventory.getState opp.buyExchange
  let sellState := inventory.getState opp.sellExchange
  match splitPair opp.pair with
  | none => false
  | some (base, quote) =>
    let requiredQuote := opp.buyPrice * opp.quantity
    if buyState.amount quote < requiredQuote then false
    else if sellState.amount base < opp.quantity then false
    else true

def buyRequest (opp : ArbitrageOpportunity) (cid : String) : OrderRequest :=
  { exchange := opp.buyExchange, pair := opp.pair, side := .buy, price := opp.buyPrice,
    quantity := opp.quantity, clientOrderId := cid }

def sellRequest (opp : ArbitrageOpportunity) (cid : String) : OrderRequest :=
  { exchange := opp.sellExchange, pair := opp.pair, side := .sell, price := opp.sellPrice,
    quantity := opp.quantity, clientOrderId := cid }

def Market.call (m : Market) (request : Request) (events : List Event) :
    Except String OrderResult × List Event :=
  (m.respond events request, events ++ [⟨request, m.respond events request⟩])

/-- The two `std::async` placements: both run to their end. -/
def Market.placeBoth (m : Market) (buyReq sellReq : OrderRequest) (events : List Event) :
    Except String OrderResult × Except String OrderResult × List Event :=
  if m.sellFirst events then
    let (sell, events) := m.call (.place sellReq) events
    let (buy, events) := m.call (.place buyReq) events
    (buy, sell, events)
  else
    let (buy, events) := m.call (.place buyReq) events
    let (sell, events) := m.call (.place sellReq) events
    (buy, sell, events)

/-- `fire_orders`: `update_order` is reached only when both `get` return. -/
def fireOrders (env : LiveEnv) (opp : ArbitrageOpportunity) (st : LiveState) :
    Except String DualOrderResult × LiveState :=
  let buyCid := env.uuid.next st.uuids
  let sellCid := env.uuid.next (st.uuids + 1)
  let buyReq := buyRequest opp buyCid
  let sellReq := sellRequest opp sellCid
  let orders := (st.orders.trackOrder buyCid buyReq).trackOrder sellCid sellReq
  let (buy, sell, events) := env.market.placeBoth buyReq sellReq st.events
  let st := { st with orders, events, uuids := st.uuids + 2 }
  match buy, sell with
  | .ok buy, .ok sell =>
    (.ok { buy, sell },
      { st with orders := (orders.updateOrder buyCid buy).updateOrder sellCid sell })
  | .error e, _ => (.error e, st)
  | .ok _, .error e => (.error e, st)

def andThen (r : Except String Unit × List Event)
    (next : List Event → Except String Unit × List Event) : Except String Unit × List Event :=
  match r.1 with
  | .ok _ => next r.2
  | .error e => (.error e, r.2)

def Market.cancelOrder (m : Market) (exch : Exchange) (pair orderId : String)
    (events : List Event) : Except String Unit × List Event :=
  let (answer, events) := m.call (.cancel exch pair orderId) events
  (answer.map fun _ => (), events)

def Market.waitAndCancel (m : Market) (exch : Exchange) (pair orderId : String)
    (events : List Event) : Except String Unit × List Event :=
  match m.call (.query exch pair orderId) events with
  | (.error e, events) => (.error e, events)
  | (.ok status, events) =>
    if status.status ≠ .filled then m.cancelOrder exch pair orderId events else (.ok (), events)

def Market.handlePartialFill (m : Market) (opp : ArbitrageOpportunity) (results : DualOrderResult)
    (events : List Event) : Except String Unit × List Event :=
  let r := if results.buy.status = .rejected ∧ results.sell.status ≠ .rejected then
      m.cancelOrder opp.sellExchange opp.pair results.sell.exchangeOrderId events
    else (.ok (), events)
  let r := andThen r fun events =>
    if results.sell.status = .rejected ∧ results.buy.status ≠ .rejected then
      m.cancelOrder opp.buyExchange opp.pair results.buy.exchangeOrderId events
    else (.ok (), events)
  let r := andThen r fun events =>
    if results.buy.status = .partiallyFilled then
      m.waitAndCancel opp.buyExchange opp.pair results.buy.exchangeOrderId events
    else (.ok (), events)
  andThen r fun events =>
    if results.sell.status = .partiallyFilled then
      m.waitAndCancel opp.sellExchange opp.pair results.sell.exchangeOrderId events
    else (.ok (), events)

/-- The cleanup that `execute` makes unless both legs are FILLED. -/
def Market.cleanUp (m : Market) (opp : ArbitrageOpportunity) (results : DualOrderResult)
    (events : List Event) : Except String Unit × List Event :=
  let buyOk := results.buy.status = .filled
  let sellOk := results.sell.status = .filled
  if ¬ buyOk ∨ ¬ sellOk then m.handlePartialFill opp results events else (.ok (), events)

def matchedQty (results : DualOrderResult) : ℚ :=
  min results.buy.filledQuantity results.sell.filledQuantity

def buyCost (results : DualOrderResult) : ℚ := results.buy.avgFillPrice * matchedQty results

def sellProceeds (results : DualOrderResult) : ℚ := results.sell.avgFillPrice * matchedQty results

def tradeFills (opp : ArbitrageOpportunity) (results : DualOrderResult) : List Fill :=
  match splitPair opp.pair with
  | none => []
  | some (base, quote) =>
    [⟨opp.buyExchange, base, results.buy.filledQuantity, false⟩,
      ⟨opp.buyExchange, quote, -buyCost results, true⟩,
      ⟨opp.sellExchange, base, -results.sell.filledQuantity, false⟩,
      ⟨opp.sellExchange, quote, sellProceeds results, true⟩]

def liveRecord (opp : ArbitrageOpportunity) (id timestampIso : String) : TradeRecord :=
  { id, pair := opp.pair, buyExchange := opp.buyExchange, sellExchange := opp.sellExchange,
    buyPrice := opp.buyPrice, sellPrice := opp.sellPrice, quantity := opp.quantity,
    grossSpreadBps := opp.grossSpreadBps, netSpreadBps := opp.netSpreadBps, timestampIso,
    mode := .live }

def invalidOpportunity : OrderResult :=
  { status := .rejected, errorMessage := "Invalid opportunity" }

/-- The end of `execute`: profit, inventory, trade log. -/
def settle (env : LiveEnv) (opp : ArbitrageOpportunity) (record : TradeRecord)
    (results : DualOrderResult) (st : LiveState) : Except String TradeRecord × LiveState :=
  let record := { record with
    buyResult := results.buy
    sellResult := results.sell
    realizedPnl := sellProceeds results - buyCost results - results.buy.feePaid -
      results.sell.feePaid }
  let st := (tradeFills opp results).foldl LiveState.recordFill st
  let st := { st with tradeLog := st.tradeLog ++ [record] }
  match env.logError record with
  | some e => (.error e, st)
  | none => (.ok record, st)

/-- `execute`; `timestampIso` is the reading of `now_iso8601`. -/
def execute (env : LiveEnv) (opp : ArbitrageOpportunity) (timestampIso : String) (st : LiveState) :
    Except String TradeRecord × LiveState :=
  let record := liveRecord opp (env.uuid.next st.uuids) timestampIso
  let st := { st with uuids := st.uuids + 1 }
  if validateOpportunity env.exchanges opp = false then
    (.ok { record with buyResult := invalidOpportunity, sellResult := invalidOpportunity }, st)
  else
    match fireOrders env opp st with
    | (.error e, st) => (.error e, st)
    | (.ok results, st) =>
      let (handled, events) := env.market.cleanUp opp results st.events
      let st := { st with events }
      match handled with
      | .error e => (.error e, st)
      | .ok _ => settle env opp record results st

end CryptoArbBot
