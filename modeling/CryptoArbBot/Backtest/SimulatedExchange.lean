import CryptoArbBot.Common.Types
import CryptoArbBot.Library.StdAlgorithms

/-!
# The simulated exchange (backtest/simulated_exchange.cpp)

For each pair the recorded rows in timestamp order, a cursor into them, and the
balances that orders change. The two maps of rows and cursors are functions of
the pair with no rows for an absent one; an absent balance reads zero.
-/

namespace CryptoArbBot

structure SimulatedExchange where
  exchId : Exchange
  name : String
  balances : String → ℚ
  makerFee : ℚ
  takerFee : ℚ
  snapshotsByPair : String → List HistoricalSnapshot := fun _ => []
  currentIndex : String → ℕ := fun _ => 0
  currentTimeMs : UInt64 := 0

namespace SimulatedExchange

def new (exchId : Exchange) (name : String) (initialBalances : AssetMap) (makerFee takerFee : ℚ) :
    SimulatedExchange :=
  { exchId, name, balances := initialBalances.amount, makerFee, takerFee }

def byTimestamp (a b : HistoricalSnapshot) : Bool := decide (a.timestampMs < b.timestampMs)

def loadSnapshots (std : StdSort HistoricalSnapshot) (sim : SimulatedExchange)
    (snapshots : List HistoricalSnapshot) : SimulatedExchange :=
  { sim with
    snapshotsByPair := fun pair =>
      std.sort byTimestamp (sim.snapshotsByPair pair ++
        snapshots.filter fun snap => snap.exchange = sim.exchId ∧ snap.pair = pair)
    currentIndex := fun _ => 0 }

/-- The loop of `advance_to` over the rows behind the cursor. -/
def advanceLoop (timestampMs : UInt64) (idx : ℕ) : List HistoricalSnapshot → ℕ
  | [] => idx
  | next :: rest =>
    if next.timestampMs ≤ timestampMs then advanceLoop timestampMs (idx + 1) rest else idx

def advanceTo (sim : SimulatedExchange) (timestampMs : UInt64) : SimulatedExchange :=
  { sim with
    currentTimeMs := timestampMs
    currentIndex := fun pair =>
      advanceLoop timestampMs (sim.currentIndex pair)
        ((sim.snapshotsByPair pair).drop (sim.currentIndex pair + 1)) }

def row (sim : SimulatedExchange) (pair : String) : Option HistoricalSnapshot :=
  (sim.snapshotsByPair pair)[sim.currentIndex pair]?

def currentBook (sim : SimulatedExchange) (pair : String) (now : TimePoint) : OrderBookSnapshot :=
  match sim.row pair with
  | none => { exchange := sim.exchId, pair, bids := [], asks := [], localTimestamp := now }
  | some hist =>
    { exchange := sim.exchId, pair, bids := hist.bids, asks := hist.asks
      sequenceId := hist.timestampMs, localTimestamp := now }

def fetchOrderBook (sim : SimulatedExchange) (pair : String) (depth : ℕ) (now : TimePoint) :
    OrderBookSnapshot :=
  let snap := sim.currentBook pair now
  { snap with bids := snap.bids.take depth, asks := snap.asks.take depth }

def fetchFees (sim : SimulatedExchange) (pair : String) : FeeInfo :=
  { makerFee := sim.makerFee, takerFee := sim.takerFee, exchange := sim.exchId, pair }

/-! ### Orders -/

def baseAsset (pair : String) : String := ((splitPair pair).map Prod.fst).getD pair

def quoteAsset (pair : String) : String := ((splitPair pair).map Prod.snd).getD "USD"

/-- The fill loops of both sides; `beyond` says that a level's price is past the
limit. -/
def fillLoop (beyond : PriceLevel → Bool) (quantity filledQty total : ℚ) :
    List PriceLevel → ℚ × ℚ
  | [] => (filledQty, total)
  | level :: levels =>
    if beyond level then (filledQty, total)
    else
      let remaining := quantity - filledQty
      let take := min level.quantity remaining
      let total := total + take * level.price
      let filledQty := filledQty + take
      if filledQty ≥ quantity then (filledQty, total)
      else fillLoop beyond quantity filledQty total levels

/-- The result of a walk that filled something. -/
def filledResult (orderId : String) (quantity takerFee : ℚ) (fill : ℚ × ℚ) : OrderResult :=
  { exchangeOrderId := orderId
    filledQuantity := fill.1
    avgFillPrice := fill.2 / fill.1
    feePaid := fill.2 * takerFee
    status := if fill.1 ≥ quantity then .filled else .partiallyFilled }

def adjust (balances : String → ℚ) (asset : String) (delta : ℚ) : String → ℚ :=
  fun name => if name = asset then balances name + delta else balances name

def buyFill (sim : SimulatedExchange) (req : OrderRequest) (now : TimePoint) : ℚ × ℚ :=
  fillLoop (fun ask => decide (ask.price > req.price)) req.quantity 0 0
    (sim.currentBook req.pair now).asks

def sellFill (sim : SimulatedExchange) (req : OrderRequest) (now : TimePoint) : ℚ × ℚ :=
  fillLoop (fun bid => decide (bid.price < req.price)) req.quantity 0 0
    (sim.currentBook req.pair now).bids

def placeBuy (sim : SimulatedExchange) (req : OrderRequest) (orderId : String) (now : TimePoint) :
    OrderResult × SimulatedExchange :=
  let base := baseAsset req.pair
  let quote := quoteAsset req.pair
  if (sim.currentBook req.pair now).asks.isEmpty then
    ({ exchangeOrderId := orderId, status := .rejected, errorMessage := "No asks in book" }, sim)
  else if sim.balances quote < req.price * req.quantity then
    ({ exchangeOrderId := orderId, status := .rejected
       errorMessage := "Insufficient " ++ quote }, sim)
  else
    let fill := sim.buyFill req now
    if fill.1 > 0 then
      let result := filledResult orderId req.quantity sim.takerFee fill
      (result, { sim with
        balances := adjust (adjust sim.balances base fill.1) quote (-(fill.2 + result.feePaid)) })
    else ({ exchangeOrderId := orderId, status := .opened }, sim)

def placeSell (sim : SimulatedExchange) (req : OrderRequest) (orderId : String) (now : TimePoint) :
    OrderResult × SimulatedExchange :=
  let base := baseAsset req.pair
  let quote := quoteAsset req.pair
  if (sim.currentBook req.pair now).bids.isEmpty then
    ({ exchangeOrderId := orderId, status := .rejected, errorMessage := "No bids in book" }, sim)
  else if sim.balances base < req.quantity then
    ({ exchangeOrderId := orderId, status := .rejected
       errorMessage := "Insufficient " ++ base }, sim)
  else
    let fill := sim.sellFill req now
    if fill.1 > 0 then
      let result := filledResult orderId req.quantity sim.takerFee fill
      (result, { sim with
        balances := adjust (adjust sim.balances base (-fill.1)) quote (fill.2 - result.feePaid) })
    else ({ exchangeOrderId := orderId, status := .opened }, sim)

/-- `place_limit_order`; `uuid` is the draw of `generate_uuid` and `now` the
clock read by `current_book`. -/
def placeLimitOrder (sim : SimulatedExchange) (req : OrderRequest) (uuid : String)
    (now : TimePoint) : OrderResult × SimulatedExchange :=
  match req.side with
  | .buy => sim.placeBuy req ("SIM-" ++ uuid) now
  | .sell => sim.placeSell req ("SIM-" ++ uuid) now

end SimulatedExchange

end CryptoArbBot
