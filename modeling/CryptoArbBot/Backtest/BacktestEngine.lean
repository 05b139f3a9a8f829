import CryptoArbBot.Backtest.BacktestReport
import CryptoArbBot.Backtest.SimulatedExchange
import CryptoArbBot.Library.OrderedSet
import CryptoArbBot.Library.Runs
import CryptoArbBot.OrderBook.Aggregator
import CryptoArbBot.OrderBook.DepthAnalyzer

/-!
# The backtest engine (backtest/backtest_engine.cpp)

At every timestamp of the data the cursors of the simulated exchanges advance,
the aggregator takes their books, and every ordered pair of books of an active
pair may trade. `Runs.run` is the loop over a list.
-/

namespace CryptoArbBot

/-- What the standard library and `TimeUtils` provide: `std::sort` at two types,
`std::sqrt` and `to_iso8601(from_ms(..))`. -/
structure HostLibrary where
  sortRows : StdSort HistoricalSnapshot
  sortLevels : StdSort PriceLevel
  sqrt : ℚ → ℚ
  toIso8601 : UInt64 → String

/-- What differs from run to run: the ids that are generated, in order, and the
clock. -/
structure Surroundings where
  uuids : ℕ → String
  now : UInt64 → Exchange → String → TimePoint

namespace BacktestEngine

/-- The keys of `sim_exchanges`. -/
def simulated : List Exchange := [.binance, .okx, .bybit]

/-- The maker and taker fees of `exch_fees`; there is no other entry. -/
def exchFees : Exchange → ℚ × ℚ
  | .binance => (1 / 1000, 1 / 1000)
  | .okx => (8 / 10000, 1 / 1000)
  | .bybit => (1 / 1000, 1 / 1000)
  | .mexc | .gateio | .count => (0, 0)

/-- The locals of `run` with `trades_`. Only the exchanges of `simulated` stand
for entries of `sim_exchanges`; `drawn` counts the ids generated. -/
structure State where
  exchanges : Exchange → SimulatedExchange
  aggregator : OrderBookAggregator := .empty
  trades : List TradeRecord := []
  drawn : ℕ := 0

def start (host : HostLibrary) (config : BacktestConfig) (data : List HistoricalSnapshot) : State :=
  { exchanges := fun exch =>
      (SimulatedExchange.new exch exch.toString config.initialBalances (exchFees exch).1
        (exchFees exch).2).loadSnapshots host.sortRows data }

def timestamps (data : List HistoricalSnapshot) : List UInt64 :=
  orderedSet (data.map (·.timestampMs))

def allPairs (data : List HistoricalSnapshot) : List String := orderedSet (data.map (·.pair))

def activePairs (config : BacktestConfig) (data : List HistoricalSnapshot) : List String :=
  if config.pairs.isEmpty then allPairs data
  else orderedSet (config.pairs.filter fun pair => pair ∈ allPairs data)

def advance (ts : UInt64) (st : State) : State :=
  { st with exchanges := fun exch => (st.exchanges exch).advanceTo ts }

/-- A book is applied when one of its sides has a level. -/
def updateBook (host : HostLibrary) (env : Surroundings) (ts : UInt64) (st : State)
    (key : Exchange × String) : State :=
  let now := env.now ts key.1 key.2
  let snap := (st.exchanges key.1).fetchOrderBook key.2 20 now
  if snap.bids.isEmpty && snap.asks.isEmpty then st
  else
    { st with
      aggregator := st.aggregator.applyTo host.sortLevels key.1 key.2 now
        (.applySnapshot snap.bids snap.asks ts now) }

def bookKeys (active : List String) : List (Exchange × String) :=
  simulated.flatMap fun exch => active.map fun pair => (exch, pair)

/-! ### One opportunity -/

structure Signal where
  quantity : ℚ
  buyPrice : ℚ
  sellPrice : ℚ
  grossSpreadBps : ℚ
  netSpreadBps : ℚ

/-- The filters between two snapshots; the fees are the taker fees. -/
def detect (config : BacktestConfig) (buyFee sellFee : ℚ) (buySnap sellSnap : OrderBookSnapshot) :
    Option Signal :=
  match buySnap.asks, sellSnap.bids with
  | ask :: _, bid :: _ =>
    let bestAsk := ask.price
    let bestBid := bid.price
    if bestBid ≤ bestAsk then none
    else
      let quantity := config.minTradeSizeUsd / bestAsk
      let effBuy := DepthAnalyzer.effectiveBuyPrice buySnap quantity
      let effSell := DepthAnalyzer.effectiveSellPrice sellSnap quantity
      if effBuy.fullyFillable = false ∨ effSell.fullyFillable = false then none
      else
        let totalFeeRate := buyFee + sellFee
        let grossSpreadBps := (effSell.avgPrice - effBuy.avgPrice) / effBuy.avgPrice * 10000
        let netSpreadBps := grossSpreadBps - totalFeeRate * 10000
        if netSpreadBps < config.minNetSpreadBps then none
        else some ⟨quantity, effBuy.avgPrice, effSell.avgPrice, grossSpreadBps, netSpreadBps⟩
  | _, _ => none

def buyRequest (exch : Exchange) (pair : String) (signal : Signal) (clientOrderId : String) :
    OrderRequest :=
  ⟨exch, pair, .buy, signal.buyPrice * (1001 / 1000), signal.quantity, clientOrderId⟩

def sellRequest (exch : Exchange) (pair : String) (signal : Signal) (clientOrderId : String) :
    OrderRequest :=
  ⟨exch, pair, .sell, signal.sellPrice * (999 / 1000), signal.quantity, clientOrderId⟩

structure Placed where
  buyResult : OrderResult
  sellResult : OrderResult
  exchanges : Exchange → SimulatedExchange

/-- Both orders, the sell order after the buy order. -/
def placeOrders (env : Surroundings) (ts : UInt64) (pair : String) (buyExch sellExch : Exchange)
    (signal : Signal) (st : State) : Placed :=
  let buyReq := buyRequest buyExch pair signal (env.uuids st.drawn)
  let sellReq := sellRequest sellExch pair signal (env.uuids (st.drawn + 1))
  let buy := (st.exchanges buyExch).placeLimitOrder buyReq (env.uuids (st.drawn + 2))
    (env.now ts buyExch pair)
  let exchanges := Function.update st.exchanges buyExch buy.2
  let sell := (exchanges sellExch).placeLimitOrder sellReq (env.uuids (st.drawn + 3))
    (env.now ts sellExch pair)
  ⟨buy.1, sell.1, Function.update exchanges sellExch sell.2⟩

def tradeRecord (host : HostLibrary) (ts : UInt64) (pair : String) (buyExch sellExch : Exchange)
    (signal : Signal) (id : String) (buyResult sellResult : OrderResult) : TradeRecord :=
  let matchedQty := min buyResult.filledQuantity sellResult.filledQuantity
  { id
    pair
    buyExchange := buyExch
    sellExchange := sellExch
    buyPrice := signal.buyPrice
    sellPrice := signal.sellPrice
    quantity := signal.quantity
    grossSpreadBps := signal.grossSpreadBps
    netSpreadBps := signal.netSpreadBps
    buyResult
    sellResult
    realizedPnl := (sellResult.avgFillPrice - buyResult.avgFillPrice) * matchedQty -
      buyResult.feePaid - sellResult.feePaid
    timestampIso := host.toIso8601 ts
    mode := .backtest }

def trade (host : HostLibrary) (env : Surroundings) (ts : UInt64) (pair : String)
    (buyExch sellExch : Exchange) (signal : Signal) (st : State) : State :=
  let placed := placeOrders env ts pair buyExch sellExch signal st
  let record := tradeRecord host ts pair buyExch sellExch signal (env.uuids (st.drawn + 4))
    placed.buyResult placed.sellResult
  { st with
    exchanges := placed.exchanges
    drawn := st.drawn + 5
    trades :=
      if placed.buyResult.status = .filled ∧ placed.sellResult.status = .filled then
        st.trades ++ [record]
      else st.trades }

/-- What the engine sees between two snapshots in a state. -/
def signalAt (config : BacktestConfig) (pair : String) (snapshots : List OrderBookSnapshot)
    (st : State) (p : ℕ × ℕ) : Option (Exchange × Exchange × Signal) :=
  match snapshots[p.1]?, snapshots[p.2]? with
  | some buySnap, some sellSnap =>
    (detect config ((st.exchanges buySnap.exchange).fetchFees pair).takerFee
      ((st.exchanges sellSnap.exchange).fetchFees pair).takerFee buySnap sellSnap).map
      fun signal => (buySnap.exchange, sellSnap.exchange, signal)
  | _, _ => none

def attempt (host : HostLibrary) (env : Surroundings) (config : BacktestConfig) (ts : UInt64)
    (pair : String) (snapshots : List OrderBookSnapshot) (st : State) (p : ℕ × ℕ) : State :=
  match signalAt config pair snapshots st p with
  | none => st
  | some (buyExch, sellExch, signal) => trade host env ts pair buyExch sellExch signal st

def scanPair (host : HostLibrary) (env : Surroundings) (config : BacktestConfig) (ts : UInt64)
    (st : State) (pair : String) : State :=
  let snapshots := st.aggregator.getPairSnapshots pair 20
  if snapshots.length < 2 then st
  else Runs.run (attempt host env config ts pair snapshots) st (indexPairs snapshots.length)

/-! ### The run -/

def refresh (host : HostLibrary) (env : Surroundings) (active : List String) (ts : UInt64)
    (st : State) : State :=
  Runs.run (updateBook host env ts) (advance ts st) (bookKeys active)

def step (host : HostLibrary) (env : Surroundings) (config : BacktestConfig) (active : List String)
    (st : State) (ts : UInt64) : State :=
  Runs.run (scanPair host env config ts) (refresh host env active ts st) active

def final (host : HostLibrary) (env : Surroundings) (config : BacktestConfig)
    (data : List HistoricalSnapshot) : State :=
  Runs.run (step host env config (activePairs config data)) (start host config data)
    (timestamps data)

/-- `run` and `get_trades`. -/
def run (host : HostLibrary) (env : Surroundings) (config : BacktestConfig)
    (data : List HistoricalSnapshot) : BacktestMetrics × List TradeRecord :=
  let trades := (final host env config data).trades
  (BacktestReport.computeMetrics host.sqrt trades, trades)

end BacktestEngine

end CryptoArbBot
