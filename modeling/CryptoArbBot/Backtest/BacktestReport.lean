import CryptoArbBot.Common.Types

/-!
# The metrics of a backtest (backtest/backtest_report.cpp)

Computed from the trade list alone. `sqrt` is the square root of the standard
library.
-/

namespace CryptoArbBot

structure BacktestMetrics where
  totalPnl : ℚ := 0
  totalTrades : ℕ := 0
  winningTrades : ℕ := 0
  winRate : ℚ := 0
  sharpeRatio : ℚ := 0
  maxDrawdown : ℚ := 0
  maxDrawdownPct : ℚ := 0
  profitFactor : ℚ := 0
  avgTradePnl : ℚ := 0
  totalFeesPaid : ℚ := 0
  pnlPerPair : List (String × ℚ) := []
  equityCurve : List (String × ℚ) := []
  deriving DecidableEq

namespace BacktestReport

/-- The locals of the loop over the trades. -/
structure Totals where
  metrics : BacktestMetrics := {}
  pnls : List ℚ := []
  cumulative : ℚ := 0
  peak : ℚ := 0
  maxDd : ℚ := 0
  grossWins : ℚ := 0
  grossLosses : ℚ := 0

/-- `pnl_per_pair[pair] += pnl` on a map that keeps its keys in order. -/
def addToPair (pair : String) (pnl : ℚ) : List (String × ℚ) → List (String × ℚ)
  | [] => [(pair, pnl)]
  | (name, total) :: rest =>
    if pair = name then (name, total + pnl) :: rest
    else if pair < name then (pair, pnl) :: (name, total) :: rest
    else (name, total) :: addToPair pair pnl rest

def addTrade (totals : Totals) (t : TradeRecord) : Totals :=
  let m := totals.metrics
  let won := t.realizedPnl > 0
  let cumulative := totals.cumulative + t.realizedPnl
  let peak := if cumulative > totals.peak then cumulative else totals.peak
  let dd := peak - cumulative
  { metrics :=
      { m with
        totalPnl := m.totalPnl + t.realizedPnl
        totalFeesPaid := m.totalFeesPaid + (t.buyResult.feePaid + t.sellResult.feePaid)
        pnlPerPair := addToPair t.pair t.realizedPnl m.pnlPerPair
        winningTrades := if won then m.winningTrades + 1 else m.winningTrades
        equityCurve := m.equityCurve ++ [(t.timestampIso, cumulative)] }
    pnls := totals.pnls ++ [t.realizedPnl]
    cumulative
    peak
    maxDd := if dd > totals.maxDd then dd else totals.maxDd
    grossWins := if won then totals.grossWins + t.realizedPnl else totals.grossWins
    grossLosses := if won then totals.grossLosses else totals.grossLosses + |t.realizedPnl| }

def sharpeRatio (sqrt : ℚ → ℚ) (pnls : List ℚ) : ℚ :=
  if pnls.length > 1 then
    let mean := pnls.sum / pnls.length
    let sqSum := (pnls.map fun p => (p - mean) * (p - mean)).sum
    let stddev := sqrt (sqSum / (pnls.length - 1 : ℕ))
    if stddev > 0 then mean / stddev * sqrt (365 * 24) else 0
  else 0

def computeMetrics (sqrt : ℚ → ℚ) (trades : List TradeRecord) : BacktestMetrics :=
  if trades.isEmpty then {}
  else
    let totals := trades.foldl addTrade {}
    let m := totals.metrics
    { m with
      totalTrades := trades.length
      winRate := (m.winningTrades : ℚ) / trades.length * 100
      avgTradePnl := m.totalPnl / trades.length
      maxDrawdown := totals.maxDd
      maxDrawdownPct := if totals.peak > 0 then totals.maxDd / totals.peak * 100 else 0
      profitFactor :=
        if totals.grossLosses > 0 then totals.grossWins / totals.grossLosses
        else if totals.grossWins > 0 then 999 else 0
      sharpeRatio := sharpeRatio sqrt totals.pnls }

/-! ### What the metrics depend on -/

theorem totalPnl_foldl (trades : List TradeRecord) (totals : Totals) :
    (trades.foldl addTrade totals).metrics.totalPnl =
      totals.metrics.totalPnl + (trades.map (·.realizedPnl)).sum := by
  induction trades generalizing totals with
  | nil => simp
  | cons t trades ih =>
    rw [List.foldl_cons, ih, List.map_cons, List.sum_cons]
    exact add_assoc ..

theorem totalPnl_computeMetrics (sqrt : ℚ → ℚ) (trades : List TradeRecord) :
    (computeMetrics sqrt trades).totalPnl = (trades.map (·.realizedPnl)).sum := by
  unfold computeMetrics
  cases trades with
  | nil => rfl
  | cons t trades => exact (totalPnl_foldl ..).trans (zero_add _)

/-- A trade without the ids that were generated for it. -/
def withoutIds (t : TradeRecord) : TradeRecord :=
  { t with
    id := ""
    buyResult := { t.buyResult with exchangeOrderId := "" }
    sellResult := { t.sellResult with exchangeOrderId := "" } }

theorem addTrade_withoutIds (totals : Totals) (t : TradeRecord) :
    addTrade totals (withoutIds t) = addTrade totals t := rfl

theorem computeMetrics_withoutIds (sqrt : ℚ → ℚ) (trades : List TradeRecord) :
    computeMetrics sqrt (trades.map withoutIds) = computeMetrics sqrt trades := by
  unfold computeMetrics
  simp only [List.isEmpty_map, List.length_map, List.foldl_map, addTrade_withoutIds]

end BacktestReport

end CryptoArbBot
