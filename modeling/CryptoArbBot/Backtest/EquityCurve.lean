import CryptoArbBot.Backtest.OwnPeak
import CryptoArbBot.Library.Tallies
import Mathlib.Data.String.Basic

/-!
# The metrics and the cumulative P&L (backtest/backtest_report.cpp)

One pass over the trades gives the curve, its deepest fall, its end and the P&L of
each pair.
-/

namespace CryptoArbBot.BacktestReport
open Drawdown

/-! ### The P&L of each pair -/

theorem addToPair_eq (pair : String) (pnl : ℚ) (l : List (String × ℚ)) :
    addToPair pair pnl l = Tallies.add pair pnl l := by
  induction l with
  | nil => rfl
  | cons entry rest ih =>
    obtain ⟨name, total⟩ := entry
    unfold addToPair Tallies.add
    rw [ih]

theorem pnlPerPair_foldl (trades : List TradeRecord) :
    (trades.foldl addTrade {}).metrics.pnlPerPair =
      Tallies.tally (·.pair) (·.realizedPnl) trades := by
  induction trades using List.reverseRecOn with
  | nil => rfl
  | append_singleton trades t ih =>
    rw [Tallies.tally, List.foldl_append, List.foldl_append, ← Tallies.tally, ← ih]
    exact addToPair_eq ..

/-- The P&L of the trades of a pair, when there are any. -/
def pairPnl (trades : List TradeRecord) : String → Option ℚ :=
  Tallies.sumOf (·.pair) (·.realizedPnl) trades

/-! ### The curve -/

theorem equityCurve_foldl (trades : List TradeRecord) :
    (trades.foldl addTrade {}).metrics.equityCurve =
      trades.mapIdx fun k t => (t.timestampIso, equity trades (k + 1)) := by
  induction trades using List.reverseRecOn with
  | nil => rfl
  | append_singleton trades t ih =>
    have hcumulative : (trades.foldl addTrade {}).cumulative + t.realizedPnl =
        equity (trades ++ [t]) (trades.length + 1) := by
      rw [equity_concat, (tracks_foldl trades).cumulative]
    have hbefore : (trades.mapIdx fun k t' => (t'.timestampIso, equity (trades ++ [t]) (k + 1))) =
        trades.mapIdx fun k t' => (t'.timestampIso, equity trades (k + 1)) := by
      refine List.mapIdx_eq_mapIdx_iff.mpr fun k hk => ?_
      rw [equity_append hk]
    rw [List.mapIdx_concat, hbefore, ← ih, ← hcumulative, List.foldl_append]
    rfl

/-- What the cumulative P&L says about the metrics. -/
structure SummarizesCurve (trades : List TradeRecord) (m : BacktestMetrics) : Prop where
  maxDrawdown : IsGreatest (falls (equity trades) trades.length) m.maxDrawdown
  equityCurve : m.equityCurve = trades.mapIdx fun k t => (t.timestampIso, equity trades (k + 1))
  totalPnl : m.totalPnl = equity trades trades.length
  pnlPerPair : Tallies.Sums m.pnlPerPair (pairPnl trades)
  totalOfPairs : m.totalPnl = (m.pnlPerPair.map Prod.snd).sum

theorem computeMetrics_equityCurve (sqrt : ℚ → ℚ) (trades : List TradeRecord) :
    (computeMetrics sqrt trades).equityCurve = (trades.foldl addTrade {}).metrics.equityCurve := by
  unfold computeMetrics
  cases trades with
  | nil => rfl
  | cons t trades => rfl

theorem computeMetrics_pnlPerPair (sqrt : ℚ → ℚ) (trades : List TradeRecord) :
    (computeMetrics sqrt trades).pnlPerPair = (trades.foldl addTrade {}).metrics.pnlPerPair := by
  unfold computeMetrics
  cases trades with
  | nil => rfl
  | cons t trades => rfl

/-- The deepest fall between any two points, the points themselves, the last of them
and its parts by pair. -/
theorem computeMetrics_summarizesCurve (sqrt : ℚ → ℚ) (trades : List TradeRecord) :
    SummarizesCurve trades (computeMetrics sqrt trades) where
  maxDrawdown := by
    rw [maxDrawdown_eq]
    exact isGreatest_falls _ _
  equityCurve := by
    rw [computeMetrics_equityCurve, equityCurve_foldl]
  totalPnl := by
    rw [totalPnl_computeMetrics, equity, List.take_length]
  pnlPerPair := by
    rw [computeMetrics_pnlPerPair, pnlPerPair_foldl]
    exact Tallies.tally_sums _ _ trades
  totalOfPairs := by
    rw [computeMetrics_pnlPerPair, pnlPerPair_foldl, Tallies.sum_tally, totalPnl_computeMetrics]

end CryptoArbBot.BacktestReport
