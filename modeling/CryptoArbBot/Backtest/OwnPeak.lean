import CryptoArbBot.Backtest.BacktestReport
import CryptoArbBot.Library.Drawdown
import Mathlib.Algebra.Order.Field.Basic
import Mathlib.Algebra.Order.SuccPred.PartialSups
import Mathlib.Data.Nat.SuccPred
import Mathlib.Tactic.FieldSimp
import Mathlib.Tactic.Linarith

/-!
# The peak that a drawdown is measured from (backtest/backtest_report.cpp)

`max_drawdown_pct` divides the deepest drawdown by the peak of the whole run. That is
the peak the curve fell from unless it rises above it later.
-/

namespace CryptoArbBot.BacktestReport
open Drawdown

/-- The cumulative P&L after the first `j` trades. -/
def equity (trades : List TradeRecord) (j : ℕ) : ℚ := ((trades.take j).map (·.realizedPnl)).sum

/-! ### The loop -/

theorem equity_append {trades : List TradeRecord} {j : ℕ} (hj : j ≤ trades.length)
    (later : List TradeRecord) : equity (trades ++ later) j = equity trades j := by
  rw [equity, List.take_append_of_le_length hj, equity]

theorem equity_concat (trades : List TradeRecord) (t : TradeRecord) :
    equity (trades ++ [t]) (trades.length + 1) = equity trades trades.length + t.realizedPnl := by
  have hall : (trades ++ [t]).take (trades.length + 1) = trades ++ [t] :=
    List.take_of_length_le (by simp)
  rw [equity, hall, equity, List.take_length]
  simp

theorem drawdown_append {trades : List TradeRecord} {j : ℕ} (hj : j ≤ trades.length)
    (later : List TradeRecord) : drawdown (equity (trades ++ later)) j = drawdown (equity trades) j := by
  have hpeak : partialSups (equity (trades ++ later)) j = partialSups (equity trades) j :=
    partialSups_congr fun i hi => equity_append (hi.trans hj) later
  rw [drawdown, hpeak, equity_append hj, drawdown]

theorem ite_gt_eq_max (a b : ℚ) : (if b > a then b else a) = max a b := by
  split
  next h => exact (max_eq_right h.le).symm
  next h => exact (max_eq_left (not_lt.mp h)).symm

theorem addTrade_peak (totals : Totals) (t : TradeRecord) :
    (addTrade totals t).peak = max totals.peak (addTrade totals t).cumulative :=
  ite_gt_eq_max ..

theorem addTrade_maxDd (totals : Totals) (t : TradeRecord) :
    (addTrade totals t).maxDd =
      max totals.maxDd ((addTrade totals t).peak - (addTrade totals t).cumulative) :=
  ite_gt_eq_max ..

/-- What the loop has in its locals after the trades. -/
structure Tracks (totals : Totals) (trades : List TradeRecord) : Prop where
  cumulative : totals.cumulative = equity trades trades.length
  peak : totals.peak = partialSups (equity trades) trades.length
  maxDd : totals.maxDd = partialSups (drawdown (equity trades)) trades.length

theorem tracks_foldl (trades : List TradeRecord) : Tracks (trades.foldl addTrade {}) trades := by
  induction trades using List.reverseRecOn with
  | nil =>
    have hzero : equity [] 0 = 0 := rfl
    refine ⟨hzero.symm, ?_, ?_⟩
    · rw [List.length_nil, partialSups_zero, hzero]
      rfl
    · rw [List.length_nil, partialSups_zero, drawdown, partialSups_zero, sub_self]
      rfl
  | append_singleton trades t ih =>
    have hlen : (trades ++ [t]).length = trades.length + 1 := by simp
    have hcumulative : (addTrade (trades.foldl addTrade {}) t).cumulative =
        equity (trades ++ [t]) (trades.length + 1) := by
      rw [equity_concat, ← ih.cumulative]
      rfl
    have hpeak : (addTrade (trades.foldl addTrade {}) t).peak =
        partialSups (equity (trades ++ [t])) (trades.length + 1) := by
      rw [addTrade_peak, hcumulative, ih.peak, partialSups_add_one,
        partialSups_congr fun i hi => equity_append hi [t]]
    have hmaxDd : (addTrade (trades.foldl addTrade {}) t).maxDd =
        partialSups (drawdown (equity (trades ++ [t]))) (trades.length + 1) := by
      rw [addTrade_maxDd, hcumulative, hpeak, ih.maxDd, partialSups_add_one (drawdown _),
        partialSups_congr fun i hi => drawdown_append hi [t]]
      rfl
    rw [List.foldl_append]
    refine ⟨?_, ?_, ?_⟩
    · rw [hlen]
      exact hcumulative
    · rw [hlen]
      exact hpeak
    · rw [hlen]
      exact hmaxDd

/-! ### The metrics -/

theorem maxDrawdown_eq (sqrt : ℚ → ℚ) (trades : List TradeRecord) :
    (computeMetrics sqrt trades).maxDrawdown = partialSups (drawdown (equity trades)) trades.length := by
  have hloop := (tracks_foldl trades).maxDd
  unfold computeMetrics
  cases trades with
  | nil => exact hloop
  | cons t trades => exact hloop

theorem maxDrawdownPct_eq (sqrt : ℚ → ℚ) (trades : List TradeRecord) :
    (computeMetrics sqrt trades).maxDrawdownPct =
      if 0 < partialSups (equity trades) trades.length then
        partialSups (drawdown (equity trades)) trades.length / partialSups (equity trades) trades.length * 100
      else 0 := by
  have hloop := tracks_foldl trades
  rw [← hloop.maxDd, ← hloop.peak]
  unfold computeMetrics
  cases trades with
  | nil => rfl
  | cons t trades => rfl

/-- The percentage is of the running peak at a point where the largest drawdown is
attained, when there is one with a positive peak. -/
def OfOwnPeak (m : BacktestMetrics) (curve : ℕ → ℚ) (last : ℕ) : Prop :=
  (∃ j ≤ last, drawdown curve j = m.maxDrawdown ∧ 0 < partialSups curve j) →
    ∃ j ≤ last, drawdown curve j = m.maxDrawdown ∧ 0 < partialSups curve j ∧
      m.maxDrawdownPct = 100 * m.maxDrawdown / partialSups curve j

/-- From a point of deepest drawdown on the curve stays below the peak it fell from, or
it fell from no positive peak. -/
def KeepsPeak (curve : ℕ → ℚ) (last : ℕ) : Prop :=
  (∀ j, Deepest curve last j → partialSups curve j ≤ 0) ∨
    ∃ j, Deepest curve last j ∧ ∀ k ≤ last, curve k ≤ partialSups curve j

theorem percent_eq_iff {deep top peak : ℚ} (hdeep : deep ≠ 0) (htop : 0 < top) (hpeak : 0 < peak) :
    deep / top * 100 = 100 * deep / peak ↔ peak = top := by
  rw [div_mul_eq_mul_div, div_eq_div_iff htop.ne' hpeak.ne', mul_comm deep 100]
  have hne : 100 * deep ≠ 0 := mul_ne_zero (by norm_num) hdeep
  exact mul_right_inj' hne

theorem ofOwnPeak_iff (sqrt : ℚ → ℚ) (trades : List TradeRecord) :
    OfOwnPeak (computeMetrics sqrt trades) (equity trades) trades.length ↔
      KeepsPeak (equity trades) trades.length := by
  obtain ⟨curve, hcurve⟩ : ∃ curve, curve = equity trades := ⟨_, rfl⟩
  have hpct := maxDrawdownPct_eq sqrt trades
  unfold OfOwnPeak
  rw [maxDrawdown_eq]
  rw [← hcurve] at hpct ⊢
  constructor
  · intro h
    by_cases hpos : ∃ j ≤ trades.length,
        drawdown curve j = partialSups (drawdown curve) trades.length ∧ 0 < partialSups curve j
    · obtain ⟨j, hj, hdeep, hpeak, hown⟩ := h hpos
      have htop : 0 < partialSups curve trades.length := hpeak.trans_le ((partialSups curve).monotone hj)
      by_cases hzero : partialSups (drawdown curve) trades.length = 0
      · have hlast : drawdown curve trades.length = 0 :=
          le_antisymm (hzero ▸ le_partialSups (drawdown curve) trades.length) (drawdown_nonneg ..)
        refine .inr ⟨trades.length, deepest_iff.mpr ⟨le_rfl, hlast.trans hzero.symm⟩, ?_⟩
        exact fun k hk => le_partialSups_of_le curve hk
      · rw [hpct, if_pos htop, percent_eq_iff hzero htop hpeak] at hown
        exact .inr ⟨j, deepest_iff.mpr ⟨hj, hdeep⟩, (peak_eq_final_iff hj).mp hown⟩
    · refine .inl ?_
      intro j hj
      rw [← not_lt]
      intro hpeak
      exact hpos ⟨j, hj.1, hj.drawdown_eq, hpeak⟩
  · intro h hpos
    obtain ⟨i, hi, hdeep, hpeak⟩ := hpos
    rcases h with hnone | ⟨j, hj, hkept⟩
    · exact absurd hpeak (hnone i (deepest_iff.mpr ⟨hi, hdeep⟩)).not_gt
    · have hfinal := (peak_eq_final_iff hj.1).mpr hkept
      have htop : 0 < partialSups curve trades.length := hpeak.trans_le ((partialSups curve).monotone hi)
      refine ⟨j, hj.1, hj.drawdown_eq, hfinal ▸ htop, ?_⟩
      rw [hpct, if_pos htop, hfinal, div_mul_eq_mul_div, mul_comm 100]

theorem percent_le_iff {deep top peak : ℚ} (hdeep : 0 ≤ deep) (htop : 0 < top) (hlt : top < peak) :
    deep / top * 100 ≤ deep / peak * 100 ↔ deep ≤ 0 := by
  rcases hdeep.eq_or_lt with hzero | hpos
  · rw [← hzero]
    simp
  · have hsmaller : deep / peak < deep / top := div_lt_div_of_pos_left hpos htop hlt
    refine iff_of_false ?_ hpos.not_ge
    linarith

theorem pct_le_iff (sqrt : ℚ → ℚ) (trades later : List TradeRecord)
    (h : Records (equity (trades ++ later)) trades.length (trades ++ later).length) :
    (computeMetrics sqrt trades).maxDrawdownPct ≤ (computeMetrics sqrt (trades ++ later)).maxDrawdownPct ↔
      later = [] ∨ (∀ j ≤ trades.length, drawdown (equity trades) j ≤ 0) ∨
        ∀ j ≤ trades.length, equity trades j ≤ 0 := by
  have hdeepest : partialSups (drawdown (equity (trades ++ later))) (trades ++ later).length =
      partialSups (drawdown (equity trades)) trades.length := by
    rw [h.deepest_drawdown (by simp), partialSups_congr fun i hi => drawdown_append hi later]
  have hpeak : partialSups (equity (trades ++ later)) trades.length =
      partialSups (equity trades) trades.length := partialSups_congr fun i hi => equity_append hi later
  have hdeep : 0 ≤ partialSups (drawdown (equity trades)) trades.length :=
    (drawdown_nonneg _ 0).trans (le_partialSups_of_le _ (Nat.zero_le _))
  have hstart : 0 ≤ partialSups (equity trades) trades.length :=
    le_partialSups_of_le (equity trades) (Nat.zero_le _)
  rw [maxDrawdownPct_eq, maxDrawdownPct_eq, hdeepest, ← partialSups_le_iff, ← partialSups_le_iff]
  cases later with
  | nil => simp
  | cons t later =>
    have hrise := h.peak_lt (by simp)
    rw [hpeak] at hrise
    rw [if_pos (hstart.trans_lt hrise), or_iff_right (List.cons_ne_nil t later)]
    rcases hstart.eq_or_lt with hzero | htop
    · rw [if_neg hzero.not_lt]
      refine iff_of_true ?_ (.inr hzero.symm.le)
      exact mul_nonneg (div_nonneg hdeep (hstart.trans_lt hrise).le) (by norm_num)
    · rw [if_pos htop, percent_le_iff hdeep htop hrise, or_iff_left htop.not_ge]

/-- The percentage is of the fall's own peak iff the curve keeps that peak, and later
trades that only raise the peak leave it as it was or higher iff there was nothing to lower. -/
theorem maxDrawdownPct_ownPeak_iff (sqrt : ℚ → ℚ) (trades : List TradeRecord) :
    (OfOwnPeak (computeMetrics sqrt trades) (equity trades) trades.length ↔
      KeepsPeak (equity trades) trades.length) ∧
    ∀ later, Records (equity (trades ++ later)) trades.length (trades ++ later).length →
      ((computeMetrics sqrt trades).maxDrawdownPct ≤ (computeMetrics sqrt (trades ++ later)).maxDrawdownPct ↔
        later = [] ∨ (∀ j ≤ trades.length, drawdown (equity trades) j ≤ 0) ∨
          ∀ j ≤ trades.length, equity trades j ≤ 0) :=
  ⟨ofOwnPeak_iff sqrt trades, pct_le_iff sqrt trades⟩

def paperTrade (realizedPnl : ℚ) : TradeRecord :=
  { id := "", pair := "BTC-USDT", buyExchange := .okx, sellExchange := .bybit, buyPrice := 100,
    sellPrice := 110, quantity := 1, grossSpreadBps := 0, netSpreadBps := 0, realizedPnl,
    timestampIso := "", mode := .backtest }

theorem gain_after_dip :
    Records (equity ([paperTrade 10, paperTrade (-5)] ++ [paperTrade 10])) 2 3 := by
  intro k hfirst hlast
  have hk : k = 3 := by omega
  rw [hk]
  decide +kernel

theorem maxDrawdownPct_ownPeak_dip :
    (OfOwnPeak (computeMetrics id [paperTrade 10, paperTrade (-5)])
        (equity [paperTrade 10, paperTrade (-5)]) 2 ↔
      KeepsPeak (equity [paperTrade 10, paperTrade (-5)]) 2) ∧
      ((computeMetrics id [paperTrade 10, paperTrade (-5)]).maxDrawdownPct ≤
          (computeMetrics id ([paperTrade 10, paperTrade (-5)] ++ [paperTrade 10])).maxDrawdownPct ↔
        [paperTrade 10] = [] ∨ (∀ j ≤ 2, drawdown (equity [paperTrade 10, paperTrade (-5)]) j ≤ 0) ∨
          ∀ j ≤ 2, equity [paperTrade 10, paperTrade (-5)] j ≤ 0) :=
  ⟨(maxDrawdownPct_ownPeak_iff id [paperTrade 10, paperTrade (-5)]).1,
    (maxDrawdownPct_ownPeak_iff id [paperTrade 10, paperTrade (-5)]).2 [paperTrade 10] gain_after_dip⟩

/-- Up 10, down 5 and up 10 again: the fall is half of its peak and is reported as a
third of the last one. -/
theorem fall_reported_of_later_peak : ¬ ∀ (sqrt : ℚ → ℚ) (trades : List TradeRecord), trades ≠ [] →
    OfOwnPeak (computeMetrics sqrt trades) (equity trades) trades.length := by
  intro h
  have hown := h id [paperTrade 10, paperTrade (-5), paperTrade 10] (by simp)
  rw [ofOwnPeak_iff] at hown
  rcases hown with hnone | ⟨j, hj, hkept⟩
  · have hdeep : Deepest (equity [paperTrade 10, paperTrade (-5), paperTrade 10]) 3 2 := by
      decide +kernel
    exact absurd (hnone 2 hdeep) (by decide +kernel)
  · have hrises : ∀ j ≤ 3, Deepest (equity [paperTrade 10, paperTrade (-5), paperTrade 10]) 3 j →
        ¬ ∀ k ≤ 3, equity [paperTrade 10, paperTrade (-5), paperTrade 10] k ≤
          partialSups (equity [paperTrade 10, paperTrade (-5), paperTrade 10]) j := by
      decide +kernel
    exact hrises j hj.1 hj hkept

end CryptoArbBot.BacktestReport
