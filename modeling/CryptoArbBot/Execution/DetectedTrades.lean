import CryptoArbBot.Execution.PaperExecutor
import CryptoArbBot.Strategy.SpreadDetector
import Mathlib.Tactic.FieldSimp

/-!
# Executing a detected opportunity

The detector charges both fees on the buy price; the executor charges each leg
its own notional. On the books of the detection both legs fill, and the trade
gains exactly when the net spread exceeds the sell fee on the gross spread.
-/

namespace CryptoArbBot.PaperExecutor

structure FilledAtProfit (opp : ArbitrageOpportunity) (record : TradeRecord) : Prop where
  buyStatus : record.buyResult.status = .filled
  buyQuantity : record.buyResult.filledQuantity = opp.quantity
  sellStatus : record.sellResult.status = .filled
  sellQuantity : record.sellResult.filledQuantity = opp.quantity
  profit : 0 < record.realizedPnl

/-- The books and the fees of the detection, still there at the execution. -/
structure Unchanged (fees : FeeManager) (snapshots : List OrderBookSnapshot)
    (opp : ArbitrageOpportunity) (inputs : Inputs) : Prop where
  buyBook : ∀ snap ∈ snapshots, snap.exchange = opp.buyExchange → inputs.buyBook = some snap
  sellBook : ∀ snap ∈ snapshots, snap.exchange = opp.sellExchange → inputs.sellBook = some snap
  buyTakerFee : inputs.buyTakerFee = (fees.getFee opp.buyExchange opp.pair).takerFee
  sellTakerFee : inputs.sellTakerFee = (fees.getFee opp.sellExchange opp.pair).takerFee

theorem fillOf_fillable {effective : EffectivePrice} (h : effective.fullyFillable = true)
    (quantity fillPct : ℚ) :
    fillOf effective quantity fillPct =
      { filledQuantity := quantity, avgFillPrice := effective.avgPrice, status := .filled } := by
  rw [fillOf, if_pos h]

section Legs
variable {opp : ArbitrageOpportunity} {book : OrderBookSnapshot}

theorem buyFill_fillable (inputs : Inputs)
    (h : (DepthAnalyzer.effectiveBuyPrice book opp.quantity).fullyFillable = true) :
    (buyFill opp inputs book).status = .filled ∧
      (buyFill opp inputs book).filledQuantity = opp.quantity ∧
      (buyFill opp inputs book).avgFillPrice = DepthAnalyzer.vwap opp.quantity book.asks ∧
      (buyFill opp inputs book).feePaid =
        opp.quantity * (buyFill opp inputs book).avgFillPrice * inputs.buyTakerFee := by
  have havg : (DepthAnalyzer.effectiveBuyPrice book opp.quantity).avgPrice =
      DepthAnalyzer.vwap opp.quantity book.asks := DepthAnalyzer.avgPrice_eq _ h
  simp only [buyFill, simulateFill, fillOf_fillable h, havg, and_self]

theorem sellFill_fillable (inputs : Inputs)
    (h : (DepthAnalyzer.effectiveSellPrice book opp.quantity).fullyFillable = true) :
    (sellFill opp inputs book).status = .filled ∧
      (sellFill opp inputs book).filledQuantity = opp.quantity ∧
      (sellFill opp inputs book).avgFillPrice = DepthAnalyzer.vwap opp.quantity book.bids ∧
      (sellFill opp inputs book).feePaid =
        opp.quantity * (sellFill opp inputs book).avgFillPrice * inputs.sellTakerFee := by
  have havg : (DepthAnalyzer.effectiveSellPrice book opp.quantity).avgPrice =
      DepthAnalyzer.vwap opp.quantity book.bids := DepthAnalyzer.avgPrice_eq _ h
  simp only [sellFill, simulateFill, fillOf_fillable h, havg, and_self]

end Legs

/-- With both legs filled the gain for each unit is the sell price less its fee
less the buy price and its fee. -/
theorem realizedPnl_filled {buy sell : OrderResult} {quantity buyFee sellFee : ℚ}
    (hbuy : buy.filledQuantity = quantity) (hsell : sell.filledQuantity = quantity)
    (hbuyFee : buy.feePaid = quantity * buy.avgFillPrice * buyFee)
    (hsellFee : sell.feePaid = quantity * sell.avgFillPrice * sellFee) :
    realizedPnl buy sell =
      quantity * (sell.avgFillPrice * (1 - sellFee) - buy.avgFillPrice * (1 + buyFee)) := by
  rw [realizedPnl, matchedQty, hbuy, hsell, min_self, hbuyFee, hsellFee]
  ring

/-- The spreads in basis points against the prices with their fees. -/
theorem net_exceeds_iff {buyPrice sellPrice buyFee sellFee : ℚ} (hbuy : 0 < buyPrice) :
    sellFee * ((sellPrice - buyPrice) / buyPrice * 10000) <
        (sellPrice - buyPrice) / buyPrice * 10000 - (buyFee + sellFee) * 10000 ↔
      0 < sellPrice * (1 - sellFee) - buyPrice * (1 + buyFee) := by
  have hscaled : buyPrice * ((sellPrice - buyPrice) / buyPrice * 10000 -
      (buyFee + sellFee) * 10000 - sellFee * ((sellPrice - buyPrice) / buyPrice * 10000)) =
      10000 * (sellPrice * (1 - sellFee) - buyPrice * (1 + buyFee)) := by
    field_simp
    ring
  rw [← sub_pos, ← mul_pos_iff_of_pos_left hbuy, hscaled]
  exact mul_pos_iff_of_pos_left (by norm_num)

/-- A detected opportunity that is executed on the same books and fees fills both
legs, and gains exactly when its net spread exceeds the sell fee on its gross
spread. -/
theorem detected_profit_iff {detector : SpreadDetector} {fees : FeeManager} {pair : String}
    {clock : ℕ → ℕ → TimePoint} {now : TimePoint} {snapshots : List OrderBookSnapshot}
    {lastTradeTime : String → Option TimePoint}
    (hbooks : ∀ snap ∈ snapshots, SpreadDetector.Sorted snap ∧ snap.Positive)
    {opp : ArbitrageOpportunity}
    (hscan : (detector.scanPair fees pair clock now snapshots lastTradeTime).1 = some opp)
    {st : PaperState} {inputs : Inputs} (hsame : Unchanged fees snapshots opp inputs)
    (hquote : checkQuote st opp = true) (hbase : checkBase st opp = true) :
    FilledAtProfit opp (execute opp inputs st).1 ↔
      (fees.getFee opp.sellExchange opp.pair).takerFee * opp.grossSpreadBps < opp.netSpreadBps := by
  obtain ⟨i, j, buyBook, sellBook, _, hi, hj, hexamine⟩ := SpreadDetector.scanPair_some hscan
  have hbuyMem : buyBook ∈ snapshots := List.mem_of_getElem? hi
  have hsellMem : sellBook ∈ snapshots := List.mem_of_getElem? hj
  have hopp := SpreadDetector.examine_some (hbooks buyBook hbuyMem).1 (hbooks buyBook hbuyMem).2
    hexamine
  have hbuyBook : inputs.buyBook = some buyBook :=
    hsame.buyBook buyBook hbuyMem hopp.buyExchange.symm
  have hsellBook : inputs.sellBook = some sellBook :=
    hsame.sellBook sellBook hsellMem hopp.sellExchange.symm
  have hrecord : (execute opp inputs st).1 = tradeRecord opp inputs buyBook sellBook := by
    simp [execute, hbuyBook, hsellBook, hquote, hbase]
  obtain ⟨hbuyStatus, hbuyQty, hbuyAvg, hbuyFee⟩ := buyFill_fillable inputs hopp.buyFillable
  obtain ⟨hsellStatus, hsellQty, hsellAvg, hsellFee⟩ := sellFill_fillable inputs hopp.sellFillable
  rw [← hopp.buyPrice] at hbuyAvg
  rw [← hopp.sellPrice] at hsellAvg
  have hpnl : (tradeRecord opp inputs buyBook sellBook).realizedPnl =
      opp.quantity * (opp.sellPrice * (1 - inputs.sellTakerFee) -
        opp.buyPrice * (1 + inputs.buyTakerFee)) := by
    rw [← hbuyAvg, ← hsellAvg]
    exact realizedPnl_filled hbuyQty hsellQty hbuyFee hsellFee
  have hgain : 0 < (tradeRecord opp inputs buyBook sellBook).realizedPnl ↔
      (fees.getFee opp.sellExchange opp.pair).takerFee * opp.grossSpreadBps < opp.netSpreadBps := by
    rw [hpnl, mul_pos_iff_of_pos_left hopp.quantity, ← net_exceeds_iff hopp.buyPrice_pos,
      hopp.net, hopp.gross, FeeManager.totalFeeRate_eq, ← hopp.buyExchange, ← hopp.sellExchange,
      ← hopp.samePair, hsame.buyTakerFee, hsame.sellTakerFee]
  rw [hrecord, ← hgain]
  refine ⟨fun h => h.profit, ?_⟩
  intro h
  exact ⟨hbuyStatus, hbuyQty, hsellStatus, hsellQty, h⟩

/-! ### A wide and a thin spread -/

def inputsOf (buyBook sellBook : OrderBookSnapshot) (takerFee : ℚ) : Inputs :=
  { uuids := fun _ => ""
    timestampIso := "2024-01-01T00:00:00Z"
    buyBook := some buyBook
    sellBook := some sellBook
    buyTakerFee := takerFee
    sellTakerFee := takerFee
    buyFillPct := 1 / 2
    sellFillPct := 1 / 2 }

def cappedInputs : Inputs :=
  inputsOf (SpreadDetector.singleLevels .binance 99 100 5)
    (SpreadDetector.singleLevels .okx 102 103 5) (1 / 1000)

def largeBalances : AssetMap := ⟨[("BTC", 10), ("USDT", 1000000)], by decide⟩

theorem cappedOpportunity_profit :
    let st := construct largeBalances [.binance, .okx]
    FilledAtProfit SpreadDetector.cappedOpportunity
      (execute SpreadDetector.cappedOpportunity cappedInputs st).1 := by
  intro st
  have hscan : ((⟨3, 50, 250⟩ : SpreadDetector).scanPair {} "BTC-USDT" (fun _ _ => 0) 0
      SpreadDetector.cappedSnapshots fun _ => none).1 = some SpreadDetector.cappedOpportunity := by
    decide +kernel
  have hsame : Unchanged {} SpreadDetector.cappedSnapshots SpreadDetector.cappedOpportunity
      cappedInputs :=
    ⟨by decide +kernel, by decide +kernel, by decide +kernel, by decide +kernel⟩
  exact (detected_profit_iff SpreadDetector.cappedSnapshots_sorted_positive hscan hsame
    (by decide +kernel) (by decide +kernel)).mpr (by decide +kernel)

/-- The spread clears both fees on the buy price by a hundredth of a basis point,
and not the fee on the sell price. -/
def thinSnapshots : List OrderBookSnapshot :=
  [SpreadDetector.singleLevels .binance 99990 100000 1,
    SpreadDetector.singleLevels .okx (1002001 / 10) 100300 1]

def thinOpportunity : ArbitrageOpportunity :=
  { pair := "BTC-USDT", buyExchange := .binance, sellExchange := .okx, buyPrice := 100000
    sellPrice := 1002001 / 10, quantity := 1 - 1 / 2 ^ 27, grossSpreadBps := 2001 / 100
    netSpreadBps := 1 / 100 }

def thinInputs : Inputs :=
  inputsOf (SpreadDetector.singleLevels .binance 99990 100000 1)
    (SpreadDetector.singleLevels .okx (1002001 / 10) 100300 1) (1 / 1000)

theorem thinOpportunity_loss :
    let detector : SpreadDetector := ⟨1 / 200, 50, 200000⟩
    let st := construct largeBalances [.binance, .okx]
    (detector.scanPair {} "BTC-USDT" (fun _ _ => 0) 0 thinSnapshots fun _ => none).1 =
        some thinOpportunity ∧
      (∀ snap ∈ thinSnapshots, SpreadDetector.Sorted snap ∧ snap.Positive) ∧
      Unchanged {} thinSnapshots thinOpportunity thinInputs ∧
      checkQuote st thinOpportunity = true ∧ checkBase st thinOpportunity = true ∧
      ¬ FilledAtProfit thinOpportunity (execute thinOpportunity thinInputs st).1 := by
  intro detector st
  refine ⟨by decide +kernel, ?_, ⟨by decide +kernel, by decide +kernel, by decide +kernel,
    by decide +kernel⟩, by decide +kernel, by decide +kernel, ?_⟩
  · intro snap hsnap
    simp only [thinSnapshots, List.mem_cons, List.not_mem_nil, or_false] at hsnap
    rcases hsnap with rfl | rfl
    · exact SpreadDetector.singleLevels_sorted_positive .binance (by norm_num) (by norm_num)
        (by norm_num)
    · exact SpreadDetector.singleLevels_sorted_positive .okx (by norm_num) (by norm_num)
        (by norm_num)
  · intro h
    have hprofit : 0 < (execute thinOpportunity thinInputs st).1.realizedPnl := h.profit
    revert hprofit
    decide +kernel

end CryptoArbBot.PaperExecutor
