import CryptoArbBot.Strategy.SpreadDetector

/-!
# The smallest trade size under the cap

The size of a candidate is tested before it is capped. Capped, it costs the cap
only at the average price of the uncapped quantity; on a steep ask side the
smaller quantity costs less.
-/

namespace CryptoArbBot

namespace DepthAnalyzer

/-- What a budget buys, going up the levels. -/
def quantityFor (usd : ℚ) (levels : List PriceLevel) : ℚ :=
  PricedLots.bought PriceLevel.price PriceLevel.quantity usd levels

theorem vwap_mul {levels : List PriceLevel} {quantity : ℚ} (h : 0 < quantity) :
    vwap quantity levels * quantity =
      PricedLots.cost PriceLevel.price PriceLevel.quantity quantity levels :=
  div_mul_cancel₀ _ h.ne'

theorem le_vwap_mul_iff {levels : List PriceLevel} (h : PositiveLevels levels)
    {slippage : ℚ → ℚ → ℚ} {usd quantity : ℚ} (husd : 0 ≤ usd)
    (hworth : usd ≤ PricedLots.worth PriceLevel.price PriceLevel.quantity levels)
    (hfill : (effectivePrice slippage quantity levels).fullyFillable = true) :
    usd ≤ vwap quantity levels * quantity ↔ quantityFor usd levels ≤ quantity := by
  have hpos : 0 < quantity := pos_of_fullyFillable hfill
  have hdepth : quantity ≤ depth levels := le_depth_of_fullyFillable h hfill
  rw [vwap_mul hpos]
  exact (PricedLots.bought_le_iff h.sized h.priced husd hworth hpos.le hdepth).symm

end DepthAnalyzer

namespace SpreadDetector

variable {detector : SpreadDetector} {fees : FeeManager} {pair : String} {now : TimePoint}
  {buyBook sellBook : OrderBookSnapshot}

/-- The quantity that the smallest trade size buys does not cost more than the
largest one at the average price of the whole arbitrage quantity. -/
def SizeSurvivesCap (detector : SpreadDetector) (fees : FeeManager) (pair : String)
    (buyBook sellBook : OrderBookSnapshot) : Prop :=
  let maxQty := DepthAnalyzer.maxArbQuantity buyBook sellBook detector.minNetSpreadBps
    (fees.totalFeeRate buyBook.exchange sellBook.exchange pair)
  DepthAnalyzer.quantityFor detector.minTradeSizeUsd buyBook.asks *
    DepthAnalyzer.vwap maxQty buyBook.asks ≤ detector.maxTradeSizeUsd

/-- What `sized` has tested at the uncapped quantity, and the quantity it takes. -/
structure Capped (detector : SpreadDetector) (buyBook : OrderBookSnapshot) (maxQty quantity : ℚ)
    (buyEff : EffectivePrice) : Prop where
  fillable : (DepthAnalyzer.effectiveBuyPrice buyBook maxQty).fullyFillable = true
  price_pos : 0 < DepthAnalyzer.vwap maxQty buyBook.asks
  minSize : detector.minTradeSizeUsd ≤ DepthAnalyzer.vwap maxQty buyBook.asks * maxQty
  buyEff_eq : buyEff = DepthAnalyzer.effectiveBuyPrice buyBook quantity
  buyFillable : buyEff.fullyFillable = true
  quantity_eq : quantity =
    if DepthAnalyzer.vwap maxQty buyBook.asks * maxQty > detector.maxTradeSizeUsd then
      detector.maxTradeSizeUsd / DepthAnalyzer.vwap maxQty buyBook.asks
    else maxQty

theorem sized_capped {maxQty quantity : ℚ} {buyEff sellEff : EffectivePrice}
    (h : detector.sized buyBook sellBook maxQty = some (quantity, buyEff, sellEff)) :
    Capped detector buyBook maxQty quantity buyEff := by
  have htested := sized_spec h
  have havg : (DepthAnalyzer.effectiveBuyPrice buyBook maxQty).avgPrice =
      DepthAnalyzer.vwap maxQty buyBook.asks := DepthAnalyzer.avgPrice_eq _ htested.maxFillable
  obtain ⟨hfillable, hprice, hmin, hquantity, hbuyEff, -, hbuyFill, -, -⟩ := htested
  rw [havg] at hprice hmin hquantity
  exact ⟨hfillable, hprice, hmin, hbuyEff, hbuyFill, hquantity⟩

theorem examine_capped {opp : ArbitrageOpportunity}
    (h : detector.examine fees pair now buyBook sellBook = some opp) :
    ∃ buyEff, opp.buyPrice = buyEff.avgPrice ∧
      Capped detector buyBook
        (DepthAnalyzer.maxArbQuantity buyBook sellBook detector.minNetSpreadBps
          (fees.totalFeeRate buyBook.exchange sellBook.exchange pair)) opp.quantity buyEff := by
  obtain ⟨quantity, buyEff, sellEff, hsized, _, _, _, rfl⟩ := examine_spec h
  exact ⟨buyEff, rfl, sized_capped hsized⟩

theorem examine_minSize_iff (hbook : buyBook.Positive) (hmin : 0 < detector.minTradeSizeUsd)
    {opp : ArbitrageOpportunity}
    (h : detector.examine fees pair now buyBook sellBook = some opp) :
    detector.minTradeSizeUsd ≤ opp.buyPrice * opp.quantity ↔
      detector.SizeSurvivesCap fees pair buyBook sellBook := by
  obtain ⟨buyEff, hprice, hcapped⟩ := examine_capped h
  unfold SizeSurvivesCap
  set maxQty := DepthAnalyzer.maxArbQuantity buyBook sellBook detector.minNetSpreadBps
    (fees.totalFeeRate buyBook.exchange sellBook.exchange pair) with hmax
  have hmaxpos : 0 < maxQty := DepthAnalyzer.pos_of_fullyFillable hcapped.fillable
  have hworth : detector.minTradeSizeUsd ≤
      PricedLots.worth PriceLevel.price PriceLevel.quantity buyBook.asks := by
    refine hcapped.minSize.trans ?_
    rw [DepthAnalyzer.vwap_mul hmaxpos]
    exact PricedLots.cost_le_worth hbook.1.sized hbook.1.priced _
  have hfill := hcapped.buyFillable
  rw [hcapped.buyEff_eq] at hprice hfill
  have hvwap : opp.buyPrice = DepthAnalyzer.vwap opp.quantity buyBook.asks :=
    hprice.trans (DepthAnalyzer.avgPrice_eq _ hfill)
  have hsize := DepthAnalyzer.le_vwap_mul_iff hbook.1 hmin.le hworth hfill
  have huncapped := (DepthAnalyzer.le_vwap_mul_iff hbook.1 hmin.le hworth hcapped.fillable).mp
    hcapped.minSize
  rw [hvwap, hsize]
  have hquantity := hcapped.quantity_eq
  split at hquantity
  · rw [hquantity]
    exact le_div_iff₀ hcapped.price_pos
  next hcap =>
    -- the uncapped quantity passed the size test, and its cost the cap
    have hcost := mul_le_mul_of_nonneg_right huncapped hcapped.price_pos.le
    refine ⟨fun _ => hcost.trans ?_, fun _ => hquantity ▸ huncapped⟩
    rw [mul_comm]
    exact not_lt.mp hcap

theorem scanPair_minSize_iff (clock : ℕ → ℕ → TimePoint) {snapshots : List OrderBookSnapshot}
    (lastTradeTime : String → Option TimePoint) (hmin : 0 < detector.minTradeSizeUsd)
    (hbooks : ∀ snap ∈ snapshots, snap.Positive) {opp : ArbitrageOpportunity}
    (h : (detector.scanPair fees pair clock now snapshots lastTradeTime).1 = some opp) :
    ∃ i j buyBook sellBook, snapshots[i]? = some buyBook ∧ snapshots[j]? = some sellBook ∧
      detector.examine fees pair (clock i j) buyBook sellBook = some opp ∧
      (detector.minTradeSizeUsd ≤ opp.buyPrice * opp.quantity ↔
        detector.SizeSurvivesCap fees pair buyBook sellBook) := by
  obtain ⟨i, j, buyBook, sellBook, -, hi, hj, hexamine⟩ := scanPair_some h
  have hbook := hbooks buyBook (List.mem_of_getElem? hi)
  exact ⟨i, j, buyBook, sellBook, hi, hj, hexamine, examine_minSize_iff hbook hmin hexamine⟩

theorem cappedSnapshots_minSize : ∃ (i j : ℕ) (buyBook sellBook : OrderBookSnapshot),
    cappedSnapshots[i]? = some buyBook ∧ cappedSnapshots[j]? = some sellBook ∧
      examine ⟨3, 50, 250⟩ {} "BTC-USDT" 0 buyBook sellBook = some cappedOpportunity ∧
      ((50 : ℚ) ≤ cappedOpportunity.buyPrice * cappedOpportunity.quantity ↔
        SizeSurvivesCap ⟨3, 50, 250⟩ {} "BTC-USDT" buyBook sellBook) :=
  @scanPair_minSize_iff ⟨3, 50, 250⟩ {} "BTC-USDT" 0 (fun _ _ => 0) cappedSnapshots
    (fun _ => none) (by norm_num) (fun snap hsnap => (cappedSnapshots_sorted_positive snap hsnap).2)
    _ (by decide +kernel)

/-! ### A steep ask side -/

/-- One unit is cheap, the rest a hundred times dearer. -/
def steepSnapshots : List OrderBookSnapshot :=
  [{ exchange := .binance, pair := "BTC-USDT", bids := [⟨1 / 2, 1⟩], asks := [⟨1, 1⟩, ⟨100, 7⟩] },
    { exchange := .okx, pair := "BTC-USDT", bids := [⟨200, 8⟩], asks := [⟨201, 8⟩] }]

theorem steepSnapshots_sorted_positive :
    ∀ snap ∈ steepSnapshots, Sorted snap ∧ snap.Positive := by
  intro snap hsnap
  simp only [steepSnapshots, List.mem_cons, List.not_mem_nil, or_false] at hsnap
  rcases hsnap with rfl | rfl
  · norm_num [Sorted, OrderBookSnapshot.Positive, PositiveLevels]
  · norm_num [Sorted, OrderBookSnapshot.Positive, PositiveLevels]

/-- With 50 dollars as both bounds, a trade of less than one dollar is fired. -/
theorem steep_asks_undercut_minSize : ¬ ∀ (detector : SpreadDetector) (fees : FeeManager)
    (pair : String) (clock : ℕ → ℕ → TimePoint) (now : TimePoint)
    (snapshots : List OrderBookSnapshot) (lastTradeTime : String → Option TimePoint),
    0 < detector.minTradeSizeUsd → detector.minTradeSizeUsd ≤ detector.maxTradeSizeUsd →
    (∀ snap ∈ snapshots, Sorted snap ∧ snap.Positive) →
    ∀ opp, (detector.scanPair fees pair clock now snapshots lastTradeTime).1 = some opp →
      detector.minTradeSizeUsd ≤ opp.buyPrice * opp.quantity := by
  intro h
  have hsmall : ((scanPair ⟨3, 50, 50⟩ {} "BTC-USDT" (fun _ _ => 0) 0 steepSnapshots
      fun _ => none).1.map fun opp => decide (opp.buyPrice * opp.quantity < 1)) = some true := by
    decide +kernel
  obtain ⟨opp, hfired, hless⟩ := Option.map_eq_some_iff.mp hsmall
  have hmin := h ⟨3, 50, 50⟩ {} "BTC-USDT" (fun _ _ => 0) 0 steepSnapshots (fun _ => none)
    (by norm_num) (by norm_num) steepSnapshots_sorted_positive opp hfired
  have hlt : opp.buyPrice * opp.quantity < 1 := of_decide_eq_true hless
  have hfifty : (50 : ℚ) ≤ opp.buyPrice * opp.quantity := hmin
  linarith

end SpreadDetector

end CryptoArbBot
