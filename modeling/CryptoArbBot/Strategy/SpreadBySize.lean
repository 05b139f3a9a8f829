import CryptoArbBot.OrderBook.OptimalFills
import CryptoArbBot.Strategy.MaxArbQuantity

/-!
# The spread at a smaller size

A larger quantity goes deeper into both books: it is bought dearer and sold cheaper
on average, and nets no more. The halving loop of the largest quantity and the cap
on the trade size rely on it.
-/

namespace CryptoArbBot

namespace DepthAnalyzer

theorem fullyFillable_of_le {levels : List PriceLevel} (h : PositiveLevels levels)
    {slippage : ℚ → ℚ → ℚ} {small large : ℚ} (hpos : 0 < small) (hle : small ≤ large)
    (hlarge : (effectivePrice slippage large levels).fullyFillable = true) :
    (effectivePrice slippage small levels).fullyFillable = true := by
  rw [fullyFillable_iff_le_depth h hpos]
  exact hle.trans (le_depth_of_fullyFillable h hlarge)

/-- `(sell_eff.avg_price - buy_eff.avg_price) / buy_eff.avg_price` at the quantity. -/
def grossSpread (buyBook sellBook : OrderBookSnapshot) (quantity : ℚ) : ℚ :=
  ((effectiveSellPrice sellBook quantity).avgPrice - (effectiveBuyPrice buyBook quantity).avgPrice) /
    (effectiveBuyPrice buyBook quantity).avgPrice

theorem netSpreadAt_eq {buyBook sellBook : OrderBookSnapshot} {quantity : ℚ}
    (hbuy : (effectiveBuyPrice buyBook quantity).fullyFillable = true)
    (hsell : (effectiveSellPrice sellBook quantity).fullyFillable = true)
    (hprice : 0 < (effectiveBuyPrice buyBook quantity).avgPrice) (totalFeeRate : ℚ) :
    netSpreadAt buyBook sellBook totalFeeRate quantity =
      some (grossSpread buyBook sellBook quantity * 10000 - totalFeeRate * 10000) := by
  unfold netSpreadAt
  dsimp only
  rw [if_neg (by simp [hbuy, hsell]), if_neg hprice.not_ge]
  rfl

/-- Both sides hold the smaller quantity too, and it has the better prices. `net` is
what the halving loop compares. -/
structure BetterSmaller (buyBook sellBook : OrderBookSnapshot) (small large : ℚ) : Prop where
  buyFillable : (effectiveBuyPrice buyBook small).fullyFillable = true
  sellFillable : (effectiveSellPrice sellBook small).fullyFillable = true
  buyPrice_pos : 0 < (effectiveBuyPrice buyBook small).avgPrice
  buyPrice : (effectiveBuyPrice buyBook small).avgPrice ≤ (effectiveBuyPrice buyBook large).avgPrice
  sellPrice :
    (effectiveSellPrice sellBook large).avgPrice ≤ (effectiveSellPrice sellBook small).avgPrice
  spread : grossSpread buyBook sellBook large ≤ grossSpread buyBook sellBook small
  net : ∀ totalFeeRate, ∃ bps bps', netSpreadAt buyBook sellBook totalFeeRate large = some bps ∧
    netSpreadAt buyBook sellBook totalFeeRate small = some bps' ∧ bps ≤ bps'

section Books
variable {buyBook sellBook : OrderBookSnapshot} {small large : ℚ}

theorem sellPrice_le (hsorted : SpreadDetector.Sorted sellBook) (hpositive : sellBook.Positive)
    (hpos : 0 < small) (hle : small ≤ large)
    (hlarge : (effectiveSellPrice sellBook large).fullyFillable = true) :
    (effectiveSellPrice sellBook large).avgPrice ≤ (effectiveSellPrice sellBook small).avgPrice := by
  have hsmall := fullyFillable_of_le hpositive.2 hpos hle hlarge
  have hdepth : large ≤ depth sellBook.bids := le_depth_of_fullyFillable hpositive.2 hlarge
  unfold effectiveSellPrice at hlarge ⊢
  rw [avgPrice_eq _ hsmall, avgPrice_eq _ hlarge]
  exact PricedLots.average_ge hpositive.2.sized hsorted.2 hpos hle hdepth

theorem buyPrice_pos (hpositive : buyBook.Positive)
    (hfill : (effectiveBuyPrice buyBook small).fullyFillable = true) :
    0 < (effectiveBuyPrice buyBook small).avgPrice := by
  have hpos : 0 < small := pos_of_fullyFillable hfill
  have hdepth : small ≤ depth buyBook.asks := le_depth_of_fullyFillable hpositive.1 hfill
  unfold effectiveBuyPrice at hfill ⊢
  rw [avgPrice_eq _ hfill]
  exact vwap_pos hpositive.1 hpos hdepth

/-- On sorted books with positive levels the average prices and the spread between
them get no better with the quantity. -/
theorem spread_falls_with_size (hbuy : SpreadDetector.Sorted buyBook ∧ buyBook.Positive)
    (hsell : SpreadDetector.Sorted sellBook ∧ sellBook.Positive) (hpos : 0 < small)
    (hle : small ≤ large) (hbuyFill : (effectiveBuyPrice buyBook large).fullyFillable = true)
    (hsellFill : (effectiveSellPrice sellBook large).fullyFillable = true) :
    BetterSmaller buyBook sellBook small large := by
  have hbuyFill' : (effectiveBuyPrice buyBook small).fullyFillable = true :=
    fullyFillable_of_le hbuy.2.1 hpos hle hbuyFill
  have hsellFill' : (effectiveSellPrice sellBook small).fullyFillable = true :=
    fullyFillable_of_le hsell.2.2 hpos hle hsellFill
  have hask := SpreadDetector.avgPrice_le hbuy.1 hbuy.2 hle hbuyFill' hbuyFill
  have hbid := sellPrice_le hsell.1 hsell.2 hpos hle hsellFill
  have hask0 := buyPrice_pos hbuy.2 hbuyFill'
  have hbid0 : 0 ≤ (effectiveSellPrice sellBook small).avgPrice :=
    effectivePrice_avgPrice_nonneg hsell.2.2 _ small
  have hspread : grossSpread buyBook sellBook large ≤ grossSpread buyBook sellBook small :=
    relative_gap_le hask0 hask hbid0 hbid
  refine ⟨hbuyFill', hsellFill', hask0, hask, hbid, hspread, fun totalFeeRate => ?_⟩
  refine ⟨_, _, netSpreadAt_eq hbuyFill hsellFill (hask0.trans_le hask) totalFeeRate,
    netSpreadAt_eq hbuyFill' hsellFill' hask0 totalFeeRate, ?_⟩
  exact sub_le_sub_right (mul_le_mul_of_nonneg_right hspread (by norm_num)) _

theorem spread_falls_on_two_levels : BetterSmaller twoLevels twoLevels 1 2 := by
  have hbook : SpreadDetector.Sorted twoLevels ∧ twoLevels.Positive := by
    norm_num [SpreadDetector.Sorted, OrderBookSnapshot.Positive, PositiveLevels, twoLevels]
  exact spread_falls_with_size hbook hbook (by norm_num) (by norm_num) (by decide +kernel)
    (by decide +kernel)

end Books

end DepthAnalyzer

/-! ### The cap on the trade size -/

namespace SpreadDetector

variable {detector : SpreadDetector} {buyBook sellBook : OrderBookSnapshot} {maxQty quantity : ℚ}
  {buyEff sellEff : EffectivePrice}

/-- What the cap leaves of the largest profitable quantity still nets enough, so that
the last test of a candidate does not reject it. -/
theorem capped_netsEnough (hbuy : Sorted buyBook ∧ buyBook.Positive)
    (hsell : Sorted sellBook ∧ sellBook.Positive) {feeRate : ℚ}
    (hmax : maxQty = DepthAnalyzer.maxArbQuantity buyBook sellBook detector.minNetSpreadBps feeRate)
    (h : detector.sized buyBook sellBook maxQty = some (quantity, buyEff, sellEff)) :
    detector.minNetSpreadBps ≤
      (sellEff.avgPrice - buyEff.avgPrice) / buyEff.avgPrice * 10000 - feeRate * 10000 := by
  have htested := sized_spec h
  have hle := htested.quantity_le
  obtain ⟨-, -, -, -, rfl, rfl, hbuyFill, hsellFill, hprice⟩ := htested
  have hpos : 0 < quantity := DepthAnalyzer.pos_of_fullyFillable hbuyFill
  have hlarge : DepthAnalyzer.NetsEnough (DepthAnalyzer.netSpreadAt buyBook sellBook feeRate)
      detector.minNetSpreadBps maxQty := by
    have hspec := DepthAnalyzer.maxArbQuantity_spec buyBook sellBook detector.minNetSpreadBps feeRate
    rw [← hmax] at hspec
    exact hspec.resolve_left (hpos.trans_le hle).ne'
  have hfirst := DepthAnalyzer.netSpreadAt_enoughFirst hbuy hsell detector.minNetSpreadBps feeRate
  have henough := hfirst quantity maxQty hpos hle hlarge
  exact (DepthAnalyzer.netsEnough_iff
    (DepthAnalyzer.netSpreadAt_eq hbuyFill hsellFill hprice feeRate)).mp henough

end SpreadDetector

end CryptoArbBot
