import CryptoArbBot.Library.Allocations
import CryptoArbBot.OrderBook.DepthAnalyzer

/-!
# Effective prices are optimal fills

A walk over a sorted side fills as much of the quantity as the side holds, and no
other way to take that much from its levels is cheaper for a buyer or brings a
seller more.
-/

namespace CryptoArbBot

namespace DepthAnalyzer
open PricedLots (Ascending Descending)

/-- What taking the quantity from the levels can cost in all. -/
abbrev totals (quantity : ℚ) (levels : List PriceLevel) : Set ℚ :=
  PricedLots.totals PriceLevel.price PriceLevel.quantity quantity levels

structure OptimalFill (Optimal : Set ℚ → ℚ → Prop) (quantity : ℚ) (levels : List PriceLevel)
    (effective : EffectivePrice) : Prop where
  quantityFilled : effective.quantityFilled = min quantity (depth levels)
  fullyFillable : effective.fullyFillable = true ↔ quantity ≤ depth levels
  totalCost : Optimal (totals effective.quantityFilled levels) effective.totalCost
  slippageBps : 0 ≤ effective.slippageBps

section Side
variable {levels : List PriceLevel} {quantity : ℚ} (slippage : ℚ → ℚ → ℚ)

theorem quantityFilled_eq_min (h : PositiveLevels levels) (hquantity : 0 < quantity) :
    (effectivePrice slippage quantity levels).quantityFilled = min quantity (depth levels) := by
  rw [quantityFilled_eq levels hquantity, min_def]
  simp only [reaches_iff_le_depth h]

theorem totalCost_eq (h : PositiveLevels levels) (hquantity : 0 < quantity) :
    (effectivePrice slippage quantity levels).totalCost =
      PricedLots.cost PriceLevel.price PriceLevel.quantity (min quantity (depth levels)) levels := by
  rw [PricedLots.cost_min_depth h.sized]
  cases levels with
  | nil => rfl
  | cons top levels =>
    simp only [effectivePrice, if_neg hquantity.not_ge, walk_totalCost _ _ hquantity, zero_add]

theorem filled_bounds (h : PositiveLevels levels) (hquantity : 0 < quantity) :
    0 ≤ min quantity (depth levels) ∧ min quantity (depth levels) ≤ depth levels :=
  ⟨le_min hquantity.le (PricedLots.depth_nonneg h.sized), min_le_right _ _⟩

theorem avgPrice_mul_quantityFilled (h : PositiveLevels levels) (hquantity : 0 < quantity) :
    (effectivePrice slippage quantity levels).avgPrice *
        (effectivePrice slippage quantity levels).quantityFilled =
      (effectivePrice slippage quantity levels).totalCost := by
  have hcost := totalCost_eq slippage h hquantity
  have hfilled := quantityFilled_eq_min slippage h hquantity
  rw [← hfilled] at hcost
  cases levels with
  | nil => exact zero_mul _
  | cons top levels =>
    have havg : (effectivePrice slippage quantity (top :: levels)).avgPrice =
        if (effectivePrice slippage quantity (top :: levels)).quantityFilled > 0 then
          (effectivePrice slippage quantity (top :: levels)).totalCost /
            (effectivePrice slippage quantity (top :: levels)).quantityFilled
        else 0 := by
      simp only [effectivePrice, if_neg hquantity.not_ge]
    rw [havg]
    split
    next hpos => exact div_mul_cancel₀ _ hpos.ne'
    next hnone =>
      have hlow := (filled_bounds h hquantity).1
      rw [← hfilled] at hlow
      have hzero := le_antisymm (not_lt.mp hnone) hlow
      rw [hcost, hzero, PricedLots.cost_zero h.sized, zero_mul]

theorem slippageBps_nonneg {top : PriceLevel}
    (h : 0 < (effectivePrice slippage quantity (top :: levels)).quantityFilled → 0 < top.price →
      0 ≤ slippage (effectivePrice slippage quantity (top :: levels)).avgPrice top.price) :
    0 ≤ (effectivePrice slippage quantity (top :: levels)).slippageBps := by
  by_cases hquantity : quantity ≤ 0
  · rw [effectivePrice, if_pos hquantity]
  · rw [effectivePrice, if_neg hquantity] at h ⊢
    dsimp only at h ⊢
    split
    next hfilled => exact mul_nonneg (h hfilled.1 hfilled.2) (by norm_num)
    next => exact le_rfl

end Side

section Snapshot
variable {book : OrderBookSnapshot} {quantity : ℚ}

theorem effectiveBuyPrice_slippage (h : PositiveLevels book.asks)
    (hsorted : Ascending PriceLevel.price book.asks) (hquantity : 0 < quantity) :
    0 ≤ (effectiveBuyPrice book quantity).slippageBps := by
  unfold effectiveBuyPrice
  cases hasks : book.asks with
  | nil => exact le_rfl
  | cons top levels =>
    rw [hasks] at h hsorted
    refine slippageBps_nonneg _ ?_
    intro hfilled hprice
    have hbounds := filled_bounds h hquantity
    have hcost := PricedLots.le_cost h.sized hsorted.head_le hbounds.1 hbounds.2
    rw [← totalCost_eq _ h hquantity, ← avgPrice_mul_quantityFilled _ h hquantity,
      ← quantityFilled_eq_min _ h hquantity] at hcost
    exact div_nonneg (sub_nonneg.mpr (le_of_mul_le_mul_right hcost hfilled)) hprice.le

theorem effectiveSellPrice_slippage (h : PositiveLevels book.bids)
    (hsorted : Descending PriceLevel.price book.bids) (hquantity : 0 < quantity) :
    0 ≤ (effectiveSellPrice book quantity).slippageBps := by
  unfold effectiveSellPrice
  cases hbids : book.bids with
  | nil => exact le_rfl
  | cons top levels =>
    rw [hbids] at h hsorted
    refine slippageBps_nonneg _ ?_
    intro hfilled hprice
    have hbounds := filled_bounds h hquantity
    have hcost := PricedLots.cost_le h.sized hsorted.le_head hbounds.1 hbounds.2
    rw [← totalCost_eq _ h hquantity, ← avgPrice_mul_quantityFilled _ h hquantity,
      ← quantityFilled_eq_min _ h hquantity] at hcost
    exact div_nonneg (sub_nonneg.mpr (le_of_mul_le_mul_right hcost hfilled)) hprice.le

theorem effectiveBuyPrice_optimal (h : PositiveLevels book.asks)
    (hsorted : Ascending PriceLevel.price book.asks) (hquantity : 0 < quantity) :
    OptimalFill IsLeast quantity book.asks (effectiveBuyPrice book quantity) := by
  have hfilled : (effectiveBuyPrice book quantity).quantityFilled = min quantity (depth book.asks) :=
    quantityFilled_eq_min _ h hquantity
  have hbounds := filled_bounds h hquantity
  refine ⟨hfilled, ?_, ?_, effectiveBuyPrice_slippage h hsorted hquantity⟩
  · exact fullyFillable_iff_le_depth h hquantity _
  · rw [hfilled]
    unfold effectiveBuyPrice
    rw [totalCost_eq _ h hquantity]
    exact PricedLots.cost_isLeast h.sized hbounds.1 hbounds.2
      (PricedLots.bestFirst_of_ascending hsorted _)

theorem effectiveSellPrice_optimal (h : PositiveLevels book.bids)
    (hsorted : Descending PriceLevel.price book.bids) (hquantity : 0 < quantity) :
    OptimalFill IsGreatest quantity book.bids (effectiveSellPrice book quantity) := by
  have hfilled : (effectiveSellPrice book quantity).quantityFilled = min quantity (depth book.bids) :=
    quantityFilled_eq_min _ h hquantity
  have hbounds := filled_bounds h hquantity
  have hneg : Ascending (fun level : PriceLevel => -level.price) book.bids := hsorted.imp neg_le_neg
  refine ⟨hfilled, ?_, ?_, effectiveSellPrice_slippage h hsorted hquantity⟩
  · exact fullyFillable_iff_le_depth h hquantity _
  · rw [hfilled]
    unfold effectiveSellPrice
    rw [totalCost_eq _ h hquantity]
    exact (PricedLots.cost_isGreatest_iff h.sized hbounds.1 hbounds.2).mpr
      (PricedLots.bestFirst_of_ascending hneg _)

/-- The walks of both sides are optimal among all ways to fill the quantity. -/
theorem effectivePrices_optimal (hpositive : book.Positive)
    (hasks : Ascending PriceLevel.price book.asks) (hbids : Descending PriceLevel.price book.bids)
    (hquantity : 0 < quantity) :
    OptimalFill IsLeast quantity book.asks (effectiveBuyPrice book quantity) ∧
      OptimalFill IsGreatest quantity book.bids (effectiveSellPrice book quantity) :=
  ⟨effectiveBuyPrice_optimal hpositive.1 hasks hquantity,
    effectiveSellPrice_optimal hpositive.2 hbids hquantity⟩

end Snapshot

def twoLevels : OrderBookSnapshot where
  exchange := .binance
  pair := "BTC-USDT"
  bids := [⟨99, 1⟩, ⟨98, 2⟩]
  asks := [⟨100, 1⟩, ⟨101, 2⟩]

theorem twoLevels_optimal :
    OptimalFill IsLeast 2 twoLevels.asks (effectiveBuyPrice twoLevels 2) ∧
      OptimalFill IsGreatest 2 twoLevels.bids (effectiveSellPrice twoLevels 2) := by
  refine effectivePrices_optimal ?_ ?_ ?_ (by norm_num)
  · norm_num [OrderBookSnapshot.Positive, PositiveLevels, twoLevels]
  · norm_num [Ascending, twoLevels]
  · norm_num [Descending, twoLevels]

end DepthAnalyzer

end CryptoArbBot
