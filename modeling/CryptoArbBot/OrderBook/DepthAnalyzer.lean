import CryptoArbBot.Common.Types
import CryptoArbBot.Library.PricedLots

/-!
# Walking a book side (orderbook/depth_analyzer.cpp)

The volume-weighted price of a quantity on the asks or the bids of a snapshot.
-/

namespace CryptoArbBot

structure EffectivePrice where
  avgPrice : ℚ := 0
  totalCost : ℚ := 0
  quantityFilled : ℚ := 0
  slippageBps : ℚ := 0
  fullyFillable : Bool := false
  deriving DecidableEq, Repr

namespace DepthAnalyzer

/-- The loop of both walkers: what remains to fill and what the fills cost. -/
def walk (remaining totalCost : ℚ) : List PriceLevel → ℚ × ℚ
  | [] => (remaining, totalCost)
  | level :: levels =>
    if remaining ≤ 0 then (remaining, totalCost)
    else
      let fill := min remaining level.quantity
      walk (remaining - fill) (totalCost + fill * level.price) levels

/-- The common body; `slippage avg top` is the side's relative slippage. -/
def effectivePrice (slippage : ℚ → ℚ → ℚ) (quantity : ℚ) : List PriceLevel → EffectivePrice
  | [] => {}
  | top :: levels =>
    if quantity ≤ 0 then {}
    else
      let (remaining, totalCost) := walk quantity 0 (top :: levels)
      let quantityFilled := quantity - remaining
      let avgPrice := if quantityFilled > 0 then totalCost / quantityFilled else 0
      { avgPrice, totalCost, quantityFilled
        slippageBps := if quantityFilled > 0 ∧ top.price > 0 then slippage avgPrice top.price * 10000
          else 0
        fullyFillable := remaining ≤ 0 }

def effectiveBuyPrice (book : OrderBookSnapshot) (quantity : ℚ) : EffectivePrice :=
  effectivePrice (fun avg top => (avg - top) / top) quantity book.asks

def effectiveSellPrice (book : OrderBookSnapshot) (quantity : ℚ) : EffectivePrice :=
  effectivePrice (fun avg top => (top - avg) / top) quantity book.bids

/-! ### The largest profitable quantity -/

/-- The net spread of trading the quantity, when both sides hold it. -/
def netSpreadAt (buyBook sellBook : OrderBookSnapshot) (totalFeeRate quantity : ℚ) : Option ℚ :=
  let buyEff := effectiveBuyPrice buyBook quantity
  let sellEff := effectiveSellPrice sellBook quantity
  if buyEff.fullyFillable = false ∨ sellEff.fullyFillable = false then none
  else if buyEff.avgPrice ≤ 0 then none
  else
    let currentGrossBps := (sellEff.avgPrice - buyEff.avgPrice) / buyEff.avgPrice * 10000
    some (currentGrossBps - totalFeeRate * 10000)

def searchEpsilon : ℚ := 1 / 10 ^ 8

/-- The halving loop; a quantity that cannot be traded skips the width test. -/
def searchLoop (net : ℚ → Option ℚ) (minNetSpreadBps : ℚ) : ℕ → ℚ → ℚ → ℚ → ℚ
  | 0, _, _, bestQty => bestQty
  | iterations + 1, lo, hi, bestQty =>
    let mid := (lo + hi) / 2
    if mid < searchEpsilon then bestQty
    else
      match net mid with
      | none => searchLoop net minNetSpreadBps iterations lo mid bestQty
      | some currentNetBps =>
        if currentNetBps ≥ minNetSpreadBps then
          if hi - mid < searchEpsilon then mid
          else searchLoop net minNetSpreadBps iterations mid hi mid
        else
          if mid - lo < searchEpsilon then bestQty
          else searchLoop net minNetSpreadBps iterations lo mid bestQty

def maxArbQuantity (buyBook sellBook : OrderBookSnapshot) (minNetSpreadBps totalFeeRate : ℚ) : ℚ :=
  match buyBook.asks, sellBook.bids with
  | topAsk :: asks, topBid :: bids =>
    if topAsk.price ≤ 0 then 0
    else
      let grossBps := (topBid.price - topAsk.price) / topAsk.price * 10000
      if grossBps - totalFeeRate * 10000 < minNetSpreadBps then 0
      else
        let totalAskQty := ((topAsk :: asks).map PriceLevel.quantity).sum
        let totalBidQty := ((topBid :: bids).map PriceLevel.quantity).sum
        let maxQty := min totalAskQty totalBidQty
        if maxQty ≤ 0 then 0
        else searchLoop (netSpreadAt buyBook sellBook totalFeeRate) minNetSpreadBps 50 0 maxQty 0
  | _, _ => 0

/-- The loop ends on its starting value or on a quantity that nets enough. -/
theorem searchLoop_spec (net : ℚ → Option ℚ) (minNetSpreadBps : ℚ) (iterations : ℕ)
    (lo hi bestQty : ℚ) :
    searchLoop net minNetSpreadBps iterations lo hi bestQty = bestQty ∨
      ∃ bps, net (searchLoop net minNetSpreadBps iterations lo hi bestQty) = some bps ∧
        minNetSpreadBps ≤ bps := by
  induction iterations generalizing lo hi bestQty with
  | zero => exact .inl rfl
  | succ iterations ih =>
    rw [searchLoop]
    split
    · exact .inl rfl
    · split
      · exact ih lo _ bestQty
      next bps hnet =>
        split
        next henough =>
          split
          · exact .inr ⟨bps, hnet, henough⟩
          · rcases ih ((lo + hi) / 2) hi ((lo + hi) / 2) with hsame | hfound
            · rw [hsame]
              exact .inr ⟨bps, hnet, henough⟩
            · exact .inr hfound
        next =>
          split
          · exact .inl rfl
          · exact ih lo _ bestQty

theorem maxArbQuantity_spec (buyBook sellBook : OrderBookSnapshot)
    (minNetSpreadBps totalFeeRate : ℚ) :
    let maxQty := maxArbQuantity buyBook sellBook minNetSpreadBps totalFeeRate
    maxQty = 0 ∨ ∃ bps, netSpreadAt buyBook sellBook totalFeeRate maxQty = some bps ∧
      minNetSpreadBps ≤ bps := by
  intro maxQty
  show maxArbQuantity buyBook sellBook minNetSpreadBps totalFeeRate = 0 ∨ _
  unfold maxQty maxArbQuantity
  split
  · split
    · exact .inl rfl
    · dsimp only
      split
      · exact .inl rfl
      · split
        · exact .inl rfl
        · exact searchLoop_spec ..
  · exact .inl rfl

end DepthAnalyzer

/-! ### Bounds -/

def PositiveLevels (levels : List PriceLevel) : Prop :=
  ∀ level ∈ levels, 0 < level.price ∧ 0 < level.quantity

instance (levels : List PriceLevel) : Decidable (PositiveLevels levels) :=
  inferInstanceAs (Decidable (∀ level ∈ levels, _))

theorem PositiveLevels.sized {levels : List PriceLevel} (h : PositiveLevels levels) :
    PricedLots.Sized PriceLevel.quantity levels := fun level hlevel => (h level hlevel).2

theorem PositiveLevels.priced {levels : List PriceLevel} (h : PositiveLevels levels) :
    ∀ level ∈ levels, 0 < level.price := fun level hlevel => (h level hlevel).1

def OrderBookSnapshot.Positive (book : OrderBookSnapshot) : Prop :=
  PositiveLevels book.asks ∧ PositiveLevels book.bids

namespace DepthAnalyzer

theorem walk_bounds {levels : List PriceLevel} (h : PositiveLevels levels) (totalCost : ℚ)
    {remaining : ℚ} (hremaining : 0 ≤ remaining) :
    0 ≤ (walk remaining totalCost levels).1 ∧ (walk remaining totalCost levels).1 ≤ remaining := by
  induction levels generalizing remaining totalCost with
  | nil => exact ⟨hremaining, le_rfl⟩
  | cons level levels ih =>
    unfold walk
    split
    · exact ⟨hremaining, le_rfl⟩
    · have hquantity : 0 < level.quantity := (h level (List.mem_cons_self ..)).2
      have hfill : 0 ≤ min remaining level.quantity := le_min hremaining hquantity.le
      have hleft : 0 ≤ remaining - min remaining level.quantity :=
        sub_nonneg.mpr (min_le_left _ _)
      obtain ⟨hlow, hhigh⟩ := ih (fun l hl => h l (List.mem_cons_of_mem _ hl)) _ hleft
      exact ⟨hlow, hhigh.trans (sub_le_self _ hfill)⟩

theorem walk_totalCost_nonneg {levels : List PriceLevel} (h : PositiveLevels levels)
    {remaining totalCost : ℚ} (hcost : 0 ≤ totalCost) :
    0 ≤ (walk remaining totalCost levels).2 := by
  induction levels generalizing remaining totalCost with
  | nil => exact hcost
  | cons level levels ih =>
    unfold walk
    split
    · exact hcost
    next hremaining =>
      obtain ⟨hprice, hquantity⟩ := h level (List.mem_cons_self ..)
      have hfill : 0 ≤ min remaining level.quantity :=
        le_min (not_le.mp hremaining).le hquantity.le
      exact ih (fun l hl => h l (List.mem_cons_of_mem _ hl))
        (add_nonneg hcost (mul_nonneg hfill hprice.le))

theorem effectivePrice_avgPrice_nonneg {levels : List PriceLevel} (h : PositiveLevels levels)
    (slippage : ℚ → ℚ → ℚ) (quantity : ℚ) :
    0 ≤ (effectivePrice slippage quantity levels).avgPrice := by
  cases levels with
  | nil => exact le_rfl
  | cons top levels =>
    simp only [effectivePrice]
    split
    · exact le_rfl
    · dsimp only
      split
      next hfilled => exact div_nonneg (walk_totalCost_nonneg h le_rfl) hfilled.le
      next => exact le_rfl

/-! ### How deep a side is -/

abbrev depth (levels : List PriceLevel) : ℚ := PricedLots.depth PriceLevel.quantity levels

theorem depth_cons (level : PriceLevel) (levels : List PriceLevel) :
    depth (level :: levels) = level.quantity + depth levels :=
  PricedLots.depth_cons level levels

/-- Some of the first levels together hold the quantity. -/
def Reaches (quantity : ℚ) : List PriceLevel → Prop
  | [] => quantity ≤ 0
  | level :: levels => quantity ≤ 0 ∨ Reaches (quantity - level.quantity) levels

instance decidableReaches : (quantity : ℚ) → (levels : List PriceLevel) →
    Decidable (Reaches quantity levels)
  | quantity, [] => inferInstanceAs (Decidable (quantity ≤ 0))
  | quantity, level :: levels =>
    have := decidableReaches (quantity - level.quantity) levels
    inferInstanceAs (Decidable (quantity ≤ 0 ∨ Reaches (quantity - level.quantity) levels))

theorem reaches_of_nonpos {quantity : ℚ} (h : quantity ≤ 0) (levels : List PriceLevel) :
    Reaches quantity levels := by
  cases levels with
  | nil => exact h
  | cons level levels => exact .inl h

theorem depth_lt_of_not_reaches {levels : List PriceLevel} {quantity : ℚ}
    (h : ¬ Reaches quantity levels) : depth levels < quantity := by
  induction levels generalizing quantity with
  | nil => exact not_le.mp h
  | cons level levels ih =>
    have hrest := ih (not_or.mp h).2
    rw [depth_cons]
    linarith

/-- The walk fills the quantity when the side reaches it and else the whole side. -/
theorem walk_remaining (levels : List PriceLevel) {remaining : ℚ} (totalCost : ℚ)
    (hremaining : 0 < remaining) :
    (walk remaining totalCost levels).1 =
      if Reaches remaining levels then 0 else remaining - depth levels := by
  induction levels generalizing remaining totalCost with
  | nil =>
    have hreach : ¬ Reaches remaining [] := hremaining.not_ge
    rw [if_neg hreach]
    simp [walk, depth, PricedLots.depth]
  | cons level levels ih =>
    rw [walk, if_neg hremaining.not_ge]
    dsimp only
    rcases le_or_gt remaining level.quantity with hlevel | hlevel
    · have hreach : Reaches remaining (level :: levels) :=
        .inr (reaches_of_nonpos (sub_nonpos.mpr hlevel) levels)
      rw [if_pos hreach, min_eq_left hlevel, sub_self]
      cases levels with
      | nil => rfl
      | cons next levels => rw [walk, if_pos le_rfl]
    · have hleft : 0 < remaining - level.quantity := sub_pos.mpr hlevel
      have hreach : Reaches remaining (level :: levels) ↔
          Reaches (remaining - level.quantity) levels :=
        or_iff_right hremaining.not_ge
      rw [min_eq_right hlevel.le, ih _ hleft, depth_cons]
      simp only [hreach]
      split
      · rfl
      · ring

theorem fullyFillable_iff {levels : List PriceLevel} {quantity : ℚ} (hquantity : 0 < quantity)
    (slippage : ℚ → ℚ → ℚ) :
    (effectivePrice slippage quantity levels).fullyFillable = true ↔ Reaches quantity levels := by
  cases levels with
  | nil =>
    have hreach : ¬ Reaches quantity [] := hquantity.not_ge
    simp [effectivePrice, hreach]
  | cons top levels =>
    simp only [effectivePrice, if_neg hquantity.not_ge, decide_eq_true_eq, walk_remaining _ _ hquantity]
    split
    next hreach => exact ⟨fun _ => hreach, fun _ => le_rfl⟩
    next hreach =>
      have hdepth := depth_lt_of_not_reaches hreach
      exact ⟨fun h => absurd h (by linarith), fun h => absurd h hreach⟩

theorem quantityFilled_eq (levels : List PriceLevel) {quantity : ℚ} (hquantity : 0 < quantity)
    (slippage : ℚ → ℚ → ℚ) :
    (effectivePrice slippage quantity levels).quantityFilled =
      if Reaches quantity levels then quantity else depth levels := by
  cases levels with
  | nil =>
    have hreach : ¬ Reaches quantity [] := hquantity.not_ge
    rw [if_neg hreach]
    rfl
  | cons top levels =>
    simp only [effectivePrice, if_neg hquantity.not_ge, walk_remaining _ _ hquantity]
    split <;> ring

theorem reaches_iff_le_depth {levels : List PriceLevel} (h : PositiveLevels levels) (quantity : ℚ) :
    Reaches quantity levels ↔ quantity ≤ depth levels := by
  induction levels generalizing quantity with
  | nil => rfl
  | cons level levels ih =>
    have hquantity : 0 < level.quantity := (h level (List.mem_cons_self ..)).2
    have hrest : PositiveLevels levels := fun l hl => h l (List.mem_cons_of_mem _ hl)
    have hdepth : 0 ≤ depth levels := PricedLots.depth_nonneg hrest.sized
    rw [Reaches, ih hrest, depth_cons]
    constructor
    · intro hreach
      rcases hreach with hneg | hmore
      · linarith
      · linarith
    · intro hle
      exact .inr (by linarith)

theorem fullyFillable_iff_le_depth {levels : List PriceLevel} (h : PositiveLevels levels)
    {quantity : ℚ} (hquantity : 0 < quantity) (slippage : ℚ → ℚ → ℚ) :
    (effectivePrice slippage quantity levels).fullyFillable = true ↔ quantity ≤ depth levels :=
  (fullyFillable_iff hquantity slippage).trans (reaches_iff_le_depth h quantity)

theorem walk_totalCost (levels : List PriceLevel) {remaining : ℚ} (totalCost : ℚ)
    (hremaining : 0 < remaining) :
    (walk remaining totalCost levels).2 =
      totalCost + PricedLots.cost PriceLevel.price PriceLevel.quantity remaining levels := by
  induction levels generalizing remaining totalCost with
  | nil => simp [walk, PricedLots.cost]
  | cons level levels ih =>
    rw [walk, if_neg hremaining.not_ge, PricedLots.cost]
    dsimp only
    split
    next hlevel =>
      rw [min_eq_left hlevel, sub_self]
      cases levels with
      | nil => rfl
      | cons next levels => rw [walk, if_pos le_rfl]
    next hlevel =>
      have hmore : level.quantity < remaining := not_le.mp hlevel
      rw [min_eq_right hmore.le, ih _ (sub_pos.mpr hmore), add_assoc]

/-- The volume-weighted price of the first `quantity` units. -/
def vwap (quantity : ℚ) (levels : List PriceLevel) : ℚ :=
  PricedLots.cost PriceLevel.price PriceLevel.quantity quantity levels / quantity

theorem pos_of_fullyFillable {levels : List PriceLevel} {quantity : ℚ} {slippage : ℚ → ℚ → ℚ}
    (h : (effectivePrice slippage quantity levels).fullyFillable = true) : 0 < quantity := by
  cases levels with
  | nil => cases h
  | cons top levels =>
    rcases le_or_gt quantity 0 with hquantity | hquantity
    · rw [effectivePrice, if_pos hquantity] at h
      cases h
    · exact hquantity

theorem le_depth_of_fullyFillable {levels : List PriceLevel} (h : PositiveLevels levels)
    {quantity : ℚ} {slippage : ℚ → ℚ → ℚ}
    (hfill : (effectivePrice slippage quantity levels).fullyFillable = true) :
    quantity ≤ depth levels :=
  (fullyFillable_iff_le_depth h (pos_of_fullyFillable hfill) slippage).mp hfill

theorem avgPrice_eq {levels : List PriceLevel} {quantity : ℚ} (slippage : ℚ → ℚ → ℚ)
    (h : (effectivePrice slippage quantity levels).fullyFillable = true) :
    (effectivePrice slippage quantity levels).avgPrice = vwap quantity levels := by
  have hpos : 0 < quantity := pos_of_fullyFillable h
  cases levels with
  | nil => cases h
  | cons top levels =>
    have hreach := (fullyFillable_iff hpos slippage).mp h
    simp only [effectivePrice, if_neg hpos.not_ge, walk_remaining _ _ hpos, walk_totalCost _ _ hpos,
      if_pos hreach, sub_zero, if_pos hpos, zero_add, vwap]

structure Bounded (quantity : ℚ) (effective : EffectivePrice) : Prop where
  quantityFilled : 0 ≤ effective.quantityFilled
  filled_le : effective.quantityFilled ≤ max quantity 0
  fillable : effective.fullyFillable = true → 0 < quantity

theorem effectivePrice_bounded {levels : List PriceLevel} (h : PositiveLevels levels)
    (slippage : ℚ → ℚ → ℚ) (quantity : ℚ) :
    Bounded quantity (effectivePrice slippage quantity levels) := by
  cases levels with
  | nil => exact ⟨le_rfl, le_max_right _ _, fun hf => by cases hf⟩
  | cons top levels =>
    simp only [effectivePrice]
    split
    · exact ⟨le_rfl, le_max_right _ _, fun hf => by cases hf⟩
    next hquantity =>
      have hpos : 0 < quantity := not_le.mp hquantity
      obtain ⟨hlow, hhigh⟩ := walk_bounds h 0 hpos.le
      exact ⟨sub_nonneg.mpr hhigh, le_max_of_le_left (sub_le_self _ hlow), fun _ => hpos⟩

end DepthAnalyzer

end CryptoArbBot
