import CryptoArbBot.Backtest.SimulatedOrders
import CryptoArbBot.OrderBook.OptimalFills

/-!
# Simulated fills and effective prices

An order that its balance covers is filled as the depth analyser fills its
quantity on the levels before the first one beyond the limit. On a sorted side
these are all the levels within the limit.
-/

namespace CryptoArbBot.SimulatedExchange
open DepthAnalyzer (effectivePrice effectiveBuyPrice effectiveSellPrice)
open PricedLots (Ascending Descending)

/-! ### One side of the book -/

def Walk.within (walk : Walk) : List PriceLevel := walk.levels.takeWhile fun level => !walk.beyond level

/-- What the quantity costs on the levels before the first one beyond the limit, or all
of these when they hold less. -/
def Walk.cost (walk : Walk) (quantity : ℚ) : ℚ :=
  PricedLots.cost PriceLevel.price PriceLevel.quantity quantity walk.within

def SufficientBalance (sim : SimulatedExchange) (req : OrderRequest) : Prop :=
  match req.side with
  | .buy => req.price * req.quantity ≤ sim.balances (quoteAsset req.pair)
  | .sell => req.quantity ≤ sim.balances (baseAsset req.pair)

theorem sufficientBalance_iff (sim : SimulatedExchange) (req : OrderRequest) (now : TimePoint) :
    sim.SufficientBalance req ↔ (sim.walk req now).needed ≤ sim.balances (sim.walk req now).paidIn := by
  unfold SufficientBalance walk
  cases req.side with
  | buy => rfl
  | sell => rfl

theorem Walk.within_positive {walk : Walk} (h : PositiveLevels walk.levels) :
    PositiveLevels walk.within :=
  fun level hlevel => h level ((List.takeWhile_sublist _).subset hlevel)

theorem fill_eq_effective (walk : Walk) {quantity : ℚ} (hquantity : 0 < quantity)
    (slippage : ℚ → ℚ → ℚ) :
    walk.fill quantity = ((effectivePrice slippage quantity walk.within).quantityFilled,
      (effectivePrice slippage quantity walk.within).totalCost) := by
  have hfill := fillLoop_walk walk.beyond hquantity 0 walk.levels
  rw [sub_zero] at hfill
  unfold Walk.fill Walk.within
  rw [hfill]
  cases walk.levels.takeWhile fun level => !walk.beyond level with
  | nil => simp [DepthAnalyzer.walk, effectivePrice]
  | cons top levels => simp only [effectivePrice, if_neg hquantity.not_ge]

/-- An order that is not turned away is filled or rests. -/
theorem place_served (sim : SimulatedExchange) (req : OrderRequest) (orderId : String) (walk : Walk)
    (hlevels : walk.levels ≠ []) (hbalance : walk.needed ≤ sim.balances walk.paidIn) :
    sim.place req orderId walk =
      if (walk.fill req.quantity).1 > 0 then
        (filledResult orderId req.quantity sim.takerFee (walk.fill req.quantity), { sim with
          balances :=
            adjust (adjust sim.balances (baseAsset req.pair) (walk.base (walk.fill req.quantity)))
              (quoteAsset req.pair) (walk.quote (walk.fill req.quantity)) })
      else ({ exchangeOrderId := orderId, status := .opened }, sim) := by
  have hsome : ¬ walk.levels.isEmpty = true := by
    rw [List.isEmpty_iff]
    exact hlevels
  rw [place, if_neg hsome, if_neg hbalance.not_gt]

/-- The result of an order against the effective price of its quantity on the levels
within its limit. -/
structure WalkersAgree (quantity : ℚ) (levels : List PriceLevel) (effective : EffectivePrice)
    (result : OrderResult) : Prop where
  filledQuantity : result.filledQuantity = effective.quantityFilled
  avgFillPrice : 0 < effective.quantityFilled → result.avgFillPrice = effective.avgPrice
  filled : result.status = .filled ↔ effective.fullyFillable = true
  partiallyFilled : result.status = .partiallyFilled ↔
    0 < result.filledQuantity ∧ result.filledQuantity < quantity
  opened : result.status = .opened ↔ levels = []

section Served
variable {walk : Walk} {quantity : ℚ}

theorem Walk.fill_pos_iff (h : PositiveLevels walk.levels) (hquantity : 0 < quantity) :
    (walk.fill quantity).1 > 0 ↔ walk.within ≠ [] := by
  have hpositive := Walk.within_positive h
  rw [fill_eq_effective walk hquantity fun _ _ => 0,
    DepthAnalyzer.quantityFilled_eq_min _ hpositive hquantity]
  constructor
  · intro hfilled hnone
    rw [hnone] at hfilled
    exact absurd (hfilled.trans_le (min_le_right _ _)) (lt_irrefl 0)
  · intro hsome
    refine lt_min hquantity ?_
    cases hlevels : walk.within with
    | nil => exact absurd hlevels hsome
    | cons level levels =>
      rw [hlevels] at hpositive
      rw [DepthAnalyzer.depth_cons]
      exact add_pos_of_pos_of_nonneg (hpositive level (List.mem_cons_self ..)).2
        (PricedLots.depth_nonneg fun l hl => (hpositive l (List.mem_cons_of_mem _ hl)).2)

theorem fill_eq_cost (h : PositiveLevels walk.levels) {quantity : ℚ} (hquantity : 0 < quantity) :
    walk.fill quantity = (min quantity (DepthAnalyzer.depth walk.within), walk.cost quantity) := by
  have hpositive := Walk.within_positive h
  rw [fill_eq_effective walk hquantity fun _ _ => 0,
    DepthAnalyzer.quantityFilled_eq_min _ hpositive hquantity,
    DepthAnalyzer.totalCost_eq _ hpositive hquantity, PricedLots.cost_min_depth hpositive.sized,
    Walk.cost]

theorem place_walkersAgree (sim : SimulatedExchange) (req : OrderRequest) (orderId : String)
    (h : PositiveLevels walk.levels) (hlevels : walk.levels ≠ []) (hquantity : 0 < req.quantity)
    (hbalance : walk.needed ≤ sim.balances walk.paidIn) (slippage : ℚ → ℚ → ℚ) :
    WalkersAgree req.quantity walk.within (effectivePrice slippage req.quantity walk.within)
      (sim.place req orderId walk).1 := by
  have hpositive := Walk.within_positive h
  have hfilled := DepthAnalyzer.quantityFilled_eq_min slippage hpositive hquantity
  have hcost := DepthAnalyzer.avgPrice_mul_quantityFilled slippage hpositive hquantity
  have hfull : (effectivePrice slippage req.quantity walk.within).fullyFillable = true ↔
      req.quantity ≤ (effectivePrice slippage req.quantity walk.within).quantityFilled := by
    rw [DepthAnalyzer.fullyFillable_iff_le_depth hpositive hquantity, hfilled]
    exact ⟨fun hle => le_min le_rfl hle, fun hle => hle.trans (min_le_right _ _)⟩
  have hsome := Walk.fill_pos_iff h hquantity
  have hfill := fill_eq_effective walk hquantity slippage
  rw [place_served sim req orderId walk hlevels hbalance]
  rw [hfill] at hsome ⊢
  by_cases hpos : (effectivePrice slippage req.quantity walk.within).quantityFilled > 0
  · rw [if_pos hpos]
    refine ⟨rfl, fun _ => ?_, ?_, ?_, ?_⟩
    · exact (eq_div_of_mul_eq hpos.ne' hcost).symm
    · rw [hfull]
      dsimp only [filledResult]
      split
      next hall => exact iff_of_true rfl hall
      next hpart => exact iff_of_false (by simp) hpart
    · dsimp only [filledResult]
      split
      next hall => exact iff_of_false (by simp) fun hpart => hpart.2.not_ge hall
      next hpart => exact iff_of_true rfl ⟨hpos, not_le.mp hpart⟩
    · refine iff_of_false ?_ (hsome.mp hpos)
      dsimp only [filledResult]
      split <;> simp
  · rw [if_neg hpos]
    have hzero : (effectivePrice slippage req.quantity walk.within).quantityFilled = 0 :=
      le_antisymm (not_lt.mp hpos) (hfilled.ge.trans' (DepthAnalyzer.filled_bounds hpositive hquantity).1)
    refine ⟨hzero.symm, fun hfalse => absurd hfalse hpos, ?_, ?_, ?_⟩
    · rw [hfull, hzero]
      exact iff_of_false (by simp) hquantity.not_ge
    · exact iff_of_false (by simp) fun hpart => absurd hpart.1 (lt_irrefl 0)
    · exact iff_of_true rfl (not_not.mp fun hnone => hpos (hsome.mpr hnone))

end Served

/-! ### Sorted books -/

/-- The book without the levels beyond the limit of an order. -/
def bookWithin (req : OrderRequest) (book : OrderBookSnapshot) : OrderBookSnapshot :=
  { book with
    asks := book.asks.filter fun ask => decide (ask.price ≤ req.price)
    bids := book.bids.filter fun bid => decide (req.price ≤ bid.price) }

def sideTaken (side : Side) (book : OrderBookSnapshot) : List PriceLevel :=
  match side with
  | .buy => book.asks
  | .sell => book.bids

def effectiveFor (side : Side) (book : OrderBookSnapshot) (quantity : ℚ) : EffectivePrice :=
  match side with
  | .buy => effectiveBuyPrice book quantity
  | .sell => effectiveSellPrice book quantity

section Sorted
variable {sim : SimulatedExchange} {req : OrderRequest} {now : TimePoint}

theorem buyWalk_within (h : Ascending PriceLevel.price (sim.currentBook req.pair now).asks) :
    (sim.buyWalk req now).within = (bookWithin req (sim.currentBook req.pair now)).asks := by
  unfold Walk.within buyWalk bookWithin
  dsimp only
  rw [takeWhile_eq_filter]
  · exact List.filter_congr fun ask _ => by simp [← decide_not]
  · refine h.imp ?_
    intro a b hab hb
    simp only [Bool.not_eq_true', decide_eq_false_iff_not, not_lt, gt_iff_lt] at hb ⊢
    exact hab.trans hb

theorem sellWalk_within (h : Descending PriceLevel.price (sim.currentBook req.pair now).bids) :
    (sim.sellWalk req now).within = (bookWithin req (sim.currentBook req.pair now)).bids := by
  unfold Walk.within sellWalk bookWithin
  dsimp only
  rw [takeWhile_eq_filter]
  · exact List.filter_congr fun bid _ => by simp [← decide_not]
  · refine h.imp ?_
    intro a b hab hb
    simp only [Bool.not_eq_true', decide_eq_false_iff_not, not_lt] at hb ⊢
    exact hb.trans hab

/-- On a sorted book the order is filled as the effective price of its quantity on the
levels within the limit says. -/
theorem walkers_agree (hasks : Ascending PriceLevel.price (sim.currentBook req.pair now).asks)
    (hbids : Descending PriceLevel.price (sim.currentBook req.pair now).bids)
    (hpositive : (sim.currentBook req.pair now).Positive)
    (hlevels : sideTaken req.side (sim.currentBook req.pair now) ≠ []) (hquantity : 0 < req.quantity)
    (hbalance : sim.SufficientBalance req) (uuid : String) :
    let within := bookWithin req (sim.currentBook req.pair now)
    WalkersAgree req.quantity (sideTaken req.side within) (effectiveFor req.side within req.quantity)
      (sim.placeLimitOrder req uuid now).1 := by
  intro within
  rw [sufficientBalance_iff sim req now] at hbalance
  rw [placeLimitOrder_eq]
  unfold walk at hbalance ⊢
  unfold sideTaken at hlevels ⊢
  unfold effectiveFor
  cases hside : req.side with
  | buy =>
    rw [hside] at hbalance hlevels
    have hwalk : PositiveLevels (sim.buyWalk req now).levels := hpositive.1
    have hagree := place_walkersAgree sim req ("SIM-" ++ uuid) hwalk hlevels hquantity hbalance
      fun avg top => (avg - top) / top
    rw [buyWalk_within hasks] at hagree
    exact hagree
  | sell =>
    rw [hside] at hbalance hlevels
    have hwalk : PositiveLevels (sim.sellWalk req now).levels := hpositive.2
    have hagree := place_walkersAgree sim req ("SIM-" ++ uuid) hwalk hlevels hquantity hbalance
      fun avg top => (top - avg) / top
    rw [sellWalk_within hbids] at hagree
    exact hagree

end Sorted

/-- One row of two levels a side. -/
def twoLevelRow : HistoricalSnapshot where
  exchange := .binance
  pair := "BTC-USDT"
  bids := [⟨99, 1⟩, ⟨98, 2⟩]
  asks := [⟨100, 1⟩, ⟨101, 2⟩]

def twoLevelExchange : SimulatedExchange where
  exchId := .binance
  name := "BINANCE"
  balances := adjust (fun _ => 0) "USDT" 1000
  makerFee := 0
  takerFee := 1 / 1000
  snapshotsByPair := fun _ => [twoLevelRow]

def twoLevelBuy : OrderRequest where
  exchange := .binance
  pair := "BTC-USDT"
  side := .buy
  price := 101
  quantity := 2
  clientOrderId := ""

theorem twoLevelBuy_agrees :
    let within := bookWithin twoLevelBuy (twoLevelExchange.currentBook twoLevelBuy.pair 0)
    WalkersAgree twoLevelBuy.quantity (sideTaken twoLevelBuy.side within)
      (effectiveFor twoLevelBuy.side within twoLevelBuy.quantity)
      (twoLevelExchange.placeLimitOrder twoLevelBuy "1" 0).1 := by
  have hbook : twoLevelExchange.currentBook twoLevelBuy.pair 0 =
      { exchange := .binance, pair := "BTC-USDT", bids := [⟨99, 1⟩, ⟨98, 2⟩]
        asks := [⟨100, 1⟩, ⟨101, 2⟩] } := rfl
  refine walkers_agree ?_ ?_ ?_ ?_ (by norm_num [twoLevelBuy]) ?_ "1"
  · norm_num [hbook, Ascending]
  · norm_num [hbook, Descending]
  · norm_num [hbook, OrderBookSnapshot.Positive, PositiveLevels]
  · rw [hbook]
    exact List.cons_ne_nil _ _
  · show (101 * 2 : ℚ) ≤ twoLevelExchange.balances (quoteAsset "BTC-USDT")
    decide +kernel

end CryptoArbBot.SimulatedExchange
