import CryptoArbBot.Backtest.WalkersAgree

/-!
# Price priority on rows in stored order

The fill loop takes the levels as the row stores them and stops at the first one
beyond the limit. It trades the most at the best total exactly when the levels
before that one suffice and no level it reaches is worse than one it leaves.
-/

namespace CryptoArbBot.SimulatedExchange
open DepthAnalyzer (depth totals)

/-- A lower price is better for a buyer, a higher one for a seller. -/
def BestTotal : Side → Set ℚ → ℚ → Prop
  | .buy => IsLeast
  | .sell => IsGreatest

def rank (side : Side) (level : PriceLevel) : ℚ :=
  match side with
  | .buy => level.price
  | .sell => -level.price

/-- The most of the quantity that the levels hold was traded, at the best total. -/
structure FilledBest (side : Side) (quantity : ℚ) (levels : List PriceLevel) (result : OrderResult) :
    Prop where
  filledQuantity : result.filledQuantity = min (max quantity 0) (depth levels)
  total : BestTotal side (totals result.filledQuantity levels)
    (result.filledQuantity * result.avgFillPrice)

def beyondLimit (req : OrderRequest) (level : PriceLevel) : Bool :=
  match req.side with
  | .buy => decide (level.price > req.price)
  | .sell => decide (level.price < req.price)

/-- The levels before the first one beyond the limit hold the quantity or are all that is
within the limit, and the order reaches no level worse than one it does not use up. -/
def PricePriority (req : OrderRequest) (levels : List PriceLevel) : Prop :=
  (req.quantity ≤ depth (levels.takeWhile fun level => !beyondLimit req level) ∨
      ∀ level ∈ levels.dropWhile fun level => !beyondLimit req level, beyondLimit req level = true) ∧
    PricedLots.BestFirst (rank req.side) PriceLevel.quantity req.quantity
      (levels.filter fun level => !beyondLimit req level)

instance (req : OrderRequest) (levels : List PriceLevel) : Decidable (PricePriority req levels) := by
  unfold PricePriority PricedLots.BestFirst
  infer_instance

/-! ### The levels within the limit -/

theorem bestTotal_iff (side : Side) {levels : List PriceLevel} (h : PositiveLevels levels) {quantity : ℚ}
    (hlow : 0 ≤ quantity) (hhigh : quantity ≤ depth levels) :
    BestTotal side (totals quantity levels)
        (PricedLots.cost PriceLevel.price PriceLevel.quantity quantity levels) ↔
      PricedLots.BestFirst (rank side) PriceLevel.quantity quantity levels := by
  cases side with
  | buy => exact PricedLots.cost_isLeast_iff h.sized hlow hhigh
  | sell => exact PricedLots.cost_isGreatest_iff h.sized hlow hhigh

theorem depth_append (front back : List PriceLevel) : depth (front ++ back) = depth front + depth back := by
  simp [depth, PricedLots.depth]

/-- What stands behind the levels walked adds nothing exactly when these suffice or there
is nothing. -/
theorem min_depth_eq_iff {front back : List PriceLevel} (h : PositiveLevels back) (quantity : ℚ) :
    min quantity (depth front) = min quantity (depth (front ++ back)) ↔
      quantity ≤ depth front ∨ back = [] := by
  rw [depth_append]
  constructor
  · intro hsame
    rcases le_or_gt quantity (depth front) with hle | hgt
    · exact .inl hle
    · cases back with
      | nil => exact .inr rfl
      | cons level levels =>
        have hlevel : 0 < level.quantity := (h level (List.mem_cons_self ..)).2
        have hrest : 0 ≤ depth levels :=
          PricedLots.depth_nonneg fun l hl => (h l (List.mem_cons_of_mem _ hl)).2
        rw [min_eq_right hgt.le, DepthAnalyzer.depth_cons] at hsame
        have hmore : depth front < min quantity (depth front + (level.quantity + depth levels)) :=
          lt_min hgt (by linarith)
        exact absurd hsame hmore.ne
  · intro hcases
    rcases hcases with hle | hnone
    · have hback := PricedLots.depth_nonneg h.sized
      rw [min_eq_left hle, min_eq_left (hle.trans (le_add_of_nonneg_right hback))]
    · have hempty : depth [] = 0 := rfl
      rw [hnone, hempty, add_zero]

theorem bestFirst_max_zero (price : PriceLevel → ℚ) (quantity : ℚ) (levels : List PriceLevel) :
    PricedLots.BestFirst price PriceLevel.quantity (max quantity 0) levels ↔
      PricedLots.BestFirst price PriceLevel.quantity quantity levels := by
  rcases le_total quantity 0 with hnonpos | hnonneg
  · unfold PricedLots.BestFirst
    rw [max_eq_right hnonpos, PricedLots.reached_of_nonpos le_rfl, PricedLots.reached_of_nonpos hnonpos]
    exact iff_of_true (fun _ ha => absurd ha List.not_mem_nil) fun _ ha => absurd ha List.not_mem_nil
  · rw [max_eq_left hnonneg]

theorem front_best_iff (side : Side) {front back : List PriceLevel} (h : PositiveLevels (front ++ back))
    (quantity : ℚ) :
    (min (max quantity 0) (depth front) = min (max quantity 0) (depth (front ++ back)) ∧
        BestTotal side (totals (min (max quantity 0) (depth front)) (front ++ back))
          (PricedLots.cost PriceLevel.price PriceLevel.quantity (max quantity 0) front)) ↔
      (quantity ≤ depth front ∨ back = []) ∧
        PricedLots.BestFirst (rank side) PriceLevel.quantity quantity (front ++ back) := by
  have hfront : PositiveLevels front := fun l hl => h l (List.mem_append_left _ hl)
  have hback : PositiveLevels back := fun l hl => h l (List.mem_append_right _ hl)
  have hdepth : 0 ≤ depth front := PricedLots.depth_nonneg hfront.sized
  have hall : 0 ≤ depth (front ++ back) := PricedLots.depth_nonneg h.sized
  have hsuffices : max quantity 0 ≤ depth front ↔ quantity ≤ depth front :=
    max_le_iff.trans (and_iff_left hdepth)
  rw [min_depth_eq_iff hback, hsuffices]
  refine and_congr_right fun hcases => ?_
  have hsame := (min_depth_eq_iff hback (max quantity 0)).mpr (hcases.imp_left hsuffices.mpr)
  have hcost : PricedLots.cost PriceLevel.price PriceLevel.quantity (max quantity 0) front =
      PricedLots.cost PriceLevel.price PriceLevel.quantity (min (max quantity 0) (depth (front ++ back)))
        (front ++ back) := by
    rcases hcases with hle | hnone
    · rw [PricedLots.cost_min_depth h.sized,
        PricedLots.cost_append back h.sized (le_max_right _ _) (hsuffices.mpr hle)]
    · rw [PricedLots.cost_min_depth h.sized, hnone, List.append_nil]
  rw [hsame, hcost, bestTotal_iff side h (le_min (le_max_right _ _) hall) (min_le_right _ _),
    PricedLots.bestFirst_min_depth h.sized, bestFirst_max_zero]

/-! ### An order -/

theorem idle_totals {quantity : ℚ} {walk : Walk} (h : PositiveLevels walk.within)
    (hcases : max quantity 0 = 0 ∨ walk.within = []) :
    0 = min (max quantity 0) (depth walk.within) ∧ 0 = walk.cost (max quantity 0) := by
  have hdepth : 0 ≤ depth walk.within := PricedLots.depth_nonneg h.sized
  rw [Walk.cost]
  rcases hcases with hquantity | hnone
  · rw [hquantity, min_eq_left hdepth, PricedLots.cost_zero h.sized]
    exact ⟨rfl, rfl⟩
  · rw [hnone]
    exact ⟨(min_eq_right (le_max_right _ _)).symm, rfl⟩

theorem place_totals (sim : SimulatedExchange) (req : OrderRequest) (orderId : String) {walk : Walk}
    (h : PositiveLevels walk.levels) (hbalance : walk.needed ≤ sim.balances walk.paidIn) :
    let result := (sim.place req orderId walk).1
    result.filledQuantity = min (max req.quantity 0) (depth walk.within) ∧
      result.filledQuantity * result.avgFillPrice = walk.cost (max req.quantity 0) := by
  intro result
  have hpositive := Walk.within_positive h
  have hidle : result.filledQuantity = 0 → max req.quantity 0 = 0 ∨ walk.within = [] →
      result.filledQuantity = min (max req.quantity 0) (depth walk.within) ∧
        result.filledQuantity * result.avgFillPrice = walk.cost (max req.quantity 0) := by
    intro hzero hcases
    rw [hzero, zero_mul]
    exact idle_totals hpositive hcases
  by_cases hlevels : walk.levels = []
  · have hzero : result.filledQuantity = 0 := by
      unfold result place
      rw [hlevels]
      rfl
    refine hidle hzero (.inr ?_)
    rw [Walk.within, hlevels, List.takeWhile_nil]
  · by_cases hpos : (walk.fill req.quantity).1 > 0
    · have hquantity : 0 < req.quantity := by
        by_contra hnonpos
        have hle := fillLoop_le walk.beyond req.quantity 0 0 walk.levels
        rw [max_eq_right (not_lt.mp hnonpos)] at hle
        exact hpos.not_ge hle
      have hresult : result = filledResult orderId req.quantity sim.takerFee (walk.fill req.quantity) := by
        unfold result
        rw [place_served sim req orderId walk hlevels hbalance, if_pos hpos]
      rw [fill_eq_cost h hquantity] at hpos hresult
      rw [hresult, max_eq_left hquantity.le]
      exact ⟨rfl, mul_div_cancel₀ _ hpos.ne'⟩
    · have hzero : result.filledQuantity = 0 := by
        unfold result
        rw [place_served sim req orderId walk hlevels hbalance, if_neg hpos]
      refine hidle hzero ?_
      rcases le_or_gt req.quantity 0 with hnonpos | hquantity
      · exact .inl (max_eq_right hnonpos)
      · by_contra hsome
        exact hpos ((Walk.fill_pos_iff h hquantity).mpr (not_or.mp hsome).2)

theorem place_best_iff (sim : SimulatedExchange) (req : OrderRequest) (orderId : String) {walk : Walk}
    (hbeyond : walk.beyond = beyondLimit req) (h : PositiveLevels walk.levels)
    (hbalance : walk.needed ≤ sim.balances walk.paidIn) :
    FilledBest req.side req.quantity (walk.levels.filter fun level => !beyondLimit req level)
        (sim.place req orderId walk).1 ↔ PricePriority req walk.levels := by
  obtain ⟨hfilled, htotal⟩ := place_totals sim req orderId h hbalance
  have hfront : (walk.levels.takeWhile fun level => !beyondLimit req level).filter
      (fun level => !beyondLimit req level) = walk.within := by
    unfold Walk.within
    rw [hbeyond]
    refine List.filter_eq_self.mpr ?_
    intro level hlevel
    exact List.mem_takeWhile_imp (p := fun level => !beyondLimit req level) hlevel
  have hsplit : walk.levels.filter (fun level => !beyondLimit req level) = walk.within ++
      (walk.levels.dropWhile fun level => !beyondLimit req level).filter
        fun level => !beyondLimit req level := by
    rw [← hfront, ← List.filter_append, List.takeWhile_append_dropWhile]
  have hpositive : PositiveLevels (walk.levels.filter fun level => !beyondLimit req level) :=
    fun level hlevel => h level (List.mem_filter.mp hlevel).1
  have hnone : (walk.levels.dropWhile fun level => !beyondLimit req level).filter
      (fun level => !beyondLimit req level) = [] ↔
        ∀ level ∈ walk.levels.dropWhile fun level => !beyondLimit req level,
          beyondLimit req level = true := by
    simp [List.filter_eq_nil_iff]
  have hwithin : walk.within = walk.levels.takeWhile fun level => !beyondLimit req level := by
    unfold Walk.within
    rw [hbeyond]
  unfold PricePriority
  rw [← hnone, ← hwithin]
  rw [hsplit] at hpositive ⊢
  rw [← front_best_iff req.side hpositive req.quantity, ← hfilled, ← Walk.cost, ← htotal]
  exact ⟨fun hbest => ⟨hbest.1, hbest.2⟩, fun hbest => ⟨hbest.1, hbest.2⟩⟩

theorem sideTaken_bookWithin (req : OrderRequest) (book : OrderBookSnapshot) :
    sideTaken req.side (bookWithin req book) =
      (sideTaken req.side book).filter fun level => !beyondLimit req level := by
  unfold sideTaken bookWithin beyondLimit
  cases req.side with
  | buy => exact List.filter_congr fun ask _ => by simp [← decide_not]
  | sell => exact List.filter_congr fun bid _ => by simp [← decide_not]

/-- An order takes the most that the levels within its limit hold, at the best total,
exactly when the stored order gives it price priority. -/
theorem placeLimitOrder_best_iff {sim : SimulatedExchange} {req : OrderRequest} {now : TimePoint}
    (hpositive : (sim.currentBook req.pair now).Positive) (hbalance : sim.SufficientBalance req)
    (uuid : String) :
    FilledBest req.side req.quantity (sideTaken req.side (bookWithin req (sim.currentBook req.pair now)))
        (sim.placeLimitOrder req uuid now).1 ↔
      PricePriority req (sideTaken req.side (sim.currentBook req.pair now)) := by
  rw [sufficientBalance_iff sim req now] at hbalance
  rw [placeLimitOrder_eq, sideTaken_bookWithin]
  have hwalk : sideTaken req.side (sim.currentBook req.pair now) = (sim.walk req now).levels ∧
      (sim.walk req now).beyond = beyondLimit req := by
    unfold sideTaken walk beyondLimit
    cases req.side with
    | buy => exact ⟨rfl, rfl⟩
    | sell => exact ⟨rfl, rfl⟩
  have hlevels : PositiveLevels (sim.walk req now).levels := by
    rw [← hwalk.1]
    unfold sideTaken
    cases req.side with
    | buy => exact hpositive.1
    | sell => exact hpositive.2
  rw [hwalk.1]
  exact place_best_iff sim req ("SIM-" ++ uuid) hwalk.2 hlevels hbalance

/-! ### A row with the dearer ask first -/

def dearFirstRow : HistoricalSnapshot where
  exchange := .binance
  pair := "BTC-USDT"
  bids := [⟨99, 1⟩]
  asks := [⟨101, 1⟩, ⟨100, 1⟩]

def dearFirstExchange : SimulatedExchange :=
  { twoLevelExchange with snapshotsByPair := fun _ => [dearFirstRow] }

theorem dearFirst_book : dearFirstExchange.currentBook "BTC-USDT" 0 =
    { exchange := .binance, pair := "BTC-USDT", bids := [⟨99, 1⟩], asks := [⟨101, 1⟩, ⟨100, 1⟩] } := rfl

theorem dearFirst_positive : (dearFirstExchange.currentBook "BTC-USDT" 0).Positive := by
  norm_num [dearFirst_book, OrderBookSnapshot.Positive, PositiveLevels]

theorem dearFirst_sufficient {quantity : ℚ} (h : quantity ≤ 9) :
    dearFirstExchange.SufficientBalance { twoLevelBuy with quantity } := by
  have hbalance : dearFirstExchange.balances (quoteAsset "BTC-USDT") = 1000 := by decide +kernel
  show 101 * quantity ≤ dearFirstExchange.balances (quoteAsset "BTC-USDT")
  rw [hbalance]
  linarith

/-- An order that uses up both asks pays the best total all the same. -/
theorem dearFirst_allTaken :
    let req := { twoLevelBuy with quantity := 2 }
    FilledBest .buy 2 (sideTaken .buy (bookWithin req (dearFirstExchange.currentBook "BTC-USDT" 0)))
      (dearFirstExchange.placeLimitOrder req "1" 0).1 := by
  intro req
  have hbalance : dearFirstExchange.SufficientBalance req := dearFirst_sufficient (by norm_num)
  exact (placeLimitOrder_best_iff dearFirst_positive hbalance "1").mpr (by decide +kernel)

/-- An order for one unit pays 101 although an ask at 100 is within its limit. -/
theorem dearFirst_overpaid :
    let req := { twoLevelBuy with quantity := 1 }
    (dearFirstExchange.currentBook req.pair 0).Positive ∧ dearFirstExchange.SufficientBalance req ∧
      ¬ FilledBest .buy 1 (sideTaken .buy (bookWithin req (dearFirstExchange.currentBook req.pair 0)))
        (dearFirstExchange.placeLimitOrder req "1" 0).1 := by
  intro req
  refine ⟨dearFirst_positive, dearFirst_sufficient (by norm_num), ?_⟩
  intro h
  have hfilled : (dearFirstExchange.placeLimitOrder req "1" 0).1.filledQuantity = 1 := by decide +kernel
  have hprice : (dearFirstExchange.placeLimitOrder req "1" 0).1.avgFillPrice = 101 := by decide +kernel
  have hlevels : sideTaken .buy (bookWithin req (dearFirstExchange.currentBook req.pair 0)) =
      [⟨101, 1⟩, ⟨100, 1⟩] := by decide +kernel
  have hcheaper : (100 : ℚ) ∈ totals 1 [⟨101, 1⟩, ⟨100, 1⟩] := by
    refine ⟨[0, 1], ?_, by norm_num, by norm_num [PricedLots.paid]⟩
    norm_num [PricedLots.Allocation]
  have htotal := h.total
  rw [hfilled, hprice, hlevels] at htotal
  have hle := htotal.2 hcheaper
  norm_num at hle

end CryptoArbBot.SimulatedExchange
