import CryptoArbBot.Backtest.SimulatedExchange
import CryptoArbBot.OrderBook.DepthAnalyzer
import Mathlib.Tactic.Linarith

/-!
# What an order on a simulated exchange takes

The fill loops walk the levels of the current row up to the limit. An order that
is turned away or finds nothing within its limit leaves the exchange as it is.
-/

namespace CryptoArbBot.SimulatedExchange

def available (quantity : ℚ) (levels : List PriceLevel) : ℚ :=
  if DepthAnalyzer.Reaches quantity levels then quantity else DepthAnalyzer.depth levels

/-- What a buy order takes: nothing when the balance is short, and else what the
asks within the limit give. -/
def buyTakes (sim : SimulatedExchange) (req : OrderRequest) (now : TimePoint) : ℚ :=
  if sim.balances (quoteAsset req.pair) < req.price * req.quantity then 0
  else
    available req.quantity
      ((sim.currentBook req.pair now).asks.takeWhile fun ask => !decide (ask.price > req.price))

def sellTakes (sim : SimulatedExchange) (req : OrderRequest) (now : TimePoint) : ℚ :=
  if sim.balances (baseAsset req.pair) < req.quantity then 0
  else
    available req.quantity
      ((sim.currentBook req.pair now).bids.takeWhile fun bid => !decide (bid.price < req.price))

/-- The loop that counts up to the quantity does what the one that counts down from it
does on the levels before the first one beyond the limit. -/
theorem fillLoop_walk (beyond : PriceLevel → Bool) {quantity filledQty : ℚ}
    (h : filledQty < quantity) (total : ℚ) (levels : List PriceLevel) :
    fillLoop beyond quantity filledQty total levels =
      (quantity - (DepthAnalyzer.walk (quantity - filledQty) total
          (levels.takeWhile fun level => !beyond level)).1,
        (DepthAnalyzer.walk (quantity - filledQty) total
          (levels.takeWhile fun level => !beyond level)).2) := by
  induction levels generalizing filledQty total with
  | nil => rw [List.takeWhile_nil, fillLoop, DepthAnalyzer.walk, sub_sub_cancel]
  | cons level levels ih =>
    rw [fillLoop, List.takeWhile_cons]
    cases hbeyond : beyond level with
    | true =>
      simp only [if_true, Bool.not_true, Bool.false_eq_true, if_false, DepthAnalyzer.walk]
      rw [sub_sub_cancel]
    | false =>
      simp only [Bool.false_eq_true, if_false, Bool.not_false, if_true, DepthAnalyzer.walk,
        (sub_pos.mpr h).not_ge]
      rw [min_comm level.quantity]
      rcases le_or_gt (quantity - filledQty) level.quantity with hlast | hmore
      · -- the level completes the order
        rw [min_eq_left hlast, sub_self, add_sub_cancel, if_pos le_rfl]
        cases levels.takeWhile fun level => !beyond level with
        | nil => rw [DepthAnalyzer.walk, sub_zero]
        | cons next rest => rw [DepthAnalyzer.walk, if_pos le_rfl, sub_zero]
      · have hleft : filledQty + level.quantity < quantity := by linarith
        rw [min_eq_right hmore.le, if_neg hleft.not_ge, ih hleft, sub_add_eq_sub_sub]

theorem fillLoop_fst (beyond : PriceLevel → Bool) {quantity filledQty : ℚ}
    (h : filledQty < quantity) (total : ℚ) (levels : List PriceLevel) :
    (fillLoop beyond quantity filledQty total levels).1 =
      if DepthAnalyzer.Reaches (quantity - filledQty) (levels.takeWhile fun level => !beyond level)
      then quantity
      else filledQty + DepthAnalyzer.depth (levels.takeWhile fun level => !beyond level) := by
  rw [fillLoop_walk beyond h, DepthAnalyzer.walk_remaining _ _ (sub_pos.mpr h)]
  split
  · exact sub_zero quantity
  · ring

theorem fillLoop_le (beyond : PriceLevel → Bool) (quantity filledQty total : ℚ)
    (levels : List PriceLevel) :
    (fillLoop beyond quantity filledQty total levels).1 ≤ max quantity filledQty := by
  induction levels generalizing filledQty total with
  | nil => exact le_max_right _ _
  | cons level levels ih =>
    have htake : filledQty + min level.quantity (quantity - filledQty) ≤ quantity := by
      have hmin := min_le_right level.quantity (quantity - filledQty)
      linarith
    rw [fillLoop]
    dsimp only
    split
    · exact le_max_right _ _
    · split
      · exact le_max_of_le_left htake
      · exact (ih _ _).trans (max_le (le_max_left _ _) (le_max_of_le_left htake))

theorem fill_available (beyond : PriceLevel → Bool) (quantity : ℚ) (levels : List PriceLevel) :
    let fill := fillLoop beyond quantity 0 0 levels
    let takes := available quantity (levels.takeWhile fun level => !beyond level)
    (takes ≤ 0 ∧ ¬ fill.1 > 0) ∨ (0 < takes ∧ takes = fill.1 ∧ fill.1 > 0 ∧ levels.isEmpty = false) := by
  intro fill takes
  rcases le_or_gt quantity 0 with hnonpos | hpos
  · have hreach := DepthAnalyzer.reaches_of_nonpos hnonpos (levels.takeWhile fun level => !beyond level)
    refine .inl ⟨?_, not_lt.mpr ((fillLoop_le ..).trans (max_le hnonpos le_rfl))⟩
    show available _ _ ≤ 0
    rw [available, if_pos hreach]
    exact hnonpos
  · have hsame : fill.1 = takes := by
      show (fillLoop ..).1 = available _ _
      rw [fillLoop_fst beyond hpos, sub_zero, zero_add, available]
    rcases le_or_gt takes 0 with hnone | hsome
    · exact .inl ⟨hnone, not_lt.mpr (hsame.trans_le hnone)⟩
    · refine .inr ⟨hsome, hsame.symm, hsome.trans_eq hsame.symm, ?_⟩
      cases levels with
      | nil => exact absurd (hsome.trans_eq hsame.symm) (lt_irrefl 0)
      | cons level levels => rfl

/-! ### Both sides of an order at once -/

/-- What a buy order and a sell order differ in; `base` and `quote` are what a fill
adds to the two balances. -/
structure Walk where
  levels : List PriceLevel
  beyond : PriceLevel → Bool
  emptyText : String
  paidIn : String
  needed : ℚ
  base : ℚ × ℚ → ℚ
  quote : ℚ × ℚ → ℚ

def Walk.fill (walk : Walk) (quantity : ℚ) : ℚ × ℚ :=
  fillLoop walk.beyond quantity 0 0 walk.levels

def buyWalk (sim : SimulatedExchange) (req : OrderRequest) (now : TimePoint) : Walk where
  levels := (sim.currentBook req.pair now).asks
  beyond ask := decide (ask.price > req.price)
  emptyText := "No asks in book"
  paidIn := quoteAsset req.pair
  needed := req.price * req.quantity
  base fill := fill.1
  quote fill := -(fill.2 + fill.2 * sim.takerFee)

def sellWalk (sim : SimulatedExchange) (req : OrderRequest) (now : TimePoint) : Walk where
  levels := (sim.currentBook req.pair now).bids
  beyond bid := decide (bid.price < req.price)
  emptyText := "No bids in book"
  paidIn := baseAsset req.pair
  needed := req.quantity
  base fill := -fill.1
  quote fill := fill.2 - fill.2 * sim.takerFee

def walk (sim : SimulatedExchange) (req : OrderRequest) (now : TimePoint) : Walk :=
  match req.side with
  | .buy => sim.buyWalk req now
  | .sell => sim.sellWalk req now

def takes (sim : SimulatedExchange) (quantity : ℚ) (walk : Walk) : ℚ :=
  if sim.balances walk.paidIn < walk.needed then 0
  else available quantity (walk.levels.takeWhile fun level => !walk.beyond level)

def place (sim : SimulatedExchange) (req : OrderRequest) (orderId : String) (walk : Walk) :
    OrderResult × SimulatedExchange :=
  if walk.levels.isEmpty then
    ({ exchangeOrderId := orderId, status := .rejected, errorMessage := walk.emptyText }, sim)
  else if sim.balances walk.paidIn < walk.needed then
    ({ exchangeOrderId := orderId, status := .rejected
       errorMessage := "Insufficient " ++ walk.paidIn }, sim)
  else
    let fill := walk.fill req.quantity
    if fill.1 > 0 then
      (filledResult orderId req.quantity sim.takerFee fill, { sim with
        balances := adjust (adjust sim.balances (baseAsset req.pair) (walk.base fill))
          (quoteAsset req.pair) (walk.quote fill) })
    else ({ exchangeOrderId := orderId, status := .opened }, sim)

theorem placeLimitOrder_eq (sim : SimulatedExchange) (req : OrderRequest) (uuid : String)
    (now : TimePoint) :
    sim.placeLimitOrder req uuid now = sim.place req ("SIM-" ++ uuid) (sim.walk req now) := by
  unfold placeLimitOrder walk
  cases req.side with
  | buy => rfl
  | sell => rfl

structure NotFilled (sim : SimulatedExchange) (placed : OrderResult × SimulatedExchange) : Prop where
  unchanged : placed.2 = sim
  quantity : placed.1.filledQuantity = 0
  status : placed.1.status ≠ .filled

theorem place_cases (sim : SimulatedExchange) (req : OrderRequest) (orderId : String) (walk : Walk) :
    (sim.takes req.quantity walk ≤ 0 ∧ NotFilled sim (sim.place req orderId walk)) ∨
      (0 < sim.takes req.quantity walk ∧
        sim.takes req.quantity walk = (walk.fill req.quantity).1 ∧
        sim.place req orderId walk =
          (filledResult orderId req.quantity sim.takerFee (walk.fill req.quantity), { sim with
            balances :=
              adjust (adjust sim.balances (baseAsset req.pair) (walk.base (walk.fill req.quantity)))
                (quoteAsset req.pair) (walk.quote (walk.fill req.quantity)) })) := by
  have hfill := fill_available walk.beyond req.quantity walk.levels
  unfold place takes Walk.fill
  dsimp only at hfill ⊢
  by_cases hshort : sim.balances walk.paidIn < walk.needed
  · simp only [hshort, if_true]
    refine .inl ⟨le_rfl, ?_⟩
    split <;> exact ⟨rfl, rfl, by simp⟩
  · simp only [hshort, if_false]
    rcases hfill with ⟨htakes, hnone⟩ | ⟨htakes, hsame, hsome, hlevels⟩
    · refine .inl ⟨htakes, ?_⟩
      rw [if_neg hnone]
      split <;> exact ⟨rfl, rfl, by simp⟩
    · rw [hlevels, if_neg Bool.false_ne_true, if_pos hsome]
      exact .inr ⟨htakes, hsame, rfl⟩

theorem place_idle (sim : SimulatedExchange) (req : OrderRequest) (walk : Walk)
    (h : sim.takes req.quantity walk ≤ 0) (orderId : String) :
    NotFilled sim (sim.place req orderId walk) := by
  rcases sim.place_cases req orderId walk with ⟨_, hnone⟩ | ⟨htakes, _⟩
  · exact hnone
  · exact absurd h htakes.not_ge

/-- An order changes no more than the balances of its exchange. -/
theorem placeLimitOrder_snd (sim : SimulatedExchange) (req : OrderRequest) (uuid : String)
    (now : TimePoint) :
    (sim.placeLimitOrder req uuid now).2 =
      { sim with balances := (sim.placeLimitOrder req uuid now).2.balances } := by
  rw [placeLimitOrder_eq]
  rcases sim.place_cases req ("SIM-" ++ uuid) (sim.walk req now) with ⟨_, hnone⟩ | ⟨_, _, hplaced⟩
  · simp only [hnone.unchanged]
  · simp only [hplaced]

end CryptoArbBot.SimulatedExchange
