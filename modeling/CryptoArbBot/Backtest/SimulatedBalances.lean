import CryptoArbBot.Backtest.WalkersAgree
import CryptoArbBot.Library.Runs

/-!
# Balances of a simulated exchange over runs

An order is checked against its limit price and its quantity; what is debited is
the walked cost and the taker fee on it. No balance falls below zero in a run
exactly when every order that passes its check can pay for its fill.
-/

namespace CryptoArbBot.SimulatedExchange

inductive SimAction where
  | place (req : OrderRequest) (uuid : String) (now : TimePoint)
  | advance (timestampMs : UInt64)

def simStep (sim : SimulatedExchange) : SimAction → SimulatedExchange
  | .place req uuid now => (sim.placeLimitOrder req uuid now).2
  | .advance timestampMs => sim.advanceTo timestampMs

def Solvent (sim : SimulatedExchange) : Prop := ∀ asset, 0 ≤ sim.balances asset

def PositiveRows (sim : SimulatedExchange) : Prop :=
  ∀ pair, ∀ row ∈ sim.snapshotsByPair pair, PositiveLevels row.bids ∧ PositiveLevels row.asks

def SimAction.Admissible : SimAction → Prop
  | .place req _ _ =>
    baseAsset req.pair ≠ quoteAsset req.pair ∧ 0 < req.quantity
  | .advance _ => True

/-- The order fails its check, or the quote balance bears its cost and its fee. -/
def FillCovered (sim : SimulatedExchange) : SimAction → Prop
  | .place req _ now =>
    match req.side with
    | .buy =>
      sim.balances (quoteAsset req.pair) < req.price * req.quantity ∨
        (1 + sim.takerFee) * (sim.buyWalk req now).cost req.quantity ≤
          sim.balances (quoteAsset req.pair)
    | .sell =>
      sim.balances (baseAsset req.pair) < req.quantity ∨
        (sim.takerFee - 1) * (sim.sellWalk req now).cost req.quantity ≤
          sim.balances (quoteAsset req.pair)
  | .advance _ => True

instance (sim : SimulatedExchange) : (action : SimAction) → Decidable (FillCovered sim action)
  | .place req _ now => by
    unfold FillCovered
    dsimp only
    split <;> infer_instance
  | .advance _ => .isTrue trivial

/-! ### What a step leaves as it is -/

theorem simStep_rest (sim : SimulatedExchange) (action : SimAction) :
    (simStep sim action).snapshotsByPair = sim.snapshotsByPair ∧
      (simStep sim action).takerFee = sim.takerFee := by
  cases action with
  | place req uuid now =>
    unfold simStep
    dsimp only
    rw [placeLimitOrder_snd]
    exact ⟨rfl, rfl⟩
  | advance timestampMs => exact ⟨rfl, rfl⟩

theorem currentBook_positive {sim : SimulatedExchange} (h : sim.PositiveRows) (pair : String)
    (now : TimePoint) : (sim.currentBook pair now).Positive := by
  unfold currentBook
  cases hrow : sim.row pair with
  | none => exact ⟨fun _ hlevel => absurd hlevel List.not_mem_nil, fun _ hlevel => absurd hlevel List.not_mem_nil⟩
  | some row =>
    obtain ⟨hbids, hasks⟩ := h pair row (List.mem_of_getElem? hrow)
    exact ⟨hasks, hbids⟩

/-! ### One order -/

theorem adjust_nonneg_iff {balances : String → ℚ} (h : ∀ asset, 0 ≤ balances asset) {base quote : String}
    (hne : base ≠ quote) {baseDelta quoteDelta : ℚ} (hbase : 0 ≤ balances base + baseDelta) :
    (∀ asset, 0 ≤ adjust (adjust balances base baseDelta) quote quoteDelta asset) ↔
      0 ≤ balances quote + quoteDelta := by
  have hquote : adjust (adjust balances base baseDelta) quote quoteDelta quote =
      balances quote + quoteDelta := by
    simp [adjust, hne.symm]
  constructor
  · intro hall
    exact hquote ▸ hall quote
  · intro hcovered asset
    by_cases hasset : asset = quote
    · rw [hasset, hquote]
      exact hcovered
    · by_cases hother : asset = base
      · simpa [adjust, hother, hne] using hbase
      · simpa [adjust, hasset, hother] using h asset

section Order
variable {sim : SimulatedExchange} {req : OrderRequest} {walk : Walk}

/-- An order that passes its check keeps the balances non-negative exactly when the quote
balance bears its fill. -/
theorem place_solvent_iff (hst : Solvent sim) (hpair : baseAsset req.pair ≠ quoteAsset req.pair)
    (hquantity : 0 < req.quantity) (h : PositiveLevels walk.levels)
    (hbalance : walk.needed ≤ sim.balances walk.paidIn)
    (hbase : 0 < (walk.fill req.quantity).1 →
      0 ≤ sim.balances (baseAsset req.pair) + walk.base (walk.fill req.quantity))
    (hquote : walk.quote (0, 0) = 0) (orderId : String) :
    Solvent (sim.place req orderId walk).2 ↔
      0 ≤ sim.balances (quoteAsset req.pair) + walk.quote (walk.fill req.quantity) := by
  by_cases hlevels : walk.levels = []
  · have hfill : walk.fill req.quantity = (0, 0) := by
      rw [Walk.fill, hlevels, fillLoop]
    have hsame : (sim.place req orderId walk).2 = sim := by
      rw [place, hlevels]
      rfl
    rw [hsame, hfill, hquote, add_zero]
    exact iff_of_true hst (hst _)
  · rw [place_served sim req orderId walk hlevels hbalance]
    split
    next hpos => exact adjust_nonneg_iff hst hpair (hbase hpos)
    next hnone =>
      have hzero : walk.within = [] := by
        by_contra hsome
        exact hnone ((Walk.fill_pos_iff h hquantity).mpr hsome)
      have hfill : walk.fill req.quantity = (0, 0) := by
        rw [fill_eq_cost h hquantity, Walk.cost, hzero]
        exact Prod.ext (min_eq_right hquantity.le) rfl
      rw [hfill, hquote, add_zero]
      exact iff_of_true hst (hst _)

theorem place_short (hbalance : sim.balances walk.paidIn < walk.needed) (orderId : String) :
    (sim.place req orderId walk).2 = sim := by
  unfold place
  rw [if_pos hbalance]
  split
  · rfl
  · rfl

theorem buy_solvent_iff (hst : Solvent sim) (hpair : baseAsset req.pair ≠ quoteAsset req.pair)
    (hquantity : 0 < req.quantity) {now : TimePoint} (h : PositiveLevels (sim.buyWalk req now).levels)
    (orderId : String) :
    Solvent (sim.place req orderId (sim.buyWalk req now)).2 ↔
      sim.balances (quoteAsset req.pair) < req.price * req.quantity ∨
        (1 + sim.takerFee) * (sim.buyWalk req now).cost req.quantity ≤
          sim.balances (quoteAsset req.pair) := by
  rcases lt_or_ge (sim.balances (quoteAsset req.pair)) (req.price * req.quantity) with hshort | henough
  · have hbalance : sim.balances (sim.buyWalk req now).paidIn < (sim.buyWalk req now).needed := hshort
    rw [place_short hbalance]
    exact iff_of_true hst (.inl hshort)
  · rw [place_solvent_iff hst hpair hquantity h henough _ _ orderId, fill_eq_cost h hquantity,
      or_iff_right henough.not_gt]
    · show 0 ≤ _ + -((sim.buyWalk req now).cost req.quantity +
        (sim.buyWalk req now).cost req.quantity * sim.takerFee) ↔ _
      rw [← sub_eq_add_neg, sub_nonneg, add_mul, one_mul, mul_comm sim.takerFee]
    · exact fun hpos => add_nonneg (hst _) hpos.le
    · show -(0 + 0 * sim.takerFee) = 0
      ring

theorem sell_solvent_iff (hst : Solvent sim) (hpair : baseAsset req.pair ≠ quoteAsset req.pair)
    (hquantity : 0 < req.quantity) {now : TimePoint} (h : PositiveLevels (sim.sellWalk req now).levels)
    (orderId : String) :
    Solvent (sim.place req orderId (sim.sellWalk req now)).2 ↔
      sim.balances (baseAsset req.pair) < req.quantity ∨
        (sim.takerFee - 1) * (sim.sellWalk req now).cost req.quantity ≤
          sim.balances (quoteAsset req.pair) := by
  rcases lt_or_ge (sim.balances (baseAsset req.pair)) req.quantity with hshort | henough
  · have hbalance : sim.balances (sim.sellWalk req now).paidIn < (sim.sellWalk req now).needed := hshort
    rw [place_short hbalance]
    exact iff_of_true hst (.inl hshort)
  · rw [place_solvent_iff hst hpair hquantity h henough _ _ orderId, fill_eq_cost h hquantity,
      or_iff_right henough.not_gt]
    · show 0 ≤ _ + ((sim.sellWalk req now).cost req.quantity -
        (sim.sellWalk req now).cost req.quantity * sim.takerFee) ↔ _
      rw [sub_mul, one_mul, mul_comm sim.takerFee, ← neg_sub, ← sub_eq_add_neg, sub_nonneg]
    · intro _
      rw [fill_eq_cost h hquantity]
      have hle := min_le_left req.quantity (DepthAnalyzer.depth (sim.sellWalk req now).within)
      show 0 ≤ sim.balances (baseAsset req.pair) +
        -min req.quantity (DepthAnalyzer.depth (sim.sellWalk req now).within)
      rw [← sub_eq_add_neg, sub_nonneg]
      exact hle.trans henough
    · show 0 - 0 * sim.takerFee = 0
      ring

end Order

theorem simStep_solvent_iff {sim : SimulatedExchange} (hst : Solvent sim) (hrows : sim.PositiveRows)
    {action : SimAction} (haction : action.Admissible) :
    Solvent (simStep sim action) ↔ FillCovered sim action := by
  cases action with
  | advance timestampMs => exact iff_of_true hst trivial
  | place req uuid now =>
    obtain ⟨hpair, hquantity⟩ := haction
    have hbook := currentBook_positive hrows req.pair now
    unfold simStep FillCovered
    dsimp only
    rw [placeLimitOrder_eq]
    unfold walk
    cases req.side with
    | buy => exact buy_solvent_iff hst hpair hquantity hbook.1 ("SIM-" ++ uuid)
    | sell => exact sell_solvent_iff hst hpair hquantity hbook.2 ("SIM-" ++ uuid)

/-! ### Runs -/

/-- From non-negative balances, a run keeps every balance non-negative exactly when every
order of it fails its check or can be paid for. -/
theorem simulated_run_solvent_iff {sim : SimulatedExchange} (hst : Solvent sim)
    (hrows : sim.PositiveRows) {actions : List SimAction}
    (hactions : ∀ action ∈ actions, action.Admissible) :
    Runs.Always simStep Solvent sim actions ↔ Runs.Along simStep FillCovered sim actions := by
  refine Runs.always_iff_along (I := PositiveRows) ?_ ?_ hrows hst (Runs.along_of_mem hactions sim)
  · intro s action hrows _ _ _
    unfold PositiveRows
    rw [(simStep_rest s action).1]
    exact hrows
  · intro s action hrows hst haction
    exact simStep_solvent_iff hst hrows haction

/-! ### A fee on an exact balance -/

def twoLevelSell : OrderRequest where
  exchange := .binance
  pair := "BTC-USDT"
  side := .sell
  price := 98
  quantity := 2
  clientOrderId := ""

theorem twoLevelRow_positive {sim : SimulatedExchange}
    (h : sim.snapshotsByPair = fun _ => [twoLevelRow]) : sim.PositiveRows := by
  intro pair row hrow
  rw [h, List.mem_singleton] at hrow
  rw [hrow]
  norm_num [PositiveLevels, twoLevelRow]

theorem twoLevel_solvent (amount : ℚ) (h : 0 ≤ amount) :
    Solvent { twoLevelExchange with balances := adjust (fun _ => 0) "USDT" amount } := by
  intro asset
  show 0 ≤ adjust (fun _ => 0) "USDT" amount asset
  unfold adjust
  split
  · rwa [zero_add]
  · exact le_rfl

def twoLevelActions : List SimAction :=
  [.place twoLevelBuy "1" 0, .advance 500, .place twoLevelSell "2" 0, .place twoLevelSell "3" 0]

theorem twoLevelActions_solvent : Runs.Always simStep Solvent twoLevelExchange twoLevelActions := by
  refine (simulated_run_solvent_iff (twoLevel_solvent 1000 (by norm_num)) (twoLevelRow_positive rfl) ?_).mpr
    (by decide +kernel)
  intro action haction
  simp only [twoLevelActions, List.mem_cons, List.not_mem_nil, or_false] at haction
  rcases haction with rfl | rfl | rfl | rfl
  · exact ⟨by decide +kernel, by decide +kernel⟩
  · exact trivial
  · exact ⟨by decide +kernel, by decide +kernel⟩
  · exact ⟨by decide +kernel, by decide +kernel⟩

/-- The check passes and the fee takes the quote balance below zero. -/
theorem exactBalance_overdrawn :
    let sim := { twoLevelExchange with balances := adjust (fun _ => 0) "USDT" 100 }
    let req := { twoLevelBuy with price := 100, quantity := 1 }
    Solvent sim ∧ sim.PositiveRows ∧ 0 ≤ sim.takerFee ∧ 0 < req.price ∧
      (SimAction.place req "1" 0).Admissible ∧
      ¬ Runs.Always simStep Solvent sim [.place req "1" 0] := by
  intro sim req
  refine ⟨twoLevel_solvent 100 (by norm_num), twoLevelRow_positive rfl, by decide +kernel,
    by decide +kernel, ⟨by decide +kernel, by decide +kernel⟩, ?_⟩
  intro h
  have hquote : 0 ≤ (simStep sim (.place req "1" 0)).balances "USDT" := h.2 "USDT"
  revert hquote
  decide +kernel

end CryptoArbBot.SimulatedExchange
