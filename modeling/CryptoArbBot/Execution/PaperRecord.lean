import CryptoArbBot.Execution.PaperSolvency

/-!
# The paper ledger beside the trade record

The record reports what each leg filled and paid. The ledger moves the smaller
fill on both exchanges and charges the fee of each leg's own fill.
-/

namespace CryptoArbBot.PaperExecutor

/-- The updates the record reports. -/
def reported (record : TradeRecord) : List Section :=
  let base := extractBaseAsset record.pair
  let quote := extractQuoteAsset record.pair
  let buy := record.buyResult
  let sell := record.sellResult
  [.updateBalance record.buyExchange base buy.filledQuantity,
    .updateBalance record.buyExchange quote (-(buy.filledQuantity * buy.avgFillPrice + buy.feePaid)),
    .updateBalance record.sellExchange base (-sell.filledQuantity),
    .updateBalance record.sellExchange quote (sell.filledQuantity * sell.avgFillPrice - sell.feePaid),
    .addPnl record.realizedPnl]

/-- A call that trades books what its record reports: the same updates, no fee
on what is not booked, and nothing when nothing is matched. -/
structure LedgerAgrees (st : PaperState) (opp : ArbitrageOpportunity) (inputs : Inputs)
    (buySnap sellSnap : OrderBookSnapshot) : Prop where
  booked : bookings opp (buyFill opp inputs buySnap) (sellFill opp inputs sellSnap) =
    reported (execute opp inputs st).1
  state : (execute opp inputs st).2 = (reported (execute opp inputs st).1).foldl Section.apply st
  fees :
    let record := (execute opp inputs st).1
    let matched := matchedQty record.buyResult record.sellResult
    record.buyResult.feePaid = matched * record.buyResult.avgFillPrice * inputs.buyTakerFee ∧
      record.sellResult.feePaid = matched * record.sellResult.avgFillPrice * inputs.sellTakerFee
  unmatched :
    let record := (execute opp inputs st).1
    matchedQty record.buyResult record.sellResult = 0 →
      (∀ exch asset, (execute opp inputs st).2.balance exch asset = st.balance exch asset) ∧
        (execute opp inputs st).2.totalPnl = st.totalPnl

/-- Nothing is asked for, both sides reach the quantity, or neither does and the
draws take as much of the one as of the other. -/
def FillsAgree (opp : ArbitrageOpportunity) (inputs : Inputs)
    (buySnap sellSnap : OrderBookSnapshot) : Prop :=
  opp.quantity ≤ 0 ∨
    (DepthAnalyzer.Reaches opp.quantity buySnap.asks ∧
      DepthAnalyzer.Reaches opp.quantity sellSnap.bids) ∨
    (¬ DepthAnalyzer.Reaches opp.quantity buySnap.asks ∧
      ¬ DepthAnalyzer.Reaches opp.quantity sellSnap.bids ∧
      DepthAnalyzer.depth buySnap.asks * inputs.buyFillPct =
        DepthAnalyzer.depth sellSnap.bids * inputs.sellFillPct)

instance (opp : ArbitrageOpportunity) (inputs : Inputs) (buySnap sellSnap : OrderBookSnapshot) :
    Decidable (FillsAgree opp inputs buySnap sellSnap) :=
  inferInstanceAs (Decidable (_ ∨ _ ∨ _))

/-! ### The two fills -/

theorem filledQuantity_fillOf (slippage : ℚ → ℚ → ℚ) (quantity fillPct : ℚ)
    (levels : List PriceLevel) :
    (fillOf (DepthAnalyzer.effectivePrice slippage quantity levels) quantity fillPct).filledQuantity =
      if quantity ≤ 0 then 0
      else if DepthAnalyzer.Reaches quantity levels then quantity
      else DepthAnalyzer.depth levels * fillPct := by
  by_cases hquantity : quantity ≤ 0
  · have hnone : DepthAnalyzer.effectivePrice slippage quantity levels = {} := by
      cases levels with
      | nil => rfl
      | cons top levels => simp [DepthAnalyzer.effectivePrice, hquantity]
    simp [hnone, fillOf, hquantity]
  · have hpos : 0 < quantity := not_le.mp hquantity
    rw [if_neg hquantity]
    unfold fillOf
    simp only [DepthAnalyzer.fullyFillable_iff hpos, DepthAnalyzer.quantityFilled_eq levels hpos]
    split
    · rfl
    · rfl

theorem partial_lt {quantity fillPct depth : ℚ} (hquantity : 0 < quantity) (hdepth : depth < quantity)
    (hlow : 1 / 2 ≤ fillPct) (hhigh : fillPct ≤ 9 / 10) : depth * fillPct < quantity := by
  rcases le_total depth 0 with hneg | hpos
  · exact (mul_nonpos_of_nonpos_of_nonneg hneg (by linarith)).trans_lt hquantity
  · exact (mul_le_of_le_one_right hpos (by linarith)).trans_lt hdepth

theorem filledQuantity_eq_iff (opp : ArbitrageOpportunity) {inputs : Inputs}
    (hbuy : 1 / 2 ≤ inputs.buyFillPct ∧ inputs.buyFillPct ≤ 9 / 10)
    (hsell : 1 / 2 ≤ inputs.sellFillPct ∧ inputs.sellFillPct ≤ 9 / 10)
    (buySnap sellSnap : OrderBookSnapshot) :
    (offered opp inputs buySnap).filledQuantity = (wanted opp inputs sellSnap).filledQuantity ↔
      FillsAgree opp inputs buySnap sellSnap := by
  unfold offered wanted DepthAnalyzer.effectiveBuyPrice DepthAnalyzer.effectiveSellPrice FillsAgree
  rw [filledQuantity_fillOf, filledQuantity_fillOf]
  by_cases hquantity : opp.quantity ≤ 0
  · simp only [hquantity, if_true, true_or]
  · have hpos : 0 < opp.quantity := not_le.mp hquantity
    simp only [hquantity, if_false, false_or]
    by_cases hasks : DepthAnalyzer.Reaches opp.quantity buySnap.asks
    · by_cases hbids : DepthAnalyzer.Reaches opp.quantity sellSnap.bids
      · simp only [hasks, hbids, if_true, and_self, true_or]
      · have hpart := partial_lt hpos (DepthAnalyzer.depth_lt_of_not_reaches hbids) hsell.1 hsell.2
        simp [hasks, hbids, hpart.ne']
    · by_cases hbids : DepthAnalyzer.Reaches opp.quantity sellSnap.bids
      · have hpart := partial_lt hpos (DepthAnalyzer.depth_lt_of_not_reaches hasks) hbuy.1 hbuy.2
        simp [hasks, hbids, hpart.ne]
      · simp [hasks, hbids]

/-! ### The ledger -/

section Trade
variable {st : PaperState} {opp : ArbitrageOpportunity} {inputs : Inputs}
  {buySnap sellSnap : OrderBookSnapshot}

theorem bookings_eq_reported_iff :
    bookings opp (buyFill opp inputs buySnap) (sellFill opp inputs sellSnap) =
        reported (tradeRecord opp inputs buySnap sellSnap) ↔
      (buyFill opp inputs buySnap).filledQuantity = (sellFill opp inputs sellSnap).filledQuantity := by
  constructor
  · intro h
    simp only [bookings, reported, List.cons.injEq, Section.updateBalance.injEq] at h
    have hbuy : matchedQty (buyFill opp inputs buySnap) (sellFill opp inputs sellSnap) =
      (buyFill opp inputs buySnap).filledQuantity := h.1.2.2
    have hsell : -matchedQty (buyFill opp inputs buySnap) (sellFill opp inputs sellSnap) =
      -(sellFill opp inputs sellSnap).filledQuantity := h.2.2.1.2.2
    exact hbuy.symm.trans (neg_injective hsell)
  · intro h
    have hbuy : matchedQty (buyFill opp inputs buySnap) (sellFill opp inputs sellSnap) =
        (buyFill opp inputs buySnap).filledQuantity := by
      rw [matchedQty, h, min_self]
    have hcost : -((buyFill opp inputs buySnap).avgFillPrice *
        (buyFill opp inputs buySnap).filledQuantity) - (buyFill opp inputs buySnap).feePaid =
        -((buyFill opp inputs buySnap).filledQuantity * (buyFill opp inputs buySnap).avgFillPrice +
          (buyFill opp inputs buySnap).feePaid) := by ring
    show bookings opp (buyFill opp inputs buySnap) (sellFill opp inputs sellSnap) =
      reported { newRecord opp inputs with
        buyResult := buyFill opp inputs buySnap
        sellResult := sellFill opp inputs sellSnap
        realizedPnl := realizedPnl (buyFill opp inputs buySnap) (sellFill opp inputs sellSnap) }
    simp only [bookings, reported, newRecord, hbuy, hcost]
    rw [h, mul_comm (sellFill opp inputs sellSnap).avgFillPrice]

theorem matched_fees
    (h : (buyFill opp inputs buySnap).filledQuantity = (sellFill opp inputs sellSnap).filledQuantity) :
    let matched := matchedQty (buyFill opp inputs buySnap) (sellFill opp inputs sellSnap)
    (buyFill opp inputs buySnap).feePaid =
        matched * (buyFill opp inputs buySnap).avgFillPrice * inputs.buyTakerFee ∧
      (sellFill opp inputs sellSnap).feePaid =
        matched * (sellFill opp inputs sellSnap).avgFillPrice * inputs.sellTakerFee := by
  intro matched
  have hbuy : matched = (buyFill opp inputs buySnap).filledQuantity := by
    show min _ _ = _
    rw [h, min_self]
  exact ⟨by rw [hbuy]; rfl, by rw [hbuy, h]; rfl⟩

theorem settled_of_unmatched
    (h : (buyFill opp inputs buySnap).filledQuantity = (sellFill opp inputs sellSnap).filledQuantity)
    (hzero : matchedQty (buyFill opp inputs buySnap) (sellFill opp inputs sellSnap) = 0) :
    (∀ exch asset, (settled st opp inputs buySnap sellSnap).balance exch asset =
        st.balance exch asset) ∧
      (settled st opp inputs buySnap sellSnap).totalPnl = st.totalPnl := by
  obtain ⟨hbuyFee, hsellFee⟩ := matched_fees h
  rw [hzero, zero_mul, zero_mul] at hbuyFee hsellFee
  have hbooked : bookings opp (buyFill opp inputs buySnap) (sellFill opp inputs sellSnap) =
      [.updateBalance opp.buyExchange (extractBaseAsset opp.pair) 0,
        .updateBalance opp.buyExchange (extractQuoteAsset opp.pair) 0,
        .updateBalance opp.sellExchange (extractBaseAsset opp.pair) 0,
        .updateBalance opp.sellExchange (extractQuoteAsset opp.pair) 0, .addPnl 0] := by
    simp only [bookings, realizedPnl, hzero, hbuyFee, hsellFee, mul_zero, neg_zero, sub_zero]
  unfold settled
  rw [hbooked]
  refine ⟨?_, add_zero _⟩
  intro exch asset
  simp only [List.foldl_cons, List.foldl_nil, Section.apply]
  show (updateVirtualBalance _ _ _ _).balance exch asset = _
  simp only [balance_updateVirtualBalance, ite_self, add_zero]

/-- A call that is not turned away books what its record reports exactly when
its two legs fill alike. -/
theorem ledger_agrees_iff (hbuy : inputs.buyBook = some buySnap)
    (hsell : inputs.sellBook = some sellSnap) (hquote : checkQuote st opp = true)
    (hbase : checkBase st opp = true)
    (hbuyPct : 1 / 2 ≤ inputs.buyFillPct ∧ inputs.buyFillPct ≤ 9 / 10)
    (hsellPct : 1 / 2 ≤ inputs.sellFillPct ∧ inputs.sellFillPct ≤ 9 / 10) :
    LedgerAgrees st opp inputs buySnap sellSnap ↔ FillsAgree opp inputs buySnap sellSnap := by
  have hexecute : execute opp inputs st =
      (tradeRecord opp inputs buySnap sellSnap, settled st opp inputs buySnap sellSnap) := by
    simp [execute, settled, hbuy, hsell, hquote, hbase]
  rw [← filledQuantity_eq_iff opp hbuyPct hsellPct]
  constructor
  · intro h
    have hbooked := h.booked
    rw [hexecute] at hbooked
    exact bookings_eq_reported_iff.mp hbooked
  · intro h
    have hbooked := bookings_eq_reported_iff.mpr h
    refine ⟨?_, ?_, ?_, ?_⟩
    · rw [hexecute]
      exact hbooked
    · rw [hexecute, ← hbooked]
      rfl
    · rw [hexecute]
      exact matched_fees h
    · rw [hexecute]
      exact settled_of_unmatched h

end Trade

theorem sampleTrade_agrees :
    let inputs := sampleInputs (1 / 1000) 5
    LedgerAgrees (construct sampleBalances [.binance, .okx]) samplePair inputs
      (sampleBook .binance 99 100 5) (sampleBook .okx 102 103 5) :=
  (ledger_agrees_iff rfl rfl (by decide +kernel) (by decide +kernel) (by decide +kernel)
    (by decide +kernel)).mpr (by decide +kernel)

/-- The sell book holds half of the quantity: a quarter of it is booked on both
exchanges, the buy leg reports all of it and its fee is charged on all of it. -/
theorem thinSellBook_disagrees :
    let inputs := { sampleInputs (1 / 1000) 5 with sellBook := some (sampleBook .okx 102 103 (1 / 2)) }
    let st := construct sampleBalances [.binance, .okx]
    inputs.Admissible ∧ checkQuote st samplePair = true ∧ checkBase st samplePair = true ∧
      ¬ LedgerAgrees st samplePair inputs (sampleBook .binance 99 100 5)
        (sampleBook .okx 102 103 (1 / 2)) := by
  intro inputs st
  have hbuy : (sampleInputs (1 / 1000) 5).Admissible :=
    sampleInputs_admissible (by norm_num) (by norm_num)
  have hsell : (sampleInputs (1 / 1000) (1 / 2)).Admissible :=
    sampleInputs_admissible (by norm_num) (by norm_num)
  refine ⟨⟨hbuy.buyBook, hsell.sellBook, hbuy.buyTakerFee, hbuy.sellTakerFee, hbuy.buyFillPct,
    hbuy.sellFillPct⟩, by decide +kernel, by decide +kernel, ?_⟩
  intro h
  have hbooked := h.booked
  revert hbooked
  decide +kernel

end CryptoArbBot.PaperExecutor
