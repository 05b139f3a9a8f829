import CryptoArbBot.Execution.PaperConservation
import Mathlib.Tactic.Linarith
import Mathlib.Tactic.Ring

/-!
# When paper balances stay non-negative

The checks compare the quote balance with the opportunity's price and no fee;
the updates debit the price of the re-walked book and the fee. Only the quote
balances of the two exchanges can go below zero, and they stay above exactly
when they cover what the books and the fees at execution cost.
-/

namespace CryptoArbBot.PaperExecutor

def Solvent (st : PaperState) : Prop := ∀ exch asset, 0 ≤ st.balance exch asset

/-- A call or a rebalance of a run without concurrency. -/
inductive PaperAction where
  | execute (opp : ArbitrageOpportunity) (inputs : Inputs)
  | rebalance

def paperStep (st : PaperState) : PaperAction → PaperState
  | .execute opp inputs => (PaperExecutor.execute opp inputs st).2
  | .rebalance => PaperExecutor.rebalance st

/-- Books of positive prices and quantities, non-negative fees and draws of
`partial_dist(0.5, 0.9)`. -/
structure Inputs.Admissible (inputs : Inputs) : Prop where
  buyBook : ∀ book ∈ inputs.buyBook, book.Positive
  sellBook : ∀ book ∈ inputs.sellBook, book.Positive
  buyTakerFee : 0 ≤ inputs.buyTakerFee
  sellTakerFee : 0 ≤ inputs.sellTakerFee
  buyFillPct : 1 / 2 ≤ inputs.buyFillPct ∧ inputs.buyFillPct ≤ 9 / 10
  sellFillPct : 1 / 2 ≤ inputs.sellFillPct ∧ inputs.sellFillPct ≤ 9 / 10

def PaperAction.Admissible : PaperAction → Prop
  | .execute _ inputs => inputs.Admissible
  | .rebalance => True

/-! ### The condition -/

section Condition
variable (opp : ArbitrageOpportunity) (inputs : Inputs) (buySnap sellSnap : OrderBookSnapshot)

/-- What the buy book gives for the opportunity's quantity. -/
def offered : OrderResult :=
  fillOf (DepthAnalyzer.effectiveBuyPrice buySnap opp.quantity) opp.quantity inputs.buyFillPct

/-- What the sell book takes of the opportunity's quantity. -/
def wanted : OrderResult :=
  fillOf (DepthAnalyzer.effectiveSellPrice sellSnap opp.quantity) opp.quantity inputs.sellFillPct

def tradable : ℚ :=
  min (offered opp inputs buySnap).filledQuantity (wanted opp inputs sellSnap).filledQuantity

/-- The cost on the buy exchange at the book's price with its fee. -/
def quoteCost : ℚ :=
  (offered opp inputs buySnap).avgFillPrice * tradable opp inputs buySnap sellSnap +
    (offered opp inputs buySnap).filledQuantity * (offered opp inputs buySnap).avgFillPrice *
      inputs.buyTakerFee

/-- The revenue on the sell exchange at the book's price less its fee. -/
def quoteRevenue : ℚ :=
  (wanted opp inputs sellSnap).avgFillPrice * tradable opp inputs buySnap sellSnap -
    (wanted opp inputs sellSnap).filledQuantity * (wanted opp inputs sellSnap).avgFillPrice *
      inputs.sellTakerFee

/-- The quantity that moves through the quote accounts when base and quote are
one asset. -/
def baseInQuote : ℚ :=
  if extractBaseAsset opp.pair = extractQuoteAsset opp.pair then tradable opp inputs buySnap sellSnap
  else 0

def QuoteCovers (st : PaperState) : Prop :=
  if opp.buyExchange = opp.sellExchange then
    quoteCost opp inputs buySnap sellSnap ≤
      st.balance opp.buyExchange (extractQuoteAsset opp.pair) +
        quoteRevenue opp inputs buySnap sellSnap
  else
    quoteCost opp inputs buySnap sellSnap ≤
        st.balance opp.buyExchange (extractQuoteAsset opp.pair) +
          baseInQuote opp inputs buySnap sellSnap ∧
      baseInQuote opp inputs buySnap sellSnap ≤
        st.balance opp.sellExchange (extractQuoteAsset opp.pair) +
          quoteRevenue opp inputs buySnap sellSnap

instance (st : PaperState) : Decidable (QuoteCovers opp inputs buySnap sellSnap st) :=
  inferInstanceAs (Decidable (ite _ _ _))

end Condition

/-- A call is turned away by its checks or has its costs covered. -/
def CostsCovered (st : PaperState) : PaperAction → Prop
  | .execute opp inputs => ∀ buySnap ∈ inputs.buyBook, ∀ sellSnap ∈ inputs.sellBook,
      checkQuote st opp = false ∨ checkBase st opp = false ∨
        QuoteCovers opp inputs buySnap sellSnap st
  | .rebalance => True

instance (st : PaperState) : (action : PaperAction) → Decidable (CostsCovered st action)
  | .execute opp inputs => inferInstanceAs (Decidable (∀ buySnap ∈ inputs.buyBook,
      ∀ sellSnap ∈ inputs.sellBook, checkQuote st opp = false ∨ checkBase st opp = false ∨
        QuoteCovers opp inputs buySnap sellSnap st))
  | .rebalance => .isTrue trivial

/-! ### One trade -/

theorem fillOf_bounds {quantity fillPct : ℚ} {effective : EffectivePrice}
    (h : DepthAnalyzer.Bounded quantity effective) (hlow : 1 / 2 ≤ fillPct) (hhigh : fillPct ≤ 9 / 10) :
    0 ≤ (fillOf effective quantity fillPct).filledQuantity ∧
      (fillOf effective quantity fillPct).filledQuantity ≤ max quantity 0 := by
  unfold fillOf
  split
  next hfillable => exact ⟨(h.fillable hfillable).le, le_max_left _ _⟩
  next =>
    have hpct : 0 ≤ fillPct := by linarith
    have hpart : effective.quantityFilled * fillPct ≤ effective.quantityFilled :=
      mul_le_of_le_one_right h.quantityFilled (by linarith)
    exact ⟨mul_nonneg h.quantityFilled hpct, hpart.trans h.filled_le⟩

theorem tradable_bounds (opp : ArbitrageOpportunity) {inputs : Inputs} (h : inputs.Admissible)
    {buySnap sellSnap : OrderBookSnapshot} (hbuy : buySnap ∈ inputs.buyBook)
    (hsell : sellSnap ∈ inputs.sellBook) :
    0 ≤ tradable opp inputs buySnap sellSnap ∧
      tradable opp inputs buySnap sellSnap ≤ max opp.quantity 0 := by
  have hoffered := fillOf_bounds (DepthAnalyzer.effectivePrice_bounded (h.buyBook _ hbuy).1
    (fun avg top => (avg - top) / top) opp.quantity) h.buyFillPct.1 h.buyFillPct.2
  have hwanted := fillOf_bounds (DepthAnalyzer.effectivePrice_bounded (h.sellBook _ hsell).2
    (fun avg top => (top - avg) / top) opp.quantity) h.sellFillPct.1 h.sellFillPct.2
  exact ⟨le_min hoffered.1 hwanted.1, (min_le_left _ _).trans hoffered.2⟩

theorem balance_settled (st : PaperState) (opp : ArbitrageOpportunity) (inputs : Inputs)
    (buySnap sellSnap : OrderBookSnapshot) (exch : Exchange) (asset : String) :
    (settled st opp inputs buySnap sellSnap).balance exch asset =
      st.balance exch asset +
      (if exch = opp.buyExchange ∧ asset = extractBaseAsset opp.pair then
        tradable opp inputs buySnap sellSnap else 0) +
      (if exch = opp.buyExchange ∧ asset = extractQuoteAsset opp.pair then
        -quoteCost opp inputs buySnap sellSnap else 0) +
      (if exch = opp.sellExchange ∧ asset = extractBaseAsset opp.pair then
        -tradable opp inputs buySnap sellSnap else 0) +
      (if exch = opp.sellExchange ∧ asset = extractQuoteAsset opp.pair then
        quoteRevenue opp inputs buySnap sellSnap else 0) := by
  have hcost : -quoteCost opp inputs buySnap sellSnap =
      -((buyFill opp inputs buySnap).avgFillPrice *
        matchedQty (buyFill opp inputs buySnap) (sellFill opp inputs sellSnap)) -
        (buyFill opp inputs buySnap).feePaid := neg_add' _ _
  rw [hcost]
  unfold settled bookings
  simp only [List.foldl_cons, List.foldl_nil, Section.apply]
  show (updateVirtualBalance _ _ _ _).balance exch asset = _
  rw [balance_updateVirtualBalance, balance_updateVirtualBalance, balance_updateVirtualBalance,
    balance_updateVirtualBalance]
  rfl

section Trade
variable {st : PaperState} {opp : ArbitrageOpportunity} {inputs : Inputs}
  {buySnap sellSnap : OrderBookSnapshot}

theorem settled_nonneg_of_ne_quote (hst : Solvent st)
    (hlow : 0 ≤ tradable opp inputs buySnap sellSnap)
    (hbase : tradable opp inputs buySnap sellSnap ≤
      st.balance opp.sellExchange (extractBaseAsset opp.pair))
    {asset : String} (hasset : asset ≠ extractQuoteAsset opp.pair) (exch : Exchange) :
    0 ≤ (settled st opp inputs buySnap sellSnap).balance exch asset := by
  have hbefore : 0 ≤ st.balance exch asset := hst exch asset
  rw [balance_settled]
  simp only [hasset, and_false, if_false, add_zero]
  by_cases hname : asset = extractBaseAsset opp.pair
  · subst hname
    simp only [and_true]
    by_cases hsell : exch = opp.sellExchange
    · subst hsell
      rw [if_pos rfl]
      split <;> linarith
    · rw [if_neg hsell]
      split <;> linarith
  · simp only [hname, and_false, if_false, add_zero]
    exact hbefore

theorem balance_settled_quote (exch : Exchange) :
    (settled st opp inputs buySnap sellSnap).balance exch (extractQuoteAsset opp.pair) =
      st.balance exch (extractQuoteAsset opp.pair) +
      (if exch = opp.buyExchange then
        baseInQuote opp inputs buySnap sellSnap - quoteCost opp inputs buySnap sellSnap else 0) +
      (if exch = opp.sellExchange then
        quoteRevenue opp inputs buySnap sellSnap - baseInQuote opp inputs buySnap sellSnap else 0) := by
  rw [balance_settled, baseInQuote]
  by_cases hname : extractBaseAsset opp.pair = extractQuoteAsset opp.pair
  · simp only [hname, and_true, if_true]
    split <;> split <;> ring
  · simp only [hname, Ne.symm hname, and_true, and_false, if_false]
    split <;> split <;> ring

theorem settled_quote_nonneg_iff (hst : Solvent st) :
    (∀ exch, 0 ≤ (settled st opp inputs buySnap sellSnap).balance exch (extractQuoteAsset opp.pair)) ↔
      QuoteCovers opp inputs buySnap sellSnap st := by
  simp only [balance_settled_quote, QuoteCovers]
  by_cases hsame : opp.buyExchange = opp.sellExchange
  · simp only [hsame, if_true]
    constructor
    · intro h
      have hsell := h opp.sellExchange
      simp only [if_true] at hsell
      linarith
    · intro h exch
      have hbefore := hst exch (extractQuoteAsset opp.pair)
      by_cases hexch : exch = opp.sellExchange
      · subst hexch
        simp only [if_true]
        linarith
      · simp only [hexch, if_false]
        linarith
  · simp only [hsame, if_false]
    constructor
    · intro h
      have hbuy := h opp.buyExchange
      have hsell := h opp.sellExchange
      simp only [hsame, if_true, if_false] at hbuy
      simp only [Ne.symm hsame, if_true, if_false] at hsell
      exact ⟨by linarith, by linarith⟩
    · intro h exch
      obtain ⟨hcost, hrevenue⟩ := h
      have hbefore := hst exch (extractQuoteAsset opp.pair)
      by_cases hbuy : exch = opp.buyExchange
      · subst hbuy
        simp only [hsame, if_true, if_false]
        linarith
      · by_cases hsell : exch = opp.sellExchange
        · subst hsell
          simp only [hbuy, if_true, if_false]
          linarith
        · simp only [hbuy, hsell, if_false]
          linarith

theorem settled_solvent_iff (hst : Solvent st) (hinputs : inputs.Admissible)
    (hbuy : buySnap ∈ inputs.buyBook) (hsell : sellSnap ∈ inputs.sellBook)
    (hcheck : checkBase st opp = true) :
    Solvent (settled st opp inputs buySnap sellSnap) ↔
      QuoteCovers opp inputs buySnap sellSnap st := by
  rw [← settled_quote_nonneg_iff hst]
  refine ⟨fun h exch => h exch _, ?_⟩
  intro h exch asset
  by_cases hasset : asset = extractQuoteAsset opp.pair
  · subst hasset
    exact h exch
  · obtain ⟨hlow, hhigh⟩ := tradable_bounds opp hinputs hbuy hsell
    have hquantity : opp.quantity ≤ st.balance opp.sellExchange (extractBaseAsset opp.pair) :=
      le_balance_of_check hcheck
    exact settled_nonneg_of_ne_quote hst hlow
      (hhigh.trans (max_le hquantity (hst opp.sellExchange _))) hasset exch

end Trade

/-! ### Runs -/

theorem paperStep_solvent_iff {st : PaperState} (hst : Solvent st) {action : PaperAction}
    (haction : action.Admissible) :
    Solvent (paperStep st action) ↔ CostsCovered st action := by
  cases action with
  | rebalance => exact ⟨fun _ => trivial, fun _ => balance_rebalance_nonneg hst⟩
  | execute opp inputs =>
    show Solvent (execute opp inputs st).2 ↔ CostsCovered st (.execute opp inputs)
    rcases execute_cases opp inputs st with ⟨hstopped, _, _, hsame⟩ |
      ⟨buySnap, sellSnap, hbuy, hsell, hquote, hbase, htraded⟩
    · rw [hsame]
      refine ⟨fun _ => ?_, fun _ => hst⟩
      intro buySnap hbuy sellSnap hsell
      rcases hstopped with hquote | hbase | hnone | hnone
      · exact .inl hquote
      · exact .inr (.inl hbase)
      · exact absurd (hnone.symm.trans hbuy) (Option.some_ne_none _).symm
      · exact absurd (hnone.symm.trans hsell) (Option.some_ne_none _).symm
    · have hcovers : CostsCovered st (.execute opp inputs) ↔
          QuoteCovers opp inputs buySnap sellSnap st := by
        simp [CostsCovered, hbuy, hsell, hquote, hbase]
      rw [htraded, hcovers]
      exact settled_solvent_iff hst haction hbuy hsell hbase

/-- From non-negative balances, a run keeps every balance non-negative exactly
when each call is turned away by its checks or has its costs covered. -/
theorem paper_run_solvent_iff {st : PaperState} (hst : Solvent st) {actions : List PaperAction}
    (hactions : ∀ action ∈ actions, action.Admissible) :
    Runs.Always paperStep Solvent st actions ↔ Runs.Along paperStep CostsCovered st actions := by
  have hside : Runs.Along paperStep (fun _ action => action.Admissible) st actions :=
    Runs.along_of_mem hactions st
  refine Runs.always_iff_along (I := fun _ => True) ?_ ?_ trivial hst hside
  · intro _ _ _ _ _ _
    exact trivial
  · intro st action _ hst haction
    exact paperStep_solvent_iff hst haction

/-! ### A fee on an exact balance -/

theorem sampleInputs_admissible {takerFee depth : ℚ} (hfee : 0 ≤ takerFee) (hdepth : 0 < depth) :
    (sampleInputs takerFee depth).Admissible := by
  have hpositive : ∀ exch bid ask, 0 < bid → 0 < ask → (sampleBook exch bid ask depth).Positive := by
    intro exch bid ask hbid hask
    refine ⟨?_, ?_⟩ <;> intro level hlevel <;> rw [List.mem_singleton.mp hlevel]
    · exact ⟨hask, hdepth⟩
    · exact ⟨hbid, hdepth⟩
  refine ⟨?_, ?_, hfee, hfee, by norm_num [sampleInputs], by norm_num [sampleInputs]⟩
  · intro book hbook
    cases hbook
    exact hpositive _ _ _ (by norm_num) (by norm_num)
  · intro book hbook
    cases hbook
    exact hpositive _ _ _ (by norm_num) (by norm_num)

def sampleActions : List PaperAction :=
  [.execute samplePair (sampleInputs (1 / 1000) 5), .rebalance,
    .execute samplePair (sampleInputs (1 / 1000) (1 / 2))]

theorem sampleActions_solvent :
    Runs.Always paperStep Solvent (construct sampleBalances [.binance, .okx]) sampleActions := by
  refine (paper_run_solvent_iff ?_ ?_).mpr (by decide +kernel)
  · exact balance_construct_nonneg (by decide +kernel) _
  · intro action haction
    simp only [sampleActions, List.mem_cons, List.not_mem_nil, or_false] at haction
    rcases haction with rfl | rfl | rfl
    · exact sampleInputs_admissible (by norm_num) (by norm_num)
    · exact trivial
    · exact sampleInputs_admissible (by norm_num) (by norm_num)

def exactBalances : AssetMap := ⟨[("BTC", 4), ("USDT", 200)], by decide⟩

/-- The check passes and the fee takes the quote balance below zero. -/
theorem exactBalances_not_solvent :
    let st := construct exactBalances [.binance, .okx]
    let inputs := sampleInputs (1 / 1000) 5
    Solvent st ∧ inputs.Admissible ∧
      ¬ Runs.Always paperStep Solvent st [.execute samplePair inputs] := by
  intro st inputs
  refine ⟨balance_construct_nonneg (by decide +kernel) _,
    sampleInputs_admissible (by norm_num) (by norm_num), ?_⟩
  intro h
  have hquote : 0 ≤ (paperStep st (.execute samplePair inputs)).balance .binance "USDT" :=
    h.2 .binance "USDT"
  revert hquote
  decide +kernel

end CryptoArbBot.PaperExecutor
