import CryptoArbBot.Execution.PaperSolvency

/-!
# Concurrent calls on one balance

A call checks its balances in sections of their own and debits them in later
ones. A balance that another thread spends in between is debited although the
check no longer holds; while the checks hold at the debits, nothing is overdrawn.
-/

namespace CryptoArbBot.PaperExecutor

/-- No fees, and a buy fill that is not dearer than the opportunity. -/
structure WithinCheck (opp : ArbitrageOpportunity) (inputs : Inputs) : Prop where
  admissible : inputs.Admissible
  buyTakerFee : inputs.buyTakerFee = 0
  sellTakerFee : inputs.sellTakerFee = 0
  buyPrice : ∀ book ∈ inputs.buyBook,
    (DepthAnalyzer.effectiveBuyPrice book opp.quantity).avgPrice ≤ opp.buyPrice

/-- A call about to debit the quote, or the base, would still pass its check. -/
def Call.ChecksHold (st : PaperState) (call : Call) : Prop :=
  match call.stage with
  | .booking _ _ [_, _, _, _] => checkQuote st call.opp = true
  | .booking _ _ [_, _, _] => checkBase st call.opp = true
  | _ => True

instance (st : PaperState) (call : Call) : Decidable (call.ChecksHold st) := by
  unfold Call.ChecksHold
  split <;> infer_instance

def DebitsChecked (sys : System) : Action → Prop
  | .advance i => ∀ call ∈ sys.calls[i]?, call.ChecksHold sys.shared
  | .start _ | .atomic _ => True

instance (sys : System) : (action : Action) → Decidable (DebitsChecked sys action)
  | .advance i => inferInstanceAs (Decidable (∀ call ∈ sys.calls[i]?, call.ChecksHold sys.shared))
  | .start _ | .atomic _ => .isTrue trivial

/-! ### One section -/

/-- A call books what its own books and opportunity give. -/
def Call.Sound (call : Call) : Prop :=
  WithinCheck call.opp call.inputs ∧
    match call.stage with
    | .booking buySnap sellSnap todo =>
      buySnap ∈ call.inputs.buyBook ∧ sellSnap ∈ call.inputs.sellBook ∧
        todo <:+ bookings call.opp (buyFill call.opp call.inputs buySnap)
          (sellFill call.opp call.inputs sellSnap)
    | .checkQuote | .checkBase | .readBooks | .returned _ => True

theorem sound_advance (st : PaperState) (call : Call) (h : call.Sound) :
    (call.advance st).2.Sound := by
  obtain ⟨opp, inputs, stage⟩ := call
  obtain ⟨hwithin, hstage⟩ := h
  cases stage with
  | checkQuote =>
    refine ⟨hwithin, ?_⟩
    simp only [Call.advance]
    cases checkQuote st opp <;> exact trivial
  | checkBase =>
    refine ⟨hwithin, ?_⟩
    simp only [Call.advance]
    cases checkBase st opp <;> exact trivial
  | readBooks =>
    refine ⟨hwithin, ?_⟩
    simp only [Call.advance]
    cases inputs.buyBook with
    | none => exact trivial
    | some buySnap =>
      cases inputs.sellBook with
      | none => exact trivial
      | some sellSnap => exact ⟨rfl, rfl, List.suffix_rfl⟩
  | booking buySnap sellSnap todo =>
    cases todo with
    | nil => exact ⟨hwithin, trivial⟩
    | cons s todo =>
      obtain ⟨hbuy, hsell, hsuffix⟩ := hstage
      exact ⟨hwithin, hbuy, hsell, (List.suffix_cons s todo).trans hsuffix⟩
  | returned record => exact ⟨hwithin, trivial⟩

theorem solvent_updateVirtualBalance {st : PaperState} (hst : Solvent st) {exch : Exchange}
    {asset : String} {delta : ℚ} (h : 0 ≤ st.balance exch asset + delta) :
    Solvent (updateVirtualBalance st exch asset delta) := by
  intro exch' asset'
  rw [balance_updateVirtualBalance]
  split
  next hkey =>
    obtain ⟨hexch, hasset⟩ := hkey
    subst hexch hasset
    exact h
  next =>
    rw [add_zero]
    exact hst exch' asset'

section Debits
variable {opp : ArbitrageOpportunity} {inputs : Inputs} {buySnap sellSnap : OrderBookSnapshot}

theorem matchedQty_bounds (hwithin : WithinCheck opp inputs) (hbuy : buySnap ∈ inputs.buyBook)
    (hsell : sellSnap ∈ inputs.sellBook) :
    0 ≤ matchedQty (buyFill opp inputs buySnap) (sellFill opp inputs sellSnap) ∧
      matchedQty (buyFill opp inputs buySnap) (sellFill opp inputs sellSnap) ≤
        max opp.quantity 0 :=
  tradable_bounds opp hwithin.admissible hbuy hsell

theorem avgFillPrice_fillOf (effective : EffectivePrice) (quantity fillPct : ℚ) :
    (fillOf effective quantity fillPct).avgFillPrice = effective.avgPrice := by
  unfold fillOf
  split <;> rfl

theorem buyCost_le_balance {st : PaperState} (hst : Solvent st) (hwithin : WithinCheck opp inputs)
    (hbuy : buySnap ∈ inputs.buyBook) (hsell : sellSnap ∈ inputs.sellBook)
    (hcheck : checkQuote st opp = true) :
    (buyFill opp inputs buySnap).avgFillPrice *
        matchedQty (buyFill opp inputs buySnap) (sellFill opp inputs sellSnap) ≤
      st.balance opp.buyExchange (extractQuoteAsset opp.pair) := by
  obtain ⟨hlow, hhigh⟩ := matchedQty_bounds hwithin hbuy hsell
  have havg : (buyFill opp inputs buySnap).avgFillPrice =
      (DepthAnalyzer.effectiveBuyPrice buySnap opp.quantity).avgPrice := avgFillPrice_fillOf ..
  have hprice : (buyFill opp inputs buySnap).avgFillPrice ≤ opp.buyPrice :=
    havg ▸ hwithin.buyPrice buySnap hbuy
  have hnonneg : 0 ≤ (buyFill opp inputs buySnap).avgFillPrice :=
    havg ▸ DepthAnalyzer.effectivePrice_avgPrice_nonneg (hwithin.admissible.buyBook _ hbuy).1 _ _
  have hbalance : opp.buyPrice * opp.quantity ≤
      st.balance opp.buyExchange (extractQuoteAsset opp.pair) := le_balance_of_check hcheck
  rcases le_total opp.quantity 0 with hquantity | hquantity
  · -- nothing is bought, so nothing is debited
    have hzero : matchedQty (buyFill opp inputs buySnap) (sellFill opp inputs sellSnap) = 0 :=
      le_antisymm (hhigh.trans_eq (max_eq_right hquantity)) hlow
    rw [hzero, mul_zero]
    exact hst _ _
  · rw [max_eq_left hquantity] at hhigh
    calc _ ≤ opp.buyPrice * opp.quantity := mul_le_mul hprice hhigh hlow (hnonneg.trans hprice)
      _ ≤ _ := hbalance

theorem sellProceeds_nonneg (hwithin : WithinCheck opp inputs) (hbuy : buySnap ∈ inputs.buyBook)
    (hsell : sellSnap ∈ inputs.sellBook) :
    0 ≤ (sellFill opp inputs sellSnap).avgFillPrice *
      matchedQty (buyFill opp inputs buySnap) (sellFill opp inputs sellSnap) := by
  have havg : (sellFill opp inputs sellSnap).avgFillPrice =
      (DepthAnalyzer.effectiveSellPrice sellSnap opp.quantity).avgPrice := avgFillPrice_fillOf ..
  have hnonneg : 0 ≤ (sellFill opp inputs sellSnap).avgFillPrice :=
    havg ▸ DepthAnalyzer.effectivePrice_avgPrice_nonneg (hwithin.admissible.sellBook _ hsell).2 _ _
  exact mul_nonneg hnonneg (matchedQty_bounds hwithin hbuy hsell).1

end Debits

theorem solvent_advance {st : PaperState} (hst : Solvent st) {call : Call} (hsound : call.Sound)
    (hchecks : call.ChecksHold st) : Solvent (call.advance st).1 := by
  obtain ⟨opp, inputs, stage⟩ := call
  obtain ⟨hwithin, hstage⟩ := hsound
  cases stage with
  | checkQuote => exact hst
  | checkBase => exact hst
  | readBooks => exact hst
  | returned record => exact hst
  | booking buySnap sellSnap todo =>
    cases todo with
    | nil => exact hst
    | cons s todo =>
      obtain ⟨hbuy, hsell, hsuffix⟩ := hstage
      obtain ⟨hlow, hhigh⟩ := matchedQty_bounds hwithin hbuy hsell
      have hbuyFee : (buyFill opp inputs buySnap).feePaid = 0 := by
        show _ * _ * inputs.buyTakerFee = 0
        rw [hwithin.buyTakerFee, mul_zero]
      have hsellFee : (sellFill opp inputs sellSnap).feePaid = 0 := by
        show _ * _ * inputs.sellTakerFee = 0
        rw [hwithin.sellTakerFee, mul_zero]
      show Solvent (s.apply st)
      simp only [bookings, List.suffix_cons_iff, List.suffix_nil, List.cons.injEq] at hsuffix
      rcases hsuffix with ⟨rfl, rfl⟩ | ⟨rfl, rfl⟩ | ⟨rfl, rfl⟩ | ⟨rfl, rfl⟩ | ⟨rfl, rfl⟩ | hnone
      · exact solvent_updateVirtualBalance hst (add_nonneg (hst _ _) hlow)
      · have hcost := buyCost_le_balance hst hwithin hbuy hsell hchecks
        refine solvent_updateVirtualBalance hst ?_
        rw [hbuyFee]
        linarith
      · have hquantity : opp.quantity ≤
            st.balance opp.sellExchange (extractBaseAsset opp.pair) := le_balance_of_check hchecks
        have hcovered := hhigh.trans (max_le hquantity (hst opp.sellExchange _))
        refine solvent_updateVirtualBalance hst ?_
        linarith
      · have hproceeds := sellProceeds_nonneg hwithin hbuy hsell
        refine solvent_updateVirtualBalance hst ?_
        rw [hsellFee, sub_zero]
        exact add_nonneg (hst _ _) hproceeds
      · exact hst
      · cases hnone

/-! ### Schedules -/

/-- However the sections interleave, no balance goes below zero while each
check still holds when its debit is booked. -/
theorem schedule_solvent {st : PaperState} (hst : Solvent st) {schedule : List Action}
    (hstart : ∀ opp inputs, .start (opp, inputs) ∈ schedule → WithinCheck opp inputs)
    (hdebits : Runs.Along (Interleaving.step program) DebitsChecked ⟨st, []⟩ schedule) :
    Runs.Always (Interleaving.step program) (fun sys => Solvent sys.shared) ⟨st, []⟩ schedule := by
  have hfresh : Runs.Along (Interleaving.step program)
      (fun _ action => ∀ opp inputs, action = .start (opp, inputs) → WithinCheck opp inputs)
      ⟨st, []⟩ schedule := by
    refine Runs.along_of_mem ?_ _
    intro action haction opp inputs heq
    exact hstart opp inputs (heq ▸ haction)
  have hinv : Runs.Always (Interleaving.step program)
      (fun sys => Solvent sys.shared ∧ ∀ call ∈ sys.calls, call.Sound) ⟨st, []⟩ schedule := by
    refine Runs.always_of_along ?_ ⟨hst, fun _ hcall => by cases hcall⟩ (hfresh.and hdebits)
    intro sys action hsys haction
    obtain ⟨hsolvent, hsound⟩ := hsys
    obtain ⟨hnew, hchecked⟩ := haction
    refine ⟨?_, ?_⟩
    · cases action with
      | start args => exact hsolvent
      | atomic op => exact balance_rebalance_nonneg hsolvent
      | advance i =>
        cases hi : sys.calls[i]? with
        | none =>
          rw [Interleaving.step_advance_none hi]
          exact hsolvent
        | some call =>
          rw [Interleaving.step_advance_some hi]
          exact solvent_advance hsolvent (hsound call (List.mem_of_getElem? hi)) (hchecked call hi)
    · exact Interleaving.forall_calls_step sound_advance hsound fun args heq =>
        ⟨hnew args.1 args.2 heq, trivial⟩
  exact hinv.imp fun _ h => h.1

/-! ### Two calls on one balance -/

theorem sampleInputs_withinCheck {depth : ℚ} (hdepth : 1 ≤ depth) :
    WithinCheck samplePair (sampleInputs 0 depth) := by
  refine ⟨sampleInputs_admissible le_rfl (by linarith), rfl, rfl, ?_⟩
  intro book hbook
  cases hbook
  have hfill : min 1 depth = 1 := min_eq_left hdepth
  have havg : (DepthAnalyzer.effectiveBuyPrice (sampleBook .binance 99 100 depth) 1).avgPrice =
      100 := by
    norm_num [DepthAnalyzer.effectiveBuyPrice, DepthAnalyzer.effectivePrice, sampleBook,
      DepthAnalyzer.walk, hfill]
  exact havg.le

/-- Both calls check before either debits. -/
def staleSchedule : List Action :=
  ([.start (samplePair, sampleInputs 0 5), .start (samplePair, sampleInputs 0 5)] : List Action) ++
    List.replicate 2 (.advance 0) ++ List.replicate 2 (.advance 1) ++
    List.replicate 3 (.advance 0) ++ List.replicate 7 (.advance 1) ++ List.replicate 4 (.advance 0)

theorem staleSchedule_start (opp : ArbitrageOpportunity) (inputs : Inputs)
    (hstart : .start (opp, inputs) ∈ staleSchedule) : WithinCheck opp inputs := by
  have hargs : opp = samplePair ∧ inputs = sampleInputs 0 5 := by
    simpa [staleSchedule] using hstart
  rw [hargs.1, hargs.2]
  exact sampleInputs_withinCheck (by norm_num)

theorem staleSchedule_covered :
    Runs.Always (Interleaving.step program) (fun sys => Solvent sys.shared)
      ⟨construct sampleBalances [.binance, .okx], []⟩ staleSchedule :=
  schedule_solvent (balance_construct_nonneg (by decide +kernel) _) staleSchedule_start
    (by decide +kernel)

/-- The quote balance pays for one of the two calls that have checked it. -/
theorem staleSchedule_overdraws :
    let st := construct exactBalances [.binance, .okx]
    Solvent st ∧
      (∀ opp inputs, .start (opp, inputs) ∈ staleSchedule → WithinCheck opp inputs) ∧
      ¬ Runs.Always (Interleaving.step program) (fun sys => Solvent sys.shared) ⟨st, []⟩
        staleSchedule := by
  intro st
  refine ⟨balance_construct_nonneg (by decide +kernel) _, staleSchedule_start, ?_⟩
  intro h
  have hquote : 0 ≤ (runFrom st staleSchedule).shared.balance .binance "USDT" :=
    h.last .binance "USDT"
  revert hquote
  decide +kernel

end CryptoArbBot.PaperExecutor
