import CryptoArbBot.Execution.ExecuteSpec
import Mathlib.Tactic.NormNum

/-!
# Fills under exceptions

Which outcomes of the two placements leave every fill booked when `execute`
ends, normally or by an exception. `fire_orders` updates the order manager only
after both futures have returned, so one exception loses the other leg.
-/

namespace CryptoArbBot

def LiveEnv.answer (env : LiveEnv) (opp : ArbitrageOpportunity) (st : LiveState) :
    Side → Except String OrderResult
  | .buy => (env.placed opp st).1
  | .sell => (env.placed opp st).2.1

def signedQuantity (r : OrderResult) : Side → ℚ
  | .buy => r.filledQuantity
  | .sell => -r.filledQuantity

/-- The leg's result is in the order manager, its base quantity in the tracked
inventory and the result in a record passed to the trade logger. -/
structure LegBooked (env : LiveEnv) (opp : ArbitrageOpportunity) (st st' : LiveState) (side : Side)
    (r : OrderResult) : Prop where
  entry : ∃ m, st'.orders.getOrder (env.cid st side) = some m ∧ m.result = r
  recorded : st'.inventory = st.inventory.recordFills (added st.fills st'.fills)
  base : ∃ base quote, splitPair opp.pair = some (base, quote) ∧
    ⟨opp.exchangeOf side, base, signedQuantity r side, false⟩ ∈ added st.fills st'.fills
  logged : ∃ record ∈ added st.tradeLog st'.tradeLog, record.leg side = r

/-- Every leg that returned with a fill is booked and none stays PENDING. -/
def FillsBooked (env : LiveEnv) (opp : ArbitrageOpportunity) (st st' : LiveState) : Prop :=
  ∀ side r, env.answer opp st side = .ok r →
    (0 < r.filledQuantity → LegBooked env opp st st' side r) ∧
      ∀ m, st'.orders.getOrder (env.cid st side) = some m → m.result.status ≠ .pending

/-- Both placements throw; or both return, neither of them PENDING, and nothing
is filled or the pair has a hyphen and every call of the cleanup returns. -/
def BooksCleanly (env : LiveEnv) (opp : ArbitrageOpportunity) (st : LiveState) : Prop :=
  match env.placed opp st with
  | (.error _, .error _, _) => True
  | (.ok buy, .ok sell, events) =>
    buy.status ≠ .pending ∧ sell.status ≠ .pending ∧
      ((buy.filledQuantity ≤ 0 ∧ sell.filledQuantity ≤ 0) ∨
        ('-' ∈ opp.pair.toList ∧ (env.market.cleanUp opp ⟨buy, sell⟩ events).1 = .ok ()))
  | (.ok _, .error _, _) | (.error _, .ok _, _) => False

section Call
variable {env : LiveEnv} {opp : ArbitrageOpportunity} {st : LiveState}

theorem not_fillsBooked_of_tracked {st' : LiveState} (horders : st'.orders = env.tracked opp st)
    (side : Side) {r : OrderResult} (hanswer : env.answer opp st side = .ok r) :
    ¬ FillsBooked env opp st st' := by
  intro h
  obtain ⟨req, hreq⟩ := getOrder_tracked env opp st side
  exact (h side r hanswer).2 _ (horders ▸ hreq) rfl

theorem fillsBooked_iff_of_updated {st' : LiveState} {results : DualOrderResult}
    {events : List Event} (hplaced : env.placed opp st = (.ok results.buy, .ok results.sell, events))
    (horders : st'.orders = env.updated opp st results) :
    FillsBooked env opp st st' ↔
      ∀ side, (results.leg side).status ≠ .pending ∧
        (0 < (results.leg side).filledQuantity →
          LegBooked env opp st st' side (results.leg side)) := by
  have hanswer : ∀ side, env.answer opp st side = .ok (results.leg side) := by
    intro side
    cases side <;> simp [LiveEnv.answer, hplaced, DualOrderResult.leg]
  constructor
  · intro h side
    obtain ⟨req, hreq⟩ := getOrder_updated env opp st results side
    exact ⟨(h side _ (hanswer side)).2 _ (horders ▸ hreq), (h side _ (hanswer side)).1⟩
  · intro h side r hr
    obtain rfl : results.leg side = r := by
      rw [hanswer side] at hr
      exact Except.ok.inj hr
    refine ⟨(h side).2, fun m hm => ?_⟩
    obtain ⟨req, hreq⟩ := getOrder_updated env opp st results side
    rw [horders, hreq, Option.some.injEq] at hm
    rw [← hm]
    exact (h side).1

theorem legBooked_settled {timestampIso : String} {st' : LiveState} {results : DualOrderResult}
    {base quote : String} (hsplit : splitPair opp.pair = some (base, quote))
    (horders : st'.orders = env.updated opp st results)
    (hinventory : st'.inventory = st.inventory.recordFills (tradeFills opp results))
    (hlog : st'.tradeLog = st.tradeLog ++ [settledRecord env opp timestampIso st results])
    (hfills : st'.fills = st.fills ++ tradeFills opp results) (side : Side) :
    LegBooked env opp st st' side (results.leg side) where
  entry := by
    obtain ⟨req, hreq⟩ := getOrder_updated env opp st results side
    exact ⟨_, horders ▸ hreq, rfl⟩
  recorded := by rw [hinventory, hfills, added_append]
  base := by
    refine ⟨base, quote, hsplit, ?_⟩
    rw [hfills, added_append, tradeFills, hsplit]
    cases side with
    | buy => simp [ArbitrageOpportunity.exchangeOf, signedQuantity, DualOrderResult.leg]
    | sell => simp [ArbitrageOpportunity.exchangeOf, signedQuantity, DualOrderResult.leg]
  logged := by
    refine ⟨settledRecord env opp timestampIso st results, ?_, ?_⟩
    · rw [hlog, added_append]
      exact List.mem_singleton_self _
    · cases side <;> rfl

theorem not_legBooked_of_fills {st' : LiveState} (hfills : st'.fills = st.fills) (side : Side)
    (r : OrderResult) : ¬ LegBooked env opp st st' side r := by
  intro h
  obtain ⟨base, quote, _, hmem⟩ := h.base
  simp [hfills] at hmem

theorem legs_iff {results : DualOrderResult} {booked : Side → Prop} {clean : Prop}
    (hall : clean → ∀ side, booked side) (hnone : ¬ clean → ∀ side, ¬ booked side) :
    (∀ side, (results.leg side).status ≠ .pending ∧
        (0 < (results.leg side).filledQuantity → booked side)) ↔
      results.buy.status ≠ .pending ∧ results.sell.status ≠ .pending ∧
        ((results.buy.filledQuantity ≤ 0 ∧ results.sell.filledQuantity ≤ 0) ∨ clean) := by
  rw [forall_side]
  simp only [DualOrderResult.leg]
  by_cases hclean : clean
  · simp [hclean, hall hclean]
  · simp only [hclean, or_false, hnone hclean, imp_false, not_lt]
    constructor
    · intro h
      obtain ⟨⟨hbuy, hnobuy⟩, hsell, hnosell⟩ := h
      exact ⟨hbuy, hsell, hnobuy, hnosell⟩
    · intro h
      obtain ⟨hbuy, hsell, hnobuy, hnosell⟩ := h
      exact ⟨⟨hbuy, hnobuy⟩, hsell, hnosell⟩

/-- For a valid opportunity every fill is booked exactly under `BooksCleanly`. -/
theorem execute_fillsBooked_iff (timestampIso : String)
    (hvalid : validateOpportunity env.exchanges opp = true) :
    FillsBooked env opp st (execute env opp timestampIso st).2 ↔ BooksCleanly env opp st := by
  rcases hplaced : env.placed opp st with ⟨buy, sell, events⟩
  have hbuy : env.answer opp st .buy = buy := by simp only [LiveEnv.answer, hplaced]
  have hsell : env.answer opp st .sell = sell := by simp only [LiveEnv.answer, hplaced]
  simp only [BooksCleanly, hplaced]
  cases buy with
  | error e =>
    obtain ⟨e', hexec⟩ := execute_thrown timestampIso hvalid hplaced (.inl ⟨e, rfl⟩)
    rw [hexec]
    cases sell with
    | error e'' =>
      refine iff_of_true (fun side r hr => ?_) trivial
      cases side with
      | buy => simp [hbuy] at hr
      | sell => simp [hsell] at hr
    | ok sell => exact iff_of_false (not_fillsBooked_of_tracked rfl .sell hsell) id
  | ok buy =>
    cases sell with
    | error e =>
      obtain ⟨e', hexec⟩ := execute_thrown timestampIso hvalid hplaced (.inr ⟨e, rfl⟩)
      rw [hexec]
      exact iff_of_false (not_fillsBooked_of_tracked rfl .buy hbuy) id
    | ok sell =>
      have hplaced' : env.placed opp st =
          (.ok (DualOrderResult.mk buy sell).buy, .ok (DualOrderResult.mk buy sell).sell, events) :=
        hplaced
      dsimp only
      rcases hclean : env.market.cleanUp opp ⟨buy, sell⟩ events with ⟨handled, events'⟩
      cases handled with
      | error e =>
        rw [execute_unhandled timestampIso hvalid hplaced' hclean,
          fillsBooked_iff_of_updated hplaced' rfl]
        refine legs_iff (fun hok => ?_) fun _ side => not_legBooked_of_fills (by rfl) side _
        cases hok.2
      | ok _ =>
        rw [execute_settled timestampIso hvalid hplaced' hclean,
          fillsBooked_iff_of_updated hplaced' rfl]
        refine legs_iff (fun hok side => ?_) fun hnot side => not_legBooked_of_fills ?_ side _
        · obtain ⟨⟨base, quote⟩, hsplit⟩ :=
            Option.isSome_iff_exists.mp ((splitPair_isSome opp.pair).mpr hok.1)
          exact legBooked_settled hsplit rfl rfl rfl rfl side
        · have hnone : splitPair opp.pair = none := by
            rw [← Option.not_isSome_iff_eq_none, splitPair_isSome]
            exact fun hyphen => hnot ⟨hyphen, rfl⟩
          simp [tradeFills, hnone]

theorem execute_fillsBooked_filled :
    let env := scriptedEnv (scriptedMarket (.ok (filledAt "1" 100)) (.ok (filledAt "2" 102))
      (.error "") (.error ""))
    FillsBooked env sampleOpportunity emptyState
      (execute env sampleOpportunity "2024-01-01T00:00:00Z" emptyState).2 := by
  intro env
  refine (execute_fillsBooked_iff "2024-01-01T00:00:00Z" (sampleOpportunity_valid _)).mpr ?_
  exact ⟨by decide, by decide, Or.inr ⟨by decide, rfl⟩⟩

/-- The buy leg throws while the sell leg is accepted as OPEN, or filled. -/
theorem execute_not_fillsBooked :
    let thrown := fun sell => scriptedEnv (scriptedMarket (.error "parse error") (.ok sell)
      (.error "") (.error ""))
    ∀ sell ∈ [restingOrder "2", filledAt "2" 102],
      validateOpportunity (thrown sell).exchanges sampleOpportunity = true ∧
        ¬ FillsBooked (thrown sell) sampleOpportunity emptyState
          (execute (thrown sell) sampleOpportunity "2024-01-01T00:00:00Z" emptyState).2 := by
  intro thrown sell _
  have hvalid := sampleOpportunity_valid
    (scriptedMarket (.error "parse error") (.ok sell) (.error "") (.error ""))
  refine ⟨hvalid, ?_⟩
  obtain ⟨e, hexec⟩ : ∃ e, execute (thrown sell) sampleOpportunity "2024-01-01T00:00:00Z"
      emptyState = (.error e, _) :=
    execute_thrown "2024-01-01T00:00:00Z" hvalid rfl (.inl ⟨_, rfl⟩)
  rw [hexec]
  exact not_fillsBooked_of_tracked rfl .sell rfl

end Call

end CryptoArbBot
