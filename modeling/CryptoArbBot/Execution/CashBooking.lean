import CryptoArbBot.Execution.RestingOrders
import Mathlib.Algebra.BigOperators.Group.List.Basic
import Mathlib.Tactic.Ring

/-!
# Booked cash and exchanged cash

The quote legs are booked from the matched quantity and without fees, while a
leg pays or receives its own fill and its own fee.
-/

namespace CryptoArbBot

def legCash (r : OrderResult) : Side → ℚ
  | .buy => -(r.filledQuantity * r.avgFillPrice + r.feePaid)
  | .sell => r.filledQuantity * r.avgFillPrice - r.feePaid

/-- The balance changes of a trade whose legs are booked at their own fills. -/
def ownFills (opp : ArbitrageOpportunity) (results : DualOrderResult) : List Fill :=
  match splitPair opp.pair with
  | none => []
  | some (base, quote) =>
    [⟨opp.buyExchange, base, results.buy.filledQuantity, false⟩,
      ⟨opp.buyExchange, quote, legCash results.buy .buy, true⟩,
      ⟨opp.sellExchange, base, -results.sell.filledQuantity, false⟩,
      ⟨opp.sellExchange, quote, legCash results.sell .sell, true⟩]

/-- The leg with the smaller fill has no fee, and the value of the other leg's
unmatched quantity is what its fee adds or takes. -/
def CashMatches (results : DualOrderResult) : Prop :=
  (results.buy.filledQuantity ≤ results.sell.filledQuantity ∧ results.buy.feePaid = 0 ∧
    (results.sell.filledQuantity - results.buy.filledQuantity) * results.sell.avgFillPrice =
      results.sell.feePaid) ∨
  (results.sell.filledQuantity < results.buy.filledQuantity ∧
    (results.buy.filledQuantity - results.sell.filledQuantity) * results.buy.avgFillPrice =
      -results.buy.feePaid ∧ results.sell.feePaid = 0)

theorem cashMatches_iff (results : DualOrderResult) :
    CashMatches results ↔ -buyCost results = legCash results.buy .buy ∧
      sellProceeds results = legCash results.sell .sell := by
  simp only [CashMatches, buyCost, sellProceeds, matchedQty, legCash]
  rcases le_or_gt results.buy.filledQuantity results.sell.filledQuantity with hle | hlt
  · rw [min_eq_left hle]
    constructor
    · intro h
      rcases h with ⟨_, hbuy, hsell⟩ | ⟨hlt, _⟩
      · exact ⟨by linarith, by linarith⟩
      · exact absurd hlt (not_lt.mpr hle)
    · intro h
      obtain ⟨hbuy, hsell⟩ := h
      exact .inl ⟨hle, by linarith, by linarith⟩
  · rw [min_eq_right hlt.le]
    constructor
    · intro h
      rcases h with ⟨hle, _⟩ | ⟨_, hbuy, hsell⟩
      · exact absurd hlt (not_lt.mpr hle)
      · exact ⟨by linarith, by linarith⟩
    · intro h
      obtain ⟨hbuy, hsell⟩ := h
      exact .inr ⟨hlt, by linarith, by linarith⟩

theorem tradeFills_eq_ownFills {opp : ArbitrageOpportunity} (results : DualOrderResult)
    (hyphen : '-' ∈ opp.pair.toList) :
    tradeFills opp results = ownFills opp results ↔ CashMatches results := by
  obtain ⟨⟨base, quote⟩, hsplit⟩ :=
    Option.isSome_iff_exists.mp ((splitPair_isSome opp.pair).mpr hyphen)
  rw [cashMatches_iff, tradeFills, ownFills, hsplit]
  simp

/-! ### Sums over a run -/

def quoteSum (fills : List Fill) : ℚ := ((fills.filter (·.quoteLeg)).map (·.delta)).sum

/-- What an event moves in quote currency: a placement that returned. -/
def Event.cash (e : Event) : ℚ :=
  match e.request, e.answer with
  | .place req, .ok r => legCash r req.side
  | .place _, .error _ | .query _ _ _, _ | .cancel _ _ _, _ => 0

def exchangedCash (events : List Event) : ℚ := (events.map Event.cash).sum

theorem quoteSum_append (xs ys : List Fill) : quoteSum (xs ++ ys) = quoteSum xs + quoteSum ys := by
  simp [quoteSum]

theorem exchangedCash_append (xs ys : List Event) :
    exchangedCash (xs ++ ys) = exchangedCash xs + exchangedCash ys := by
  simp [exchangedCash]

theorem quoteSum_ownFills {opp : ArbitrageOpportunity} (results : DualOrderResult)
    (hyphen : '-' ∈ opp.pair.toList) :
    quoteSum (ownFills opp results) = legCash results.buy .buy + legCash results.sell .sell := by
  obtain ⟨⟨base, quote⟩, hsplit⟩ :=
    Option.isSome_iff_exists.mp ((splitPair_isSome opp.pair).mpr hyphen)
  simp [ownFills, hsplit, quoteSum]

theorem cleanUp_cash (m : Market) (opp : ArbitrageOpportunity) (results : DualOrderResult)
    (events : List Event) :
    exchangedCash (m.cleanUp opp results events).2 = exchangedCash events := by
  have hP : KeptByCleanup fun es => exchangedCash es = exchangedCash events := by
    intro es request answer hrequest h
    rw [exchangedCash_append, h]
    cases request with
    | place req => exact (hrequest req rfl).elim
    | query exch pair orderId => simp [exchangedCash, Event.cash]
    | cancel exch pair orderId => simp [exchangedCash, Event.cash]
  exact cleanUp_kept hP m opp results rfl

theorem placeBoth_cash (m : Market) (buyReq sellReq : OrderRequest) (events : List Event)
    {results : DualOrderResult} {events' : List Event} (hbuy : buyReq.side = .buy)
    (hsell : sellReq.side = .sell)
    (h : m.placeBoth buyReq sellReq events = (.ok results.buy, .ok results.sell, events')) :
    exchangedCash events' =
      exchangedCash events + (legCash results.buy .buy + legCash results.sell .sell) := by
  unfold Market.placeBoth Market.call at h
  cases hfirst : m.sellFirst events with
  | true =>
    simp only [hfirst, if_true, Prod.mk.injEq] at h
    obtain ⟨hb, hs, rfl⟩ := h
    rw [hb, hs]
    simp only [exchangedCash_append]
    simp [exchangedCash, Event.cash, hbuy, hsell]
    ring
  | false =>
    simp only [hfirst, Bool.false_eq_true, if_false, Prod.mk.injEq] at h
    obtain ⟨hb, hs, rfl⟩ := h
    rw [hs, hb]
    simp only [exchangedCash_append]
    simp [exchangedCash, Event.cash, hbuy, hsell]
    ring

/-! ### Calls and runs -/

theorem execute_fills {env : LiveEnv} {opp : ArbitrageOpportunity} (timestampIso : String)
    {st : LiveState} {results : DualOrderResult} {events : List Event}
    (hvalid : validateOpportunity env.exchanges opp = true)
    (hplaced : env.placed opp st = (.ok results.buy, .ok results.sell, events)) :
    added st.fills (execute env opp timestampIso st).2.fills =
      if (env.market.cleanUp opp results events).1 = .ok () then tradeFills opp results else [] := by
  rcases hclean : env.market.cleanUp opp results events with ⟨handled, events'⟩
  cases handled with
  | error e =>
    rw [execute_unhandled timestampIso hvalid hplaced hclean]
    simp
  | ok _ =>
    rw [execute_settled timestampIso hvalid hplaced hclean]
    simp

/-- A valid call is for a pair with a hyphen, its placements return, its cleanup
does not throw, and its legs match in cash. -/
def CallCashMatches (env : LiveEnv) (st : LiveState) (call : ArbitrageOpportunity × String) : Prop :=
  validateOpportunity env.exchanges call.1 = true →
    ∃ results events, env.placed call.1 st = (.ok results.buy, .ok results.sell, events) ∧
      '-' ∈ call.1.pair.toList ∧ (env.market.cleanUp call.1 results events).1 = .ok () ∧
      CashMatches results

theorem executeStep_cash {env : LiveEnv} {st : LiveState} {call : ArbitrageOpportunity × String}
    (h : CallCashMatches env st call) :
    quoteSum (executeStep env st call).fills - exchangedCash (executeStep env st call).events =
      quoteSum st.fills - exchangedCash st.events := by
  unfold executeStep
  cases hvalid : validateOpportunity env.exchanges call.1 with
  | false => rw [execute_invalid call.2 hvalid]
  | true =>
    obtain ⟨results, events, hplaced, hyphen, hok, hmatch⟩ := h hvalid
    rcases hclean : env.market.cleanUp call.1 results events with ⟨handled, events'⟩
    rw [hclean] at hok
    subst hok
    rw [execute_settled call.2 hvalid hplaced hclean]
    have hcash : exchangedCash events' = exchangedCash events := by
      have hno := cleanUp_cash env.market call.1 results events
      rwa [hclean] at hno
    have hplacements := placeBoth_cash env.market _ _ _ rfl rfl hplaced
    rw [(tradeFills_eq_ownFills results hyphen).mpr hmatch]
    simp only [quoteSum_append, quoteSum_ownFills results hyphen, hcash, hplacements]
    ring

/-- A call books its legs at their own fills exactly when its cleanup returns
and the legs match in cash; over a run of such calls the booked quote legs sum
to the cash exchanged. -/
theorem execute_books_ownFills_iff (env : LiveEnv) :
    (∀ (opp : ArbitrageOpportunity) (timestampIso : String) (st : LiveState)
        (results : DualOrderResult) (events : List Event),
      validateOpportunity env.exchanges opp = true → '-' ∈ opp.pair.toList →
      env.placed opp st = (.ok results.buy, .ok results.sell, events) →
      (added st.fills (execute env opp timestampIso st).2.fills = ownFills opp results ↔
        (env.market.cleanUp opp results events).1 = .ok () ∧ CashMatches results)) ∧
    ∀ (st : LiveState) (calls : List (ArbitrageOpportunity × String)),
      Runs.Along (executeStep env) (CallCashMatches env) st calls →
        quoteSum (Runs.run (executeStep env) st calls).fills - quoteSum st.fills =
          exchangedCash (Runs.run (executeStep env) st calls).events - exchangedCash st.events := by
  constructor
  · intro opp timestampIso st results events hvalid hyphen hplaced
    rw [execute_fills timestampIso hvalid hplaced]
    by_cases hok : (env.market.cleanUp opp results events).1 = .ok ()
    · rw [if_pos hok, tradeFills_eq_ownFills results hyphen]
      exact ⟨fun h => ⟨hok, h⟩, fun h => h.2⟩
    · rw [if_neg hok]
      refine ⟨fun h => ?_, fun h => (hok h.1).elim⟩
      obtain ⟨⟨base, quote⟩, hsplit⟩ :=
        Option.isSome_iff_exists.mp ((splitPair_isSome opp.pair).mpr hyphen)
      simp [ownFills, hsplit] at h
  · intro st calls hrun
    have h := Runs.invariant_along
      (I := fun s => quoteSum s.fills - exchangedCash s.events =
        quoteSum st.fills - exchangedCash st.events)
      (fun s call hI hok => (executeStep_cash hok).trans hI) rfl hrun
    linarith

/-- Both legs are filled without fees. -/
def feelessEnv : LiveEnv :=
  scriptedEnv (scriptedMarket (.ok (filledAt "1" 100)) (.ok (filledAt "2" 102)) (.error "")
    (.error ""))

theorem feelessEnv_ownFills :
    let results : DualOrderResult := ⟨filledAt "1" 100, filledAt "2" 102⟩
    let last := Runs.run (executeStep feelessEnv) emptyState
      [(sampleOpportunity, "2024-01-01T00:00:00Z")]
    added emptyState.fills
        (execute feelessEnv sampleOpportunity "2024-01-01T00:00:00Z" emptyState).2.fills =
      ownFills sampleOpportunity results ∧
    quoteSum last.fills - quoteSum emptyState.fills =
      exchangedCash last.events - exchangedCash emptyState.events := by
  intro results last
  obtain ⟨hcall, hrun⟩ := execute_books_ownFills_iff feelessEnv
  have hhyphen : '-' ∈ sampleOpportunity.pair.toList := by decide
  have hmatch : CashMatches results := .inl ⟨le_rfl, rfl, by decide +kernel⟩
  refine ⟨(hcall _ _ _ results _ (sampleOpportunity_valid _) hhyphen rfl).mpr ⟨rfl, hmatch⟩,
    hrun _ _ ⟨fun _ => ?_, trivial⟩⟩
  exact ⟨results, _, rfl, hhyphen, rfl, hmatch⟩

def feesEnv : LiveEnv :=
  scriptedEnv (scriptedMarket (.ok { filledAt "1" 100 with feePaid := 1 / 10 })
    (.ok { filledAt "2" 102 with feePaid := 1 / 10 }) (.error "") (.error ""))

theorem feesEnv_not_ownFills :
    validateOpportunity feesEnv.exchanges sampleOpportunity = true ∧
      '-' ∈ sampleOpportunity.pair.toList ∧
      ∃ (results : DualOrderResult) (events : List Event),
        feesEnv.placed sampleOpportunity emptyState = (.ok results.buy, .ok results.sell, events) ∧
        added emptyState.fills
            (execute feesEnv sampleOpportunity "2024-01-01T00:00:00Z" emptyState).2.fills ≠
          ownFills sampleOpportunity results := by
  refine ⟨sampleOpportunity_valid _, by decide,
    ⟨{ filledAt "1" 100 with feePaid := 1 / 10 }, { filledAt "2" 102 with feePaid := 1 / 10 }⟩, _,
    rfl, ?_⟩
  decide +kernel

end CryptoArbBot
