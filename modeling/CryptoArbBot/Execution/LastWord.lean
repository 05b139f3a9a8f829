import CryptoArbBot.Execution.FillBooking
import CryptoArbBot.Execution.RestingOrders

/-!
# Records and the exchange's last word

The order manager, the trade record and the inventory are written from the
placement answers. What the cleanup hears about an order afterwards is used for
its decisions only.
-/

namespace CryptoArbBot

/-- The base quantity booked for a leg is that of the result; without a hyphen
in the pair nothing is booked. -/
def BaseBooked (opp : ArbitrageOpportunity) (st st' : LiveState) (side : Side) (r : OrderResult) :
    Prop :=
  match splitPair opp.pair with
  | some (base, _) =>
    ⟨opp.exchangeOf side, base, signedQuantity r side, false⟩ ∈ added st.fills st'.fills
  | none => r.filledQuantity = 0

/-- For each leg the order manager's entry, the record and the booked base
quantity agree with the last result that the exchange returned for the order. -/
def RecordsAgree (env : LiveEnv) (opp : ArbitrageOpportunity) (st : LiveState)
    (record : TradeRecord) (st' : LiveState) : Prop :=
  ∀ (results : DualOrderResult) events, env.placed opp st = (.ok results.buy, .ok results.sell, events) →
    ∀ side, ∃ last,
      lastReport (added st.events st'.events) (opp.exchangeOf side)
        (results.leg side).exchangeOrderId = some last ∧
      (∃ m, st'.orders.getOrder (env.cid st side) = some m ∧ m.result = last) ∧
      record.leg side = last ∧ BaseBooked opp st st' side last

/-- The last answer about each order, counting the queries and cancellations of
the cleanup, is its placement answer again, and the pair has a hyphen or
nothing was filled. -/
def LastWordRepeats (env : LiveEnv) (opp : ArbitrageOpportunity) (st : LiveState) : Prop :=
  ∀ (results : DualOrderResult) events, env.placed opp st = (.ok results.buy, .ok results.sell, events) →
    ∀ side,
      lastReport (added st.events (env.market.cleanUp opp results events).2) (opp.exchangeOf side)
        (results.leg side).exchangeOrderId = some (results.leg side) ∧
      ('-' ∈ opp.pair.toList ∨ (results.leg side).filledQuantity = 0)

theorem baseBooked_settled {opp : ArbitrageOpportunity} {st st' : LiveState}
    {results : DualOrderResult} (hfills : st'.fills = st.fills ++ tradeFills opp results)
    (side : Side) :
    BaseBooked opp st st' side (results.leg side) ↔
      '-' ∈ opp.pair.toList ∨ (results.leg side).filledQuantity = 0 := by
  rw [← splitPair_isSome, BaseBooked, hfills, added_append, tradeFills]
  cases splitPair opp.pair with
  | none => simp
  | some parts =>
    obtain ⟨base, quote⟩ := parts
    cases side with
    | buy => simp [ArbitrageOpportunity.exchangeOf, signedQuantity, DualOrderResult.leg]
    | sell => simp [ArbitrageOpportunity.exchangeOf, signedQuantity, DualOrderResult.leg]

theorem DualOrderResult.of_placed {env : LiveEnv} {opp : ArbitrageOpportunity} {st : LiveState}
    {results results' : DualOrderResult} {events events' : List Event}
    (h : env.placed opp st = (.ok results.buy, .ok results.sell, events))
    (h' : env.placed opp st = (.ok results'.buy, .ok results'.sell, events')) :
    results' = results ∧ events' = events := by
  rw [h, Prod.mk.injEq, Prod.mk.injEq, Except.ok.injEq, Except.ok.injEq] at h'
  obtain ⟨hbuy, hsell, hevents⟩ := h'
  cases results
  cases results'
  simp_all

/-- A call that returns leaves agreeing records exactly when the exchanges'
last word repeats the placement answers. -/
theorem execute_recordsAgree_iff {env : LiveEnv} {opp : ArbitrageOpportunity}
    {timestampIso : String} {st st' : LiveState} {record : TradeRecord}
    (hvalid : validateOpportunity env.exchanges opp = true)
    (hret : execute env opp timestampIso st = (.ok record, st')) :
    RecordsAgree env opp st record st' ↔ LastWordRepeats env opp st := by
  obtain ⟨results, events, events', hplaced, hclean, rfl, rfl⟩ :=
    execute_ok_inv timestampIso hvalid hret
  have hleg : ∀ side, (settledRecord env opp timestampIso st results).leg side = results.leg side := by
    intro side
    cases side <;> rfl
  constructor
  · intro h results' events'' hplaced' side
    obtain ⟨rfl, rfl⟩ := DualOrderResult.of_placed hplaced hplaced'
    obtain ⟨last, hlast, _, hrecord, hbase⟩ := h _ _ hplaced side
    rw [hleg] at hrecord
    subst hrecord
    rw [hclean]
    exact ⟨hlast, (baseBooked_settled rfl side).mp hbase⟩
  · intro h results' events'' hplaced' side
    obtain ⟨rfl, rfl⟩ := DualOrderResult.of_placed hplaced hplaced'
    obtain ⟨hlast, hbase⟩ := h _ _ hplaced side
    rw [hclean] at hlast
    obtain ⟨req, hreq⟩ := getOrder_updated env opp st results' side
    exact ⟨_, hlast, ⟨_, hreq, rfl⟩, hleg side, (baseBooked_settled rfl side).mpr hbase⟩

/-! ### The open orders -/

section OpenOrders
variable {env : LiveEnv} {opp : ArbitrageOpportunity} {st : LiveState}

theorem orders_updated (results : DualOrderResult)
    (hfresh : ∀ side, env.cid st side ∉ st.orders.orders.map Prod.fst) :
    (env.updated opp st results).orders = st.orders.orders ++
      [(env.cid st .buy, ⟨buyRequest opp (env.cid st .buy), results.buy⟩),
        (env.cid st .sell, ⟨sellRequest opp (env.cid st .sell), results.sell⟩)] := by
  have hne := cid_ne env st
  have hbuy := OrderManager.trackOrder_orders st.orders (buyRequest opp (env.cid st .buy)) (hfresh .buy)
  have hsellFresh : env.cid st .sell ∉ (st.orders.trackOrder (env.cid st .buy)
      (buyRequest opp (env.cid st .buy))).orders.map Prod.fst := by
    rw [hbuy, List.map_append, List.mem_append]
    rintro (hold | hnew)
    · exact hfresh .sell hold
    · exact hne (List.mem_singleton.mp hnew).symm
  have htracked := OrderManager.trackOrder_orders _ (sellRequest opp (env.cid st .sell)) hsellFresh
  rw [hbuy] at htracked
  simp only [LiveEnv.updated, LiveEnv.tracked, OrderManager.updateOrder, htracked]
  simp only [OrderManager.replace_append, OrderManager.replace_of_not_mem (hfresh .buy),
    OrderManager.replace_of_not_mem (hfresh .sell), List.append_assoc]
  simp [OrderManager.replace, hne, hne.symm]

/-- After a call whose orders end as they were answered, `open_order_count` counts of
the two those that the exchange last reported as live. -/
theorem execute_openOrderCount {timestampIso : String} {st' : LiveState} {record : TradeRecord}
    (hvalid : validateOpportunity env.exchanges opp = true)
    (hret : execute env opp timestampIso st = (.ok record, st')) (hlast : LastWordRepeats env opp st)
    (hfresh : ∀ side, env.cid st side ∉ st.orders.orders.map Prod.fst) {results : DualOrderResult}
    {events : List Event} (hplaced : env.placed opp st = (.ok results.buy, .ok results.sell, events)) :
    st'.orders.openOrderCount = st.orders.openOrderCount +
      [Side.buy, .sell].countP fun side =>
        (lastReport (added st.events st'.events) (opp.exchangeOf side)
          (results.leg side).exchangeOrderId).any fun last => last.status.live := by
  obtain ⟨results', events', events'', hplaced', hclean, -, rfl⟩ :=
    execute_ok_inv timestampIso hvalid hret
  obtain ⟨rfl, rfl⟩ := DualOrderResult.of_placed hplaced hplaced'
  have hreport : ∀ side, lastReport (added st.events events'') (opp.exchangeOf side)
      (results'.leg side).exchangeOrderId = some (results'.leg side) := by
    intro side
    have hword := (hlast _ _ hplaced side).1
    rwa [hclean] at hword
  have hopen : (env.updated opp st results').getOpenOrders = st.orders.getOpenOrders ++
      [⟨buyRequest opp (env.cid st .buy), results'.buy⟩,
        (⟨sellRequest opp (env.cid st .sell), results'.sell⟩ : ManagedOrder)].filter
        fun o => o.result.status.live := by
    rw [OrderManager.getOpenOrders, orders_updated results' hfresh, List.map_append, List.filter_append]
    rfl
  rw [OrderManager.openOrderCount_eq, OrderManager.openOrderCount_eq, hopen, List.length_append,
    ← List.countP_eq_length_filter]
  simp only [hreport, Option.any_some, List.countP_cons, List.countP_nil]
  rfl

end OpenOrders

def filledEnv : LiveEnv :=
  scriptedEnv (scriptedMarket (.ok (filledAt "1" 100)) (.ok (filledAt "2" 102))
    (.ok (filledAt "1" 100)) (.ok (filledAt "1" 100)))

theorem filledEnv_recordsAgree :
    ∃ record st', execute filledEnv sampleOpportunity "2024-01-01T00:00:00Z" emptyState =
        (.ok record, st') ∧ RecordsAgree filledEnv sampleOpportunity emptyState record st' := by
  refine ⟨_, _, rfl, (execute_recordsAgree_iff (sampleOpportunity_valid _) rfl).mpr ?_⟩
  intro results events hplaced side
  obtain ⟨rfl, rfl⟩ : results = ⟨filledAt "1" 100, filledAt "2" 102⟩ ∧ events = _ :=
    DualOrderResult.of_placed rfl hplaced
  cases side with
  | buy => exact ⟨by decide +kernel, .inl (by decide)⟩
  | sell => exact ⟨by decide +kernel, .inl (by decide)⟩

/-- After a partial fill the cleanup's cancellation answers CANCELLED, and the
record still shows the placement answer. -/
theorem partialEnv_not_recordsAgree :
    partialEnv.market.Answers ∧
      validateOpportunity partialEnv.exchanges sampleOpportunity = true ∧
      ∃ record st', execute partialEnv sampleOpportunity "2024-01-01T00:00:00Z" emptyState =
        (.ok record, st') ∧ ¬ RecordsAgree partialEnv sampleOpportunity emptyState record st' := by
  refine ⟨scripted_answers _ _ _ _, sampleOpportunity_valid _, _, _, rfl, fun h => ?_⟩
  obtain ⟨last, hlast, _, hrecord, _⟩ := h
    ⟨{ exchangeOrderId := "1", status := .partiallyFilled, filledQuantity := 1 / 2 },
      filledAt "2" 102⟩ _ rfl .buy
  rw [← hrecord] at hlast
  revert hlast
  decide +kernel

end CryptoArbBot
