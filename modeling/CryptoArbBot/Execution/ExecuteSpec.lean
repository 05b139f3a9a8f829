import CryptoArbBot.Execution.ExecutionEngine

/-!
# What one call of execute does

The call has four ways to go: the opportunity is invalid, a placement throws, a
call of the cleanup throws, or the trade is settled. Each has one equation for
the state it leaves; the results about the engine start from these.
-/

namespace CryptoArbBot

/-! ### Names for the parts of a call -/

def ArbitrageOpportunity.exchangeOf (opp : ArbitrageOpportunity) : Side → Exchange
  | .buy => opp.buyExchange
  | .sell => opp.sellExchange

def TradeRecord.leg (record : TradeRecord) : Side → OrderResult
  | .buy => record.buyResult
  | .sell => record.sellResult

def DualOrderResult.leg (results : DualOrderResult) : Side → OrderResult
  | .buy => results.buy
  | .sell => results.sell

/-- The client ids of the two orders; the record takes the id before them. -/
def LiveEnv.cid (env : LiveEnv) (st : LiveState) : Side → String
  | .buy => env.uuid.next (st.uuids + 1)
  | .sell => env.uuid.next (st.uuids + 2)

def LiveEnv.placed (env : LiveEnv) (opp : ArbitrageOpportunity) (st : LiveState) :
    Except String OrderResult × Except String OrderResult × List Event :=
  env.market.placeBoth (buyRequest opp (env.cid st .buy)) (sellRequest opp (env.cid st .sell))
    st.events

def LiveEnv.tracked (env : LiveEnv) (opp : ArbitrageOpportunity) (st : LiveState) : OrderManager :=
  (st.orders.trackOrder (env.cid st .buy) (buyRequest opp (env.cid st .buy))).trackOrder
    (env.cid st .sell) (sellRequest opp (env.cid st .sell))

def LiveEnv.updated (env : LiveEnv) (opp : ArbitrageOpportunity) (st : LiveState)
    (results : DualOrderResult) : OrderManager :=
  ((env.tracked opp st).updateOrder (env.cid st .buy) results.buy).updateOrder (env.cid st .sell)
    results.sell

def settledRecord (env : LiveEnv) (opp : ArbitrageOpportunity) (timestampIso : String)
    (st : LiveState) (results : DualOrderResult) : TradeRecord :=
  { liveRecord opp (env.uuid.next st.uuids) timestampIso with
    buyResult := results.buy
    sellResult := results.sell
    realizedPnl := sellProceeds results - buyCost results - results.buy.feePaid -
      results.sell.feePaid }

def added {α : Type} (before after : List α) : List α := after.drop before.length

@[simp] theorem added_append {α : Type} (xs ys : List α) : added xs (xs ++ ys) = ys :=
  List.drop_left

@[simp] theorem added_self {α : Type} (xs : List α) : added xs xs = [] := List.drop_length

def InventoryTracker.recordFills (t : InventoryTracker) (fills : List Fill) : InventoryTracker :=
  fills.foldl (fun t f => t.recordFill f.exchange f.asset f.delta) t

theorem foldl_recordFill (fills : List Fill) (st : LiveState) :
    fills.foldl LiveState.recordFill st =
      { st with inventory := st.inventory.recordFills fills, fills := st.fills ++ fills } := by
  induction fills generalizing st with
  | nil => simp [InventoryTracker.recordFills]
  | cons f fills ih =>
    rw [List.foldl_cons, ih]
    simp [LiveState.recordFill, InventoryTracker.recordFills, List.append_assoc]

/-! ### The entries of the two orders -/

theorem cid_ne (env : LiveEnv) (st : LiveState) : env.cid st .buy ≠ env.cid st .sell := by
  intro h
  have hinj := env.uuid.injective h
  omega

theorem getOrder_tracked (env : LiveEnv) (opp : ArbitrageOpportunity) (st : LiveState)
    (side : Side) :
    ∃ req, (env.tracked opp st).getOrder (env.cid st side) =
      some { request := req, result := { status := .pending } } := by
  cases side with
  | buy =>
    rw [LiveEnv.tracked, OrderManager.getOrder_trackOrder_of_ne _ _ (cid_ne env st),
      OrderManager.getOrder_trackOrder_self]
    exact ⟨_, rfl⟩
  | sell =>
    rw [LiveEnv.tracked, OrderManager.getOrder_trackOrder_self]
    exact ⟨_, rfl⟩

theorem getOrder_updated (env : LiveEnv) (opp : ArbitrageOpportunity) (st : LiveState)
    (results : DualOrderResult) (side : Side) :
    ∃ req, (env.updated opp st results).getOrder (env.cid st side) =
      some { request := req, result := results.leg side } := by
  obtain ⟨req, hreq⟩ := getOrder_tracked env opp st side
  cases side with
  | buy =>
    rw [LiveEnv.updated, OrderManager.getOrder_updateOrder_of_ne _ _ (cid_ne env st),
      OrderManager.getOrder_updateOrder_self, hreq]
    exact ⟨req, rfl⟩
  | sell =>
    rw [LiveEnv.updated, OrderManager.getOrder_updateOrder_self,
      OrderManager.getOrder_updateOrder_of_ne _ _ (cid_ne env st).symm, hreq]
    exact ⟨req, rfl⟩

/-! ### The conversation of the cleanup -/

def KeptByCleanup (P : List Event → Prop) : Prop :=
  ∀ events request answer, (∀ req, request ≠ .place req) → P events → P (events ++ [⟨request, answer⟩])

section Kept
variable {P : List Event → Prop} (hP : KeptByCleanup P)
include hP

theorem cancelOrder_kept (m : Market) (exch : Exchange) (pair orderId : String)
    {events : List Event} (h : P events) : P (m.cancelOrder exch pair orderId events).2 :=
  hP _ _ _ (fun _ => by simp) h

theorem waitAndCancel_kept (m : Market) (exch : Exchange) (pair orderId : String)
    {events : List Event} (h : P events) : P (m.waitAndCancel exch pair orderId events).2 := by
  have hquery := hP events (.query exch pair orderId) (m.respond events (.query exch pair orderId))
    (fun _ => by simp) h
  unfold Market.waitAndCancel Market.call
  cases hq : m.respond events (.query exch pair orderId) with
  | error e =>
    rw [hq] at hquery
    exact hquery
  | ok q =>
    rw [hq] at hquery
    dsimp only
    split
    · exact cancelOrder_kept hP m exch pair orderId hquery
    · exact hquery

omit hP in
theorem andThen_kept {r : Except String Unit × List Event}
    {next : List Event → Except String Unit × List Event} (h : P r.2)
    (hnext : ∀ events, P events → P (next events).2) : P (andThen r next).2 := by
  unfold andThen
  split
  · exact hnext r.2 h
  · exact h

omit hP in
theorem ite_kept {due : Prop} [Decidable due] {events : List Event}
    {r : Except String Unit × List Event} (hr : P r.2) (h : P events) :
    P (if due then r else (.ok (), events)).2 := by
  split
  · exact hr
  · exact h

theorem cleanUp_kept (m : Market) (opp : ArbitrageOpportunity) (results : DualOrderResult)
    {events : List Event} (h : P events) : P (m.cleanUp opp results events).2 := by
  refine ite_kept (andThen_kept (andThen_kept (andThen_kept ?_ ?_) ?_) ?_) h
  · exact ite_kept (cancelOrder_kept hP m _ _ _ h) h
  · exact fun events h => ite_kept (cancelOrder_kept hP m _ _ _ h) h
  · exact fun events h => ite_kept (waitAndCancel_kept hP m _ _ _ h) h
  · exact fun events h => ite_kept (waitAndCancel_kept hP m _ _ _ h) h

end Kept

theorem cleanUp_prefix (m : Market) (opp : ArbitrageOpportunity) (results : DualOrderResult)
    (events : List Event) : ∃ new, (m.cleanUp opp results events).2 = events ++ new := by
  have hP : KeptByCleanup fun es => ∃ new, es = events ++ new := by
    rintro es request answer _ ⟨new, rfl⟩
    exact ⟨new ++ [⟨request, answer⟩], List.append_assoc ..⟩
  exact cleanUp_kept hP m opp results ⟨[], (List.append_nil _).symm⟩

/-! ### The four ways of a call -/

section Ways
variable {env : LiveEnv} {opp : ArbitrageOpportunity} (timestampIso : String) {st : LiveState}

theorem execute_invalid (h : validateOpportunity env.exchanges opp = false) :
    execute env opp timestampIso st =
      (.ok { liveRecord opp (env.uuid.next st.uuids) timestampIso with
        buyResult := invalidOpportunity, sellResult := invalidOpportunity },
        { st with uuids := st.uuids + 1 }) := by
  simp only [execute, h, if_true]

theorem execute_thrown (h : validateOpportunity env.exchanges opp = true)
    {buy sell : Except String OrderResult} {events : List Event}
    (hplaced : env.placed opp st = (buy, sell, events))
    (hthrown : (∃ e, buy = .error e) ∨ ∃ e, sell = .error e) :
    ∃ e, execute env opp timestampIso st =
      (.error e, { st with orders := env.tracked opp st, events, uuids := st.uuids + 3 }) := by
  simp only [LiveEnv.placed, LiveEnv.cid] at hplaced
  cases buy with
  | error e =>
    refine ⟨e, ?_⟩
    simp only [execute, fireOrders, h, hplaced]
    rfl
  | ok buy =>
    cases sell with
    | error e =>
      refine ⟨e, ?_⟩
      simp only [execute, fireOrders, h, hplaced]
      rfl
    | ok sell =>
      rcases hthrown with ⟨e, he⟩ | ⟨e, he⟩
      · cases he
      · cases he

theorem execute_unhandled (h : validateOpportunity env.exchanges opp = true)
    {results : DualOrderResult} {events events' : List Event} {e : String}
    (hplaced : env.placed opp st = (.ok results.buy, .ok results.sell, events))
    (hclean : env.market.cleanUp opp results events = (.error e, events')) :
    execute env opp timestampIso st =
      (.error e, { st with
        orders := env.updated opp st results, events := events', uuids := st.uuids + 3 }) := by
  simp only [LiveEnv.placed, LiveEnv.cid] at hplaced
  simp only [execute, fireOrders, h, hplaced, hclean]
  rfl

/-- The trade is settled; only `log_trade` can still throw. -/
theorem execute_settled (h : validateOpportunity env.exchanges opp = true)
    {results : DualOrderResult} {events events' : List Event}
    (hplaced : env.placed opp st = (.ok results.buy, .ok results.sell, events))
    (hclean : env.market.cleanUp opp results events = (.ok (), events')) :
    execute env opp timestampIso st =
      ((match env.logError (settledRecord env opp timestampIso st results) with
        | some e => .error e
        | none => .ok (settledRecord env opp timestampIso st results)),
        { st with
          orders := env.updated opp st results
          inventory := st.inventory.recordFills (tradeFills opp results)
          tradeLog := st.tradeLog ++ [settledRecord env opp timestampIso st results]
          events := events'
          fills := st.fills ++ tradeFills opp results
          uuids := st.uuids + 3 }) := by
  simp only [LiveEnv.placed, LiveEnv.cid] at hplaced
  simp only [execute, fireOrders, h, hplaced, hclean, settle, foldl_recordFill]
  cases hlog : env.logError (settledRecord env opp timestampIso st results) with
  | some e =>
    simp only [settledRecord] at hlog
    simp only [hlog]
    rfl
  | none =>
    simp only [settledRecord] at hlog
    simp only [hlog]
    rfl

theorem execute_ok_inv (h : validateOpportunity env.exchanges opp = true) {record : TradeRecord}
    {st' : LiveState} (hret : execute env opp timestampIso st = (.ok record, st')) :
    ∃ results events events', env.placed opp st = (.ok results.buy, .ok results.sell, events) ∧
      env.market.cleanUp opp results events = (.ok (), events') ∧
      record = settledRecord env opp timestampIso st results ∧
      st' = { st with
          orders := env.updated opp st results
          inventory := st.inventory.recordFills (tradeFills opp results)
          tradeLog := st.tradeLog ++ [settledRecord env opp timestampIso st results]
          events := events'
          fills := st.fills ++ tradeFills opp results
          uuids := st.uuids + 3 } := by
  rcases hplaced : env.placed opp st with ⟨buy, sell, events⟩
  cases buy with
  | error e =>
    obtain ⟨e', hexec⟩ := execute_thrown timestampIso h hplaced (.inl ⟨e, rfl⟩)
    rw [hexec] at hret
    cases hret
  | ok buy =>
    cases sell with
    | error e =>
      obtain ⟨e', hexec⟩ := execute_thrown timestampIso h hplaced (.inr ⟨e, rfl⟩)
      rw [hexec] at hret
      cases hret
    | ok sell =>
      have hplaced' : env.placed opp st =
          (.ok (DualOrderResult.mk buy sell).buy, .ok (DualOrderResult.mk buy sell).sell, events) :=
        hplaced
      rcases hclean : env.market.cleanUp opp ⟨buy, sell⟩ events with ⟨handled, events'⟩
      cases handled with
      | error e =>
        rw [execute_unhandled timestampIso h hplaced' hclean] at hret
        cases hret
      | ok _ =>
        rw [execute_settled timestampIso h hplaced' hclean] at hret
        refine ⟨⟨buy, sell⟩, events, events', rfl, hclean, ?_, (Prod.mk.inj hret).2.symm⟩
        have hres := (Prod.mk.inj hret).1
        split at hres
        · cases hres
        · exact (Except.ok.inj hres).symm

end Ways

theorem forall_side {p : Side → Prop} : (∀ side, p side) ↔ p .buy ∧ p .sell :=
  ⟨fun h => ⟨h .buy, h .sell⟩, fun h side => by
    cases side with
    | buy => exact h.1
    | sell => exact h.2⟩

theorem splitPair_isSome (pair : String) : (splitPair pair).isSome = true ↔ '-' ∈ pair.toList := by
  unfold splitPair
  by_cases h : '-' ∈ pair.toList
  · simp [h]
  · simp [h]

/-! ### A scripted surrounding -/

def plainUuids : UuidSupply where
  next n := String.ofList (List.replicate n 'x')
  injective m n h := by
    have hlist : List.replicate m 'x' = List.replicate n 'x' := by
      simpa using congrArg String.toList h
    simpa using congrArg List.length hlist

/-- Exchanges that answer by the kind of request alone; the buy arrives first. -/
def scriptedMarket (buy sell query cancel : Except String OrderResult) : Market where
  respond _ request := match request with
    | .place req => if req.side = .buy then buy else sell
    | .query _ _ _ => query
    | .cancel _ _ _ => cancel
  sellFirst _ := false

def scriptedEnv (market : Market) : LiveEnv where
  exchanges := [.binance, .bybit]
  market := market
  uuid := plainUuids
  logError _ := none

def sampleOpportunity : ArbitrageOpportunity :=
  { pair := "BTC-USDT", buyExchange := .binance, sellExchange := .bybit, buyPrice := 100,
    sellPrice := 102, quantity := 1, grossSpreadBps := 200, netSpreadBps := 150 }

def emptyState : LiveState where
  inventory := { exchanges := [.binance, .bybit] }

def filledAt (orderId : String) (price : ℚ) : OrderResult :=
  { exchangeOrderId := orderId, status := .filled, filledQuantity := 1, avgFillPrice := price }

def restingOrder (orderId : String) : OrderResult := { exchangeOrderId := orderId, status := .opened }

theorem scripted_placed (buy sell query cancel : Except String OrderResult)
    (opp : ArbitrageOpportunity) (st : LiveState) :
    ∃ events, (scriptedEnv (scriptedMarket buy sell query cancel)).placed opp st =
      (buy, sell, events) :=
  ⟨_, rfl⟩

theorem sampleOpportunity_valid (market : Market) :
    validateOpportunity (scriptedEnv market).exchanges sampleOpportunity = true := by
  have h : validateOpportunity [.binance, .bybit] sampleOpportunity = true := by decide +kernel
  exact h

end CryptoArbBot
