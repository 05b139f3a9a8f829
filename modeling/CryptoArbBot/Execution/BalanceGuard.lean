import CryptoArbBot.Execution.ExecuteSpec
import CryptoArbBot.Library.Runs

/-!
# The balance guard of live execution

`check_balances` states when the tracked balances cover an opportunity, and
`execute` never calls it. Over runs of refreshes, fills and calls the guard
holds only where the balances happen to cover each opportunity that is fired.
-/

namespace CryptoArbBot

/-- The tracked quote balance on the buy exchange covers the cost and the tracked
base balance on the sell exchange covers the quantity. -/
def Covered (inventory : InventoryTracker) (opp : ArbitrageOpportunity) : Prop :=
  ∃ base quote, splitPair opp.pair = some (base, quote) ∧
    opp.buyPrice * opp.quantity ≤ inventory.balance opp.buyExchange quote ∧
    opp.quantity ≤ inventory.balance opp.sellExchange base

theorem checkBalances_iff (inventory : InventoryTracker) (opp : ArbitrageOpportunity) :
    checkBalances inventory opp = true ↔ Covered inventory opp := by
  unfold checkBalances Covered InventoryTracker.balance
  cases hsplit : splitPair opp.pair with
  | none => simp
  | some parts =>
    obtain ⟨base, quote⟩ := parts
    dsimp only
    split
    next hquote =>
      refine iff_of_false Bool.false_ne_true ?_
      intro h
      obtain ⟨base', quote', hparts, hle, _⟩ := h
      cases hparts
      exact absurd hquote (not_lt.mpr hle)
    next hquote =>
      split
      next hbase =>
        refine iff_of_false Bool.false_ne_true ?_
        intro h
        obtain ⟨base', quote', hparts, _, hle⟩ := h
        cases hparts
        exact absurd hbase (not_lt.mpr hle)
      next hbase =>
        have hcost : opp.buyPrice * opp.quantity ≤ (inventory.getState opp.buyExchange).amount quote :=
          not_lt.mp hquote
        have hquantity : opp.quantity ≤ (inventory.getState opp.sellExchange).amount base :=
          not_lt.mp hbase
        exact iff_of_true rfl ⟨base, quote, rfl, hcost, hquantity⟩

/-! ### Runs -/

inductive LiveAction where
  | refresh (fetchBalances : Exchange → Except String (List BalanceInfo))
  | fill (f : Fill)
  | execute (opp : ArbitrageOpportunity) (timestampIso : String)

def liveStep (env : LiveEnv) (st : LiveState) : LiveAction → LiveState
  | .refresh fetchBalances => { st with inventory := st.inventory.refreshBalances fetchBalances }
  | .fill f => st.recordFill f
  | .execute opp timestampIso => (CryptoArbBot.execute env opp timestampIso st).2

def Fired (st st' : LiveState) : Prop :=
  ∃ e ∈ added st.events st'.events, ∃ req, e.request = .place req

/-- The call returned a rejected record and left orders, inventory and exchanges
as they were. -/
def RejectedUntouched (st : LiveState) (result : Except String TradeRecord × LiveState) : Prop :=
  (∃ record, result.1 = .ok record ∧ record.buyResult.status = .rejected ∧
    record.sellResult.status = .rejected) ∧
  result.2.orders = st.orders ∧ result.2.inventory = st.inventory ∧ result.2.events = st.events

/-- A call either fires covered orders or is rejected without effect. -/
def Guarded (env : LiveEnv) (st : LiveState) : LiveAction → Prop
  | .execute opp timestampIso =>
    let result := execute env opp timestampIso st
    (Fired st result.2 ∧ Covered st.inventory opp) ∨
      (¬ Fired st result.2 ∧ RejectedUntouched st result)
  | .refresh _ | .fill _ => True

/-- The opportunity is invalid or `check_balances` accepts it. -/
def GuardPasses (env : LiveEnv) (st : LiveState) : LiveAction → Prop
  | .execute opp _ => validateOpportunity env.exchanges opp = false ∨
      checkBalances st.inventory opp = true
  | .refresh _ | .fill _ => True

theorem placeBoth_fired (m : Market) (buyReq sellReq : OrderRequest) (events : List Event) :
    ∃ ps, (m.placeBoth buyReq sellReq events).2.2 = events ++ ps ∧
      ∃ e ∈ ps, ∃ req, e.request = .place req := by
  unfold Market.placeBoth Market.call
  cases m.sellFirst events with
  | true =>
    let first : Event := ⟨.place sellReq, m.respond events (.place sellReq)⟩
    let second : Event := ⟨.place buyReq, m.respond (events ++ [first]) (.place buyReq)⟩
    refine ⟨[first, second], ?_, first, List.mem_cons_self .., sellReq, rfl⟩
    exact List.append_assoc events [first] [second]
  | false =>
    let first : Event := ⟨.place buyReq, m.respond events (.place buyReq)⟩
    let second : Event := ⟨.place sellReq, m.respond (events ++ [first]) (.place sellReq)⟩
    refine ⟨[first, second], ?_, first, List.mem_cons_self .., buyReq, rfl⟩
    exact List.append_assoc events [first] [second]

theorem execute_fired {env : LiveEnv} {opp : ArbitrageOpportunity} (timestampIso : String)
    (st : LiveState) (hvalid : validateOpportunity env.exchanges opp = true) :
    Fired st (execute env opp timestampIso st).2 := by
  obtain ⟨ps, hps, e, he, req, hreq⟩ := placeBoth_fired env.market
    (buyRequest opp (env.cid st .buy)) (sellRequest opp (env.cid st .sell)) st.events
  have hevents : ∃ new, (execute env opp timestampIso st).2.events = st.events ++ (ps ++ new) := by
    rcases hplaced : env.placed opp st with ⟨buy, sell, events⟩
    have hplacements : events = st.events ++ ps := by
      rw [← hps]
      exact (congrArg (·.2.2) hplaced).symm
    cases buy with
    | error text =>
      obtain ⟨e', hexec⟩ := execute_thrown timestampIso hvalid hplaced (.inl ⟨text, rfl⟩)
      exact ⟨[], by rw [hexec, List.append_nil, hplacements]⟩
    | ok buy =>
      cases sell with
      | error text =>
        obtain ⟨e', hexec⟩ := execute_thrown timestampIso hvalid hplaced (.inr ⟨text, rfl⟩)
        exact ⟨[], by rw [hexec, List.append_nil, hplacements]⟩
      | ok sell =>
        have hplaced' : env.placed opp st =
            (.ok (DualOrderResult.mk buy sell).buy, .ok (DualOrderResult.mk buy sell).sell, events) :=
          hplaced
        obtain ⟨new, hnew⟩ := cleanUp_prefix env.market opp ⟨buy, sell⟩ events
        rcases hclean : env.market.cleanUp opp ⟨buy, sell⟩ events with ⟨handled, events'⟩
        rw [hclean] at hnew
        refine ⟨new, ?_⟩
        rw [← List.append_assoc, ← hplacements]
        cases handled with
        | error text => rw [execute_unhandled timestampIso hvalid hplaced' hclean, ← hnew]
        | ok _ => rw [execute_settled timestampIso hvalid hplaced' hclean, ← hnew]
  obtain ⟨new, hnew⟩ := hevents
  refine ⟨e, ?_, req, hreq⟩
  rw [hnew, added_append]
  exact List.mem_append_left _ he

theorem execute_rejectedUntouched {env : LiveEnv} {opp : ArbitrageOpportunity}
    (timestampIso : String) (st : LiveState)
    (h : validateOpportunity env.exchanges opp = false) :
    ¬ Fired st (execute env opp timestampIso st).2 ∧
      RejectedUntouched st (execute env opp timestampIso st) := by
  rw [execute_invalid timestampIso h]
  refine ⟨?_, ⟨_, rfl, rfl, rfl⟩, rfl, rfl, rfl⟩
  intro h
  obtain ⟨e, he, _⟩ := h
  simp at he

theorem guarded_iff (env : LiveEnv) (st : LiveState) (action : LiveAction) :
    Guarded env st action ↔ GuardPasses env st action := by
  cases action with
  | refresh fetchBalances => exact Iff.rfl
  | fill f => exact Iff.rfl
  | execute opp timestampIso =>
    simp only [Guarded, GuardPasses, checkBalances_iff]
    cases hvalid : validateOpportunity env.exchanges opp with
    | false => simp [execute_rejectedUntouched timestampIso st hvalid]
    | true =>
      have hfired := execute_fired timestampIso st hvalid
      simp [hfired]

/-- In a run of refreshes, fills and calls every call is guarded exactly when
each is invalid or passes `check_balances` in the state it starts from. -/
theorem live_run_guarded_iff (env : LiveEnv) (st : LiveState) (actions : List LiveAction) :
    Runs.Along (liveStep env) (Guarded env) st actions ↔
      Runs.Along (liveStep env) (GuardPasses env) st actions :=
  ⟨fun h => h.imp fun st action => (guarded_iff env st action).mp,
    fun h => h.imp fun st action => (guarded_iff env st action).mpr⟩

/-- With no tracked balance at all, a valid opportunity is fired. -/
theorem emptyState_not_guarded :
    let env := scriptedEnv (scriptedMarket (.ok (filledAt "1" 100)) (.ok (filledAt "2" 102))
      (.error "") (.error ""))
    ¬ Runs.Along (liveStep env) (Guarded env) emptyState
      [.execute sampleOpportunity "2024-01-01T00:00:00Z"] := by
  intro env h
  rcases (guarded_iff env _ _).mp h.1 with hinvalid | hcovered
  · rw [sampleOpportunity_valid] at hinvalid
    cases hinvalid
  · revert hcovered
    decide +kernel

end CryptoArbBot
