import CryptoArbBot.Backtest.LookAhead
import CryptoArbBot.Backtest.Opportunities
import Mathlib.Tactic.Ring

/-!
# The books of a backtest

An order is filled before it is known what becomes of the other one, and the
trade is kept only when both are filled. While both orders of every attempt are
filled, or neither takes anything, the balances are the initial ones with the
trades booked on them.
-/

namespace CryptoArbBot.BacktestEngine
open SimulatedExchange

/-! ### The legs of a trade -/

def assetEffect (pair : String) (base quote : ℚ) (asset : String) : ℚ :=
  (if asset = baseAsset pair then base else 0) + if asset = quoteAsset pair then quote else 0

/-- The bought quantity, and the cost with the fee. -/
def buyEffect (t : TradeRecord) (asset : String) : ℚ :=
  assetEffect t.pair t.buyResult.filledQuantity
    (-(t.buyResult.avgFillPrice * t.buyResult.filledQuantity + t.buyResult.feePaid)) asset

/-- The sold quantity, and the proceeds less the fee. -/
def sellEffect (t : TradeRecord) (asset : String) : ℚ :=
  assetEffect t.pair (-t.sellResult.filledQuantity)
    (t.sellResult.avgFillPrice * t.sellResult.filledQuantity - t.sellResult.feePaid) asset

def legEffect (exch : Exchange) (asset : String) (t : TradeRecord) : ℚ :=
  (if exch = t.buyExchange then buyEffect t asset else 0) +
    if exch = t.sellExchange then sellEffect t asset else 0

/-- Both legs fill the same quantity and the profit is what the quote gains. -/
structure Matched (t : TradeRecord) : Prop where
  filled : t.buyResult.filledQuantity = t.sellResult.filledQuantity
  realizedPnl : t.realizedPnl =
    t.sellResult.avgFillPrice * t.sellResult.filledQuantity - t.sellResult.feePaid -
      (t.buyResult.avgFillPrice * t.buyResult.filledQuantity + t.buyResult.feePaid)

theorem Matched.effects {t : TradeRecord} (h : Matched t) :
    buyEffect t (quoteAsset t.pair) + sellEffect t (quoteAsset t.pair) = t.realizedPnl := by
  rw [buyEffect, sellEffect, assetEffect, assetEffect, if_pos rfl, if_pos rfl, h.realizedPnl, h.filled]
  -- when base and quote are one asset the two quantities cancel
  split <;> ring

theorem Matched.legEffects {t : TradeRecord} (h : Matched t) (hbuy : t.buyExchange ∈ simulated)
    (hsell : t.sellExchange ∈ simulated) :
    (simulated.map fun exch => legEffect exch (quoteAsset t.pair) t).sum = t.realizedPnl := by
  have hnodup : simulated.Nodup := by decide
  have hone : ∀ (exch : Exchange) (effect : ℚ), exch ∈ simulated →
      (simulated.map fun exch' => if exch' = exch then effect else 0).sum = effect := by
    intro exch effect hexch
    rw [List.sum_map_ite_eq, hnodup.count, if_pos hexch, one_nsmul]
    simp
  rw [← h.effects]
  simp only [legEffect, List.sum_map_add, hone _ _ hbuy, hone _ _ hsell]

/-! ### Two orders -/

theorem adjust_adjust (balances : String → ℚ) (pair : String) (base quote : ℚ) (asset : String) :
    adjust (adjust balances (baseAsset pair) base) (quoteAsset pair) quote asset =
      balances asset + assetEffect pair base quote asset := by
  unfold adjust assetEffect
  split <;> split <;> ring

/-- What an order served in full does; `quote` is what the quote gains. -/
structure Served (sim : SimulatedExchange) (req : OrderRequest) (base quote : ℚ)
    (placed : OrderResult × SimulatedExchange) : Prop where
  status : placed.1.status = .filled
  filled : placed.1.filledQuantity = req.quantity
  balances : ∀ asset, placed.2.balances asset = sim.balances asset + assetEffect req.pair base quote asset

theorem filledResult_full (orderId : String) (takerFee : ℚ) {quantity : ℚ} {fill : ℚ × ℚ}
    (hquantity : 0 < quantity) (hfill : fill.1 = quantity) :
    (filledResult orderId quantity takerFee fill).status = .filled ∧
      (filledResult orderId quantity takerFee fill).avgFillPrice * fill.1 = fill.2 := by
  refine ⟨if_pos hfill.ge, ?_⟩
  show fill.2 / fill.1 * fill.1 = fill.2
  rw [hfill, div_mul_cancel₀ _ hquantity.ne']

theorem place_served {sim : SimulatedExchange} (req : OrderRequest) (walk : Walk)
    (hquantity : 0 < req.quantity) (h : req.quantity ≤ sim.takes req.quantity walk)
    (orderId : String) :
    let result := (sim.place req orderId walk).1
    (walk.fill req.quantity).1 = result.filledQuantity ∧
      (walk.fill req.quantity).2 = result.avgFillPrice * result.filledQuantity ∧
      (walk.fill req.quantity).2 * sim.takerFee = result.feePaid ∧
      Served sim req (walk.base (walk.fill req.quantity)) (walk.quote (walk.fill req.quantity))
        (sim.place req orderId walk) := by
  intro result
  rcases sim.place_cases req orderId walk with ⟨hnone, _⟩ | ⟨_, htakes, hplaced⟩
  · exact absurd (h.trans hnone) hquantity.not_ge
  have hfill : (walk.fill req.quantity).1 = req.quantity :=
    le_antisymm ((fillLoop_le ..).trans_eq (max_eq_left hquantity.le)) (h.trans_eq htakes)
  obtain ⟨hstatus, hprice⟩ := filledResult_full orderId sim.takerFee hquantity hfill
  have hresult : result = filledResult orderId req.quantity sim.takerFee (walk.fill req.quantity) :=
    congrArg Prod.fst hplaced
  refine ⟨?_, ?_, ?_, ?_, ?_, ?_⟩
  · rw [hresult]
    rfl
  · rw [hresult]
    exact hprice.symm
  · rw [hresult]
    rfl
  · rw [hplaced]
    exact hstatus
  · rw [hplaced]
    exact hfill
  · intro asset
    rw [hplaced]
    exact adjust_adjust ..

theorem buy_served {sim : SimulatedExchange} (req : OrderRequest) {now : TimePoint}
    (hquantity : 0 < req.quantity) (h : req.quantity ≤ sim.buyTakes req now) (orderId : String) :
    let placed := sim.place req orderId (sim.buyWalk req now)
    Served sim req placed.1.filledQuantity
      (-(placed.1.avgFillPrice * placed.1.filledQuantity + placed.1.feePaid)) placed := by
  intro placed
  obtain ⟨hfilled, hcost, hfee, hserved⟩ :=
    place_served req (sim.buyWalk req now) hquantity h orderId
  rw [← hcost, ← hfee, ← hfilled]
  exact hserved

theorem sell_served {sim : SimulatedExchange} (req : OrderRequest) {now : TimePoint}
    (hquantity : 0 < req.quantity) (h : req.quantity ≤ sim.sellTakes req now) (orderId : String) :
    let placed := sim.place req orderId (sim.sellWalk req now)
    Served sim req (-placed.1.filledQuantity)
      (placed.1.avgFillPrice * placed.1.filledQuantity - placed.1.feePaid) placed := by
  intro placed
  obtain ⟨hfilled, hproceeds, hfee, hserved⟩ :=
    place_served req (sim.sellWalk req now) hquantity h orderId
  rw [← hproceeds, ← hfee, ← hfilled]
  exact hserved

section Orders
variable (host : HostLibrary) (env : Surroundings) (ts : UInt64) (pair : String)
  {buyExch sellExch : Exchange} (signal : Signal) (st : State)

theorem tradeRecord_matched (id : String) {buyResult sellResult : OrderResult}
    (hfilled : buyResult.filledQuantity = sellResult.filledQuantity) :
    Matched (tradeRecord host ts pair buyExch sellExch signal id buyResult sellResult) := by
  refine ⟨hfilled, ?_⟩
  simp only [tradeRecord, hfilled, min_self]
  ring

theorem trade_full (hexch : buyExch ≠ sellExch) (hquantity : 0 < signal.quantity)
    (hbuy : signal.quantity ≤ (takenBy env ts pair st (buyExch, sellExch, signal)).1)
    (hsell : signal.quantity ≤ (takenBy env ts pair st (buyExch, sellExch, signal)).2) :
    ∃ t, (trade host env ts pair buyExch sellExch signal st).trades = st.trades ++ [t] ∧
      t.pair = pair ∧ t.buyExchange = buyExch ∧ t.sellExchange = sellExch ∧ Matched t ∧
      ∀ exch asset, ((trade host env ts pair buyExch sellExch signal st).exchanges exch).balances asset =
        (st.exchanges exch).balances asset + legEffect exch asset t := by
  have hbuyServed := buy_served (buyRequest buyExch pair signal (env.uuids st.drawn)) hquantity hbuy
    ("SIM-" ++ env.uuids (st.drawn + 2))
  have hsellServed := sell_served (sellRequest sellExch pair signal (env.uuids (st.drawn + 1)))
    hquantity hsell ("SIM-" ++ env.uuids (st.drawn + 3))
  unfold trade
  rw [placeOrders_of_ne env ts pair signal st hexch]
  dsimp only at hbuyServed hsellServed ⊢
  refine ⟨_, if_pos ⟨hbuyServed.status, hsellServed.status⟩, rfl, rfl, rfl, ?_, ?_⟩
  · exact tradeRecord_matched host ts pair signal _
      (hbuyServed.filled.trans hsellServed.filled.symm)
  · intro exch asset
    show _ = _ + ((if exch = buyExch then _ else 0) + if exch = sellExch then _ else 0)
    by_cases hseller : exch = sellExch
    · subst hseller
      rw [Function.update_self, hsellServed.balances, if_neg hexch.symm, if_pos rfl, zero_add]
      rfl
    · by_cases hbuyer : exch = buyExch
      · subst hbuyer
        rw [Function.update_of_ne hseller, Function.update_self, hbuyServed.balances, if_pos rfl,
          if_neg hseller, add_zero]
        rfl
      · rw [Function.update_of_ne hseller, Function.update_of_ne hbuyer, if_neg hbuyer,
          if_neg hseller, add_zero, add_zero]

end Orders

/-! ### Whole runs -/

/-- Both orders of the opportunity, if there is one, are served in full, or
neither takes anything. -/
def Balanced (env : Surroundings) (config : BacktestConfig) (ts : UInt64) (pair : String)
    (st : State) (p : ℕ × ℕ) : Prop :=
  ∀ order ∈ signalAt config pair (st.aggregator.getPairSnapshots pair 20) st p,
    let taken := takenBy env ts pair st order
    (order.2.2.quantity ≤ taken.1 ∧ order.2.2.quantity ≤ taken.2) ∨ (taken.1 ≤ 0 ∧ taken.2 ≤ 0)

instance (env : Surroundings) (config : BacktestConfig) (ts : UInt64) (pair : String) (st : State)
    (p : ℕ × ℕ) : Decidable (Balanced env config ts pair st p) :=
  inferInstanceAs (Decidable (∀ order ∈ signalAt .., _))

/-- The attempt keeps a trade or leaves every exchange as it was. -/
def Recorded (host : HostLibrary) (env : Surroundings) (config : BacktestConfig) (ts : UInt64)
    (pair : String) (st : State) (p : ℕ × ℕ) : Prop :=
  let st' := attempt host env config ts pair (st.aggregator.getPairSnapshots pair 20) st p
  (∃ t, st'.trades = st.trades ++ [t]) ∨ st'.exchanges = st.exchanges

structure Booked (config : BacktestConfig) (active : List String) (st : State) : Prop where
  onlySimulated : OnlySimulated st
  balances : ∀ exch asset, (st.exchanges exch).balances asset =
    config.initialBalances.amount asset + (st.trades.map (legEffect exch asset)).sum
  trades : ∀ t ∈ st.trades, t.pair ∈ active ∧
    (simulated.map fun exch => legEffect exch (quoteAsset t.pair) t).sum = t.realizedPnl

theorem refresh_booked (host : HostLibrary) (env : Surroundings) {config : BacktestConfig}
    {active : List String} (ts : UInt64) {st : State} (h : Booked config active st) :
    Booked config active (refresh host env active ts st) := by
  obtain ⟨hexchanges, htrades⟩ := refresh_exchanges host env active ts st
  refine ⟨refresh_onlySimulated host env active ts h.onlySimulated, ?_, ?_⟩
  · intro exch asset
    rw [hexchanges, htrades]
    exact h.balances exch asset
  · rw [htrades]
    exact h.trades

theorem attempt_booked (host : HostLibrary) {env : Surroundings} {config : BacktestConfig}
    {active : List String} {ts : UInt64} {pair : String} {st : State} {p : ℕ × ℕ}
    (hpair : pair ∈ active) (hp : p ∈ indexPairs (st.aggregator.getPairSnapshots pair 20).length)
    (h : Booked config active st) (hbalanced : Balanced env config ts pair st p) :
    Booked config active
        (attempt host env config ts pair (st.aggregator.getPairSnapshots pair 20) st p) ∧
      Recorded host env config ts pair st p := by
  unfold Recorded attempt
  unfold Balanced at hbalanced
  cases hsignal : signalAt config pair (st.aggregator.getPairSnapshots pair 20) st p with
  | none => exact ⟨h, .inr rfl⟩
  | some order =>
    obtain ⟨buyExch, sellExch, signal⟩ := order
    obtain ⟨hexch, hbuySim, hsellSim, hquantity⟩ := signalAt_some hp hsignal h.onlySimulated
    dsimp only
    rcases hbalanced _ hsignal with ⟨hbuy, hsell⟩ | ⟨hbuy, hsell⟩
    · obtain ⟨t, htrades, htPair, htBuy, htSell, hmatched, hbalances⟩ :=
        trade_full host env ts pair signal st hexch hquantity hbuy hsell
      refine ⟨⟨?_, ?_, ?_⟩, .inl ⟨t, htrades⟩⟩
      · exact h.onlySimulated
      · intro exch asset
        rw [hbalances, htrades, h.balances, List.map_append, List.sum_append, List.map_singleton,
          List.sum_singleton, add_assoc]
      · intro t' ht'
        rw [htrades] at ht'
        rcases List.mem_append.mp ht' with hold | hnew
        · exact h.trades t' hold
        · rw [List.mem_singleton.mp hnew, htPair]
          exact ⟨hpair, htPair ▸ hmatched.legEffects (htBuy ▸ hbuySim) (htSell ▸ hsellSim)⟩
    · rw [trade_idle host env ts pair signal st hexch hbuy hsell]
      exact ⟨⟨h.onlySimulated, h.balances, h.trades⟩, .inr rfl⟩

theorem start_booked (host : HostLibrary) (config : BacktestConfig) (data : List HistoricalSnapshot)
    (active : List String) : Booked config active (start host config data) := by
  refine ⟨start_onlySimulated host config data, ?_, ?_⟩
  · intro exch asset
    exact (add_zero _).symm
  · intro t ht
    cases ht

theorem sum_legEffects {trades : List TradeRecord} {quote : String}
    (h : ∀ t ∈ trades, (simulated.map fun exch => legEffect exch quote t).sum = t.realizedPnl) :
    (simulated.map fun exch => (trades.map (legEffect exch quote)).sum).sum =
      (trades.map (·.realizedPnl)).sum := by
  induction trades with
  | nil => simp
  | cons t trades ih =>
    simp only [List.map_cons, List.sum_cons, List.sum_map_add, h t (List.mem_cons_self ..),
      ih fun t' ht' => h t' (List.mem_cons_of_mem _ ht')]

theorem Booked.sum_changes {config : BacktestConfig} {active : List String} {st : State}
    (h : Booked config active st) {quote : String} (hquote : ∀ pair ∈ active, quoteAsset pair = quote) :
    (simulated.map fun exch =>
        (st.exchanges exch).balances quote - config.initialBalances.amount quote).sum =
      (st.trades.map (·.realizedPnl)).sum := by
  have hchange : ∀ exch, (st.exchanges exch).balances quote - config.initialBalances.amount quote =
      (st.trades.map (legEffect exch quote)).sum := by
    intro exch
    rw [h.balances, add_sub_cancel_left]
  simp only [hchange]
  refine sum_legEffects ?_
  intro t ht
  obtain ⟨hpair, hlegs⟩ := h.trades t ht
  rwa [hquote _ hpair] at hlegs

/-- In a run all of whose attempts are balanced, the final balances are the
initial ones with the trades booked, no attempt changes a balance without
keeping its trade, and the total P&L is what the quote gains. -/
theorem booksMatchTrades (host : HostLibrary) (env : Surroundings) (config : BacktestConfig)
    (data : List HistoricalSnapshot)
    (hbalanced : EveryAttempt host env config (activePairs config data) (Balanced env config)
      (start host config data) (timestamps data)) :
    let result := run host env config data
    let balance := fun (exch : Exchange) (asset : String) =>
      ((final host env config data).exchanges exch).balances asset
    (∀ exch ∈ simulated, ∀ asset, balance exch asset =
      config.initialBalances.amount asset + (result.2.map (legEffect exch asset)).sum) ∧
    EveryAttempt host env config (activePairs config data) (Recorded host env config)
      (start host config data) (timestamps data) ∧
    ∀ quote, (∀ pair ∈ activePairs config data, quoteAsset pair = quote) →
      result.1.totalPnl =
        (simulated.map fun exch => balance exch quote - config.initialBalances.amount quote).sum := by
  intro result balance
  have hrun : Booked config (activePairs config data) (final host env config data) ∧
      EveryAttempt host env config (activePairs config data) (Recorded host env config)
        (start host config data) (timestamps data) :=
    EveryAttempt.carry (fun ts _ h => refresh_booked host env ts h)
      (fun _ _ _ _ hpair hp h hok => attempt_booked host hpair hp h hok) hbalanced
      (start_booked host config data (activePairs config data))
  obtain ⟨hbooked, hrecorded⟩ := hrun
  refine ⟨fun exch _ asset => hbooked.balances exch asset, hrecorded, ?_⟩
  intro quote hquote
  exact (BacktestReport.totalPnl_computeMetrics ..).trans (hbooked.sum_changes hquote).symm

/-! ### A sell order that is turned away -/

def crossedRows : List HistoricalSnapshot :=
  [sampleRow 500 .binance "BTC-USDT" 99 100, sampleRow 500 .okx "BTC-USDT" 102 103]

theorem crossedRows_booksMatch :
    ((final sampleHost sampleEnv sampleConfig crossedRows).exchanges .okx).balances "BTC" =
      10 + ((run sampleHost sampleEnv sampleConfig crossedRows).2.map (legEffect .okx "BTC")).sum ∧
    (run sampleHost sampleEnv sampleConfig crossedRows).1.totalPnl =
      (simulated.map fun exch => ((final sampleHost sampleEnv sampleConfig crossedRows).exchanges
        exch).balances "USDT" - 100000).sum := by
  obtain ⟨hbalances, _, hpnl⟩ :=
    booksMatchTrades sampleHost sampleEnv sampleConfig crossedRows (by decide +kernel)
  exact ⟨hbalances .okx (by decide) "BTC", hpnl "USDT" (by decide +kernel)⟩

def noCoinsConfig : BacktestConfig := { initialBalances := ⟨[("USDT", 100000)], by decide⟩ }

/-- The exchange that should sell holds nothing; the buy order is filled all the
same and no trade is kept. -/
theorem noCoins_unrecorded :
    (run sampleHost sampleEnv noCoinsConfig crossedRows).2 = [] ∧
      ((final sampleHost sampleEnv noCoinsConfig crossedRows).exchanges .binance).balances "BTC" =
        1 / 2 ∧
      ((final sampleHost sampleEnv noCoinsConfig crossedRows).exchanges .binance).balances "USDT" =
        100000 - 5005 / 100 := by
  decide +kernel

end CryptoArbBot.BacktestEngine
