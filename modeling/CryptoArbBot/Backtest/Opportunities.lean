import CryptoArbBot.Backtest.EngineSteps

/-!
# The orders of an opportunity

The engine orders between two different simulated exchanges, and orders that
take nothing leave the run as it is.
-/

namespace CryptoArbBot.BacktestEngine
open SimulatedExchange

/-! ### What the engine sees -/

def OnlySimulated (st : State) : Prop :=
  ∀ pair exch, (st.aggregator.books pair exch).isSome → exch ∈ simulated

theorem refresh_onlySimulated (host : HostLibrary) (env : Surroundings) (active : List String)
    (ts : UInt64) {st : State} (h : OnlySimulated st) :
    OnlySimulated (refresh host env active ts st) := by
  intro pair exch hbook
  have hsides := refresh_books host env active ts st pair exch
  by_cases hexch : exch ∈ simulated
  · exact hexch
  · rw [if_neg fun hactive => hexch hactive.1] at hsides
    have hsome := congrArg Option.isSome hsides
    rw [Option.isSome_map, Option.isSome_map, hbook] at hsome
    exact h pair exch hsome.symm

theorem start_onlySimulated (host : HostLibrary) (config : BacktestConfig)
    (data : List HistoricalSnapshot) : OnlySimulated (start host config data) := by
  intro pair exch hbook
  cases hbook

theorem detect_quantity {config : BacktestConfig} {buyFee sellFee : ℚ}
    {buySnap sellSnap : OrderBookSnapshot} {signal : Signal}
    (h : detect config buyFee sellFee buySnap sellSnap = some signal) : 0 < signal.quantity := by
  unfold detect at h
  split at h
  · dsimp only at h
    split at h
    · cases h
    · split at h
      · cases h
      next hfillable =>
        split at h
        · cases h
        · cases h
          simp only [not_or, Bool.not_eq_false] at hfillable
          exact DepthAnalyzer.pos_of_fullyFillable hfillable.1
  next => cases h

theorem signalAt_some {config : BacktestConfig} {pair : String} {st : State} {p : ℕ × ℕ}
    (hp : p ∈ indexPairs (st.aggregator.getPairSnapshots pair 20).length)
    {buyExch sellExch : Exchange} {signal : Signal}
    (h : signalAt config pair (st.aggregator.getPairSnapshots pair 20) st p =
      some (buyExch, sellExch, signal)) (honly : OnlySimulated st) :
    buyExch ≠ sellExch ∧ buyExch ∈ simulated ∧ sellExch ∈ simulated ∧ 0 < signal.quantity := by
  unfold signalAt at h
  split at h
  next buySnap sellSnap hbuy hsell =>
    obtain ⟨found, hdetect, hsame⟩ := Option.map_eq_some_iff.mp h
    cases hsame
    obtain ⟨_, _, hij⟩ := mem_indexPairs.mp (show (p.1, p.2) ∈ _ from hp)
    refine ⟨?_, ?_, ?_, detect_quantity hdetect⟩
    · exact exchange_ne_of_index (st.aggregator.getPairSnapshots_nodup pair) hij hbuy hsell
    · exact honly pair _ (OrderBookAggregator.mem_getPairSnapshots (List.mem_of_getElem? hbuy))
    · exact honly pair _ (OrderBookAggregator.mem_getPairSnapshots (List.mem_of_getElem? hsell))
  next => cases h

/-! ### Two orders -/

def takenBy (env : Surroundings) (ts : UInt64) (pair : String) (st : State)
    (order : Exchange × Exchange × Signal) : ℚ × ℚ :=
  ((st.exchanges order.1).buyTakes (buyRequest order.1 pair order.2.2 (env.uuids st.drawn))
      (env.now ts order.1 pair),
    (st.exchanges order.2.1).sellTakes (sellRequest order.2.1 pair order.2.2 (env.uuids (st.drawn + 1)))
      (env.now ts order.2.1 pair))

section Orders
variable (host : HostLibrary) (env : Surroundings) (ts : UInt64) (pair : String)
  {buyExch sellExch : Exchange} (signal : Signal) (st : State)

theorem placeOrders_of_ne (hexch : buyExch ≠ sellExch) :
    let buySim := st.exchanges buyExch
    let sellSim := st.exchanges sellExch
    let buyReq := buyRequest buyExch pair signal (env.uuids st.drawn)
    let sellReq := sellRequest sellExch pair signal (env.uuids (st.drawn + 1))
    let buy := buySim.place buyReq ("SIM-" ++ env.uuids (st.drawn + 2))
      (buySim.buyWalk buyReq (env.now ts buyExch pair))
    let sell := sellSim.place sellReq ("SIM-" ++ env.uuids (st.drawn + 3))
      (sellSim.sellWalk sellReq (env.now ts sellExch pair))
    placeOrders env ts pair buyExch sellExch signal st =
      ⟨buy.1, sell.1,
        Function.update (Function.update st.exchanges buyExch buy.2) sellExch sell.2⟩ := by
  intro buySim sellSim buyReq sellReq buy sell
  unfold placeOrders
  dsimp only
  rw [Function.update_of_ne hexch.symm, placeLimitOrder_eq, placeLimitOrder_eq]
  rfl

theorem trade_idle (hexch : buyExch ≠ sellExch)
    (hbuy : (takenBy env ts pair st (buyExch, sellExch, signal)).1 ≤ 0)
    (hsell : (takenBy env ts pair st (buyExch, sellExch, signal)).2 ≤ 0) :
    trade host env ts pair buyExch sellExch signal st = { st with drawn := st.drawn + 5 } := by
  have hbuyNone := place_idle (st.exchanges buyExch)
    (buyRequest buyExch pair signal (env.uuids st.drawn)) (buyWalk ..) hbuy
    ("SIM-" ++ env.uuids (st.drawn + 2))
  have hsellNone := place_idle (st.exchanges sellExch)
    (sellRequest sellExch pair signal (env.uuids (st.drawn + 1))) (sellWalk ..) hsell
    ("SIM-" ++ env.uuids (st.drawn + 3))
  unfold trade
  rw [placeOrders_of_ne env ts pair signal st hexch]
  dsimp only
  rw [hbuyNone.unchanged, hsellNone.unchanged, Function.update_eq_self, Function.update_eq_self,
    if_neg fun h => hbuyNone.status h.1]

end Orders

/-- No order of the opportunity, if there is one, takes anything. -/
def Idle (env : Surroundings) (config : BacktestConfig) (ts : UInt64) (pair : String) (st : State)
    (p : ℕ × ℕ) : Prop :=
  ∀ order ∈ signalAt config pair (st.aggregator.getPairSnapshots pair 20) st p,
    (takenBy env ts pair st order).1 ≤ 0 ∧ (takenBy env ts pair st order).2 ≤ 0

instance (env : Surroundings) (config : BacktestConfig) (ts : UInt64) (pair : String) (st : State)
    (p : ℕ × ℕ) : Decidable (Idle env config ts pair st p) :=
  inferInstanceAs (Decidable (∀ order ∈ signalAt .., _))

theorem attempt_idle (host : HostLibrary) {env : Surroundings} {config : BacktestConfig}
    {ts : UInt64} {pair : String} {st : State} {p : ℕ × ℕ}
    (hp : p ∈ indexPairs (st.aggregator.getPairSnapshots pair 20).length) (honly : OnlySimulated st)
    (hidle : Idle env config ts pair st p) :
    let st' := attempt host env config ts pair (st.aggregator.getPairSnapshots pair 20) st p
    st'.exchanges = st.exchanges ∧ st'.aggregator = st.aggregator ∧ st'.trades = st.trades := by
  intro st'
  show (attempt ..).exchanges = _ ∧ (attempt ..).aggregator = _ ∧ (attempt ..).trades = _
  unfold attempt
  unfold Idle at hidle
  cases hsignal : signalAt config pair (st.aggregator.getPairSnapshots pair 20) st p with
  | none => exact ⟨rfl, rfl, rfl⟩
  | some order =>
    obtain ⟨buyExch, sellExch, signal⟩ := order
    obtain ⟨hexch, _⟩ := signalAt_some hp hsignal honly
    obtain ⟨hbuy, hsell⟩ := hidle _ hsignal
    dsimp only
    rw [trade_idle host env ts pair signal st hexch hbuy hsell]
    exact ⟨rfl, rfl, rfl⟩

theorem EveryScan.idle {host : HostLibrary} {env : Surroundings} {config : BacktestConfig}
    {ts : UInt64} {st : State} {active : List String} (honly : OnlySimulated st)
    (h : EveryScan host env config (Idle env config) ts st active) :
    let st' := Runs.run (scanPair host env config ts) st active
    st'.exchanges = st.exchanges ∧ st'.trades = st.trades := by
  intro st'
  have hrun : (st'.exchanges = st.exchanges ∧ st'.aggregator = st.aggregator ∧
      st'.trades = st.trades) ∧ EveryScan host env config (fun _ _ _ _ => True) ts st active := by
    refine EveryScan.carry (I := fun s : State => s.exchanges = st.exchanges ∧
      s.aggregator = st.aggregator ∧ s.trades = st.trades) ?_ h ⟨rfl, rfl, rfl⟩
    intro pair s p _ hp hs hidle
    obtain ⟨hexchanges, hbooks, htrades⟩ := hs
    have hsame := attempt_idle host hp (fun pair exch => by rw [hbooks]; exact honly pair exch) hidle
    exact ⟨⟨hsame.1.trans hexchanges, hsame.2.1.trans hbooks, hsame.2.2.trans htrades⟩, trivial⟩
  exact ⟨hrun.1.1, hrun.1.2.2⟩

theorem run_onlySimulated (host : HostLibrary) (env : Surroundings) (config : BacktestConfig)
    (active : List String) {st : State} (h : OnlySimulated st) (tss : List UInt64) :
    OnlySimulated (Runs.run (step host env config active) st tss) := by
  refine Runs.invariant_run ?_ tss h
  intro s ts hs pair exch
  rw [step_books]
  exact refresh_onlySimulated host env active ts hs pair exch

end CryptoArbBot.BacktestEngine
