import CryptoArbBot.Backtest.EngineSteps

/-!
# Two backtests side by side

Two runs agree when their balances, fees, the rows and books of the active pairs
and their trades without ids are the same. A timestamp at which both see the
same rows and books keeps the agreement, whatever ids and clock each of them has.
-/

namespace CryptoArbBot

namespace SimulatedExchange

def rowSides : Option HistoricalSnapshot → List PriceLevel × List PriceLevel
  | none => ([], [])
  | some hist => (hist.bids, hist.asks)

theorem currentBook_sides (sim : SimulatedExchange) (pair : String) (now : TimePoint) :
    (sim.currentBook pair now).bids = (rowSides (sim.row pair)).1 ∧
      (sim.currentBook pair now).asks = (rowSides (sim.row pair)).2 := by
  unfold currentBook
  cases sim.row pair with
  | none => exact ⟨rfl, rfl⟩
  | some hist => exact ⟨rfl, rfl⟩

def withoutId (result : OrderResult) : OrderResult := { result with exchangeOrderId := "" }

/-- What orders for the pairs see of an exchange is the same. -/
structure SameSeen (pairs : List String) (sim sim' : SimulatedExchange) : Prop where
  balances : sim'.balances = sim.balances
  takerFee : sim'.takerFee = sim.takerFee
  row : ∀ pair ∈ pairs, sim'.row pair = sim.row pair

section Orders
variable {pairs : List String} {sim sim' : SimulatedExchange} (req : OrderRequest)

theorem walk_congr (h : SameSeen pairs sim sim') (hpair : req.pair ∈ pairs) (clientOrderId : String)
    (now now' : TimePoint) : sim'.walk { req with clientOrderId } now' = sim.walk req now := by
  obtain ⟨_, htakerFee, hrows⟩ := h
  have hrow := hrows req.pair hpair
  unfold walk buyWalk sellWalk
  dsimp only
  simp only [currentBook_sides, hrow, htakerFee]

theorem place_congr (h : SameSeen pairs sim sim') (clientOrderId orderId orderId' : String)
    (walk : Walk) :
    let placed := sim.place req orderId walk
    let placed' := sim'.place { req with clientOrderId } orderId' walk
    withoutId placed'.1 = withoutId placed.1 ∧ placed'.2.balances = placed.2.balances := by
  intro placed placed'
  obtain ⟨hbalances, htakerFee, _⟩ := h
  unfold placed placed' place
  dsimp only
  simp only [hbalances, htakerFee]
  split
  · exact ⟨rfl, hbalances⟩
  · split
    · exact ⟨rfl, hbalances⟩
    · split
      · exact ⟨rfl, rfl⟩
      · exact ⟨rfl, hbalances⟩

theorem placeLimitOrder_congr (h : SameSeen pairs sim sim') (hpair : req.pair ∈ pairs)
    (clientOrderId uuid uuid' : String) (now now' : TimePoint) :
    let placed := sim.placeLimitOrder req uuid now
    let placed' := sim'.placeLimitOrder { req with clientOrderId } uuid' now'
    withoutId placed'.1 = withoutId placed.1 ∧ SameSeen pairs placed.2 placed'.2 := by
  intro placed placed'
  have hplaced : withoutId placed'.1 = withoutId placed.1 ∧ placed'.2.balances = placed.2.balances := by
    unfold placed placed'
    rw [placeLimitOrder_eq, placeLimitOrder_eq, walk_congr req h hpair clientOrderId now now']
    exact place_congr req h clientOrderId ..
  have hsim : placed.2 = { sim with balances := placed.2.balances } := placeLimitOrder_snd ..
  have hsim' : placed'.2 = { sim' with balances := placed'.2.balances } := placeLimitOrder_snd ..
  refine ⟨hplaced.1, hplaced.2, ?_, ?_⟩
  · rw [hsim, hsim']
    exact h.takerFee
  · intro pair hmem
    rw [hsim, hsim']
    exact h.row pair hmem

end Orders

end SimulatedExchange

namespace BacktestEngine
open SimulatedExchange

structure Agrees (active : List String) (st st' : State) : Prop where
  exchanges : ∀ exch, SameSeen active (st.exchanges exch) (st'.exchanges exch)
  books : ∀ exch, ∀ pair ∈ active, (st'.aggregator.books pair exch).map sidesOf =
    (st.aggregator.books pair exch).map sidesOf
  trades : st'.trades.map BacktestReport.withoutIds = st.trades.map BacktestReport.withoutIds

theorem Agrees.snapshots {active : List String} {st st' : State} (h : Agrees active st st')
    {pair : String} (hpair : pair ∈ active) :
    (st'.aggregator.getPairSnapshots pair 20).map OrderBookAggregator.sides =
      (st.aggregator.getPairSnapshots pair 20).map OrderBookAggregator.sides := by
  rw [OrderBookAggregator.getPairSnapshots_sides, OrderBookAggregator.getPairSnapshots_sides]
  refine List.filterMap_congr ?_
  intro exch _
  have hbooks := congrArg (Option.map fun sides : List PriceLevel × List PriceLevel =>
    (exch, sides.1.take 20, sides.2.take 20)) (h.books exch pair hpair)
  rw [Option.map_map, Option.map_map] at hbooks
  exact hbooks

/-! ### One opportunity -/

/-- The filters read the asks of one snapshot and the bids of the other. -/
theorem detect_congr (config : BacktestConfig) (buyFee sellFee : ℚ)
    {buySnap sellSnap buySnap' sellSnap' : OrderBookSnapshot} (hasks : buySnap'.asks = buySnap.asks)
    (hbids : sellSnap'.bids = sellSnap.bids) :
    detect config buyFee sellFee buySnap' sellSnap' = detect config buyFee sellFee buySnap sellSnap := by
  unfold detect DepthAnalyzer.effectiveBuyPrice DepthAnalyzer.effectiveSellPrice
  rw [hasks, hbids]

theorem getElem?_sides {snapshots snapshots' : List OrderBookSnapshot}
    (h : snapshots'.map OrderBookAggregator.sides = snapshots.map OrderBookAggregator.sides) (i : ℕ) :
    (snapshots'[i]?).map OrderBookAggregator.sides = (snapshots[i]?).map OrderBookAggregator.sides := by
  rw [← List.getElem?_map, ← List.getElem?_map, h]

theorem signalAt_congr (config : BacktestConfig) (pair : String)
    {snapshots snapshots' : List OrderBookSnapshot}
    (hsides : snapshots'.map OrderBookAggregator.sides = snapshots.map OrderBookAggregator.sides)
    {st st' : State} (hfees : ∀ exch, (st'.exchanges exch).takerFee = (st.exchanges exch).takerFee)
    (p : ℕ × ℕ) :
    signalAt config pair snapshots' st' p = signalAt config pair snapshots st p := by
  have hbuy := getElem?_sides hsides p.1
  have hsell := getElem?_sides hsides p.2
  unfold signalAt
  cases hbuySnap : snapshots[p.1]? with
  | none =>
    rw [hbuySnap, Option.map_none, Option.map_eq_none_iff] at hbuy
    rw [hbuy]
  | some buySnap =>
    rw [hbuySnap] at hbuy
    obtain ⟨buySnap', hbuySnap', hbuySides⟩ := Option.map_eq_some_iff.mp hbuy
    rw [hbuySnap']
    cases hsellSnap : snapshots[p.2]? with
    | none =>
      rw [hsellSnap, Option.map_none, Option.map_eq_none_iff] at hsell
      rw [hsell]
    | some sellSnap =>
      rw [hsellSnap] at hsell
      obtain ⟨sellSnap', hsellSnap', hsellSides⟩ := Option.map_eq_some_iff.mp hsell
      rw [hsellSnap']
      have hbuyExch : buySnap'.exchange = buySnap.exchange := congrArg Prod.fst hbuySides
      have hsellExch : sellSnap'.exchange = sellSnap.exchange := congrArg Prod.fst hsellSides
      have hasks : buySnap'.asks = buySnap.asks := congrArg (·.2.2) hbuySides
      have hbids : sellSnap'.bids = sellSnap.bids := congrArg (·.2.1) hsellSides
      simp only [hbuyExch, hsellExch, fetchFees, hfees, detect_congr config _ _ hasks hbids]

theorem update_sameSeen {pairs : List String} {exchanges exchanges' : Exchange → SimulatedExchange}
    (h : ∀ exch, SameSeen pairs (exchanges exch) (exchanges' exch)) (exch : Exchange)
    {sim sim' : SimulatedExchange} (hsim : SameSeen pairs sim sim') (other : Exchange) :
    SameSeen pairs (Function.update exchanges exch sim other)
      (Function.update exchanges' exch sim' other) := by
  by_cases hother : other = exch
  · subst hother
    rw [Function.update_self, Function.update_self]
    exact hsim
  · rw [Function.update_of_ne hother, Function.update_of_ne hother]
    exact h other

theorem tradeRecord_congr (host : HostLibrary) (ts : UInt64) (pair : String)
    (buyExch sellExch : Exchange) (signal : Signal) (id id' : String)
    {buyResult sellResult buyResult' sellResult' : OrderResult}
    (hbuy : withoutId buyResult' = withoutId buyResult)
    (hsell : withoutId sellResult' = withoutId sellResult) :
    BacktestReport.withoutIds
        (tradeRecord host ts pair buyExch sellExch signal id' buyResult' sellResult') =
      BacktestReport.withoutIds
        (tradeRecord host ts pair buyExch sellExch signal id buyResult sellResult) := by
  have hrecord : ∀ (id : String) (buyResult sellResult : OrderResult),
      BacktestReport.withoutIds
          (tradeRecord host ts pair buyExch sellExch signal id buyResult sellResult) =
        tradeRecord host ts pair buyExch sellExch signal "" (withoutId buyResult)
          (withoutId sellResult) := fun _ _ _ => rfl
  rw [hrecord, hrecord, hbuy, hsell]

theorem placeOrders_congr (env env' : Surroundings) (ts : UInt64) {active : List String}
    {pair : String} (hpair : pair ∈ active) (buyExch sellExch : Exchange) (signal : Signal)
    {st st' : State} (h : ∀ exch, SameSeen active (st.exchanges exch) (st'.exchanges exch)) :
    let placed := placeOrders env ts pair buyExch sellExch signal st
    let placed' := placeOrders env' ts pair buyExch sellExch signal st'
    withoutId placed'.buyResult = withoutId placed.buyResult ∧
      withoutId placed'.sellResult = withoutId placed.sellResult ∧
      ∀ exch, SameSeen active (placed.exchanges exch) (placed'.exchanges exch) := by
  have hbuy := placeLimitOrder_congr (buyRequest buyExch pair signal (env.uuids st.drawn))
    (h buyExch) hpair (env'.uuids st'.drawn) (env.uuids (st.drawn + 2))
    (env'.uuids (st'.drawn + 2)) (env.now ts buyExch pair) (env'.now ts buyExch pair)
  have hexchanges := update_sameSeen h buyExch hbuy.2
  have hsell := placeLimitOrder_congr (sellRequest sellExch pair signal (env.uuids (st.drawn + 1)))
    (hexchanges sellExch) hpair (env'.uuids (st'.drawn + 1)) (env.uuids (st.drawn + 3))
    (env'.uuids (st'.drawn + 3)) (env.now ts sellExch pair) (env'.now ts sellExch pair)
  exact ⟨hbuy.1, hsell.1, update_sameSeen hexchanges sellExch hsell.2⟩

theorem trade_agrees (host : HostLibrary) (env env' : Surroundings) (ts : UInt64)
    {active : List String} {pair : String} (hpair : pair ∈ active) (buyExch sellExch : Exchange)
    (signal : Signal) {st st' : State} (h : Agrees active st st') :
    Agrees active (trade host env ts pair buyExch sellExch signal st)
      (trade host env' ts pair buyExch sellExch signal st') := by
  obtain ⟨hbuy, hsell, hexchanges⟩ :=
    placeOrders_congr env env' ts hpair buyExch sellExch signal h.exchanges
  refine ⟨hexchanges, h.books, ?_⟩
  have hbuyStatus := congrArg OrderResult.status hbuy
  have hsellStatus := congrArg OrderResult.status hsell
  dsimp only [withoutId] at hbuyStatus hsellStatus
  unfold trade
  simp only [hbuyStatus, hsellStatus]
  split
  · have hrecord := tradeRecord_congr host ts pair buyExch sellExch signal
      (env.uuids (st.drawn + 4)) (env'.uuids (st'.drawn + 4)) hbuy hsell
    rw [List.map_append, List.map_append, h.trades, List.map_singleton, List.map_singleton, hrecord]
  · exact h.trades

theorem attempt_agrees (host : HostLibrary) (env env' : Surroundings) (config : BacktestConfig)
    (ts : UInt64) {active : List String} {pair : String} (hpair : pair ∈ active)
    {snapshots snapshots' : List OrderBookSnapshot}
    (hsides : snapshots'.map OrderBookAggregator.sides = snapshots.map OrderBookAggregator.sides)
    {st st' : State} (h : Agrees active st st') (p : ℕ × ℕ) :
    Agrees active (attempt host env config ts pair snapshots st p)
      (attempt host env' config ts pair snapshots' st' p) := by
  unfold attempt
  rw [signalAt_congr config pair hsides (fun exch => (h.exchanges exch).takerFee) p]
  cases signalAt config pair snapshots st p with
  | none => exact h
  | some order => exact trade_agrees host env env' ts hpair order.1 order.2.1 order.2.2 h

theorem scanPair_agrees (host : HostLibrary) (env env' : Surroundings) (config : BacktestConfig)
    (ts : UInt64) {active : List String} {pair : String} (hpair : pair ∈ active) {st st' : State}
    (h : Agrees active st st') :
    Agrees active (scanPair host env config ts st pair) (scanPair host env' config ts st' pair) := by
  have hsides := h.snapshots hpair
  have hlength : (st'.aggregator.getPairSnapshots pair 20).length =
      (st.aggregator.getPairSnapshots pair 20).length := by
    have hmaps := congrArg List.length hsides
    rwa [List.length_map, List.length_map] at hmaps
  rw [scanPair_eq_run, scanPair_eq_run, hlength]
  refine Runs.related_run (R := Agrees active) _ ?_ h
  intro s s' p _ hst
  exact attempt_agrees host env env' config ts hpair hsides hst p

theorem scanPairs_agrees (host : HostLibrary) (env env' : Surroundings) (config : BacktestConfig)
    (ts : UInt64) (active : List String) {st st' : State} (h : Agrees active st st') :
    Agrees active (Runs.run (scanPair host env config ts) st active)
      (Runs.run (scanPair host env' config ts) st' active) := by
  refine Runs.related_run (R := Agrees active) active ?_ h
  intro s s' pair hpair hst
  exact scanPair_agrees host env env' config ts hpair hst

/-! ### A timestamp -/

/-- The timestamp does the same in both runs when each of them then sees the same
rows and has the same books. -/
theorem step_agrees (host : HostLibrary) (env env' : Surroundings) (config : BacktestConfig)
    {active : List String} (ts : UInt64) {st st' : State}
    (hbalances : ∀ exch, (st'.exchanges exch).balances = (st.exchanges exch).balances)
    (hfees : ∀ exch, (st'.exchanges exch).takerFee = (st.exchanges exch).takerFee)
    (hrows : ∀ exch, ∀ pair ∈ active,
      ((st'.exchanges exch).advanceTo ts).row pair = ((st.exchanges exch).advanceTo ts).row pair)
    (hbooks : ∀ exch, ∀ pair ∈ active,
      (shownAt host ts st' exch pair).or ((st'.aggregator.books pair exch).map sidesOf) =
        (shownAt host ts st exch pair).or ((st.aggregator.books pair exch).map sidesOf))
    (htrades : st'.trades.map BacktestReport.withoutIds = st.trades.map BacktestReport.withoutIds) :
    Agrees active (step host env config active st ts) (step host env' config active st' ts) := by
  refine scanPairs_agrees host env env' config ts active ⟨?_, ?_, ?_⟩
  · intro exch
    rw [(refresh_exchanges ..).1, (refresh_exchanges ..).1]
    exact ⟨hbalances exch, hfees exch, hrows exch⟩
  · intro exch pair hpair
    rw [refresh_books_active host env ts st hpair, refresh_books_active host env' ts st' hpair]
    exact hbooks exch pair hpair
  · rw [(refresh_exchanges ..).2, (refresh_exchanges ..).2]
    exact htrades

theorem Agrees.refl (active : List String) (st : State) : Agrees active st st :=
  ⟨fun _ => ⟨rfl, rfl, fun _ _ => rfl⟩, fun _ _ _ => rfl, rfl⟩

theorem run_agrees (host : HostLibrary) (env env' : Surroundings) (config : BacktestConfig)
    (active : List String) (st : State) (tss : List UInt64) :
    Agrees active (Runs.run (step host env config active) st tss)
      (Runs.run (step host env' config active) st tss) := by
  have hstart : (st.exchanges = st.exchanges) ∧ Agrees active st st := ⟨rfl, .refl active st⟩
  refine (Runs.related_run (R := fun s t : State => t.exchanges = s.exchanges ∧ Agrees active s t) tss ?_
    hstart).2
  intro s t ts _ h
  obtain ⟨hexchanges, hagrees⟩ := h
  have hstep : Agrees active (step host env config active s ts) (step host env' config active t ts) := by
    refine step_agrees host env env' config ts ?_ ?_ ?_ ?_ hagrees.trades
    · intro exch
      rw [hexchanges]
    · intro exch
      rw [hexchanges]
    · intro exch pair _
      rw [hexchanges]
    · intro exch pair hpair
      unfold shownAt
      rw [hexchanges, hagrees.books exch pair hpair]
  refine ⟨funext fun exch => ?_, hstep⟩
  rw [step_exchanges, (hstep.exchanges exch).balances, hexchanges, ← step_exchanges]

end BacktestEngine

end CryptoArbBot
