import CryptoArbBot.Backtest.BacktestEngine
import CryptoArbBot.Backtest.Cursor
import CryptoArbBot.Backtest.SimulatedOrders

/-!
# What a timestamp of the backtest does

Orders change balances, trades and the count of ids; the cursors and the books
change only when a timestamp begins.
-/

namespace CryptoArbBot

namespace SimulatedExchange

def shownSides : Option HistoricalSnapshot → List PriceLevel × List PriceLevel
  | none => ([], [])
  | some hist => (hist.bids.take 20, hist.asks.take 20)

theorem fetchOrderBook_sides (sim : SimulatedExchange) (pair : String) (now : TimePoint) :
    ((sim.fetchOrderBook pair 20 now).bids, (sim.fetchOrderBook pair 20 now).asks) =
      shownSides (sim.row pair) := by
  unfold fetchOrderBook currentBook
  cases sim.row pair with
  | none => rfl
  | some hist => rfl

end SimulatedExchange

namespace BacktestEngine
open SimulatedExchange

theorem timestamps_ascending (data : List HistoricalSnapshot) : (timestamps data).Pairwise (· < ·) :=
  orderedSet_ascending _

/-! ### Orders leave the market alone -/

/-- The states differ in balances, trades and ids only. -/
structure SameMarket (st st' : State) : Prop where
  aggregator : st'.aggregator = st.aggregator
  exchanges : ∀ exch, st'.exchanges exch =
    { st.exchanges exch with balances := (st'.exchanges exch).balances }

theorem SameMarket.refl (st : State) : SameMarket st st := ⟨rfl, fun _ => rfl⟩

theorem SameMarket.trans {st st' st'' : State} (h : SameMarket st st') (h' : SameMarket st' st'') :
    SameMarket st st'' := by
  refine ⟨h'.aggregator.trans h.aggregator, ?_⟩
  intro exch
  rw [h'.exchanges exch, h.exchanges exch]

theorem update_balances {exchanges : Exchange → SimulatedExchange} {exch : Exchange}
    {sim : SimulatedExchange} (h : sim = { exchanges exch with balances := sim.balances })
    (other : Exchange) :
    Function.update exchanges exch sim other =
      { exchanges other with balances := (Function.update exchanges exch sim other).balances } := by
  by_cases hother : other = exch
  · subst hother
    rw [Function.update_self]
    exact h
  · rw [Function.update_of_ne hother]

theorem trade_sameMarket (host : HostLibrary) (env : Surroundings) (ts : UInt64) (pair : String)
    (buyExch sellExch : Exchange) (signal : Signal) (st : State) :
    SameMarket st (trade host env ts pair buyExch sellExch signal st) := by
  refine ⟨rfl, ?_⟩
  intro exch
  show (placeOrders env ts pair buyExch sellExch signal st).exchanges exch = _
  unfold placeOrders
  dsimp only
  rw [update_balances (placeLimitOrder_snd _ _ _ _) exch, update_balances (placeLimitOrder_snd _ _ _ _) exch]
  rfl

theorem attempt_sameMarket (host : HostLibrary) (env : Surroundings) (config : BacktestConfig)
    (ts : UInt64) (pair : String) (snapshots : List OrderBookSnapshot) (st : State) (p : ℕ × ℕ) :
    SameMarket st (attempt host env config ts pair snapshots st p) := by
  unfold attempt
  split
  · exact .refl st
  · exact trade_sameMarket ..

theorem scanPair_sameMarket (host : HostLibrary) (env : Surroundings) (config : BacktestConfig)
    (ts : UInt64) (st : State) (pair : String) :
    SameMarket st (scanPair host env config ts st pair) := by
  unfold scanPair
  dsimp only
  split
  · exact .refl st
  · exact Runs.invariant_run (I := fun st' => SameMarket st st')
      (fun _ _ h => h.trans (attempt_sameMarket ..)) _ (.refl st)

theorem scanPairs_sameMarket (host : HostLibrary) (env : Surroundings) (config : BacktestConfig)
    (ts : UInt64) (st : State) (active : List String) :
    SameMarket st (Runs.run (scanPair host env config ts) st active) :=
  Runs.invariant_run (I := fun st' => SameMarket st st')
    (fun _ _ h => h.trans (scanPair_sameMarket ..)) _ (.refl st)

/-! ### The books of a timestamp -/

def sidesOf (book : OrderBook) : List PriceLevel × List PriceLevel := (book.bids, book.asks)

/-- The sides of the book that a snapshot is applied as, if it is. -/
def published (host : HostLibrary) (sides : List PriceLevel × List PriceLevel) :
    Option (List PriceLevel × List PriceLevel) :=
  if sides.1.isEmpty && sides.2.isEmpty then none
  else
    some (host.sortLevels.sort (fun a b => decide (a.price > b.price))
        (sides.1.filter fun l => l.quantity > 0),
      host.sortLevels.sort (fun a b => decide (a.price < b.price))
        (sides.2.filter fun l => l.quantity > 0))

theorem updateBook_exchanges (host : HostLibrary) (env : Surroundings) (ts : UInt64) (st : State)
    (key : Exchange × String) :
    (updateBook host env ts st key).exchanges = st.exchanges ∧
      (updateBook host env ts st key).trades = st.trades := by
  unfold updateBook
  dsimp only
  split <;> exact ⟨rfl, rfl⟩

theorem updateBook_books (host : HostLibrary) (env : Surroundings) (ts : UInt64) (st : State)
    (key : Exchange × String) (pair : String) (exch : Exchange) :
    ((updateBook host env ts st key).aggregator.books pair exch).map sidesOf =
      if (exch, pair) = key then
        (published host (shownSides ((st.exchanges exch).row pair))).or
          ((st.aggregator.books pair exch).map sidesOf)
      else (st.aggregator.books pair exch).map sidesOf := by
  obtain ⟨exch', pair'⟩ := key
  have hsides := fetchOrderBook_sides (st.exchanges exch') pair' (env.now ts exch' pair')
  unfold updateBook
  dsimp only
  by_cases hkey : (exch, pair) = (exch', pair')
  · cases hkey
    rw [if_pos rfl, ← hsides, published]
    dsimp only
    split
    · rfl
    · rw [Option.some_or]
      show Option.map sidesOf (if pair = pair ∧ exch = exch then _ else _) = _
      rw [if_pos ⟨rfl, rfl⟩]
      rfl
  · rw [if_neg hkey]
    split
    · rfl
    · show Option.map sidesOf (if pair = pair' ∧ exch = exch' then _ else _) = _
      rw [if_neg fun h => hkey (Prod.ext h.2 h.1)]

theorem updateBooks_exchanges (host : HostLibrary) (env : Surroundings) (ts : UInt64) (st : State)
    (keys : List (Exchange × String)) :
    (Runs.run (updateBook host env ts) st keys).exchanges = st.exchanges ∧
      (Runs.run (updateBook host env ts) st keys).trades = st.trades := by
  refine Runs.invariant_run
    (I := fun st' : State => st'.exchanges = st.exchanges ∧ st'.trades = st.trades) ?_ keys ⟨rfl, rfl⟩
  intro st' key h
  obtain ⟨hexchanges, htrades⟩ := updateBook_exchanges host env ts st' key
  exact ⟨hexchanges.trans h.1, htrades.trans h.2⟩

theorem updateBooks_books (host : HostLibrary) (env : Surroundings) (ts : UInt64) (st : State)
    (keys : List (Exchange × String)) (pair : String) (exch : Exchange) :
    ((Runs.run (updateBook host env ts) st keys).aggregator.books pair exch).map sidesOf =
      if (exch, pair) ∈ keys then
        (published host (shownSides ((st.exchanges exch).row pair))).or
          ((st.aggregator.books pair exch).map sidesOf)
      else (st.aggregator.books pair exch).map sidesOf := by
  induction keys generalizing st with
  | nil => rfl
  | cons key keys ih =>
    rw [Runs.run_cons, ih, updateBook_books, (updateBook_exchanges host env ts st key).1]
    by_cases hkey : (exch, pair) = key
    · subst hkey
      by_cases hmem : (exch, pair) ∈ keys
      · -- a key that occurs again is published again from the same row
        simp only [hmem, List.mem_cons_self, if_true]
        cases published host (shownSides ((st.exchanges exch).row pair)) <;> rfl
      · simp [hmem]
    · simp [hkey]

theorem mem_bookKeys {active : List String} {exch : Exchange} {pair : String} :
    (exch, pair) ∈ bookKeys active ↔ exch ∈ simulated ∧ pair ∈ active := by
  simp [bookKeys]

theorem refresh_exchanges (host : HostLibrary) (env : Surroundings) (active : List String)
    (ts : UInt64) (st : State) :
    (∀ exch, (refresh host env active ts st).exchanges exch = (st.exchanges exch).advanceTo ts) ∧
      (refresh host env active ts st).trades = st.trades := by
  obtain ⟨hexchanges, htrades⟩ := updateBooks_exchanges host env ts (advance ts st) (bookKeys active)
  refine ⟨fun exch => ?_, htrades⟩
  rw [refresh, hexchanges]
  rfl

theorem refresh_books (host : HostLibrary) (env : Surroundings) (active : List String)
    (ts : UInt64) (st : State) (pair : String) (exch : Exchange) :
    ((refresh host env active ts st).aggregator.books pair exch).map sidesOf =
      if exch ∈ simulated ∧ pair ∈ active then
        (published host (shownSides (((st.exchanges exch).advanceTo ts).row pair))).or
          ((st.aggregator.books pair exch).map sidesOf)
      else (st.aggregator.books pair exch).map sidesOf := by
  rw [refresh, updateBooks_books]
  simp only [mem_bookKeys]
  rfl

/-- What an exchange shows of a pair once its clock has advanced. -/
def shownAt (host : HostLibrary) (ts : UInt64) (st : State) (exch : Exchange) (pair : String) :
    Option (List PriceLevel × List PriceLevel) :=
  if exch ∈ simulated then published host (shownSides (((st.exchanges exch).advanceTo ts).row pair))
  else none

theorem refresh_books_active (host : HostLibrary) (env : Surroundings) {active : List String}
    (ts : UInt64) (st : State) {pair : String} (hpair : pair ∈ active) (exch : Exchange) :
    ((refresh host env active ts st).aggregator.books pair exch).map sidesOf =
      (shownAt host ts st exch pair).or ((st.aggregator.books pair exch).map sidesOf) := by
  rw [refresh_books, shownAt]
  by_cases hexch : exch ∈ simulated
  · rw [if_pos ⟨hexch, hpair⟩, if_pos hexch]
  · rw [if_neg fun h => hexch h.1, if_neg hexch, Option.none_or]

/-! ### Attempts -/

theorem scanPair_eq_run (host : HostLibrary) (env : Surroundings) (config : BacktestConfig)
    (ts : UInt64) (st : State) (pair : String) :
    scanPair host env config ts st pair =
      Runs.run (attempt host env config ts pair (st.aggregator.getPairSnapshots pair 20)) st
        (indexPairs (st.aggregator.getPairSnapshots pair 20).length) := by
  unfold scanPair
  dsimp only
  split
  next hfew =>
    have hnone : ∀ n, n < 2 → indexPairs n = [] := by decide
    rw [hnone _ hfew]
    rfl
  next => rfl

/-- Every attempt of the loops at a timestamp meets `ok` in the state it starts
from. -/
def EveryScan (host : HostLibrary) (env : Surroundings) (config : BacktestConfig)
    (ok : UInt64 → String → State → ℕ × ℕ → Prop) (ts : UInt64) (st : State)
    (active : List String) : Prop :=
  Runs.Along (scanPair host env config ts)
    (fun st pair =>
      let snapshots := st.aggregator.getPairSnapshots pair 20
      Runs.Along (attempt host env config ts pair snapshots) (ok ts pair) st
        (indexPairs snapshots.length))
    st active

instance (host : HostLibrary) (env : Surroundings) (config : BacktestConfig)
    (ok : UInt64 → String → State → ℕ × ℕ → Prop) [∀ ts pair st p, Decidable (ok ts pair st p)]
    (ts : UInt64) (st : State) (active : List String) :
    Decidable (EveryScan host env config ok ts st active) :=
  inferInstanceAs (Decidable (Runs.Along _ _ st active))

def EveryAttempt (host : HostLibrary) (env : Surroundings) (config : BacktestConfig)
    (active : List String) (ok : UInt64 → String → State → ℕ × ℕ → Prop) (st : State)
    (tss : List UInt64) : Prop :=
  Runs.Along (step host env config active)
    (fun st ts => EveryScan host env config ok ts (refresh host env active ts st) active) st tss

instance (host : HostLibrary) (env : Surroundings) (config : BacktestConfig)
    (active : List String) (ok : UInt64 → String → State → ℕ × ℕ → Prop)
    [∀ ts pair st p, Decidable (ok ts pair st p)] (st : State) (tss : List UInt64) :
    Decidable (EveryAttempt host env config active ok st tss) :=
  inferInstanceAs (Decidable (Runs.Along _ _ st tss))

theorem EveryScan.carry {host : HostLibrary} {env : Surroundings} {config : BacktestConfig}
    {ok ok' : UInt64 → String → State → ℕ × ℕ → Prop} {active : List String} {I : State → Prop}
    {ts : UInt64}
    (hattempt : ∀ pair st p, pair ∈ active →
      p ∈ indexPairs (st.aggregator.getPairSnapshots pair 20).length → I st → ok ts pair st p →
        I (attempt host env config ts pair (st.aggregator.getPairSnapshots pair 20) st p) ∧
          ok' ts pair st p)
    {st : State} (hok : EveryScan host env config ok ts st active) (hst : I st) :
    I (Runs.run (scanPair host env config ts) st active) ∧
      EveryScan host env config ok' ts st active := by
  refine Runs.Along.carry ?_ hok hst
  intro st pair hpair hst hattempts
  rw [scanPair_eq_run]
  -- the snapshots are read once, and no attempt changes the books
  have hattempt' : ∀ st', ∀ p ∈ indexPairs (st.aggregator.getPairSnapshots pair 20).length,
      (I st' ∧ st'.aggregator = st.aggregator) → ok ts pair st' p →
      (I (attempt host env config ts pair (st.aggregator.getPairSnapshots pair 20) st' p) ∧
        (attempt host env config ts pair (st.aggregator.getPairSnapshots pair 20) st' p).aggregator =
          st.aggregator) ∧ ok' ts pair st' p := by
    intro st' p hp hst' hok'
    obtain ⟨hinv, hbooks⟩ := hst'
    rw [← hbooks] at hp ⊢
    obtain ⟨hnext, hmet⟩ := hattempt pair st' p hpair hp hinv hok'
    exact ⟨⟨hnext, (attempt_sameMarket ..).aggregator⟩, hmet⟩
  obtain ⟨hlast, hmet⟩ := Runs.Along.carry hattempt' hattempts ⟨hst, rfl⟩
  exact ⟨hlast.1, hmet⟩

theorem EveryScan.imp {host : HostLibrary} {env : Surroundings} {config : BacktestConfig}
    {ok ok' : UInt64 → String → State → ℕ × ℕ → Prop} {active : List String} {ts : UInt64}
    {st : State} (h : ∀ pair st p, ok ts pair st p → ok' ts pair st p)
    (hok : EveryScan host env config ok ts st active) : EveryScan host env config ok' ts st active :=
  Runs.Along.imp (fun _ pair hattempts => Runs.Along.imp (fun st p => h pair st p) hattempts) hok

theorem EveryAttempt.carry {host : HostLibrary} {env : Surroundings} {config : BacktestConfig}
    {active : List String} {I : State → Prop} {ok ok' : UInt64 → String → State → ℕ × ℕ → Prop}
    (hrefresh : ∀ ts st, I st → I (refresh host env active ts st))
    (hattempt : ∀ ts pair st p, pair ∈ active →
      p ∈ indexPairs (st.aggregator.getPairSnapshots pair 20).length → I st → ok ts pair st p →
        I (attempt host env config ts pair (st.aggregator.getPairSnapshots pair 20) st p) ∧
          ok' ts pair st p)
    {st : State} {tss : List UInt64} (hok : EveryAttempt host env config active ok st tss)
    (hst : I st) :
    I (Runs.run (step host env config active) st tss) ∧
      EveryAttempt host env config active ok' st tss := by
  refine Runs.Along.carry ?_ hok hst
  intro st ts _ hst hscan
  exact hscan.carry (hattempt ts) (hrefresh ts st hst)

/-! ### The trades kept -/

/-- The trades of a state are those of another one, or those with more behind. -/
def Extends (st st' : State) : Prop := st.trades <+: st'.trades

theorem attempt_trades (host : HostLibrary) (env : Surroundings) (config : BacktestConfig)
    (ts : UInt64) (pair : String) (snapshots : List OrderBookSnapshot) (st : State) (p : ℕ × ℕ) :
    let st' := attempt host env config ts pair snapshots st p
    st'.trades = st.trades ∨
      ∃ t, st'.trades = st.trades ++ [t] ∧ t.timestampIso = host.toIso8601 ts := by
  intro st'
  show (attempt ..).trades = _ ∨ ∃ t, (attempt ..).trades = _ ∧ _
  unfold attempt
  split
  · exact .inl rfl
  · unfold trade
    dsimp only
    split
    · exact .inr ⟨_, rfl, rfl⟩
    · exact .inl rfl

theorem attempt_extends (host : HostLibrary) (env : Surroundings) (config : BacktestConfig)
    (ts : UInt64) (pair : String) (snapshots : List OrderBookSnapshot) (st : State) (p : ℕ × ℕ) :
    Extends st (attempt host env config ts pair snapshots st p) := by
  unfold Extends
  rcases attempt_trades host env config ts pair snapshots st p with hsame | ⟨t, happend, _⟩
  · rw [hsame]
  · rw [happend]
    exact List.prefix_append ..

theorem scanPair_extends (host : HostLibrary) (env : Surroundings) (config : BacktestConfig)
    (ts : UInt64) (st : State) (pair : String) :
    Extends st (scanPair host env config ts st pair) := by
  rw [scanPair_eq_run]
  exact Runs.invariant_run (I := fun st' : State => Extends st st')
    (fun _ _ h => List.IsPrefix.trans h (attempt_extends ..)) _ (List.prefix_refl _)

theorem step_extends (host : HostLibrary) (env : Surroundings) (config : BacktestConfig)
    (active : List String) (st : State) (ts : UInt64) :
    Extends st (step host env config active st ts) := by
  have hrefresh : Extends st (refresh host env active ts st) := by
    rw [Extends, (refresh_exchanges ..).2]
  exact Runs.invariant_run (I := fun st' : State => Extends st st')
    (fun _ _ h => List.IsPrefix.trans h (scanPair_extends ..)) _ hrefresh

theorem everyAttempt_extends (host : HostLibrary) (env : Surroundings) (config : BacktestConfig)
    (active : List String) (st : State) (tss : List UInt64) :
    EveryAttempt host env config active
      (fun ts pair st' p =>
        Extends (attempt host env config ts pair (st'.aggregator.getPairSnapshots pair 20) st' p)
          (Runs.run (step host env config active) st tss)) st tss := by
  have hrefl : ∀ s : State, Extends s s := fun s => List.prefix_refl _
  have htrans : ∀ s t u : State, Extends s t → Extends t u → Extends s u :=
    fun _ _ _ => List.IsPrefix.trans
  refine (Runs.along_before hrefl htrans (step_extends host env config active) (hrefl _)).imp ?_
  intro s ts hs
  refine (Runs.along_before hrefl htrans (scanPair_extends host env config ts) hs).imp ?_
  intro s' pair hs'
  rw [scanPair_eq_run] at hs'
  have hattempts := Runs.along_before hrefl htrans (attempt_extends host env config ts pair _) hs'
  refine (Runs.Along.carry (I := fun t : State => t.aggregator = s'.aggregator) ?_ hattempts rfl).2
  intro t p _ hbooks ht
  refine ⟨(attempt_sameMarket ..).aggregator.trans hbooks, ?_⟩
  dsimp only
  rw [hbooks]
  exact ht

theorem step_timestampIso (host : HostLibrary) (env : Surroundings) (config : BacktestConfig)
    (active : List String) {P : String → Prop} {st : State} {ts : UInt64}
    (hts : P (host.toIso8601 ts)) (h : ∀ t ∈ st.trades, P t.timestampIso) :
    ∀ t ∈ (step host env config active st ts).trades, P t.timestampIso := by
  have hattempt : ∀ pair snapshots (st' : State) p, (∀ t ∈ st'.trades, P t.timestampIso) →
      ∀ t ∈ (attempt host env config ts pair snapshots st' p).trades, P t.timestampIso := by
    intro pair snapshots st' p h' t ht
    rcases attempt_trades host env config ts pair snapshots st' p with hsame | ⟨new, happend, hnew⟩
    · rw [hsame] at ht
      exact h' t ht
    · rw [happend] at ht
      rcases List.mem_append.mp ht with hold | hmem
      · exact h' t hold
      · rw [List.mem_singleton.mp hmem, hnew]
        exact hts
  refine Runs.invariant_run (I := fun st' : State => ∀ t ∈ st'.trades, P t.timestampIso) ?_ active ?_
  · intro st' pair h'
    rw [scanPair_eq_run]
    exact Runs.invariant_run (I := fun st' : State => ∀ t ∈ st'.trades, P t.timestampIso)
      (fun s p hs => hattempt pair _ s p hs) _ h'
  · rw [(refresh_exchanges ..).2]
    exact h

/-! ### Runs -/

theorem step_exchanges (host : HostLibrary) (env : Surroundings) (config : BacktestConfig)
    (active : List String) (st : State) (ts : UInt64) (exch : Exchange) :
    (step host env config active st ts).exchanges exch =
      { (st.exchanges exch).advanceTo ts with
        balances := ((step host env config active st ts).exchanges exch).balances } := by
  have hscan := (scanPairs_sameMarket host env config ts (refresh host env active ts st)
    active).exchanges exch
  rw [(refresh_exchanges host env active ts st).1] at hscan
  exact hscan

theorem step_books (host : HostLibrary) (env : Surroundings) (config : BacktestConfig)
    (active : List String) (st : State) (ts : UInt64) :
    (step host env config active st ts).aggregator = (refresh host env active ts st).aggregator :=
  (scanPairs_sameMarket host env config ts (refresh host env active ts st) active).aggregator

theorem run_advanceTo_balances (sim : SimulatedExchange) (balances : String → ℚ)
    (tss : List UInt64) :
    Runs.run advanceTo { sim with balances } tss = { Runs.run advanceTo sim tss with balances } := by
  induction tss generalizing sim with
  | nil => rfl
  | cons ts tss ih => exact ih (sim.advanceTo ts)

theorem run_exchanges (host : HostLibrary) (env : Surroundings) (config : BacktestConfig)
    (active : List String) (st : State) (tss : List UInt64) (exch : Exchange) :
    (Runs.run (step host env config active) st tss).exchanges exch =
      { Runs.run advanceTo (st.exchanges exch) tss with
        balances := ((Runs.run (step host env config active) st tss).exchanges exch).balances } := by
  induction tss generalizing st with
  | nil => rfl
  | cons ts tss ih =>
    have hrest := ih (step host env config active st ts)
    rw [step_exchanges, run_advanceTo_balances] at hrest
    exact hrest

theorem run_takerFee (host : HostLibrary) (env : Surroundings) (config : BacktestConfig)
    (data : List HistoricalSnapshot) (active : List String) (tss : List UInt64) (exch : Exchange) :
    ((Runs.run (step host env config active) (start host config data) tss).exchanges exch).takerFee =
      (exchFees exch).2 := by
  refine Runs.invariant_run
    (I := fun st : State => (st.exchanges exch).takerFee = (exchFees exch).2) ?_ tss rfl
  intro st ts hst
  rw [step_exchanges]
  exact hst

/-- At a timestamp that is not earlier than those before it, every cursor moves
to that timestamp's row. -/
theorem advanced_row (host : HostLibrary) (env : Surroundings) (config : BacktestConfig)
    (data : List HistoricalSnapshot) (active : List String) {tss : List UInt64} {ts : UInt64}
    (htss : ∀ t ∈ tss, t ≤ ts) (exch : Exchange) (pair : String) :
    (((Runs.run (step host env config active) (start host config data) tss).exchanges
        exch).advanceTo ts).row pair =
      rowAt ts (loadedRows host.sortRows exch data pair) := by
  have hrow := row_run ((start host config data).exchanges exch) pair (loadedRows_inOrder pair) rfl
    htss
  rw [Runs.run_append] at hrow
  rw [run_exchanges]
  exact hrow

end BacktestEngine

end CryptoArbBot
