import CryptoArbBot.Backtest.EngineSteps

/-!
# Data from the future

Before the first row of a pair the cursor already stands on it, so its book is
shown too early. With that row reached, or without levels, every book shown and
every book in the aggregator is from the past.
-/

namespace CryptoArbBot.BacktestEngine
open SimulatedExchange

/-- Every book was applied from a row that is not later than the timestamp. -/
def BooksFromPast (host : HostLibrary) (data : List HistoricalSnapshot) (ts : UInt64)
    (st : State) : Prop :=
  ∀ pair exch book, st.aggregator.books pair exch = some book →
    ∃ row ∈ data, row.exchange = exch ∧ row.pair = pair ∧ row.timestampMs ≤ ts ∧
      published host (shownSides (some row)) = some (sidesOf book)

/-- The first row of every active pair on every simulated exchange has been
reached, or has no levels. -/
def AllReached (host : HostLibrary) (config : BacktestConfig) (data : List HistoricalSnapshot)
    (ts : UInt64) : Prop :=
  ∀ exch ∈ simulated, ∀ pair ∈ activePairs config data,
    FirstReached ts (loadedRows host.sortRows exch data pair)

instance (host : HostLibrary) (config : BacktestConfig) (data : List HistoricalSnapshot)
    (ts : UInt64) : Decidable (AllReached host config data ts) :=
  inferInstanceAs (Decidable (∀ exch ∈ simulated, _))

theorem rowAt_past {host : HostLibrary} {rows : List HistoricalSnapshot} (horder : InOrder rows)
    {ts : UInt64} (hreached : FirstReached ts rows)
    {sides : List PriceLevel × List PriceLevel}
    (h : published host (shownSides (rowAt ts rows)) = some sides) :
    ∃ row ∈ rows, row.timestampMs ≤ ts ∧ published host (shownSides (some row)) = some sides := by
  rcases Nat.eq_zero_or_pos (position ts rows) with hzero | hpos
  · rw [rowAt_of_unseen hzero] at h
    cases hhead : rows.head? with
    | none =>
      rw [hhead] at h
      cases h
    | some first =>
      rw [hhead] at h
      rcases hreached first hhead with hts | ⟨hbids, hasks⟩
      · exact ⟨first, List.mem_of_head? hhead, hts, h⟩
      · -- a row without levels is not published
        simp [shownSides, published, hbids, hasks] at h
  · obtain ⟨row, hmem, hat, hts, _⟩ := rowAt_of_seen horder hpos
    rw [hat] at h
    exact ⟨row, hmem, hts, h⟩

theorem step_booksFromPast {host : HostLibrary} {env : Surroundings} {config : BacktestConfig}
    {data : List HistoricalSnapshot} {active : List String} {st : State} {ts t : UInt64}
    (hle : t ≤ ts) (hbooks : BooksFromPast host data t st)
    (hrow : ∀ exch pair, ((st.exchanges exch).advanceTo ts).row pair =
      rowAt ts (loadedRows host.sortRows exch data pair))
    (hreached : ∀ exch ∈ simulated, ∀ pair ∈ active,
      FirstReached ts (loadedRows host.sortRows exch data pair)) :
    BooksFromPast host data ts (step host env config active st ts) := by
  intro pair exch book hbook
  have hsides := refresh_books host env active ts st pair exch
  rw [← step_books host env config active st ts, hbook, Option.map_some, hrow] at hsides
  have hold : some (sidesOf book) = (st.aggregator.books pair exch).map sidesOf →
      ∃ row ∈ data, row.exchange = exch ∧ row.pair = pair ∧ row.timestampMs ≤ ts ∧
        published host (shownSides (some row)) = some (sidesOf book) := by
    intro hsame
    obtain ⟨oldBook, holdBook, holdSides⟩ := Option.map_eq_some_iff.mp hsame.symm
    obtain ⟨row, hdata, hexch, hpair, hts, hpublished⟩ := hbooks pair exch oldBook holdBook
    exact ⟨row, hdata, hexch, hpair, Std.le_trans hts hle, holdSides ▸ hpublished⟩
  split at hsides
  next hactive =>
    cases hpublished : published host
        (shownSides (rowAt ts (loadedRows host.sortRows exch data pair))) with
    | none =>
      rw [hpublished, Option.none_or] at hsides
      exact hold hsides
    | some sides =>
      rw [hpublished, Option.some_or] at hsides
      obtain ⟨row, hmem, hts, hrowSides⟩ :=
        rowAt_past (loadedRows_inOrder pair) (hreached exch hactive.1 pair hactive.2) hpublished
      obtain ⟨hdata, hexch, hpair⟩ := mem_loadedRows.mp hmem
      exact ⟨row, hdata, hexch, hpair, hts, hrowSides.trans hsides.symm⟩
  next => exact hold hsides

theorem run_booksFromPast {host : HostLibrary} {env : Surroundings} {config : BacktestConfig}
    {data : List HistoricalSnapshot} {active : List String} {tss : List UInt64} {ts : UInt64}
    (hascending : (tss ++ [ts]).Pairwise (· < ·))
    (hreached : ∀ t ∈ tss ++ [ts], ∀ exch ∈ simulated, ∀ pair ∈ active,
      FirstReached t (loadedRows host.sortRows exch data pair)) :
    BooksFromPast host data ts
      (Runs.run (step host env config active) (start host config data) (tss ++ [ts])) := by
  induction tss using List.reverseRecOn generalizing ts with
  | nil =>
    refine step_booksFromPast (Std.le_refl ts) ?_ ?_ ?_
    · intro pair exch book hbook
      cases hbook
    · have hnone : ∀ t ∈ ([] : List UInt64), t ≤ ts := fun _ ht => by cases ht
      exact advanced_row host env config data active hnone
    · exact hreached ts (by simp)
  | append_singleton tss t ih =>
    obtain ⟨hbefore, _, hlt⟩ := List.pairwise_append.mp hascending
    have hts : t < ts := hlt t (by simp) ts (by simp)
    have hearlier : ∀ t' ∈ tss ++ [t], t' ≤ ts := fun t' ht' => Std.le_of_lt (hlt t' ht' ts (by simp))
    have hprevious := ih hbefore fun t' ht' => hreached t' (List.mem_append_left _ ht')
    rw [Runs.run_append]
    exact step_booksFromPast (Std.le_of_lt hts) hprevious
      (advanced_row host env config data active hearlier) (hreached ts (by simp))

/-- On any simulated exchange a book shown is from the past exactly when the
first row of the pair has been reached or has no levels; in a backtest in which
this holds at every timestamp so is every book of the aggregator. -/
theorem noLookAhead_iff (host : HostLibrary) (env : Surroundings) (config : BacktestConfig)
    (data : List HistoricalSnapshot) :
    (∀ (exch : Exchange) (name : String) (initialBalances : AssetMap) (makerFee takerFee : ℚ)
        (pair : String) (tss : List UInt64) (ts : UInt64) (now : TimePoint),
      (tss ++ [ts]).Pairwise (· ≤ ·) →
      let sim := (SimulatedExchange.new exch name initialBalances makerFee takerFee).loadSnapshots
        host.sortRows data
      (FromPast data exch pair ts ((Runs.run advanceTo sim (tss ++ [ts])).currentBook pair now) ↔
        FirstReached ts (sim.snapshotsByPair pair))) ∧
      ((∀ ts ∈ timestamps data, AllReached host config data ts) →
        ∀ before ts after, timestamps data = before ++ ts :: after →
          BooksFromPast host data ts (Runs.run (step host env config (activePairs config data))
            (start host config data) (before ++ [ts]))) := by
  refine ⟨?_, ?_⟩
  · intro exch name initialBalances makerFee takerFee pair tss ts now hsorted sim
    have hearlier : ∀ t ∈ tss, t ≤ ts :=
      fun t ht => (List.pairwise_append.mp hsorted).2.2 t ht ts (by simp)
    have hrow := row_run sim pair (loadedRows_inOrder pair) rfl hearlier
    exact fromPast_iff hrow now
  · intro hreached before ts after hsplit
    have hsplit' : timestamps data = (before ++ [ts]) ++ after := by
      rw [List.append_assoc]
      exact hsplit
    have hascending := timestamps_ascending data
    rw [hsplit'] at hascending
    refine run_booksFromPast (List.pairwise_append.mp hascending).1 ?_
    intro t ht
    refine hreached t ?_
    rw [hsplit']
    exact List.mem_append_left _ ht

/-! ### A pair that starts late -/

def sampleHost : HostLibrary :=
  { sortRows := .insertionSort, sortLevels := .insertionSort, sqrt := id, toIso8601 := fun _ => "" }

def sampleEnv : Surroundings := { uuids := fun _ => "", now := fun _ _ _ => 0 }

def sampleConfig : BacktestConfig :=
  { initialBalances := ⟨[("BTC", 10), ("USDT", 100000)], by decide⟩ }

def sampleRow (ts : UInt64) (exch : Exchange) (pair : String) (bid ask : ℚ) : HistoricalSnapshot :=
  { timestampMs := ts, exchange := exch, pair, bids := [⟨bid, 5⟩], asks := [⟨ask, 5⟩] }

def lateRows : List HistoricalSnapshot :=
  [sampleRow 500 .okx "ETH-USDT" 10 11, sampleRow 1000 .binance "BTC-USDT" 99 100]

def evenRows : List HistoricalSnapshot :=
  [sampleRow 500 .okx "BTC-USDT" 98 99, sampleRow 500 .binance "BTC-USDT" 99 100,
    sampleRow 1000 .okx "BTC-USDT" 97 98]

theorem evenRows_fromPast :
    let sim := (SimulatedExchange.new .okx "OKX" sampleConfig.initialBalances (8 / 10000)
      (1 / 1000)).loadSnapshots sampleHost.sortRows evenRows
    FromPast evenRows .okx "BTC-USDT" 700 ((Runs.run advanceTo sim [500, 700]).currentBook "BTC-USDT" 0) ∧
      BooksFromPast sampleHost evenRows 1000
        (Runs.run (step sampleHost sampleEnv sampleConfig (activePairs sampleConfig evenRows))
          (start sampleHost sampleConfig evenRows) [500, 1000]) := by
  intro sim
  obtain ⟨hbook, hbooks⟩ := noLookAhead_iff sampleHost sampleEnv sampleConfig evenRows
  have htimestamps : timestamps evenRows = [500, 1000] := by decide +kernel
  have hreached : ∀ ts ∈ timestamps evenRows, AllReached sampleHost sampleConfig evenRows ts := by
    rw [htimestamps, List.forall_mem_cons, List.forall_mem_singleton]
    exact ⟨by decide +kernel, by decide +kernel⟩
  exact ⟨(hbook .okx "OKX" sampleConfig.initialBalances (8 / 10000) (1 / 1000) "BTC-USDT" [500] 700 0
    (by decide)).mpr (by decide +kernel), hbooks hreached [500] 1000 [] htimestamps⟩

theorem lateRows_lookAhead :
    let sim := (SimulatedExchange.new .binance "BINANCE" sampleConfig.initialBalances (1 / 1000)
      (1 / 1000)).loadSnapshots sampleHost.sortRows lateRows
    ¬ FromPast lateRows .binance "BTC-USDT" 500
        ((Runs.run advanceTo sim [500]).currentBook "BTC-USDT" 0) ∧
      ((step sampleHost sampleEnv sampleConfig (activePairs sampleConfig lateRows)
        (start sampleHost sampleConfig lateRows) 500).aggregator.getBook .binance "BTC-USDT").map
          sidesOf = some ([⟨99, 5⟩], [⟨100, 5⟩]) := by
  intro sim
  refine ⟨?_, by decide +kernel⟩
  have hrow : (Runs.run advanceTo sim [500]).row "BTC-USDT" =
      rowAt 500 (loadedRows sampleHost.sortRows .binance lateRows "BTC-USDT") := by
    decide +kernel
  rw [fromPast_iff hrow]
  decide +kernel

end CryptoArbBot.BacktestEngine
