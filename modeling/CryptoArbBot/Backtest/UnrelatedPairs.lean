import CryptoArbBot.Backtest.Agreement
import CryptoArbBot.Backtest.BookKeeping
import CryptoArbBot.Backtest.DataLoader

/-!
# Rows of other pairs

The backtest of some pairs on all the data beside the backtest on the rows of
these pairs. The first one also works at timestamps of other pairs; where its
orders take nothing there and it has shown no book too early, both keep the same
trades.
-/

namespace CryptoArbBot.BacktestEngine
open SimulatedExchange

def kept (config : BacktestConfig) (data : List HistoricalSnapshot) : List HistoricalSnapshot :=
  DataLoader.filter data 0 (.ofNat (2 ^ 64 - 1)) config.pairs

section Kept
variable {config : BacktestConfig} (hpairs : config.pairs ≠ []) (data : List HistoricalSnapshot)
include hpairs

theorem mem_kept {row : HistoricalSnapshot} :
    row ∈ kept config data ↔ row ∈ data ∧ row.pair ∈ config.pairs := by
  rw [kept, DataLoader.filter_pairs data hpairs, List.mem_filter, decide_eq_true_eq]

theorem mem_activePairs {pair : String} :
    pair ∈ activePairs config data ↔ pair ∈ config.pairs ∧ ∃ row ∈ data, row.pair = pair := by
  simp [activePairs, allPairs, hpairs, mem_orderedSet]

theorem activePairs_kept : activePairs config (kept config data) = activePairs config data := by
  have hmem : ∀ pair, pair ∈ activePairs config (kept config data) ↔ pair ∈ activePairs config data := by
    intro pair
    rw [mem_activePairs hpairs, mem_activePairs hpairs]
    simp only [mem_kept hpairs]
    constructor
    · rintro ⟨hpair, row, hrow, hsame⟩
      exact ⟨hpair, row, hrow.1, hsame⟩
    · rintro ⟨hpair, row, hrow, hsame⟩
      exact ⟨hpair, row, ⟨hrow, hsame ▸ hpair⟩, hsame⟩
  have hascending : ∀ data', (activePairs config data').Pairwise (· < ·) := by
    intro data'
    rw [activePairs, if_neg (by simpa using hpairs)]
    exact orderedSet_ascending _
  exact (hascending _).eq_of_mem_iff (hascending data) fun pair => hmem pair

theorem timestamps_kept :
    (timestamps data).filter (fun ts => ts ∈ timestamps (kept config data)) =
      timestamps (kept config data) := by
  refine ((timestamps_ascending _).filter _).eq_of_mem_iff (timestamps_ascending _) ?_
  intro ts
  rw [List.mem_filter, decide_eq_true_eq]
  refine and_iff_right_of_imp fun hts => ?_
  simp only [timestamps, mem_orderedSet, List.mem_map] at hts ⊢
  obtain ⟨row, hrow, hsame⟩ := hts
  exact ⟨row, ((mem_kept hpairs data).mp hrow).1, hsame⟩

theorem loadedRows_kept (std : StdSort HistoricalSnapshot) (exch : Exchange) {pair : String}
    (hpair : pair ∈ config.pairs) :
    loadedRows std exch (kept config data) pair = loadedRows std exch data pair := by
  rw [loadedRows, loadedRows, kept, DataLoader.filter_pairs data hpairs, List.filter_filter]
  congr 1
  refine List.filter_congr ?_
  intro row _
  by_cases hrow : row.exchange = exch ∧ row.pair = pair
  · simp [hrow, hpair]
  · simp [hrow]

end Kept

/-! ### The two runs -/

/-- What the row of a pair at a timestamp, or its first row, is published as. -/
def rowShown (host : HostLibrary) (exch : Exchange) (row : Option HistoricalSnapshot) :
    Option (List PriceLevel × List PriceLevel) :=
  if exch ∈ simulated then published host (shownSides row) else none

theorem shownAt_run (host : HostLibrary) (env : Surroundings) (config : BacktestConfig)
    (data : List HistoricalSnapshot) (active : List String) {tss : List UInt64} {ts : UInt64}
    (htss : ∀ t ∈ tss, t ≤ ts) (exch : Exchange) (pair : String) :
    shownAt host ts (Runs.run (step host env config active) (start host config data) tss) exch pair =
      rowShown host exch (rowAt ts (loadedRows host.sortRows exch data pair)) := by
  rw [shownAt, advanced_row host env config data active htss, rowShown]

section TwoRuns
variable (host : HostLibrary) (env env' : Surroundings) (config : BacktestConfig)
  (data : List HistoricalSnapshot)

def wholeRun (tss : List UInt64) : State :=
  Runs.run (step host env config (activePairs config data)) (start host config data) tss

/-- The state of the run on the kept rows after those of the timestamps that it
has. -/
def keptRun (tss : List UInt64) : State :=
  Runs.run (step host env' config (activePairs config data)) (start host config (kept config data))
    (tss.filter fun ts => ts ∈ timestamps (kept config data))

/-- The sides of a book in the two runs are the same, or only the first row of the
pair has been shown, before any timestamp of the kept rows. -/
def SameOrEarly (tss : List UInt64) (exch : Exchange) (pair : String)
    (book book' : Option (List PriceLevel × List PriceLevel)) : Prop :=
  book' = book ∨
    ((∀ ts ∈ tss, ts ∉ timestamps (kept config data)) ∧ tss ≠ [] ∧ book' = none ∧
      book = rowShown host exch (loadedRows host.sortRows exch data pair).head?)

structure Shadows (tss : List UInt64) : Prop where
  balances : ∀ exch, ((keptRun host env' config data tss).exchanges exch).balances =
    ((wholeRun host env config data tss).exchanges exch).balances
  trades : (keptRun host env' config data tss).trades.map BacktestReport.withoutIds =
    (wholeRun host env config data tss).trades.map BacktestReport.withoutIds
  books : ∀ exch, ∀ pair ∈ activePairs config data,
    SameOrEarly host config data tss exch pair
      (((wholeRun host env config data tss).aggregator.books pair exch).map sidesOf)
      (((keptRun host env' config data tss).aggregator.books pair exch).map sidesOf)

variable {host env env' config data}

theorem Shadows.nil : Shadows host env env' config data [] :=
  ⟨fun _ => rfl, rfl, fun _ _ _ => .inl rfl⟩

theorem wholeRun_append (tss : List UInt64) (ts : UInt64) :
    wholeRun host env config data (tss ++ [ts]) =
      step host env config (activePairs config data) (wholeRun host env config data tss) ts :=
  Runs.run_append ..

/-- The last timestamp's row is in the books, or no row that had levels came after
the book. -/
theorem wholeRun_books {tss : List UInt64} {ts : UInt64} (htss : ∀ t ∈ tss, t ≤ ts)
    (exch : Exchange) {pair : String} (hpair : pair ∈ activePairs config data) :
    ((wholeRun host env config data (tss ++ [ts])).aggregator.books pair exch).map sidesOf =
      (rowShown host exch (rowAt ts (loadedRows host.sortRows exch data pair))).or
        (((wholeRun host env config data tss).aggregator.books pair exch).map sidesOf) := by
  rw [wholeRun_append, step_books, refresh_books_active host env ts _ hpair, wholeRun,
    shownAt_run host env config data _ htss]

theorem keptRun_append_mem {tss : List UInt64} {ts : UInt64}
    (hts : ts ∈ timestamps (kept config data)) :
    keptRun host env' config data (tss ++ [ts]) =
      step host env' config (activePairs config data) (keptRun host env' config data tss) ts := by
  rw [keptRun, List.filter_append, List.filter_singleton, decide_eq_true hts, cond_true,
    Runs.run_append]
  rfl

theorem keptRun_append_not_mem {tss : List UInt64} {ts : UInt64}
    (hts : ts ∉ timestamps (kept config data)) :
    keptRun host env' config data (tss ++ [ts]) = keptRun host env' config data tss := by
  rw [keptRun, List.filter_append, List.filter_singleton, decide_eq_false hts, cond_false,
    List.append_nil]
  rfl

theorem split_lt {tss rest : List UInt64} {ts : UInt64}
    (hsplit : timestamps data = tss ++ ts :: rest) :
    (∀ t ∈ tss, t < ts) ∧ ∀ t ∈ timestamps data, t < ts → t ∈ tss := by
  have hascending := timestamps_ascending data
  rw [hsplit] at hascending
  obtain ⟨_, hafter, hbefore⟩ := List.pairwise_append.mp hascending
  refine ⟨fun t ht => hbefore t ht ts (List.mem_cons_self ..), ?_⟩
  intro t ht hlt
  rw [hsplit] at ht
  rcases List.mem_append.mp ht with htss | hrest
  · exact htss
  · rcases List.mem_cons.mp hrest with heq | hmem
    · exact absurd (heq ▸ hlt) (Std.lt_irrefl (a := ts))
    · exact absurd hlt (Std.not_lt.mpr (Std.le_of_lt ((List.pairwise_cons.mp hafter).1 t hmem)))

/-! ### A timestamp of the kept rows -/

def HasLevels (row : Option HistoricalSnapshot) : Prop := ∃ hist ∈ row, hist.bids ≠ [] ∨ hist.asks ≠ []

instance (row : Option HistoricalSnapshot) : Decidable (HasLevels row) :=
  inferInstanceAs (Decidable (∃ hist ∈ row, _))

theorem published_eq_none_iff {row : Option HistoricalSnapshot} :
    published host (shownSides row) = none ↔ ¬ HasLevels row := by
  cases row with
  | none => simp [published, shownSides, HasLevels]
  | some hist => simp [published, shownSides, HasLevels]

/-- Where the whole run starts before the kept rows do, a first row with levels is
not replaced, at the earliest timestamp of the kept rows, by one without. -/
def StillShown (host : HostLibrary) (config : BacktestConfig) (data : List HistoricalSnapshot) : Prop :=
  ∀ first ∈ timestamps (kept config data), (∀ ts ∈ timestamps (kept config data), first ≤ ts) →
    (∃ ts ∈ timestamps data, ts < first) → ∀ exch ∈ simulated, ∀ pair ∈ activePairs config data,
      HasLevels (loadedRows host.sortRows exch data pair).head? →
        HasLevels (rowAt first (loadedRows host.sortRows exch data pair))

theorem rowShown_or {exch : Exchange} {first row : Option HistoricalSnapshot}
    (h : exch ∈ simulated → HasLevels first → HasLevels row) :
    (rowShown host exch row).or none = (rowShown host exch row).or (rowShown host exch first) := by
  unfold rowShown
  by_cases hexch : exch ∈ simulated
  · rw [if_pos hexch, if_pos hexch]
    cases hrow : published host (shownSides row) with
    | none =>
      have hfirst : ¬ HasLevels first := fun hlevels =>
        published_eq_none_iff.mp hrow (h hexch hlevels)
      rw [published_eq_none_iff.mpr hfirst]
    | some sides => rfl
  · rw [if_neg hexch, if_neg hexch]

theorem mem_timestamps_kept (hpairs : config.pairs ≠ []) {ts : UInt64}
    (hts : ts ∈ timestamps (kept config data)) : ts ∈ timestamps data := by
  rw [← timestamps_kept hpairs data] at hts
  exact (List.mem_filter.mp hts).1

theorem Shadows.shared (hpairs : config.pairs ≠ []) (hstill : StillShown host config data)
    {tss rest : List UInt64} {ts : UInt64} (hsplit : timestamps data = tss ++ ts :: rest)
    (hts : ts ∈ timestamps (kept config data)) (h : Shadows host env env' config data tss) :
    Shadows host env env' config data (tss ++ [ts]) := by
  obtain ⟨hbefore, hclosed⟩ := split_lt hsplit
  have hle : ∀ t ∈ tss, t ≤ ts := fun t ht => Std.le_of_lt (hbefore t ht)
  have hkept : ∀ t ∈ tss.filter fun ts => ts ∈ timestamps (kept config data), t ≤ ts :=
    fun t ht => hle t (List.mem_filter.mp ht).1
  have hrows : ∀ exch, ∀ pair ∈ activePairs config data,
      loadedRows host.sortRows exch (kept config data) pair = loadedRows host.sortRows exch data pair :=
    fun exch pair hpair =>
      loadedRows_kept hpairs data host.sortRows exch ((mem_activePairs hpairs data).mp hpair).1
  have hagrees : Agrees (activePairs config data)
      (step host env config (activePairs config data) (wholeRun host env config data tss) ts)
      (step host env' config (activePairs config data) (keptRun host env' config data tss) ts) := by
    refine step_agrees host env env' config ts h.balances ?_ ?_ ?_ h.trades
    · intro exch
      rw [keptRun, wholeRun, run_takerFee, run_takerFee]
    · intro exch pair hpair
      rw [keptRun, wholeRun, advanced_row host env' config _ _ hkept,
        advanced_row host env config data _ hle, hrows exch pair hpair]
    · intro exch pair hpair
      have hwhole := shownAt_run host env config data (activePairs config data) hle exch pair
      have hshown := shownAt_run host env' config (kept config data) (activePairs config data) hkept
        exch pair
      rw [hrows exch pair hpair] at hshown
      rw [show shownAt host ts (keptRun host env' config data tss) exch pair = _ from hshown,
        show shownAt host ts (wholeRun host env config data tss) exch pair = _ from hwhole]
      rcases h.books exch pair hpair with hsame | ⟨hnone, hne, hempty, hhead⟩
      · rw [hsame]
      · -- no row of the pairs before: the whole run has shown its first row already
        rw [hempty, hhead]
        have hfirst : ∀ t ∈ timestamps (kept config data), ts ≤ t := by
          intro t ht
          refine Std.not_lt.mp fun hlt => ?_
          exact hnone t (hclosed t (mem_timestamps_kept hpairs ht) hlt) ht
        obtain ⟨t, ht⟩ := List.exists_mem_of_ne_nil tss hne
        have hearlier : t ∈ timestamps data := by
          rw [hsplit]
          exact List.mem_append_left _ ht
        exact rowShown_or (hstill ts hts hfirst ⟨t, hearlier, hbefore t ht⟩ exch · pair hpair)
  rw [← wholeRun_append, ← keptRun_append_mem hts] at hagrees
  exact ⟨fun exch => (hagrees.exchanges exch).balances, hagrees.trades,
    fun exch pair hpair => .inl (hagrees.books exch pair hpair)⟩

/-! ### A timestamp of other pairs -/

theorem row_before (hpairs : config.pairs ≠ []) {tss rest : List UInt64} {ts : UInt64}
    (hsplit : timestamps data = tss ++ ts :: rest) (hts : ts ∉ timestamps (kept config data))
    {exch : Exchange} {pair : String} (hpair : pair ∈ activePairs config data)
    {row : HistoricalSnapshot} (hrow : row ∈ loadedRows host.sortRows exch data pair)
    (hle : row.timestampMs ≤ ts) :
    row.timestampMs ∈ tss ∧ row.timestampMs ∈ timestamps (kept config data) := by
  obtain ⟨hdata, _, hsame⟩ := mem_loadedRows.mp hrow
  have hmem : row.timestampMs ∈ timestamps (kept config data) := by
    refine mem_orderedSet.mpr (List.mem_map_of_mem ((mem_kept hpairs data).mpr ⟨hdata, ?_⟩))
    rw [hsame]
    exact ((mem_activePairs hpairs data).mp hpair).1
  have hne : row.timestampMs ≠ ts := fun heq => hts (heq ▸ hmem)
  exact ⟨(split_lt hsplit).2 _ (mem_timestamps_kept hpairs hmem) (Std.lt_of_le_of_ne hle hne), hmem⟩

theorem rowAt_other (hpairs : config.pairs ≠ []) {before rest : List UInt64} {last ts : UInt64}
    (hsplit : timestamps data = (before ++ [last]) ++ ts :: rest)
    (hts : ts ∉ timestamps (kept config data)) (exch : Exchange) {pair : String}
    (hpair : pair ∈ activePairs config data) :
    rowAt ts (loadedRows host.sortRows exch data pair) =
      rowAt last (loadedRows host.sortRows exch data pair) := by
  have hlast : last ≤ ts := Std.le_of_lt ((split_lt hsplit).1 last (by simp))
  have hbefore : ∀ t ∈ before, t ≤ last := fun t ht =>
    Std.le_of_lt ((split_lt (hsplit.trans (List.append_assoc ..))).1 t ht)
  rw [rowAt, rowAt, position_congr]
  intro row hrow
  refine ⟨fun hle => ?_, fun hle => Std.le_trans hle hlast⟩
  rcases List.mem_append.mp (row_before hpairs hsplit hts hpair hrow hle).1 with hmem | hmem
  · exact hbefore _ hmem
  · exact Std.le_of_eq (List.mem_singleton.mp hmem)

theorem rowAt_early (hpairs : config.pairs ≠ []) {tss rest : List UInt64} {ts : UInt64}
    (hsplit : timestamps data = tss ++ ts :: rest) (hts : ts ∉ timestamps (kept config data))
    (hnone : ∀ t ∈ tss, t ∉ timestamps (kept config data)) (exch : Exchange) {pair : String}
    (hpair : pair ∈ activePairs config data) :
    rowAt ts (loadedRows host.sortRows exch data pair) =
      (loadedRows host.sortRows exch data pair).head? := by
  refine rowAt_of_unseen (position_eq_zero fun row hrow hle => ?_)
  obtain ⟨hmem, hkept⟩ := row_before hpairs hsplit hts hpair hrow hle
  exact hnone _ hmem hkept

theorem Shadows.other (hpairs : config.pairs ≠ []) {tss rest : List UInt64} {ts : UInt64}
    (hsplit : timestamps data = tss ++ ts :: rest) (hts : ts ∉ timestamps (kept config data))
    (hidle : EveryScan host env config (Idle env config) ts
      (refresh host env (activePairs config data) ts (wholeRun host env config data tss))
      (activePairs config data))
    (h : Shadows host env env' config data tss) :
    Shadows host env env' config data (tss ++ [ts]) := by
  obtain ⟨hbefore, hclosed⟩ := split_lt hsplit
  have hle : ∀ t ∈ tss, t ≤ ts := fun t ht => Std.le_of_lt (hbefore t ht)
  have honly : OnlySimulated
      (refresh host env (activePairs config data) ts (wholeRun host env config data tss)) :=
    refresh_onlySimulated host env _ ts
      (run_onlySimulated host env config _ (start_onlySimulated host config data) tss)
  obtain ⟨hexchanges, htrades⟩ := EveryScan.idle honly hidle
  have hbalances : ∀ exch, ((wholeRun host env config data (tss ++ [ts])).exchanges exch).balances =
      ((wholeRun host env config data tss).exchanges exch).balances := by
    intro exch
    rw [wholeRun_append, step, hexchanges, (refresh_exchanges ..).1]
    rfl
  refine ⟨?_, ?_, ?_⟩
  · intro exch
    rw [keptRun_append_not_mem hts, hbalances, h.balances]
  · rw [keptRun_append_not_mem hts, wholeRun_append, step, htrades, (refresh_exchanges ..).2, h.trades]
  · intro exch pair hpair
    rw [keptRun_append_not_mem hts, wholeRun_books hle exch hpair]
    by_cases hlate : ∃ t ∈ tss, t ∈ timestamps (kept config data)
    · -- the row is the one of the timestamp before, which is in the books
      obtain ⟨t, ht, htkept⟩ := hlate
      obtain rfl | ⟨before, last, rfl⟩ := tss.eq_nil_or_concat'
      · cases ht
      · have hlast : ∀ t ∈ before, t ≤ last := fun t ht =>
          Std.le_of_lt ((split_lt (hsplit.trans (List.append_assoc ..))).1 t ht)
        rcases h.books exch pair hpair with hsame | ⟨hnone, _⟩
        · refine .inl (hsame.trans ?_)
          rw [rowAt_other hpairs hsplit hts exch hpair, wholeRun_books hlast exch hpair,
            ← Option.or_assoc, Option.or_self]
        · exact absurd htkept (hnone t ht)
    · -- no row of the pairs before: the first one is shown
      have hnone : ∀ t ∈ tss, t ∉ timestamps (kept config data) := fun t ht hkept => hlate ⟨t, ht, hkept⟩
      have hstart : keptRun host env' config data tss = start host config (kept config data) := by
        rw [keptRun, List.filter_eq_nil_iff.mpr fun t ht => by simpa using hnone t ht]
        rfl
      refine .inr ⟨?_, by simp, ?_, ?_⟩
      · intro t ht
        rcases List.mem_append.mp ht with hmem | hmem
        · exact hnone t hmem
        · rw [List.mem_singleton.mp hmem]
          exact hts
      · rw [hstart]
        rfl
      · rw [rowAt_early hpairs hsplit hts hnone exch hpair]
        rcases h.books exch pair hpair with hsame | ⟨_, _, _, hhead⟩
        · rw [hstart] at hsame
          rw [← hsame]
          exact Option.or_none
        · rw [hhead, Option.or_self]

/-- At timestamps that no kept row has, no order takes anything. -/
def IdleElsewhere (host : HostLibrary) (env : Surroundings) (config : BacktestConfig)
    (data : List HistoricalSnapshot) : Prop :=
  EveryAttempt host env config (activePairs config data)
    (fun ts pair st p => ts ∈ timestamps (kept config data) ∨ Idle env config ts pair st p)
    (start host config data) (timestamps data)

instance (host : HostLibrary) (env : Surroundings) (config : BacktestConfig)
    (data : List HistoricalSnapshot) : Decidable (IdleElsewhere host env config data) :=
  inferInstanceAs (Decidable (EveryAttempt ..))

theorem shadows_run (hpairs : config.pairs ≠ []) (hstill : StillShown host config data)
    (hidle : IdleElsewhere host env config data) {tss rest : List UInt64}
    (hsplit : timestamps data = tss ++ rest) : Shadows host env env' config data tss := by
  induction tss using List.reverseRecOn generalizing rest with
  | nil => exact .nil
  | append_singleton tss ts ih =>
    have hsplit' : timestamps data = tss ++ ts :: rest := hsplit.trans (List.append_assoc ..)
    by_cases hts : ts ∈ timestamps (kept config data)
    · exact (ih hsplit').shared hpairs hstill hsplit' hts
    · refine (ih hsplit').other hpairs hsplit' hts ?_
      unfold IdleElsewhere EveryAttempt at hidle
      rw [hsplit'] at hidle
      refine EveryScan.imp ?_ hidle.suffix.1
      intro pair st p h
      exact h.resolve_left hts

/-! ### Trades that only the whole run keeps -/

theorem run_timestampIso (host : HostLibrary) (env : Surroundings) (config : BacktestConfig)
    (active : List String) (data : List HistoricalSnapshot) {t : TradeRecord}
    (ht : t ∈ (Runs.run (step host env config active) (start host config data)
      (timestamps data)).trades) :
    ∃ ts ∈ timestamps data, t.timestampIso = host.toIso8601 ts := by
  refine Runs.invariant_run_mem (I := fun st : State => ∀ t ∈ st.trades,
    ∃ ts ∈ timestamps data, t.timestampIso = host.toIso8601 ts) ?_ ?_ t ht
  · intro st ts hts hst
    exact step_timestampIso host env config active
      (P := fun text => ∃ ts ∈ timestamps data, text = host.toIso8601 ts) ⟨ts, hts, rfl⟩ hst
  · intro t ht
    cases ht

/-- Where the texts of the timestamps differ, runs that keep the same trades keep
none at timestamps that no kept row has. -/
theorem keepsNone_elsewhere
    (hiso : ∀ ts ∈ timestamps data, ∀ ts' ∈ timestamps data,
      host.toIso8601 ts = host.toIso8601 ts' → ts = ts')
    (hpairs : config.pairs ≠ [])
    (hsame : (final host env' config (kept config data)).trades.map BacktestReport.withoutIds =
      (final host env config data).trades.map BacktestReport.withoutIds) :
    EveryAttempt host env config (activePairs config data)
      (fun ts pair st p => ts ∈ timestamps (kept config data) ∨
        (attempt host env config ts pair (st.aggregator.getPairSnapshots pair 20) st p).trades =
          st.trades)
      (start host config data) (timestamps data) := by
  have hextends := everyAttempt_extends host env config (activePairs config data)
    (start host config data) (timestamps data)
  refine (Runs.Along.carry (I := fun _ => True) ?_ hextends trivial).2
  intro st ts hts _ hscan
  refine ⟨trivial, EveryScan.imp ?_ hscan⟩
  intro pair st' p hlast
  rcases attempt_trades host env config ts pair (st'.aggregator.getPairSnapshots pair 20) st' p with
    hnone | ⟨t, happend, htext⟩
  · exact .inr hnone
  · -- the kept rows have a trade with the text of this timestamp
    have hmem : t ∈ (final host env config data).trades := by
      refine List.IsPrefix.mem ?_ hlast
      rw [happend]
      simp
    have hmap := List.mem_map_of_mem (f := BacktestReport.withoutIds) hmem
    rw [← hsame] at hmap
    obtain ⟨t', ht', hids⟩ := List.mem_map.mp hmap
    obtain ⟨ts', hts', htext'⟩ := run_timestampIso host env' config _ (kept config data) ht'
    have hsameText := congrArg TradeRecord.timestampIso hids
    dsimp only [BacktestReport.withoutIds] at hsameText
    rw [htext, htext'] at hsameText
    have heq := hiso ts' (mem_timestamps_kept hpairs hts') ts hts hsameText
    exact .inl (heq ▸ hts')

/-- Where the whole run takes nothing at other timestamps, and has shown no book
too early, both runs keep the same trades; and runs that keep the same trades
keep none at other timestamps. -/
theorem unrelatedPairs_trades (host : HostLibrary) (env env' : Surroundings) (config : BacktestConfig)
    (data : List HistoricalSnapshot) (hpairs : config.pairs ≠ []) :
    let same := (run host env' config (kept config data)).2.map BacktestReport.withoutIds =
      (run host env config data).2.map BacktestReport.withoutIds
    (StillShown host config data → IdleElsewhere host env config data → same) ∧
      ((∀ ts ∈ timestamps data, ∀ ts' ∈ timestamps data,
          host.toIso8601 ts = host.toIso8601 ts' → ts = ts') → same →
        EveryAttempt host env config (activePairs config data)
          (fun ts pair st p => ts ∈ timestamps (kept config data) ∨
            (attempt host env config ts pair (st.aggregator.getPairSnapshots pair 20) st p).trades =
              st.trades)
          (start host config data) (timestamps data)) := by
  intro same
  refine ⟨?_, fun hiso hsame => keepsNone_elsewhere hiso hpairs hsame⟩
  intro hstill hidle
  have hshadows : Shadows host env env' config data (timestamps data) :=
    shadows_run hpairs hstill hidle (List.append_nil _).symm
  have htrades := hshadows.trades
  rw [keptRun, timestamps_kept hpairs] at htrades
  show (final ..).trades.map _ = _
  rw [final, activePairs_kept hpairs]
  exact htrades

end TwoRuns

/-! ### A tick of another pair -/

def coinConfig : BacktestConfig := { sampleConfig with pairs := ["BTC-USDT"] }

def tick : HistoricalSnapshot := sampleRow 700 .okx "ETH-USDT" 10 11

/-- The books no longer cross when the other pair ticks. -/
def closedRows : List HistoricalSnapshot := crossedRows ++ [sampleRow 600 .okx "BTC-USDT" 99 100, tick]

theorem closedRows_stillShown : StillShown sampleHost coinConfig closedRows := by
  have htimestamps : timestamps closedRows = [500, 600, 700] := by decide +kernel
  have hkept : timestamps (kept coinConfig closedRows) = [500, 600] := by decide +kernel
  rintro first - hearliest ⟨ts, hts, hlt⟩
  have hfirst : first ≤ 500 := hearliest 500 (by rw [hkept]; exact List.mem_cons_self ..)
  have hlt500 : ts < 500 := Std.lt_of_lt_of_le hlt hfirst
  rw [htimestamps] at hts
  simp only [List.mem_cons, List.not_mem_nil, or_false] at hts
  rcases hts with rfl | rfl | rfl
  · exact absurd hlt500 (by decide)
  · exact absurd hlt500 (by decide)
  · exact absurd hlt500 (by decide)

theorem closedRows_sameTrades :
    (run sampleHost sampleEnv coinConfig (kept coinConfig closedRows)).2.map BacktestReport.withoutIds =
        (run sampleHost sampleEnv coinConfig closedRows).2.map BacktestReport.withoutIds ∧
      (run sampleHost sampleEnv coinConfig closedRows).2.length = 1 :=
  ⟨(unrelatedPairs_trades sampleHost sampleEnv sampleEnv coinConfig closedRows (by decide)).1
    closedRows_stillShown (by decide +kernel), by decide +kernel⟩

/-- The crossed books are traded again because the other pair ticks. -/
theorem tick_tradesAgain :
    (run sampleHost sampleEnv coinConfig (crossedRows ++ [tick])).2.length = 2 ∧
      (run sampleHost sampleEnv coinConfig (kept coinConfig (crossedRows ++ [tick]))).2.length = 1 := by
  decide +kernel

end CryptoArbBot.BacktestEngine
