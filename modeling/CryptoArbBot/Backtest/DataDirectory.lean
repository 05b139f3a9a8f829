import CryptoArbBot.Backtest.CsvRoundTrip
import CryptoArbBot.Backtest.RowOrder

/-!
# A directory of recordings (backtest/data_loader.cpp)

Each exchange and pair is recorded into a file of its own. Loading walks the
directory in an order that the file system chooses and sorts the rows of all files
by their timestamps.
-/

namespace CryptoArbBot.DataLoader
open SimulatedExchange BacktestEngine

/-- `path.extension() == ".csv"`; the name `.csv` alone is a stem. -/
def isCsv (path : String) : Bool :=
  let filename := path.toList.reverse.takeWhile (· ≠ '/')
  ['v', 's', 'c', '.'].isPrefixOf filename && filename.length > 4

/-- The entries are the paths in the directory, which exists. -/
def loadCsvDirectory (std : StdSort HistoricalSnapshot) (files : Files) (entries : List String) :
    Except String (List HistoricalSnapshot) := do
  let all ← (entries.filter isCsv).mapM fun path => loadCsv (files path)
  .ok (std.sort byTimestamp all.flatten)

theorem isCsv_csvFilename (directory : String) {snapshot : OrderBookSnapshot}
    (hslash : '/' ∉ snapshot.pair.toList) : isCsv (csvFilename directory snapshot) = true := by
  have hexch : ∀ c ∈ snapshot.exchange.toString.toList, c ≠ '/' := by
    cases snapshot.exchange <;> simp [Exchange.toString]
  have hpair : ∀ c ∈ snapshot.pair.toList, c ≠ '/' := fun c hc heq => hslash (heq ▸ hc)
  have hreverse : (csvFilename directory snapshot).toList.reverse =
      (['v', 's', 'c', '.'] ++ (snapshot.pair.toList.reverse ++ ('_' ::
        snapshot.exchange.toString.toList.reverse))) ++ '/' :: directory.toList.reverse := by
    simp [csvFilename, String.toList_append]
  have hname : ∀ c ∈ ['v', 's', 'c', '.'] ++ (snapshot.pair.toList.reverse ++ ('_' ::
      snapshot.exchange.toString.toList.reverse)), decide (c ≠ '/') = true := by
    intro c hc
    simp only [List.mem_append, List.mem_cons, List.mem_reverse, List.not_mem_nil, or_false] at hc
    rw [decide_eq_true_eq]
    rcases hc with (rfl | rfl | rfl | rfl) | hc | rfl | hc
    · decide
    · decide
    · decide
    · decide
    · exact hpair c hc
    · decide
    · exact hexch c hc
  have hfilename : (csvFilename directory snapshot).toList.reverse.takeWhile (· ≠ '/') =
      ['v', 's', 'c', '.'] ++ (snapshot.pair.toList.reverse ++ ('_' ::
        snapshot.exchange.toString.toList.reverse)) := by
    rw [hreverse, List.takeWhile_append_of_pos hname, List.takeWhile_cons_of_neg (by decide),
      List.append_nil]
  unfold isCsv
  dsimp only
  rw [hfilename]
  simp [List.isPrefixOf]

/-- Grouped by a key whose values are listed once each, the entries are the same. -/
theorem perm_groups {ι κ : Type*} [DecidableEq κ] (key : ι → κ) {keys : List κ} (hkeys : keys.Nodup)
    {xs : List ι} (hall : ∀ x ∈ xs, key x ∈ keys) :
    (keys.flatMap fun k => xs.filter fun x => key x = k).Perm xs := by
  induction keys generalizing xs with
  | nil =>
    have hnone : xs = [] := List.eq_nil_iff_forall_not_mem.mpr fun x hx => by
      simpa using hall x hx
    rw [hnone]
    exact .refl _
  | cons k keys ih =>
    obtain ⟨hfresh, hkeys'⟩ := List.nodup_cons.mp hkeys
    have hrest : ∀ x ∈ xs.filter (fun x => !decide (key x = k)), key x ∈ keys := by
      intro x hx
      obtain ⟨hmem, hne⟩ := List.mem_filter.mp hx
      exact (List.mem_cons.mp (hall x hmem)).resolve_left (by simpa using hne)
    have hsame : (keys.flatMap fun k' => xs.filter fun x => key x = k') =
        keys.flatMap fun k' => (xs.filter fun x => !decide (key x = k)).filter fun x => key x = k' := by
      refine List.flatMap_congr fun k' hk' => ?_
      rw [List.filter_filter]
      refine List.filter_congr fun x _ => ?_
      by_cases hx : key x = k'
      · have hne : key x ≠ k := fun heq => hfresh (heq ▸ hx ▸ hk')
        simp [hx, hx ▸ hne]
      · simp [hx]
    rw [List.flatMap_cons, hsame]
    exact ((ih hkeys' hrest).append_left _).trans (List.filter_append_perm ..)

section Recorded
variable {directory : String} {saves : List (OrderBookSnapshot × UInt64)}

theorem loadCsv_recorded (hsaves : ∀ saved ∈ saves, Recordable saved.1 ∧ Reloads saved.1) (path : String) :
    loadCsv (saveRows directory saves path) = .ok ((savedTo directory path saves).map historical) := by
  refine (saveRows_reload_iff directory path fun saved hsaved => (hsaves saved hsaved).1).mpr ?_
  exact fun saved hsaved => (hsaves saved (List.mem_filter.mp hsaved).1).2

/-- Whatever order the files come in, the rows loaded are those recorded. -/
theorem loadCsvDirectory_recorded (std : StdSort HistoricalSnapshot)
    (hsaves : ∀ saved ∈ saves, Recordable saved.1 ∧ Reloads saved.1)
    (hslash : ∀ saved ∈ saves, '/' ∉ saved.1.pair.toList) {entries : List String}
    (hentries : entries.Nodup) (hlisted : ∀ saved ∈ saves, csvFilename directory saved.1 ∈ entries) :
    ∃ data, loadCsvDirectory std (saveRows directory saves) entries = .ok data ∧
      data.Perm (saves.map historical) ∧ data.Pairwise fun a b => a.timestampMs ≤ b.timestampMs := by
  have hload : ((entries.filter isCsv).map id).mapM (fun path => loadCsv (saveRows directory saves path)) =
      .ok ((entries.filter isCsv).map fun path => (savedTo directory path saves).map historical) :=
    mapM_eq_ok_iff.mpr fun path _ => loadCsv_recorded hsaves path
  rw [List.map_id] at hload
  have hcsv : ∀ saved ∈ saves, csvFilename directory saved.1 ∈ entries.filter isCsv := fun saved hsaved =>
    List.mem_filter.mpr ⟨hlisted saved hsaved, isCsv_csvFilename directory (hslash saved hsaved)⟩
  have hgroups := perm_groups (fun saved : OrderBookSnapshot × UInt64 => csvFilename directory saved.1)
    (hentries.filter isCsv) hcsv
  have hrows : ((entries.filter isCsv).map fun path => (savedTo directory path saves).map historical).flatten =
      ((entries.filter isCsv).flatMap fun path => savedTo directory path saves).map historical := by
    rw [List.map_flatMap, List.flatMap_def]
  refine ⟨_, by rw [loadCsvDirectory, hload]; rfl, ?_, ?_⟩
  · rw [hrows]
    exact (std.perm byTimestamp _).trans (hgroups.map historical)
  · refine (std.sorted byTimestamp _ strictWeak_byTimestamp).imp ?_
    intro a b hab
    simp only [byTimestamp, decide_eq_false_iff_not] at hab
    exact Std.not_lt.mp hab

end Recorded

/-- A backtest of the directory is a backtest of the books that were written. -/
theorem backtest_of_recording (host : HostLibrary) (env env' : Surroundings) (config : BacktestConfig)
    {directory : String} {calls : List (Opening × OrderBookSnapshot × UInt64)}
    (hwritten : ∀ saved ∈ written calls, Recordable saved.1 ∧ Reloads saved.1)
    (hslash : ∀ saved ∈ written calls, '/' ∉ saved.1.pair.toList)
    (hdistinct : ((written calls).map fun saved => (saved.1.exchange, saved.1.pair, saved.2)).Nodup)
    {entries : List String} (hentries : entries.Nodup)
    (hlisted : ∀ saved ∈ written calls, csvFilename directory saved.1 ∈ entries) :
    let rows := (written calls).map historical
    ∃ data, loadCsvDirectory host.sortRows (saveAll directory calls) entries = .ok data ∧
      data.Perm rows ∧ (data.Pairwise fun a b => a.timestampMs ≤ b.timestampMs) ∧
      (run host env' config data).2.map BacktestReport.withoutIds =
        (run host env config rows).2.map BacktestReport.withoutIds ∧
      (run host env' config data).1 = (run host env config rows).1 := by
  intro rows
  rw [saveAll_eq]
  obtain ⟨data, hload, hperm, hsorted⟩ :=
    loadCsvDirectory_recorded host.sortRows hwritten hslash hentries hlisted
  have hkeys : (rows.map rowKey).Nodup := by
    rw [List.map_map]
    exact hdistinct
  have hfinal : final host env' config data =
      Runs.run (step host env' config (activePairs config rows)) (start host config rows)
        (timestamps rows) := by
    rw [final, timestamps_congr hperm, activePairs_congr config hperm, start_congr host config hkeys hperm]
  have htrades : (final host env' config data).trades.map BacktestReport.withoutIds =
      (final host env config rows).trades.map BacktestReport.withoutIds := by
    rw [hfinal]
    exact (run_agrees host env env' config _ _ _).trades
  refine ⟨data, hload, hperm, hsorted, htrades, ?_⟩
  rw [run, run, ← BacktestReport.computeMetrics_withoutIds, htrades, BacktestReport.computeMetrics_withoutIds]

theorem deepBooks_backtest :
    let rows := [historical (bidsAndAsks 19 3, 1000), historical (bidsAndAsks 4 0, 2000)]
    ∃ data, loadCsvDirectory sampleHost.sortRows (saveAll "data" deepBooks)
        ["data/README", "data/OKX_BTC-USDT.csv"] = .ok data ∧
      data.Perm rows ∧ (data.Pairwise fun a b => a.timestampMs ≤ b.timestampMs) ∧
      (run sampleHost sampleEnv sampleConfig data).2.map BacktestReport.withoutIds =
        (run sampleHost sampleEnv sampleConfig rows).2.map BacktestReport.withoutIds ∧
      (run sampleHost sampleEnv sampleConfig data).1 = (run sampleHost sampleEnv sampleConfig rows).1 := by
  have hreloads : ∀ saved ∈ written deepBooks, Reloads saved.1 := by decide
  exact backtest_of_recording sampleHost sampleEnv sampleEnv sampleConfig
    (fun saved hsaved => ⟨deepBooks_recordable saved hsaved, hreloads saved hsaved⟩)
    (by decide) (by decide) (by decide) (by decide)

end CryptoArbBot.DataLoader
