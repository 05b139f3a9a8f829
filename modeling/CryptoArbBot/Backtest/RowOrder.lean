import CryptoArbBot.Backtest.Agreement
import CryptoArbBot.Backtest.BookKeeping

/-!
# The order of the rows

Where no exchange has two rows of one pair and timestamp, the rows that are
loaded, the timestamps and the pairs do not depend on the order of the data, and
neither does anything computed from them.
-/

namespace CryptoArbBot

namespace SimulatedExchange

/-- The key under which a row is recorded. -/
def rowKey (row : HistoricalSnapshot) : Exchange × String × UInt64 :=
  (row.exchange, row.pair, row.timestampMs)

theorem loadedRows_congr (std : StdSort HistoricalSnapshot) (exch : Exchange) (pair : String)
    {data data' : List HistoricalSnapshot} (hdistinct : (data.map rowKey).Nodup)
    (hperm : data'.Perm data) : loadedRows std exch data' pair = loadedRows std exch data pair := by
  refine std.sort_congr strictWeak_byTimestamp (hperm.filter _) ?_
  intro a ha b hb hab hba
  simp only [List.mem_filter, decide_eq_true_eq] at ha hb
  obtain ⟨haData, haExch, haPair⟩ := ha
  obtain ⟨hbData, hbExch, hbPair⟩ := hb
  simp only [byTimestamp, decide_eq_false_iff_not] at hab hba
  have hts : a.timestampMs = b.timestampMs := Std.le_antisymm (Std.not_lt.mp hba) (Std.not_lt.mp hab)
  refine List.inj_on_of_nodup_map hdistinct haData hbData ?_
  rw [rowKey, rowKey, haExch, hbExch, haPair, hbPair, hts]

end SimulatedExchange

namespace BacktestEngine
open SimulatedExchange

theorem timestamps_congr {data data' : List HistoricalSnapshot} (hperm : data'.Perm data) :
    timestamps data' = timestamps data :=
  orderedSet_congr fun _ => (hperm.map _).mem_iff

theorem activePairs_congr (config : BacktestConfig) {data data' : List HistoricalSnapshot}
    (hperm : data'.Perm data) : activePairs config data' = activePairs config data := by
  have hpairs : allPairs data' = allPairs data := orderedSet_congr fun _ => (hperm.map _).mem_iff
  rw [activePairs, activePairs, hpairs]

theorem start_congr (host : HostLibrary) (config : BacktestConfig)
    {data data' : List HistoricalSnapshot} (hdistinct : (data.map rowKey).Nodup)
    (hperm : data'.Perm data) : start host config data' = start host config data := by
  have hrows : ∀ exch, loadedRows host.sortRows exch data' = loadedRows host.sortRows exch data :=
    fun exch => funext fun pair => loadedRows_congr host.sortRows exch pair hdistinct hperm
  unfold start
  congr 1
  funext exch
  rw [loadSnapshots_new, loadSnapshots_new, hrows]

/-- Data in another order gives the same trades without their ids, and the same
metrics. -/
theorem rowOrder_irrelevant (host : HostLibrary) (env env' : Surroundings) (config : BacktestConfig)
    {data data' : List HistoricalSnapshot}
    (hdistinct : (data.map rowKey).Nodup) (hperm : data'.Perm data) :
    (run host env' config data').2.map BacktestReport.withoutIds =
        (run host env config data).2.map BacktestReport.withoutIds ∧
      (run host env' config data').1 = (run host env config data).1 := by
  have hagrees := run_agrees host env env' config (activePairs config data) (start host config data)
    (timestamps data)
  have hfinal : final host env' config data' =
      Runs.run (step host env' config (activePairs config data)) (start host config data)
        (timestamps data) := by
    rw [final, timestamps_congr hperm, activePairs_congr config hperm,
      start_congr host config hdistinct hperm]
  have htrades : (final host env' config data').trades.map BacktestReport.withoutIds =
      (final host env config data).trades.map BacktestReport.withoutIds := by
    rw [hfinal]
    exact hagrees.trades
  refine ⟨htrades, ?_⟩
  rw [run, run, ← BacktestReport.computeMetrics_withoutIds, htrades,
    BacktestReport.computeMetrics_withoutIds]

theorem crossedRows_reversed :
    (run sampleHost { sampleEnv with uuids := toString } sampleConfig crossedRows.reverse).2.map
        BacktestReport.withoutIds =
      (run sampleHost sampleEnv sampleConfig crossedRows).2.map BacktestReport.withoutIds :=
  (rowOrder_irrelevant sampleHost sampleEnv { sampleEnv with uuids := toString } sampleConfig
    (by decide) (by decide)).1

end BacktestEngine

end CryptoArbBot
