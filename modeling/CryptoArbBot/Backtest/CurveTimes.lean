import CryptoArbBot.Backtest.BookKeeping
import CryptoArbBot.Backtest.EquityCurve
import CryptoArbBot.Common.TimeUtils

/-!
# The times of the equity curve

The engine stamps each trade with the text of its timestamp and the report copies
the texts into the curve, which is plotted and sorted by them.
-/

namespace CryptoArbBot.BacktestEngine
open TimeUtils

/-- The trades that a timestamp adds are stamped with it. -/
theorem step_appends (host : HostLibrary) (env : Surroundings) (config : BacktestConfig)
    (active : List String) (st : State) (ts : UInt64) :
    ∃ added, (step host env config active st ts).trades = st.trades ++ added ∧
      ∀ t ∈ added, t.timestampIso = host.toIso8601 ts := by
  have hattempt : ∀ pair snapshots (st' : State) p,
      (∃ added, st'.trades = st.trades ++ added ∧ ∀ t ∈ added, t.timestampIso = host.toIso8601 ts) →
      ∃ added, (attempt host env config ts pair snapshots st' p).trades = st.trades ++ added ∧
        ∀ t ∈ added, t.timestampIso = host.toIso8601 ts := by
    rintro pair snapshots st' p ⟨added, hadded, hstamped⟩
    rcases attempt_trades host env config ts pair snapshots st' p with hsame | ⟨new, happend, hnew⟩
    · exact ⟨added, hsame.trans hadded, hstamped⟩
    · refine ⟨added ++ [new], by rw [happend, hadded, List.append_assoc], ?_⟩
      intro t ht
      rcases List.mem_append.mp ht with hold | hlast
      · exact hstamped t hold
      · rw [List.mem_singleton.mp hlast]
        exact hnew
  refine Runs.invariant_run (I := fun st' : State => ∃ added, st'.trades = st.trades ++ added ∧
    ∀ t ∈ added, t.timestampIso = host.toIso8601 ts) ?_ active ?_
  · intro st' pair hst'
    rw [scanPair_eq_run]
    exact Runs.invariant_run (I := fun st' : State => ∃ added, st'.trades = st.trades ++ added ∧
      ∀ t ∈ added, t.timestampIso = host.toIso8601 ts) (fun s p hs => hattempt pair _ s p hs) _ hst'
  · exact ⟨[], by rw [(refresh_exchanges ..).2, List.append_nil], List.forall_mem_nil _⟩

section Order
variable {host : HostLibrary} {env : Surroundings} {config : BacktestConfig} {active : List String}

/-- Over timestamps whose texts ascend, the stamps of the trades do. -/
theorem run_stamps_ascend {tss : List UInt64}
    (htexts : tss.Pairwise fun ts ts' => host.toIso8601 ts ≤ host.toIso8601 ts') {st : State}
    (hst : st.trades.Pairwise fun t t' => t.timestampIso ≤ t'.timestampIso)
    (hbefore : ∀ t ∈ st.trades, ∀ ts ∈ tss, t.timestampIso ≤ host.toIso8601 ts) :
    (Runs.run (step host env config active) st tss).trades.Pairwise
      fun t t' => t.timestampIso ≤ t'.timestampIso := by
  induction tss generalizing st with
  | nil => exact hst
  | cons ts tss ih =>
    obtain ⟨hlater, htexts'⟩ := List.pairwise_cons.mp htexts
    obtain ⟨added, hadded, hstamped⟩ := step_appends host env config active st ts
    refine ih htexts' ?_ ?_
    · rw [hadded, List.pairwise_append]
      refine ⟨hst, ?_, ?_⟩
      · refine List.pairwise_of_forall_mem_list ?_
        intro t ht t' ht'
        rw [hstamped t ht, hstamped t' ht']
      · intro t ht t' ht'
        rw [hstamped t' ht']
        exact hbefore t ht ts (List.mem_cons_self ..)
    · intro t ht ts' hts'
      rw [hadded] at ht
      rcases List.mem_append.mp ht with hold | hnew
      · exact hbefore t hold ts' (List.mem_cons_of_mem _ hts')
      · rw [hstamped t hnew]
        exact hlater ts' hts'

theorem run_stamps_from {tss : List UInt64} {st : State} :
    ∀ t ∈ (Runs.run (step host env config active) st tss).trades,
      t ∈ st.trades ∨ ∃ ts ∈ tss, t.timestampIso = host.toIso8601 ts := by
  refine Runs.invariant_run_mem (I := fun st' : State => ∀ t ∈ st'.trades,
    t ∈ st.trades ∨ ∃ ts ∈ tss, t.timestampIso = host.toIso8601 ts) ?_ fun t ht => .inl ht
  intro st' ts hts hst' t ht
  obtain ⟨added, hadded, hstamped⟩ := step_appends host env config active st' ts
  rw [hadded] at ht
  rcases List.mem_append.mp ht with hold | hnew
  · exact hst' t hold
  · exact .inr ⟨ts, hts, hstamped t hnew⟩

end Order

/-- `TimeUtils::to_iso8601(TimeUtils::from_ms(ts))`. -/
def isoOfMs (ts : UInt64) : String := toIso8601 (fromMs ts)

theorem isoOfMs_le {ts ts' : UInt64} (h : Clocked (fromMs ts)) (h' : Clocked (fromMs ts'))
    (hle : ts ≤ ts') : isoOfMs ts ≤ isoOfMs ts' := by
  rw [isoOfMs, isoOfMs, ← String.not_lt, toIso8601_lt_iff h' h, fromMs, fromMs]
  rw [UInt64.le_iff_toNat_le] at hle
  omega

theorem curve_stamps (sqrt : ℚ → ℚ) (trades : List TradeRecord) :
    (BacktestReport.computeMetrics sqrt trades).equityCurve.map Prod.fst = trades.map (·.timestampIso) := by
  rw [BacktestReport.computeMetrics_equityCurve, BacktestReport.equityCurve_foldl]
  exact List.ext_getElem (by simp) (by simp)

/-- The texts along the curve of a backtest ascend, so ordering the points by them keeps
their order, and each one reads back to a timestamp of the data. -/
theorem equityCurve_in_time_order (host : HostLibrary) (hiso : host.toIso8601 = isoOfMs)
    (env : Surroundings) (config : BacktestConfig) {data : List HistoricalSnapshot}
    (hclock : ∀ row ∈ data, Clocked (fromMs row.timestampMs)) :
    let curve := (run host env config data).1.equityCurve
    (curve.map Prod.fst).Pairwise (· ≤ ·) ∧
      ∀ point ∈ curve, ∃ row ∈ data, fromIso8601 point.1 = .ok (fromMs row.timestampMs) := by
  intro curve
  have hstamps : curve.map Prod.fst = (final host env config data).trades.map (·.timestampIso) :=
    curve_stamps _ _
  have hrow : ∀ ts ∈ timestamps data, ∃ row ∈ data, row.timestampMs = ts := by
    intro ts hts
    rw [timestamps, mem_orderedSet] at hts
    exact List.mem_map.mp hts
  have hclocked : ∀ ts ∈ timestamps data, Clocked (fromMs ts) := by
    intro ts hts
    obtain ⟨row, hmem, rfl⟩ := hrow ts hts
    exact hclock row hmem
  have htexts : (timestamps data).Pairwise fun ts ts' => host.toIso8601 ts ≤ host.toIso8601 ts' := by
    refine (orderedSet_ascending _).imp_of_mem ?_
    intro ts ts' hts hts' hlt
    rw [hiso]
    exact isoOfMs_le (hclocked ts hts) (hclocked ts' hts') (Std.le_of_lt hlt)
  constructor
  · rw [hstamps, List.pairwise_map]
    exact run_stamps_ascend htexts .nil (List.forall_mem_nil _)
  · intro point hpoint
    have hmem : point.1 ∈ (final host env config data).trades.map (·.timestampIso) :=
      hstamps ▸ List.mem_map_of_mem hpoint
    obtain ⟨t, ht, hsame⟩ := List.mem_map.mp hmem
    rcases run_stamps_from t ht with hnone | ⟨ts, hts, hstamp⟩
    · cases hnone
    · obtain ⟨row, hmem, rfl⟩ := hrow ts hts
      have hwhole : fromMs row.timestampMs / 10 ^ 6 * 10 ^ 6 = fromMs row.timestampMs := by
        unfold fromMs
        omega
      refine ⟨row, hmem, ?_⟩
      rw [← hsame, hstamp, hiso, isoOfMs, fromIso8601_toIso8601 (hclock row hmem), hwhole]

theorem crossedRows_in_time_order :
    let host : HostLibrary := { sampleHost with toIso8601 := isoOfMs }
    let curve := (run host sampleEnv sampleConfig crossedRows).1.equityCurve
    (curve.map Prod.fst).Pairwise (· ≤ ·) ∧
      ∀ point ∈ curve, ∃ row ∈ crossedRows, fromIso8601 point.1 = .ok (fromMs row.timestampMs) := by
  intro host
  refine equityCurve_in_time_order host rfl sampleEnv sampleConfig ?_
  intro row hrow
  have hts : row.timestampMs = 500 := by
    simp only [crossedRows, List.mem_cons, List.not_mem_nil, or_false] at hrow
    rcases hrow with rfl | rfl
    · rfl
    · rfl
  rw [hts]
  exact ⟨by decide, by decide⟩

end CryptoArbBot.BacktestEngine
