import CryptoArbBot.Backtest.SimulatedExchange
import CryptoArbBot.Library.Runs

/-!
# The cursors of a simulated exchange

After the clock has advanced to a timestamp the cursor of a pair stands on the
last row that is not later, or on the first row when every row is later.
-/

namespace CryptoArbBot.SimulatedExchange

def seen (ts : UInt64) (row : HistoricalSnapshot) : Bool := decide (row.timestampMs ≤ ts)

/-- How many of the rows, which are in order, are not later than the timestamp. -/
def position (ts : UInt64) (rows : List HistoricalSnapshot) : ℕ := partitionPoint (seen ts) rows

def InOrder (rows : List HistoricalSnapshot) : Prop :=
  rows.Pairwise fun a b => a.timestampMs ≤ b.timestampMs

theorem InOrder.head_le {rows : List HistoricalSnapshot} (h : InOrder rows)
    {first row : HistoricalSnapshot} (hfirst : first ∈ rows.head?) (hrow : row ∈ rows) :
    first.timestampMs ≤ row.timestampMs := by
  cases rows with
  | nil => cases hfirst
  | cons head rest =>
    cases hfirst
    rcases List.mem_cons.mp hrow with rfl | hrest
    · exact Std.le_refl _
    · exact (List.pairwise_cons.mp h).1 row hrest

theorem InOrder.partitioned {rows : List HistoricalSnapshot} (h : InOrder rows) (ts : UInt64) :
    Partitioned (seen ts) rows := by
  refine h.imp ?_
  intro a b hab hb
  simp only [seen, decide_eq_true_eq] at hb ⊢
  exact Std.le_trans hab hb

theorem advanceLoop_eq (ts : UInt64) (idx : ℕ) (rest : List HistoricalSnapshot) :
    advanceLoop ts idx rest = idx + position ts rest := by
  induction rest generalizing idx with
  | nil => rfl
  | cons next rest ih =>
    unfold advanceLoop position partitionPoint
    by_cases hnext : next.timestampMs ≤ ts
    · have hseen : seen ts next = true := by simpa [seen] using hnext
      rw [if_pos hnext, ih, List.takeWhile_cons_of_pos hseen, List.length_cons]
      simp only [position, partitionPoint]
      omega
    · have hseen : ¬ seen ts next = true := by simpa [seen] using hnext
      rw [if_neg hnext, List.takeWhile_cons_of_neg hseen]
      rfl

/-- The rows behind the cursor that are not later are those between it and the
position of the timestamp. -/
theorem position_drop {rows : List HistoricalSnapshot} (h : InOrder rows) (ts : UInt64) (k : ℕ) :
    position ts (rows.drop k) = position ts rows - k := by
  induction k generalizing rows with
  | zero => rfl
  | succ k ih =>
    cases rows with
    | nil => simp [position, partitionPoint]
    | cons row rows =>
      obtain ⟨_, hrest⟩ := List.pairwise_cons.mp h
      rw [List.drop_succ_cons, ih hrest]
      by_cases hrow : seen ts row = true
      · have hcons : position ts (row :: rows) = position ts rows + 1 := by
          simp [position, partitionPoint, hrow]
        omega
      · have hcons : position ts (row :: rows) = 0 := by
          simp [position, partitionPoint, hrow]
        have hnone : position ts rows = 0 := by
          cases rows with
          | nil => rfl
          | cons next rows =>
            have hnext : ¬ seen ts next = true := by
              intro hseen
              exact hrow ((List.pairwise_cons.mp (h.partitioned ts)).1 next
                (List.mem_cons_self ..) hseen)
            simp [position, partitionPoint, hnext]
        omega

theorem currentIndex_advanceTo {sim : SimulatedExchange} {pair : String}
    (h : InOrder (sim.snapshotsByPair pair)) (ts : UInt64) :
    (sim.advanceTo ts).currentIndex pair =
      max (sim.currentIndex pair) (position ts (sim.snapshotsByPair pair) - 1) := by
  have hloop : (sim.advanceTo ts).currentIndex pair = sim.currentIndex pair +
      position ts ((sim.snapshotsByPair pair).drop (sim.currentIndex pair + 1)) :=
    advanceLoop_eq ..
  rw [hloop, position_drop h]
  omega

theorem position_mono {t ts : UInt64} (hle : t ≤ ts) (rows : List HistoricalSnapshot) :
    position t rows ≤ position ts rows := by
  induction rows with
  | nil => exact le_rfl
  | cons row rows ih =>
    by_cases hrow : seen t row = true
    · have hrow' : seen ts row = true := by
        simp only [seen, decide_eq_true_eq] at hrow ⊢
        exact Std.le_trans hrow hle
      simp only [position, partitionPoint, List.takeWhile_cons, hrow, hrow', if_true,
        List.length_cons] at ih ⊢
      omega
    · simp [position, partitionPoint, hrow]

theorem position_congr {t ts : UInt64} {rows : List HistoricalSnapshot}
    (h : ∀ row ∈ rows, row.timestampMs ≤ t ↔ row.timestampMs ≤ ts) :
    position t rows = position ts rows := by
  induction rows with
  | nil => rfl
  | cons row rows ih =>
    have hrow : seen t row = seen ts row := by simp only [seen, h row (List.mem_cons_self ..)]
    have hrest := ih fun r hr => h r (List.mem_cons_of_mem _ hr)
    simp only [position, partitionPoint, List.takeWhile_cons, hrow] at hrest ⊢
    split
    · rw [List.length_cons, List.length_cons, hrest]
    · rfl

/-- The row a cursor at the timestamp stands on. -/
def rowAt (ts : UInt64) (rows : List HistoricalSnapshot) : Option HistoricalSnapshot :=
  rows[position ts rows - 1]?

theorem rowAt_of_seen {rows : List HistoricalSnapshot} (h : InOrder rows) {ts : UInt64}
    (hseen : 0 < position ts rows) :
    ∃ row ∈ rows, rowAt ts rows = some row ∧ row.timestampMs ≤ ts ∧
      ∀ row' ∈ rows, row'.timestampMs ≤ ts → row'.timestampMs ≤ row.timestampMs := by
  have hlen : position ts rows ≤ rows.length := partitionPoint_le _ _
  have hlast : position ts rows - 1 < rows.length := by omega
  have hrow : rows[position ts rows - 1]? = some rows[position ts rows - 1] :=
    List.getElem?_eq_getElem hlast
  have hbefore : seen ts rows[position ts rows - 1] = true :=
    before_of_lt_partitionPoint (show position ts rows - 1 < position ts rows by omega) hrow
  refine ⟨_, List.getElem_mem hlast, hrow, by simpa [seen] using hbefore, ?_⟩
  intro row' hmem hts
  obtain ⟨i, hi⟩ := List.mem_iff_getElem?.mp hmem
  obtain ⟨hilt, hirow⟩ := List.getElem?_eq_some_iff.mp hi
  have hiseen : seen ts row' = true := by simpa [seen] using hts
  have hipos : i < position ts rows := (before_iff_lt_partitionPoint (h.partitioned ts) hi).mp hiseen
  rcases Nat.lt_or_ge i (position ts rows - 1) with hlt | hge
  · rw [← hirow]
    exact List.pairwise_iff_getElem.mp h _ _ hilt hlast hlt
  · have heq : i = position ts rows - 1 := by omega
    subst heq
    rw [hirow]
    exact Std.le_refl _

theorem rowAt_of_unseen {rows : List HistoricalSnapshot} {ts : UInt64} (h : position ts rows = 0) :
    rowAt ts rows = rows.head? := by
  rw [rowAt, h, List.head?_eq_getElem?]

theorem position_eq_zero {rows : List HistoricalSnapshot} {ts : UInt64}
    (h : ∀ row ∈ rows, ¬ row.timestampMs ≤ ts) : position ts rows = 0 := by
  cases rows with
  | nil => rfl
  | cons row rows => simp [position, partitionPoint, seen, h row (List.mem_cons_self ..)]

theorem not_seen_of_position {rows : List HistoricalSnapshot} (horder : InOrder rows) {ts : UInt64}
    (h : position ts rows = 0) : ∀ row ∈ rows, ts < row.timestampMs := by
  intro row hmem
  obtain ⟨i, hi⟩ := List.mem_iff_getElem?.mp hmem
  have hnot : ¬ seen ts row = true := by
    intro hseen
    have hlt := (before_iff_lt_partitionPoint (horder.partitioned ts) hi).mp hseen
    rw [show partitionPoint (seen ts) rows = 0 from h] at hlt
    exact Nat.not_lt_zero _ hlt
  simp only [seen, decide_eq_true_eq] at hnot
  exact Std.not_le.mp hnot

/-! ### Loading and advancing -/

theorem strictWeak_byTimestamp : StrictWeak byTimestamp :=
  strictWeak_key fun row : HistoricalSnapshot => row.timestampMs.toNat

section Load
variable (std : StdSort HistoricalSnapshot) (exchId : Exchange) (name : String)
  (initialBalances : AssetMap) (makerFee takerFee : ℚ) (data : List HistoricalSnapshot)

/-- The rows of a pair on a freshly loaded exchange. -/
def loadedRows (pair : String) : List HistoricalSnapshot :=
  std.sort byTimestamp (data.filter fun snap => snap.exchange = exchId ∧ snap.pair = pair)

theorem loadSnapshots_new :
    (new exchId name initialBalances makerFee takerFee).loadSnapshots std data =
      { new exchId name initialBalances makerFee takerFee with
        snapshotsByPair := loadedRows std exchId data } := rfl

variable {std exchId data}

theorem mem_loadedRows {pair : String} {row : HistoricalSnapshot} :
    row ∈ loadedRows std exchId data pair ↔ row ∈ data ∧ row.exchange = exchId ∧ row.pair = pair := by
  rw [loadedRows, (std.perm ..).mem_iff, List.mem_filter, decide_eq_true_eq]

theorem loadedRows_inOrder (pair : String) : InOrder (loadedRows std exchId data pair) := by
  refine (std.sorted byTimestamp _ strictWeak_byTimestamp).imp ?_
  intro a b hab
  simp only [byTimestamp, decide_eq_false_iff_not] at hab
  exact Std.not_lt.mp hab

end Load

theorem snapshotsByPair_run (sim : SimulatedExchange) (tss : List UInt64) :
    (Runs.run advanceTo sim tss).snapshotsByPair = sim.snapshotsByPair := by
  induction tss generalizing sim with
  | nil => rfl
  | cons ts tss ih => exact ih (sim.advanceTo ts)

theorem currentIndex_run_le {sim : SimulatedExchange} {pair : String}
    (horder : InOrder (sim.snapshotsByPair pair)) {tss : List UInt64} {ts : UInt64}
    (htss : ∀ t ∈ tss, t ≤ ts)
    (hstart : sim.currentIndex pair ≤ position ts (sim.snapshotsByPair pair) - 1) :
    (Runs.run advanceTo sim tss).currentIndex pair ≤
      position ts (sim.snapshotsByPair pair) - 1 := by
  induction tss generalizing sim with
  | nil => exact hstart
  | cons t tss ih =>
    have hmono := position_mono (htss t (List.mem_cons_self ..)) (sim.snapshotsByPair pair)
    have hadvanced : (sim.advanceTo t).currentIndex pair ≤
        position ts (sim.snapshotsByPair pair) - 1 := by
      rw [currentIndex_advanceTo horder]
      exact max_le hstart (by omega)
    exact ih horder (fun t' ht' => htss t' (List.mem_cons_of_mem _ ht')) hadvanced

/-- Wherever the clock has been before, at the latest timestamp so far the cursor
stands on that timestamp's row. -/
theorem row_run (sim : SimulatedExchange) (pair : String)
    (horder : InOrder (sim.snapshotsByPair pair)) (hstart : sim.currentIndex pair = 0)
    {tss : List UInt64} {ts : UInt64} (htss : ∀ t ∈ tss, t ≤ ts) :
    (Runs.run advanceTo sim (tss ++ [ts])).row pair = rowAt ts (sim.snapshotsByPair pair) := by
  have hrows : (Runs.run advanceTo sim tss).snapshotsByPair pair = sim.snapshotsByPair pair := by
    rw [snapshotsByPair_run]
  have hle := currentIndex_run_le horder htss (by rw [hstart]; exact Nat.zero_le _)
  have hindex := currentIndex_advanceTo (hrows ▸ horder) ts
  rw [hrows, max_eq_right hle] at hindex
  rw [Runs.run_append]
  show ((Runs.run advanceTo sim tss).snapshotsByPair pair)[
    ((Runs.run advanceTo sim tss).advanceTo ts).currentIndex pair]? = _
  rw [hrows, hindex, rowAt]

/-! ### No look-ahead -/

/-- The book is the latest row of the data that is not later than the timestamp,
or empty when there is none. -/
def FromPast (data : List HistoricalSnapshot) (exch : Exchange) (pair : String) (ts : UInt64)
    (book : OrderBookSnapshot) : Prop :=
  (∃ row ∈ data, row.exchange = exch ∧ row.pair = pair ∧ row.timestampMs ≤ ts ∧
      (∀ row' ∈ data, row'.exchange = exch → row'.pair = pair → row'.timestampMs ≤ ts →
        row'.timestampMs ≤ row.timestampMs) ∧
      book.bids = row.bids ∧ book.asks = row.asks ∧ book.sequenceId = row.timestampMs) ∨
    ((∀ row ∈ data, row.exchange = exch → row.pair = pair → ts < row.timestampMs) ∧
      book.bids = [] ∧ book.asks = [])

/-- The first row, if there is one, has been reached or has no levels. -/
def FirstReached (ts : UInt64) (rows : List HistoricalSnapshot) : Prop :=
  ∀ first ∈ rows.head?, first.timestampMs ≤ ts ∨ (first.bids = [] ∧ first.asks = [])

instance (ts : UInt64) (rows : List HistoricalSnapshot) : Decidable (FirstReached ts rows) :=
  inferInstanceAs (Decidable (∀ first ∈ rows.head?, _))

theorem fromPast_iff {std : StdSort HistoricalSnapshot} {exchId : Exchange}
    {data : List HistoricalSnapshot} {sim : SimulatedExchange} {pair : String} {ts : UInt64}
    (hrow : sim.row pair = rowAt ts (loadedRows std exchId data pair)) (now : TimePoint) :
    FromPast data exchId pair ts (sim.currentBook pair now) ↔
      FirstReached ts (loadedRows std exchId data pair) := by
  have horder : InOrder (loadedRows std exchId data pair) := loadedRows_inOrder pair
  rcases Nat.eq_zero_or_pos (position ts (loadedRows std exchId data pair)) with hzero | hpos
  · have hlater : ∀ row ∈ data, row.exchange = exchId → row.pair = pair → ts < row.timestampMs :=
      fun row hmem hexch hpair =>
        not_seen_of_position horder hzero row (mem_loadedRows.mpr ⟨hmem, hexch, hpair⟩)
    rw [rowAt_of_unseen hzero] at hrow
    unfold FirstReached
    cases hhead : (loadedRows std exchId data pair).head? with
    | none =>
      have hbook : (sim.currentBook pair now).bids = [] ∧ (sim.currentBook pair now).asks = [] := by
        simp [currentBook, hrow, hhead]
      constructor
      · intro _ first hfirst
        cases hfirst
      · intro _
        exact .inr ⟨hlater, hbook⟩
    | some first =>
      have hmem : first ∈ loadedRows std exchId data pair := List.mem_of_head? hhead
      have hfirst : ¬ first.timestampMs ≤ ts :=
        Std.not_le.mpr (not_seen_of_position horder hzero first hmem)
      have hbook : (sim.currentBook pair now).bids = first.bids ∧
          (sim.currentBook pair now).asks = first.asks := by
        simp [currentBook, hrow, hhead]
      rw [FromPast, hbook.1, hbook.2]
      constructor
      · intro h first' hfirst'
        cases hfirst'
        rcases h with hpast | hempty
        · obtain ⟨row, hrowMem, hexch, hpair, hts, _⟩ := hpast
          exact absurd hts (Std.not_le.mpr (hlater row hrowMem hexch hpair))
        · exact .inr hempty.2
      · intro h
        exact .inr ⟨hlater, (h first rfl).resolve_left hfirst⟩
  · obtain ⟨row, hmem, hat, hts, hlatest⟩ := rowAt_of_seen horder hpos
    rw [hat] at hrow
    obtain ⟨hdata, hexch, hpair⟩ := mem_loadedRows.mp hmem
    refine ⟨fun _ => ?_, fun _ => .inl ⟨row, hdata, hexch, hpair, hts, ?_, ?_⟩⟩
    · intro first hfirst
      exact .inl (Std.le_trans (horder.head_le hfirst hmem) hts)
    · intro row' hdata' hexch' hpair' hts'
      exact hlatest row' (mem_loadedRows.mpr ⟨hdata', hexch', hpair'⟩) hts'
    · simp [currentBook, hrow]

end CryptoArbBot.SimulatedExchange
