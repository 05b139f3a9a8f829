import CryptoArbBot.Backtest.DataLoader

/-!
# Recorded books read back

The loop over the bids takes one pair of empty columns before it stops, and the
loop over the asks begins behind it. With fewer than 19 bids it begins at an
empty column and finds no asks.
-/

namespace CryptoArbBot.DataLoader

/-! ### The columns of a side -/

/-- The texts in `n` levels' columns. -/
def cells : ℕ → List PriceLevel → List String
  | 0, _ => []
  | n + 1, [] => "" :: "" :: cells n []
  | n + 1, level :: levels =>
    ostreamDouble level.price :: ostreamDouble level.quantity :: cells n levels

/-- A level whose price is positive and whose numbers are printed exactly. -/
structure Printable (level : PriceLevel) : Prop where
  positive : 0 < level.price
  price : stod (ostreamDouble level.price) = .ok level.price
  quantity : stod (ostreamDouble level.quantity) = .ok level.quantity

theorem stod_empty : stod "" = .error "stod" := by decide

theorem ne_empty_of_stod {text : String} {x : ℚ} (h : stod text = .ok x) : text ≠ "" := by
  rintro rfl
  rw [stod_empty] at h
  cases h

theorem comma_not_printed (x : ℚ) : ',' ∉ (ostreamDouble x).toList := by
  intro h
  rcases numberChar_ostreamDouble h with hdigit | hsign
  · exact absurd hdigit (by decide)
  · exact absurd hsign (by decide)

theorem newline_not_printed (x : ℚ) : '\n' ∉ (ostreamDouble x).toList := by
  intro h
  rcases numberChar_ostreamDouble h with hdigit | hsign
  · exact absurd hdigit (by decide)
  · exact absurd hsign (by decide)

theorem readLevels_empty (n : ℕ) (more : List String) :
    readLevels (n + 1) (.atFields ',' ("" :: "" :: more)) = .ok ([], .atFields ',' more) := by
  have hcomma : ',' ∉ ("" : String).toList := by decide
  rw [readLevels, TextStream.getline_field hcomma]
  dsimp only
  cases more with
  | nil => rw [TextStream.getline_last hcomma, if_pos rfl]
  | cons next more =>
    rw [TextStream.getline_field hcomma]
    rfl

/-- The loop reads the levels and stops behind one empty pair of columns, if there
is one. -/
theorem readLevels_cells {n : ℕ} {levels : List PriceLevel} (hlength : levels.length ≤ n)
    (h : ∀ level ∈ levels, Printable level) (more : List String) :
    readLevels n (.atFields ',' (cells n levels ++ more)) =
      .ok (levels, .atFields ',' (cells (n - levels.length - 1) [] ++ more)) := by
  induction levels generalizing n with
  | nil =>
    cases n with
    | zero => rfl
    | succ n => exact readLevels_empty n (cells n [] ++ more)
  | cons level levels ih =>
    cases n with
    | zero => exact absurd hlength (Nat.not_succ_le_zero _)
    | succ n =>
      obtain ⟨hpositive, hprice, hquantity⟩ := h level (List.mem_cons_self ..)
      have hrest := ih (Nat.le_of_succ_le_succ hlength) fun l hl => h l (List.mem_cons_of_mem _ hl)
      have hlast : (TextStream.atFields ','
          (ostreamDouble level.quantity :: (cells n levels ++ more))).getline ',' "" =
            (true, ostreamDouble level.quantity, .atFields ',' (cells n levels ++ more)) := by
        cases cells n levels ++ more with
        | nil => rw [TextStream.getline_last (comma_not_printed _), if_neg (ne_empty_of_stod hquantity)]
        | cons next fields => rw [TextStream.getline_field (comma_not_printed _)]
      have hnonempty : (ostreamDouble level.price).isEmpty = false := by
        simpa using ne_empty_of_stod hprice
      rw [cells, List.cons_append, List.cons_append, readLevels,
        TextStream.getline_field (comma_not_printed _)]
      dsimp only
      rw [hlast]
      dsimp only
      rw [hnonempty, if_neg Bool.false_ne_true, hprice, hquantity]
      dsimp only [bind, Except.bind]
      rw [hrest]
      dsimp only [pure, Except.pure]
      rw [if_pos hpositive, List.length_cons, Nat.succ_sub_succ]

/-! ### A row -/

theorem cells_columns (n : ℕ) (levels : List PriceLevel) :
    (cells n levels).flatMap (fun cell => ',' :: cell.toList) =
      (List.range n).flatMap fun i => (columns levels[i]?).toList := by
  induction n generalizing levels with
  | zero => rfl
  | succ n ih =>
    rw [List.range_succ_eq_map, List.flatMap_cons, List.flatMap_map]
    cases levels with
    | nil =>
      rw [cells, List.flatMap_cons, List.flatMap_cons, ih []]
      rfl
    | cons level levels =>
      rw [cells, List.flatMap_cons, List.flatMap_cons, ih levels]
      simp [columns]

theorem levelColumns_toList (levels : List PriceLevel) :
    (levelColumns levels).toList = (cells 20 levels).flatMap fun cell => ',' :: cell.toList := by
  rw [levelColumns, String.toList_join, List.flatMap_map, cells_columns]

theorem csvRow_toList (snapshot : OrderBookSnapshot) (timestampMs : UInt64) :
    (csvRow snapshot timestampMs).toList =
      TextStream.fieldsText ',' (Nat.repr timestampMs.toNat :: snapshot.exchange.toString ::
        snapshot.pair :: (cells 20 snapshot.bids ++ cells 20 snapshot.asks)) := by
  rw [TextStream.fieldsText_cons, List.flatMap_cons, List.flatMap_cons, List.flatMap_append, csvRow]
  simp [String.toList_append, levelColumns_toList]

/-- A snapshot with at most 20 levels a side whose row can be told apart again. -/
structure Recordable (snapshot : OrderBookSnapshot) : Prop where
  bids_length : snapshot.bids.length ≤ 20
  asks_length : snapshot.asks.length ≤ 20
  bids : ∀ level ∈ snapshot.bids, Printable level
  asks : ∀ level ∈ snapshot.asks, Printable level
  comma : ',' ∉ snapshot.pair.toList
  newline : '\n' ∉ snapshot.pair.toList

theorem cells_succ (n : ℕ) (levels : List PriceLevel) :
    ∃ cell rest, cells (n + 1) levels = cell :: rest := by
  cases levels with
  | nil => exact ⟨_, _, rfl⟩
  | cons level levels => exact ⟨_, _, rfl⟩

/-- What the loop over the asks finds behind the columns of the bids. -/
theorem readLevels_asks {bids asks : List PriceLevel} (hasks : asks.length ≤ 20)
    (hbids : bids.length ≤ 20) (h : ∀ level ∈ asks, Printable level) :
    ∃ after, readLevels 20 (.atFields ',' (cells (20 - bids.length - 1) [] ++ cells 20 asks)) =
      .ok (if 19 ≤ bids.length then asks else [], after) := by
  by_cases hfull : 19 ≤ bids.length
  · have hnone : 20 - bids.length - 1 = 0 := by omega
    have hread := readLevels_cells hasks h []
    rw [List.append_nil] at hread
    rw [hnone, if_pos hfull]
    exact ⟨_, hread⟩
  · obtain ⟨k, hk⟩ : ∃ k, 20 - bids.length - 1 = k + 1 := ⟨18 - bids.length, by omega⟩
    rw [hk, if_neg hfull]
    exact ⟨_, readLevels_empty 19 (cells k [] ++ cells 20 asks)⟩

theorem parseRow_csvRow {snapshot : OrderBookSnapshot} (h : Recordable snapshot)
    (timestampMs : UInt64) :
    parseRow (csvRow snapshot timestampMs) =
      (exchangeFromString snapshot.exchange.toString).map fun exchange =>
        { timestampMs, exchange, pair := snapshot.pair, bids := snapshot.bids
          asks := if 19 ≤ snapshot.bids.length then snapshot.asks else [] } := by
  have hstream : TextStream.ofString (csvRow snapshot timestampMs) =
      .atFields ',' (Nat.repr timestampMs.toNat :: snapshot.exchange.toString :: snapshot.pair ::
        (cells 20 snapshot.bids ++ cells 20 snapshot.asks)) := by
    rw [TextStream.ofString, csvRow_toList]
    rfl
  have hts : ',' ∉ (Nat.repr timestampMs.toNat).toList := fun hmem =>
    absurd (isDigit_repr hmem) (by decide)
  have hexch : ',' ∉ snapshot.exchange.toString.toList := by
    cases snapshot.exchange <;> decide
  obtain ⟨cell, rest, hcells⟩ := cells_succ 19 snapshot.bids
  have hpair : (TextStream.atFields ',' (snapshot.pair ::
      (cells 20 snapshot.bids ++ cells 20 snapshot.asks))).getline ',' snapshot.exchange.toString =
        (true, snapshot.pair, .atFields ',' (cells 20 snapshot.bids ++ cells 20 snapshot.asks)) := by
    rw [hcells, List.cons_append, TextStream.getline_field h.comma]
  obtain ⟨after, hasks⟩ := readLevels_asks h.asks_length h.bids_length h.asks
  unfold parseRow
  rw [hstream, TextStream.getline_field hts]
  dsimp only
  rw [stoull_repr, TextStream.getline_field hexch]
  cases exchangeFromString snapshot.exchange.toString with
  | error e => rfl
  | ok exchange =>
    simp only [bind, Except.bind, Except.map, hpair, readLevels_cells h.bids_length h.bids, hasks]

/-! ### A file -/

/-- The snapshot as it should be read back. -/
def historical (saved : OrderBookSnapshot × UInt64) : HistoricalSnapshot :=
  { timestampMs := saved.2, exchange := saved.1.exchange, pair := saved.1.pair
    bids := saved.1.bids, asks := saved.1.asks }

/-- The reader knows the exchange, and finds the asks if there are any. -/
def Reloads (snapshot : OrderBookSnapshot) : Prop :=
  snapshot.exchange ≠ .count ∧ (19 ≤ snapshot.bids.length ∨ snapshot.asks = [])

instance (snapshot : OrderBookSnapshot) : Decidable (Reloads snapshot) :=
  inferInstanceAs (Decidable (_ ∧ _))

theorem parseRow_iff {saved : OrderBookSnapshot × UInt64} (h : Recordable saved.1) :
    parseRow (csvRow saved.1 saved.2) = .ok (historical saved) ↔ Reloads saved.1 := by
  obtain ⟨snapshot, timestampMs⟩ := saved
  rw [parseRow_csvRow h, Reloads]
  by_cases hexch : snapshot.exchange = .count
  · rw [hexch]
    refine ⟨fun hread => ?_, fun hreloads => absurd rfl hreloads.1⟩
    have hread' : (Except.error "Unknown exchange: COUNT" : Except String HistoricalSnapshot) = _ := hread
    cases hread'
  · rw [exchangeFromString_toString hexch]
    simp only [Except.map, historical, Except.ok.injEq, HistoricalSnapshot.mk.injEq, true_and, ne_eq,
      hexch, not_false_iff]
    constructor
    · intro hasks
      by_cases hfull : 19 ≤ snapshot.bids.length
      · exact .inl hfull
      · rw [if_neg hfull] at hasks
        exact .inr hasks.symm
    · intro hreloads
      split
      · rfl
      next hfew => exact (hreloads.resolve_left hfew).symm

theorem mapM_eq_ok_iff {α β γ : Type} {f : β → Except String γ} {text : α → β} {g : α → γ}
    {xs : List α} :
    (xs.map text).mapM f = .ok (xs.map g) ↔ ∀ x ∈ xs, f (text x) = .ok (g x) := by
  induction xs with
  | nil => simp [pure, Except.pure]
  | cons x xs ih =>
    rw [List.map_cons, List.mapM_cons, List.map_cons, List.forall_mem_cons, ← ih]
    cases hx : f (text x) with
    | error e => simp [bind, Except.bind]
    | ok y =>
      cases hxs : (xs.map text).mapM f with
      | error e => simp [bind, Except.bind]
      | ok ys => simp [bind, Except.bind, pure, Except.pure]

def saveRows (directory : String) (rows : List (OrderBookSnapshot × UInt64)) : Files :=
  rows.foldl (fun files saved => appendRow directory files saved.1 saved.2) fun _ => none

/-- The files after the calls, each with what the system does with its file. -/
def saveAll (directory : String) (calls : List (Opening × OrderBookSnapshot × UInt64)) : Files :=
  calls.foldl (fun files call => saveSnapshotCsv directory call.1 files call.2.1 call.2.2) fun _ => none

def written (calls : List (Opening × OrderBookSnapshot × UInt64)) :
    List (OrderBookSnapshot × UInt64) :=
  (calls.filter (·.1 = .opened)).map Prod.snd

/-- A call whose file cannot be opened leaves nothing. -/
theorem saveAll_eq (directory : String) (calls : List (Opening × OrderBookSnapshot × UInt64)) :
    saveAll directory calls = saveRows directory (written calls) := by
  induction calls using List.reverseRecOn with
  | nil => rfl
  | append_singleton calls call ih =>
    obtain ⟨opening, saved⟩ := call
    rw [saveAll, List.foldl_append, written, List.filter_append, List.map_append, saveRows,
      List.foldl_append]
    rw [saveAll, written, saveRows] at ih
    cases opening with
    | unopened => exact ih
    | opened => exact congrArg (fun files => appendRow directory files saved.1 saved.2) ih

def savedTo (directory path : String) (saves : List (OrderBookSnapshot × UInt64)) :
    List (OrderBookSnapshot × UInt64) :=
  saves.filter fun saved => csvFilename directory saved.1 = path

theorem saveRows_content (directory path : String) (saves : List (OrderBookSnapshot × UInt64)) :
    (saveRows directory saves path).map String.toList =
      if savedTo directory path saves = [] then none
      else
        some ((csvHeader :: (savedTo directory path saves).map fun saved =>
          csvRow saved.1 saved.2).flatMap fun line => line.toList ++ ['\n']) := by
  induction saves using List.reverseRecOn with
  | nil => rfl
  | append_singleton saves saved ih =>
    have hfiles : saveRows directory (saves ++ [saved]) =
        appendRow directory (saveRows directory saves) saved.1 saved.2 := List.foldl_append ..
    rw [hfiles, appendRow, savedTo, List.filter_append, List.filter_singleton]
    by_cases hpath : csvFilename directory saved.1 = path
    · rw [hpath, Function.update_self, decide_eq_true rfl, cond_true, if_neg (by simp)]
      rw [savedTo] at ih
      cases hold : saveRows directory saves path with
      | none =>
        have hnone : saves.filter (fun saved => csvFilename directory saved.1 = path) = [] := by
          by_contra hne
          rw [hold, if_neg hne] at ih
          cases ih
        simp [hnone]
      | some content =>
        have hne : saves.filter (fun saved => csvFilename directory saved.1 = path) ≠ [] := by
          intro hnone
          rw [hold, if_pos hnone] at ih
          cases ih
        rw [hold, if_neg hne, Option.map_some, Option.some.injEq] at ih
        simp [ih]
    · rw [Function.update_of_ne (Ne.symm hpath), decide_eq_false hpath, cond_false, List.append_nil]
      exact ih

theorem columnNames_newline {side : String} (h : '\n' ∉ side.toList) :
    '\n' ∉ (columnNames side).toList := by
  have hindex : ∀ i : ℕ, '\n' ∉ (toString i).toList := fun i hmem =>
    absurd (isDigit_repr hmem) (by decide)
  unfold columnNames
  rw [String.toList_join, List.flatMap_map, List.mem_flatMap]
  rintro ⟨i, _, hmem⟩
  simp only [String.toList_append, List.mem_append, h, hindex, or_false] at hmem
  rcases hmem with (hmem | hmem) | hmem
  · exact absurd hmem (by decide)
  · exact absurd hmem (by decide)
  · exact absurd hmem (by decide)

theorem csvHeader_newline : '\n' ∉ csvHeader.toList := by
  unfold csvHeader
  simp only [String.toList_append, List.mem_append, not_or]
  exact ⟨⟨by decide, columnNames_newline (by decide)⟩, columnNames_newline (by decide)⟩

theorem cells_newline (n : ℕ) (levels : List PriceLevel) :
    ∀ cell ∈ cells n levels, '\n' ∉ cell.toList := by
  induction n generalizing levels with
  | zero => exact List.forall_mem_nil _
  | succ n ih =>
    have hempty : '\n' ∉ ("" : String).toList := by decide
    cases levels with
    | nil => exact List.forall_mem_cons.mpr ⟨hempty, List.forall_mem_cons.mpr ⟨hempty, ih []⟩⟩
    | cons level levels =>
      exact List.forall_mem_cons.mpr ⟨newline_not_printed _,
        List.forall_mem_cons.mpr ⟨newline_not_printed _, ih levels⟩⟩

theorem csvRow_newline {snapshot : OrderBookSnapshot} (h : Recordable snapshot)
    (timestampMs : UInt64) : '\n' ∉ (csvRow snapshot timestampMs).toList := by
  have hts : '\n' ∉ (Nat.repr timestampMs.toNat).toList := fun hmem =>
    absurd (isDigit_repr hmem) (by decide)
  have hexch : '\n' ∉ snapshot.exchange.toString.toList := by
    cases snapshot.exchange <;> decide
  rw [csvRow_toList]
  refine TextStream.not_mem_fieldsText (by decide) ?_
  simp only [List.forall_mem_cons, List.forall_mem_append]
  exact ⟨hts, hexch, h.newline, cells_newline 20 snapshot.bids, cells_newline 20 snapshot.asks⟩

theorem csvRow_nonempty (snapshot : OrderBookSnapshot) (timestampMs : UInt64) :
    (csvRow snapshot timestampMs).isEmpty = false := by
  have hts : Nat.repr timestampMs.toNat ≠ "" := Nat.repr_ne_empty
  simp [csvRow, hts]

theorem loadCsv_saveRows (directory path : String) {saves : List (OrderBookSnapshot × UInt64)}
    (hsaves : ∀ saved ∈ saves, Recordable saved.1) :
    loadCsv (saveRows directory saves path) =
      ((savedTo directory path saves).map fun saved => csvRow saved.1 saved.2).mapM parseRow := by
  have hrows : ∀ saved ∈ savedTo directory path saves, Recordable saved.1 := fun saved hsaved =>
    hsaves saved (List.mem_filter.mp hsaved).1
  have hcontent := saveRows_content directory path saves
  generalize savedTo directory path saves = rows at hrows hcontent ⊢
  cases hfile : saveRows directory saves path with
  | none =>
    rw [hfile] at hcontent
    split at hcontent
    next hnil =>
      rw [hnil]
      rfl
    next => cases hcontent
  | some content =>
    rw [hfile, Option.map_some] at hcontent
    split at hcontent
    · cases hcontent
    · have hlines : ∀ line ∈ rows.map fun saved => csvRow saved.1 saved.2, '\n' ∉ line.toList := by
        intro line hline
        obtain ⟨saved, hsaved, rfl⟩ := List.mem_map.mp hline
        exact csvRow_newline (hrows saved hsaved) saved.2
      have hnonempty : ∀ line ∈ rows.map fun saved => csvRow saved.1 saved.2,
          (!line.isEmpty) = true := by
        intro line hline
        obtain ⟨saved, _, rfl⟩ := List.mem_map.mp hline
        rw [csvRow_nonempty]
        rfl
      have hstream : TextStream.ofString content = { rest := content.toList } := rfl
      rw [loadCsv, hstream, Option.some.inj hcontent, List.flatMap_cons, List.append_assoc,
        List.singleton_append, TextStream.getline_line csvHeader_newline]
      dsimp only
      rw [TextStream.lines_terminated hlines, List.filter_eq_self.mpr hnonempty]

theorem saveRows_reload_iff (directory path : String) {rows : List (OrderBookSnapshot × UInt64)}
    (hrows : ∀ saved ∈ rows, Recordable saved.1) :
    loadCsv (saveRows directory rows path) = .ok ((savedTo directory path rows).map historical) ↔
      ∀ saved ∈ savedTo directory path rows, Reloads saved.1 := by
  rw [loadCsv_saveRows directory path hrows, mapM_eq_ok_iff]
  exact forall₂_congr fun saved hsaved => parseRow_iff (hrows saved (List.mem_filter.mp hsaved).1)

/-- A file is read back as the snapshots that were written to it, with their
timestamps and in their order, exactly when every one of them reloads. -/
theorem reload_iff (directory path : String) (calls : List (Opening × OrderBookSnapshot × UInt64))
    (hwritten : ∀ saved ∈ written calls, Recordable saved.1) :
    loadCsv (saveAll directory calls path) =
        .ok ((savedTo directory path (written calls)).map historical) ↔
      ∀ saved ∈ savedTo directory path (written calls), Reloads saved.1 := by
  rw [saveAll_eq]
  exact saveRows_reload_iff directory path hwritten

/-! ### A book with few bids -/

def bidsAndAsks (bids asks : ℕ) : OrderBookSnapshot :=
  { exchange := .okx, pair := "BTC-USDT", bids := List.replicate bids ⟨199 / 2, 2⟩
    asks := List.replicate asks ⟨100, 1 / 4⟩ }

theorem bidsAndAsks_recordable {bids asks : ℕ} (hbids : bids ≤ 20) (hasks : asks ≤ 20) :
    Recordable (bidsAndAsks bids asks) where
  bids_length := by simpa [bidsAndAsks] using hbids
  asks_length := by simpa [bidsAndAsks] using hasks
  bids level hlevel := by
    rw [List.eq_of_mem_replicate hlevel]
    exact ⟨by norm_num, by decide +kernel, by decide +kernel⟩
  asks level hlevel := by
    rw [List.eq_of_mem_replicate hlevel]
    exact ⟨by norm_num, by decide +kernel, by decide +kernel⟩
  comma := show ',' ∉ ("BTC-USDT" : String).toList by decide
  newline := show '\n' ∉ ("BTC-USDT" : String).toList by decide

/-- The second call cannot open its file. -/
def deepBooks : List (Opening × OrderBookSnapshot × UInt64) :=
  [(.opened, bidsAndAsks 19 3, 1000), (.unopened, bidsAndAsks 20 1, 1500),
    (.opened, bidsAndAsks 4 0, 2000)]

theorem deepBooks_recordable : ∀ saved ∈ written deepBooks, Recordable saved.1 := by
  intro saved hsaved
  have hwritten : written deepBooks = [(bidsAndAsks 19 3, 1000), (bidsAndAsks 4 0, 2000)] := rfl
  rw [hwritten] at hsaved
  simp only [List.mem_cons, List.not_mem_nil, or_false] at hsaved
  rcases hsaved with rfl | rfl
  · exact bidsAndAsks_recordable (by decide) (by decide)
  · exact bidsAndAsks_recordable (by decide) (by decide)

theorem deepBooks_reload :
    loadCsv (saveAll "data" deepBooks "data/OKX_BTC-USDT.csv") =
      .ok [historical (bidsAndAsks 19 3, 1000), historical (bidsAndAsks 4 0, 2000)] :=
  (reload_iff "data" "data/OKX_BTC-USDT.csv" deepBooks deepBooks_recordable).mpr (by decide)

theorem shallowBook_losesAsks :
    loadCsv (saveAll "data" [(.opened, bidsAndAsks 1 1, 1000)] "data/OKX_BTC-USDT.csv") =
        .ok [{ historical (bidsAndAsks 1 1, 1000) with asks := [] }] ∧
      (historical (bidsAndAsks 1 1, 1000)).asks = [⟨100, 1 / 4⟩] := by
  have hrecordable := bidsAndAsks_recordable (show 1 ≤ 20 by decide) (show 1 ≤ 20 by decide)
  refine ⟨?_, rfl⟩
  have hrow : saveAll "data" [(.opened, bidsAndAsks 1 1, 1000)] =
      saveRows "data" [(bidsAndAsks 1 1, 1000)] := rfl
  rw [hrow, loadCsv_saveRows "data" "data/OKX_BTC-USDT.csv" (List.forall_mem_singleton.mpr hrecordable)]
  show [csvRow (bidsAndAsks 1 1) 1000].mapM parseRow = _
  rw [List.mapM_cons, List.mapM_nil, parseRow_csvRow hrecordable,
    exchangeFromString_toString (show (bidsAndAsks 1 1).exchange ≠ .count by decide)]
  rfl

end CryptoArbBot.DataLoader
