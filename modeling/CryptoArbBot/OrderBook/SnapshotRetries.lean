import CryptoArbBot.OrderBook.Publication

/-!
# The retries of snapshot

The vectors of the result are made once, before the loop, and every pass that
loads the book shrinks them to the levels it found. A pass that finds more
levels than the one before it writes past their ends, and a last pass that takes
`continue` leaves them as the pass before it did.
-/

namespace CryptoArbBot
open Seqlock

/-- A pass of the loop takes `continue` on an odd counter, or loads each field it
needs once; `values` are the values it loads, whenever it loads them. -/
inductive Pass where
  | skipped
  | loaded (values : TopOfBook)

def Pass.values? : Pass → Option TopOfBook
  | .skipped => none
  | .loaded values => some values

section Loop
variable (exchange : Exchange) (pair : String) (depth : ℕ)

abbrev retryLoop : Call TopOfBook SnapshotLocals OrderBookSnapshot :=
  snapshotLoop exchange pair (min depth 20)

/-- `none` after a write outside a vector. -/
def Pass.run (l : SnapshotLocals) : Pass → Option SnapshotLocals
  | .skipped => some l
  | .loaded values => ((retryLoop exchange pair depth).body l).eval values

def runPasses (passes : List Pass) : Option SnapshotLocals :=
  passes.foldlM (Pass.run exchange pair depth) (retryLoop exchange pair depth).init

/-- The levels that the last pass has loaded, none if it loads nothing. -/
def lastLoaded (side : BookView → List PriceLevel) (passes : List Pass) : List PriceLevel :=
  ((passes.getLast?.bind Pass.values?).map fun values => (side values.view).take depth).getD []

/-- All writes are in range, and the result is what the last pass loaded. -/
def Traceless (passes : List Pass) : Prop :=
  ∃ l, runPasses exchange pair depth passes = some l ∧
    l.bids = lastLoaded depth BookView.bids passes ∧ l.asks = lastLoaded depth BookView.asks passes

end Loop

/-- The number of levels a pass copies. -/
def shownLevels (depth count : ℕ) : ℕ := min (min depth 20) count

/-- The vectors that a pass left with the levels of `before` have room for those of
`values`. -/
def Fits (depth : ℕ) (before values : TopOfBook) : Prop :=
  shownLevels depth values.numTopBids ≤ shownLevels depth before.numTopBids ∧
    shownLevels depth values.numTopAsks ≤ shownLevels depth before.numTopAsks

/-- The levels left in a vector by the passes that load. -/
def leftLevels (depth : ℕ) (count : TopOfBook → ℕ) (passes : List Pass) : ℕ :=
  ((passes.filterMap Pass.values?).getLast?.map fun values => shownLevels depth (count values)).getD
    (min depth 20)

/-- The last pass loads the book, or the vectors were left empty before it. -/
def EndsLoaded (depth : ℕ) (passes : List Pass) : Prop :=
  (passes.getLast?.bind Pass.values?).isSome = true ∨
    leftLevels depth TopOfBook.numTopBids passes = 0 ∧ leftLevels depth TopOfBook.numTopAsks passes = 0

def HasRoom (depth : ℕ) (l : SnapshotLocals) (values : TopOfBook) : Prop :=
  shownLevels depth values.numTopBids ≤ l.bids.length ∧
    shownLevels depth values.numTopAsks ≤ l.asks.length

/-! ### One pass -/

section Pass
variable {exchange : Exchange} {pair : String} {depth : ℕ}

theorem le_length_of_forall {n : ℕ} (hn : n ≤ 20) {vec : List PriceLevel}
    (h : ∀ i ∈ (List.finRange 20).take n, i.val < vec.length) : n ≤ vec.length := by
  cases n with
  | zero => exact Nat.zero_le _
  | succ n => exact h ⟨n, hn⟩ (mem_take_finRange.mpr (Nat.lt_succ_self n))

theorem copyLevels_room {σ : Type} {field : Fin 20 → TopOfBook → PriceLevel} {values : TopOfBook}
    {next : List PriceLevel → Body TopOfBook σ} {l : σ} (is : List (Fin 20)) (vec : List PriceLevel)
    (h : (copyLevels field is vec next).eval values = some l) :
    (∀ i ∈ is, i.val < vec.length) ∧ ∃ vec', (next vec').eval values = some l := by
  induction is generalizing vec with
  | nil => exact ⟨by simp, vec, h⟩
  | cons i is ih =>
    simp only [copyLevels, Body.eval] at h
    split at h
    next hi =>
      obtain ⟨hroom, hnext⟩ := ih _ h
      rw [List.length_set] at hroom
      exact ⟨List.forall_mem_cons.mpr ⟨hi, hroom⟩, hnext⟩
    next => cases h

theorem hasRoom_of_loaded {l l' : SnapshotLocals} {values : TopOfBook}
    (h : Pass.run exchange pair depth l (.loaded values) = some l') : HasRoom depth l values := by
  simp only [Pass.run, retryLoop, snapshotLoop, Body.eval] at h
  obtain ⟨hbids, bids, h⟩ := copyLevels_room _ _ h
  simp only [Body.eval] at h
  obtain ⟨hasks, _⟩ := copyLevels_room _ _ h
  unfold HasRoom shownLevels
  exact ⟨le_length_of_forall (by omega) hbids, le_length_of_forall (by omega) hasks⟩

theorem loaded_of_hasRoom (exchange : Exchange) (pair : String) {l : SnapshotLocals}
    {values : TopOfBook} (h : HasRoom depth l values) :
    ∃ l', Pass.run exchange pair depth l (.loaded values) = some l' := by
  have hrange : ∀ {n : ℕ} {vec : List PriceLevel}, n ≤ vec.length →
      ∀ i ∈ (List.finRange 20).take n, i.val < vec.length := by
    intro n vec hn i hi
    have hlt := mem_take_finRange.mp hi
    omega
  unfold HasRoom shownLevels at h
  simp only [Pass.run, retryLoop, snapshotLoop, Body.eval]
  obtain ⟨bids, _, heval⟩ := copyLevels_eval values (fun i m => m.topBids i) _ _ _ (hrange h.1)
  rw [heval]
  simp only [Body.eval]
  obtain ⟨asks, _, heval⟩ := copyLevels_eval values (fun i m => m.topAsks i) _ _ _ (hrange h.2)
  rw [heval]
  exact ⟨_, rfl⟩

theorem loaded_lists {l l' : SnapshotLocals} {values : TopOfBook}
    (h : Pass.run exchange pair depth l (.loaded values) = some l') :
    l'.bids = values.view.bids.take depth ∧ l'.asks = values.view.asks.take depth := by
  have hevals : Evals TopOfBook.view values.view ((retryLoop exchange pair depth).body l) l' :=
    evals_of_eval TopOfBook.view h
  obtain ⟨hbids, hasks, _⟩ := snapshotLoop_evals (Nat.min_le_right depth 20) hevals
  have hb := view_bids_length (m := values) rfl
  have ha := view_asks_length (m := values) rfl
  refine ⟨hbids.trans ?_, hasks.trans ?_⟩
  · rw [List.take_eq_take_iff]
    omega
  · rw [List.take_eq_take_iff]
    omega

theorem loaded_sizes {l l' : SnapshotLocals} {values : TopOfBook}
    (h : Pass.run exchange pair depth l (.loaded values) = some l') :
    l'.bids.length = shownLevels depth values.numTopBids ∧
      l'.asks.length = shownLevels depth values.numTopAsks := by
  obtain ⟨hbids, hasks⟩ := loaded_lists h
  have hb := view_bids_length (m := values) rfl
  have ha := view_asks_length (m := values) rfl
  unfold shownLevels
  constructor
  · rw [hbids, List.length_take]
    omega
  · rw [hasks, List.length_take]
    omega

end Pass

/-! ### All passes -/

/-- No pass of the rest writes out of range when each fits the one that loaded
before it and all fit the vectors as they are now. -/
theorem passes_in_range_iff (exchange : Exchange) (pair : String) (depth : ℕ) (passes : List Pass)
    (l : SnapshotLocals) :
    (∃ l', passes.foldlM (Pass.run exchange pair depth) l = some l') ↔
      (passes.filterMap Pass.values?).Pairwise (Fits depth) ∧
        ∀ values ∈ passes.filterMap Pass.values?, HasRoom depth l values := by
  induction passes generalizing l with
  | nil => simp
  | cons pass passes ih =>
    rw [List.foldlM_cons]
    cases pass with
    | skipped => exact ih l
    | loaded values =>
      rw [List.filterMap_cons_some (show Pass.values? (.loaded values) = some values from rfl),
        List.pairwise_cons, List.forall_mem_cons]
      constructor
      · intro h
        obtain ⟨l'', h⟩ := h
        obtain ⟨l', hpass, hrest⟩ := Option.bind_eq_some_iff.mp h
        obtain ⟨hpair, hroom⟩ := (ih l').mp ⟨l'', hrest⟩
        have hfirst : HasRoom depth l values := hasRoom_of_loaded hpass
        obtain ⟨hbids, hasks⟩ := loaded_sizes hpass
        have hfits : ∀ later ∈ passes.filterMap Pass.values?, Fits depth values later := by
          intro later hlater
          have hr := hroom later hlater
          unfold HasRoom at hr
          rwa [hbids, hasks] at hr
        refine ⟨⟨hfits, hpair⟩, hfirst, ?_⟩
        intro later hlater
        exact ⟨(hfits later hlater).1.trans hfirst.1, (hfits later hlater).2.trans hfirst.2⟩
      · intro h
        obtain ⟨⟨hfits, hpair⟩, hfirst, _⟩ := h
        obtain ⟨l', hpass⟩ := loaded_of_hasRoom exchange pair hfirst
        obtain ⟨hbids, hasks⟩ := loaded_sizes hpass
        obtain ⟨l'', hrest⟩ := (ih l').mpr ⟨hpair, fun later hlater => by
          unfold HasRoom
          rw [hbids, hasks]
          exact hfits later hlater⟩
        exact ⟨l'', Option.bind_eq_some_iff.mpr ⟨l', hpass, hrest⟩⟩

/-- The vectors have the sizes that the last pass which loaded left. -/
theorem passes_left {exchange : Exchange} {pair : String} {depth : ℕ} {passes : List Pass}
    {l : SnapshotLocals} (h : runPasses exchange pair depth passes = some l) :
    l.bids.length = leftLevels depth TopOfBook.numTopBids passes ∧
      l.asks.length = leftLevels depth TopOfBook.numTopAsks passes := by
  induction passes using List.reverseRecOn generalizing l with
  | nil =>
    cases h
    simp [leftLevels, retryLoop, snapshotLoop]
  | append_singleton passes pass ih =>
    rw [runPasses, List.foldlM_append] at h
    obtain ⟨l', hrun, hpass⟩ := Option.bind_eq_some_iff.mp h
    rw [List.foldlM_cons] at hpass
    obtain ⟨_, hpass, hnil⟩ := Option.bind_eq_some_iff.mp hpass
    cases hnil
    unfold leftLevels
    rw [List.filterMap_append]
    cases pass with
    | skipped =>
      cases hpass
      rw [List.filterMap_cons_none rfl, List.filterMap_nil, List.append_nil]
      exact ih hrun
    | loaded values =>
      rw [List.filterMap_cons_some (show Pass.values? (.loaded values) = some values from rfl),
        List.filterMap_nil, List.getLast?_concat]
      exact loaded_sizes hpass

/-- Retries leave no trace exactly when, from one pass that loads to any later
one, neither side shows more levels, and the last pass loads unless nothing is left. -/
theorem traceless_iff (exchange : Exchange) (pair : String) (depth : ℕ) (passes : List Pass) :
    Traceless exchange pair depth passes ↔
      (passes.filterMap Pass.values?).Pairwise (Fits depth) ∧ EndsLoaded depth passes := by
  have hinit : ∀ values, HasRoom depth (retryLoop exchange pair depth).init values := by
    intro values
    simp [HasRoom, shownLevels, retryLoop, snapshotLoop]
  have hrange := passes_in_range_iff exchange pair depth passes (retryLoop exchange pair depth).init
  constructor
  · intro h
    obtain ⟨l, hrun, hbids, hasks⟩ := h
    refine ⟨(hrange.mp ⟨l, hrun⟩).1, ?_⟩
    cases hlast : passes.getLast?.bind Pass.values? with
    | some values => exact .inl (by rw [hlast]; rfl)
    | none =>
      obtain ⟨hleftBids, hleftAsks⟩ := passes_left hrun
      rw [lastLoaded, hlast] at hbids hasks
      refine .inr ⟨?_, ?_⟩
      · rw [← hleftBids, hbids]
        rfl
      · rw [← hleftAsks, hasks]
        rfl
  · intro h
    obtain ⟨hfits, hend⟩ := h
    obtain ⟨l, hrun⟩ := hrange.mpr ⟨hfits, fun values _ => hinit values⟩
    refine ⟨l, hrun, ?_⟩
    cases hlast : passes.getLast?.bind Pass.values? with
    | none =>
      unfold EndsLoaded at hend
      rw [hlast] at hend
      obtain ⟨hbids, hasks⟩ := hend.resolve_left Bool.false_ne_true
      obtain ⟨hleftBids, hleftAsks⟩ := passes_left hrun
      rw [lastLoaded, lastLoaded, hlast]
      exact ⟨List.eq_nil_of_length_eq_zero (hleftBids.trans hbids),
        List.eq_nil_of_length_eq_zero (hleftAsks.trans hasks)⟩
    | some values =>
      obtain ⟨pass, hpass, hvalues⟩ := Option.bind_eq_some_iff.mp hlast
      cases pass with
      | skipped => cases hvalues
      | loaded values' =>
        cases hvalues
        obtain ⟨earlier, hpasses⟩ := List.getLast?_eq_some_iff.mp hpass
        rw [hpasses, List.foldlM_append] at hrun
        obtain ⟨l', _, hfinal⟩ := Option.bind_eq_some_iff.mp hrun
        rw [List.foldlM_cons] at hfinal
        obtain ⟨_, hloaded, hnil⟩ := Option.bind_eq_some_iff.mp hfinal
        cases hnil
        rw [lastLoaded, lastLoaded, hlast]
        exact loaded_lists hloaded

/-- The book is empty in the first pass and has one bid in the second. -/
def growingPasses : List Pass :=
  [.loaded { lastUpdateTime := 0 }, .skipped,
    .loaded { topBids := fun _ => ⟨100, 1⟩, numTopBids := 1, lastUpdateTime := 10 }]

theorem growingPasses_not_traceless : ¬ Traceless .okx "BTC-USDT" 5 growingPasses := by
  intro h
  obtain ⟨l, hrun, _⟩ := h
  have hnone : (runPasses .okx "BTC-USDT" 5 growingPasses).isNone = true := by decide +kernel
  rw [hrun] at hnone
  cases hnone

end CryptoArbBot
