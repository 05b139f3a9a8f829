import CryptoArbBot.OrderBook.Book

/-!
# What a writer call publishes and what a reader makes of it

The view of the shared fields is the list of top levels on each side and the
update time. Every writer call that is not ignored takes the view to the first
twenty levels of its new sides, with nothing changed before the first
increment. A reader's loop body, executed on one view, computes its answer from
that view alone.
-/

namespace CryptoArbBot
open Seqlock

structure BookView where
  bids : List PriceLevel
  asks : List PriceLevel
  updated : TimePoint

def TopOfBook.view (m : TopOfBook) : BookView :=
  ⟨((List.finRange 20).take m.numTopBids).map m.topBids,
    ((List.finRange 20).take m.numTopAsks).map m.topAsks, m.lastUpdateTime⟩

def OrderBook.view (b : OrderBook) : BookView :=
  ⟨b.bids.take 20, b.asks.take 20, b.top.lastUpdateTime⟩

/-! ### Filling an array in index order -/

section Fill
variable {ι α : Type*} [DecidableEq ι]

theorem foldl_update_of_notMem (is : List ι) (xs : List α) (t : ι → α) {k : ι} (hk : k ∉ is) :
    (is.zip xs).foldl (fun t p => Function.update t p.1 p.2) t k = t k := by
  induction is generalizing xs t with
  | nil => rfl
  | cons i is ih =>
    obtain ⟨hki, hkis⟩ := not_or.mp (List.mem_cons.not.mp hk)
    cases xs with
    | nil => rfl
    | cons x xs =>
      rw [List.zip_cons_cons, List.foldl_cons, ih xs _ hkis, Function.update_of_ne hki]

theorem map_foldl_update (is : List ι) (hnd : is.Nodup) (xs : List α) (t : ι → α) :
    (is.take xs.length).map ((is.zip xs).foldl (fun t p => Function.update t p.1 p.2) t) =
      xs.take is.length := by
  induction is generalizing xs t with
  | nil => simp
  | cons i is ih =>
    obtain ⟨hi, hnd⟩ := List.nodup_cons.mp hnd
    cases xs with
    | nil => rfl
    | cons x xs =>
      simp only [List.length_cons, List.take_succ_cons, List.map_cons, List.zip_cons_cons,
        List.foldl_cons]
      rw [foldl_update_of_notMem is xs _ hi, Function.update_self, ih hnd]

end Fill

theorem foldl_topBids (ps : List (Fin 20 × PriceLevel)) (m : TopOfBook) :
    (ps.map fun (p : Fin 20 × PriceLevel) (m : TopOfBook) =>
        { m with topBids := Function.update m.topBids p.1 p.2 }).foldl (fun m f => f m) m =
      { m with topBids := ps.foldl (fun t p => Function.update t p.1 p.2) m.topBids } := by
  induction ps generalizing m with
  | nil => rfl
  | cons p ps ih => rw [List.map_cons, List.foldl_cons, ih, List.foldl_cons]

theorem foldl_topAsks (ps : List (Fin 20 × PriceLevel)) (m : TopOfBook) :
    (ps.map fun (p : Fin 20 × PriceLevel) (m : TopOfBook) =>
        { m with topAsks := Function.update m.topAsks p.1 p.2 }).foldl (fun m f => f m) m =
      { m with topAsks := ps.foldl (fun t p => Function.update t p.1 p.2) m.topAsks } := by
  induction ps generalizing m with
  | nil => rfl
  | cons p ps ih => rw [List.map_cons, List.foldl_cons, ih, List.foldl_cons]

theorem map_fill (xs : List PriceLevel) (t : Fin 20 → PriceLevel) :
    ((List.finRange 20).take (min 20 xs.length)).map
      (((List.finRange 20).zip xs).foldl (fun t p => Function.update t p.1 p.2) t) =
      xs.take 20 := by
  have h := map_foldl_update (List.finRange 20) (List.nodup_finRange 20) xs t
  rw [List.length_finRange] at h
  rw [← h, ← List.take_take, List.take_of_length_le (by simp)]

theorem foldl_syncTopLevels (bids asks : List PriceLevel) (m : TopOfBook) :
    (syncTopLevels bids asks).foldl (fun m f => f m) m =
      { m with
        numTopBids := min 20 bids.length
        topBids := ((List.finRange 20).zip bids).foldl (fun t p => Function.update t p.1 p.2) m.topBids
        numTopAsks := min 20 asks.length
        topAsks :=
          ((List.finRange 20).zip asks).foldl (fun t p => Function.update t p.1 p.2) m.topAsks } := by
  simp only [syncTopLevels, List.foldl_append, List.foldl_cons, List.cons_append, foldl_topBids,
    foldl_topAsks]

theorem syncTopLevels_view (bids asks : List PriceLevel) (m : TopOfBook) :
    ((syncTopLevels bids asks).foldl (fun m f => f m) m).view =
      ⟨bids.take 20, asks.take 20, m.lastUpdateTime⟩ := by
  simp only [foldl_syncTopLevels, TopOfBook.view, map_fill]

/-! ### Writers -/

theorem runStores_append (m : TopOfBook) (ops ops' : List (WriteOp TopOfBook)) :
    runStores m (ops ++ ops') = runStores (runStores m ops) ops' :=
  List.foldl_append ..

theorem runStores_map_store (m : TopOfBook) (fs : List (TopOfBook → TopOfBook)) :
    runStores m (fs.map .store) = fs.foldl (fun m f => f m) m := by
  induction fs generalizing m with
  | nil => rfl
  | cons f fs ih => exact ih (f m)

theorem runStores_publish (m : TopOfBook) (bids asks : List PriceLevel) (sequenceId : UInt64)
    (now : TimePoint) :
    runStores m (publish bids asks sequenceId now) =
      (syncTopLevels bids asks).foldl (fun m f => f m)
        { m with lastSequenceId := sequenceId, lastUpdateTime := now } := by
  rw [publish, runStores_append, runStores_append, runStores_map_store]
  rfl

theorem publication_publish (bids asks : List PriceLevel) (sequenceId : UInt64) (now : TimePoint) :
    Publication TopOfBook.view ⟨bids.take 20, asks.take 20, now⟩
      (publish bids asks sequenceId now) := by
  refine ⟨[fun m => { m with lastSequenceId := sequenceId }],
    (fun m => { m with lastUpdateTime := now }) :: syncTopLevels bids asks, ?_, ?_, ?_⟩
  · simp [publish]
  · intro f hf m
    rw [List.mem_singleton.mp hf]
    rfl
  · intro m
    exact syncTopLevels_view bids asks _

theorem install_view (b : OrderBook) (bids asks : List PriceLevel) (sequenceId : UInt64)
    (now : TimePoint) :
    (b.install bids asks sequenceId now).1.view = ⟨bids.take 20, asks.take 20, now⟩ := by
  simp only [OrderBook.install, OrderBook.view, runStores_publish, foldl_syncTopLevels]

theorem install_top_view (b : OrderBook) (bids asks : List PriceLevel) (sequenceId : UInt64)
    (now : TimePoint) :
    (b.install bids asks sequenceId now).1.top.view = ⟨bids.take 20, asks.take 20, now⟩ := by
  simp only [OrderBook.install, runStores_publish, syncTopLevels_view]

theorem install_lastSequenceId (b : OrderBook) (bids asks : List PriceLevel) (sequenceId : UInt64)
    (now : TimePoint) :
    (b.install bids asks sequenceId now).1.top.lastSequenceId = sequenceId := by
  simp only [OrderBook.install, runStores_publish, foldl_syncTopLevels]

theorem start_cases (std : StdSort PriceLevel) (call : BookCall) (b : OrderBook) :
    b.start std call = (b, []) ∨
      ∃ bids asks sequenceId now, b.start std call = b.install bids asks sequenceId now := by
  cases call with
  | applySnapshot bids asks sequenceId now => exact Or.inr ⟨_, _, _, _, rfl⟩
  | applyDelta bids asks sequenceId now =>
    by_cases hstale : sequenceId ≠ 0 ∧ sequenceId ≤ b.top.lastSequenceId
    · exact Or.inl (if_pos hstale)
    · exact Or.inr ⟨_, _, _, _, if_neg hstale⟩

theorem disciplined_start (std : StdSort PriceLevel) :
    Disciplined TopOfBook.view OrderBook.view fun call b => b.start std call := by
  intro call b
  rcases start_cases std call b with hgive | ⟨bids, asks, sequenceId, now, hinstall⟩
  · exact Or.inl hgive
  · refine Or.inr ?_
    dsimp only
    rw [hinstall, install_view]
    exact publication_publish bids asks sequenceId now

/-- The arrays mirror the vectors. -/
def OrderBook.Mirrored (b : OrderBook) : Prop := b.top.view = b.view

theorem new_mirrored (exchange : Exchange) (pair : String) (now : TimePoint) :
    (OrderBook.new exchange pair now).Mirrored := rfl

theorem apply_mirrored (std : StdSort PriceLevel) {b : OrderBook} (call : BookCall)
    (h : b.Mirrored) : (b.apply std call).Mirrored := by
  unfold OrderBook.apply
  rcases start_cases std call b with hgive | ⟨bids, asks, sequenceId, now, hinstall⟩
  · rw [hgive]
    exact h
  · rw [hinstall]
    exact (install_top_view b bids asks sequenceId now).trans
      (install_view b bids asks sequenceId now).symm

/-! ### Readers -/

theorem view_bids_length {m : TopOfBook} {v : BookView} (hm : m.view = v) :
    v.bids.length = min m.numTopBids 20 := by
  simp [← hm, TopOfBook.view]

theorem view_asks_length {m : TopOfBook} {v : BookView} (hm : m.view = v) :
    v.asks.length = min m.numTopAsks 20 := by
  simp [← hm, TopOfBook.view]

theorem getElem?_topLevels (t : Fin 20 → PriceLevel) {n : ℕ} {i : Fin 20} (hi : i.val < n) :
    (((List.finRange 20).take n).map t)[i.val]? = some (t i) := by
  rw [List.getElem?_map, List.getElem?_take_of_lt hi, List.getElem?_eq_getElem (by simp)]
  simp

theorem view_bids_getElem? {m : TopOfBook} {v : BookView} (hm : m.view = v) {i : Fin 20}
    (hi : i.val < v.bids.length) : v.bids[i.val]? = some (m.topBids i) := by
  rw [view_bids_length hm] at hi
  rw [← hm]
  exact getElem?_topLevels _ (by omega)

theorem view_asks_getElem? {m : TopOfBook} {v : BookView} (hm : m.view = v) {i : Fin 20}
    (hi : i.val < v.asks.length) : v.asks[i.val]? = some (m.topAsks i) := by
  rw [view_asks_length hm] at hi
  rw [← hm]
  exact getElem?_topLevels _ (by omega)

theorem bestBid_evals {v : BookView} {l0 l : Option ℚ}
    (h : Evals TopOfBook.view v (bestBid.body l0) l) : l = v.bids.head?.map (·.price) := by
  obtain ⟨m, hm, h⟩ := h.of_read
  have hlen := view_bids_length hm
  by_cases hn : m.numTopBids > 0
  · rw [if_pos hn] at h
    obtain ⟨m', hm', h⟩ := h.of_read
    have h0 := view_bids_getElem? hm' (i := 0) (by simp only [Fin.val_zero]; omega)
    rw [h.of_done, List.head?_eq_getElem?]
    simpa using congrArg (Option.map (·.price)) h0.symm
  · rw [if_neg hn] at h
    have hnil : v.bids = [] := List.eq_nil_of_length_eq_zero (by omega)
    rw [h.of_done, hnil]
    rfl

theorem bestAsk_evals {v : BookView} {l0 l : Option ℚ}
    (h : Evals TopOfBook.view v (bestAsk.body l0) l) : l = v.asks.head?.map (·.price) := by
  obtain ⟨m, hm, h⟩ := h.of_read
  have hlen := view_asks_length hm
  by_cases hn : m.numTopAsks > 0
  · rw [if_pos hn] at h
    obtain ⟨m', hm', h⟩ := h.of_read
    have h0 := view_asks_getElem? hm' (i := 0) (by simp only [Fin.val_zero]; omega)
    rw [h.of_done, List.head?_eq_getElem?]
    simpa using congrArg (Option.map (·.price)) h0.symm
  · rw [if_neg hn] at h
    have hnil : v.asks = [] := List.eq_nil_of_length_eq_zero (by omega)
    rw [h.of_done, hnil]
    rfl

def BookView.mid (v : BookView) : Option ℚ :=
  match v.bids, v.asks with
  | bid :: _, ask :: _ => some ((bid.price + ask.price) / 2)
  | _, _ => none

theorem midPrice_evals {exchange : Exchange} {pair : String} {v : BookView} {l0 l : MidLocals}
    (h : Evals TopOfBook.view v ((midPrice exchange pair).body l0) l) :
    (midPrice exchange pair).finish l =
      match v.mid with
      | some mid => .ok mid
      | none => .error ("Cannot compute mid price: empty order book for " ++ exchange.toString ++
          ":" ++ pair) := by
  obtain ⟨m, hm, h⟩ := h.of_read
  have hlen := view_bids_length hm
  cases hbids : v.bids with
  | nil =>
    have hn : ¬ m.numTopBids > 0 := by simp only [hbids, List.length_nil] at hlen; omega
    rw [if_neg hn] at h
    simp [h.of_done, midPrice, BookView.mid, hbids]
  | cons bid bids =>
    have hn : m.numTopBids > 0 := by simp only [hbids, List.length_cons] at hlen; omega
    rw [if_pos hn] at h
    obtain ⟨m', hm', h⟩ := h.of_read
    have hlen' := view_asks_length hm'
    cases hasks : v.asks with
    | nil =>
      have hn' : ¬ m'.numTopAsks > 0 := by simp only [hasks, List.length_nil] at hlen'; omega
      rw [if_neg hn'] at h
      simp [h.of_done, midPrice, BookView.mid, hbids, hasks]
    | cons ask asks =>
      have hn' : m'.numTopAsks > 0 := by simp only [hasks, List.length_cons] at hlen'; omega
      rw [if_pos hn'] at h
      obtain ⟨m1, hm1, h⟩ := h.of_read
      obtain ⟨m2, hm2, h⟩ := h.of_read
      have h1 := view_bids_getElem? hm1 (i := 0) (by simp [hbids])
      have h2 := view_asks_getElem? hm2 (i := 0) (by simp [hasks])
      simp only [hbids, Fin.val_zero, List.getElem?_cons_zero, Option.some.injEq] at h1
      simp only [hasks, Fin.val_zero, List.getElem?_cons_zero, Option.some.injEq] at h2
      simp [h.of_done, midPrice, BookView.mid, hbids, hasks, h1, h2]

theorem isStale_evals {threshold : ℤ} {now : TimePoint} {v : BookView} {l0 l : TimePoint}
    (h : Evals TopOfBook.view v ((isStale threshold now).body l0) l) : l = v.updated := by
  obtain ⟨m, hm, h⟩ := h.of_read
  rw [h.of_done, ← hm]
  rfl

/-- The copy loop fills the positions it visits from the view and leaves the
others; the length of the vector does not change. -/
theorem copyLevels_evals {σ : Type} {v : BookView} (xs : List PriceLevel)
    {field : Fin 20 → TopOfBook → PriceLevel} {next : List PriceLevel → Body TopOfBook σ} {l : σ}
    (is : List (Fin 20)) (hfield : ∀ m, m.view = v → ∀ i ∈ is, xs[i.val]? = some (field i m))
    (vec : List PriceLevel) (h : Evals TopOfBook.view v (copyLevels field is vec next) l) :
    ∃ vec', Evals TopOfBook.view v (next vec') l ∧ vec'.length = vec.length ∧
      (∀ i ∈ is, i.val < vec.length ∧ vec'[i.val]? = xs[i.val]?) ∧
      ∀ k, (∀ i ∈ is, i.val ≠ k) → vec'[k]? = vec[k]? := by
  induction is generalizing vec with
  | nil => exact ⟨vec, h, rfl, by simp, fun _ _ => rfl⟩
  | cons i is ih =>
    obtain ⟨m, hm, h⟩ := h.of_read
    have hi := hfield m hm i (List.mem_cons_self ..)
    by_cases hlt : i.val < vec.length
    · rw [if_pos hlt] at h
      obtain ⟨vec', hnext, hlen, hin, hout⟩ :=
        ih (fun m hm j hj => hfield m hm j (List.mem_cons_of_mem _ hj)) _ h
      rw [List.length_set] at hlen hin
      refine ⟨vec', hnext, hlen, ?_, ?_⟩
      · intro j hj
        rcases List.mem_cons.mp hj with rfl | hj
        · refine ⟨hlt, ?_⟩
          by_cases hagain : j ∈ is
          · exact (hin j hagain).2
          · rw [hout j.val fun k hk hkj => hagain (Fin.ext hkj ▸ hk), List.getElem?_set_self hlt, hi]
        · exact hin j hj
      · intro k hk
        rw [hout k fun j hj => hk j (List.mem_cons_of_mem _ hj),
          List.getElem?_set_ne (hk i (List.mem_cons_self ..))]
    · rw [if_neg hlt] at h
      cases h

theorem mem_take_finRange {n : ℕ} {i : Fin 20} : i ∈ (List.finRange 20).take n ↔ i.val < n := by
  rw [List.mem_take_iff_getElem]
  constructor
  · intro h
    obtain ⟨k, hk, rfl⟩ := h
    simp only [List.getElem_finRange, Fin.val_cast]
    omega
  · intro hi
    exact ⟨i.val, by simp only [List.length_finRange]; omega, by simp⟩

theorem resize_copied (xs : List PriceLevel) {vec vec' : List PriceLevel} {nb : ℕ} (hnb : nb ≤ 20)
    (hlen : vec'.length = vec.length)
    (hin : ∀ i ∈ (List.finRange 20).take nb, i.val < vec.length ∧ vec'[i.val]? = xs[i.val]?) :
    resize vec' nb = xs.take nb := by
  have hat : ∀ k < nb, k < vec'.length ∧ vec'[k]? = xs[k]? := by
    intro k hk
    have h := hin ⟨k, by omega⟩ (mem_take_finRange.mpr hk)
    rw [hlen]
    exact h
  have hle : nb ≤ vec'.length := by
    rcases Nat.eq_zero_or_pos nb with h0 | hpos
    · omega
    · have h := (hat (nb - 1) (by omega)).1
      omega
  have hpad : nb - vec'.length = 0 := by omega
  rw [resize, hpad, List.replicate_zero, List.append_nil]
  apply List.ext_getElem?
  intro k
  by_cases hk : k < nb
  · rw [List.getElem?_take_of_lt hk, List.getElem?_take_of_lt hk, (hat k hk).2]
  · rw [List.getElem?_take_eq_none (by omega), List.getElem?_take_eq_none (by omega)]

theorem snapshotLoop_evals {exchange : Exchange} {pair : String} {d : ℕ} (hd : d ≤ 20)
    {v : BookView} {l0 l : SnapshotLocals}
    (h : Evals TopOfBook.view v ((snapshotLoop exchange pair d).body l0) l) :
    l.bids = v.bids.take d ∧ l.asks = v.asks.take d ∧ l.localTimestamp = v.updated := by
  obtain ⟨_, _, h⟩ := h.of_read
  obtain ⟨mt, hmt, h⟩ := h.of_read
  obtain ⟨mb, hmb, h⟩ := h.of_read
  have hblen := view_bids_length hmb
  obtain ⟨bids, h, hbl, hbids, _⟩ := copyLevels_evals v.bids _
    (fun m hm i hi => view_bids_getElem? hm (by have := mem_take_finRange.mp hi; omega)) _ h
  obtain ⟨ma, hma, h⟩ := h.of_read
  have halen := view_asks_length hma
  obtain ⟨asks, h, hal, hasks, _⟩ := copyLevels_evals v.asks _
    (fun m hm i hi => view_asks_getElem? hm (by have := mem_take_finRange.mp hi; omega)) _ h
  have hb := resize_copied v.bids (by omega) hbl hbids
  have ha := resize_copied v.asks (by omega) hal hasks
  rw [h.of_done]
  refine ⟨hb.trans ?_, ha.trans ?_, ?_⟩
  · rw [List.take_eq_take_iff]
    omega
  · rw [List.take_eq_take_iff]
    omega
  · rw [← hmt]
    rfl

theorem copyLevels_eval {σ : Type} (mem : TopOfBook) (field : Fin 20 → TopOfBook → PriceLevel)
    (next : List PriceLevel → Body TopOfBook σ) (is : List (Fin 20)) (vec : List PriceLevel)
    (hin : ∀ i ∈ is, i.val < vec.length) :
    ∃ vec', vec'.length = vec.length ∧
      (copyLevels field is vec next).eval mem = (next vec').eval mem := by
  induction is generalizing vec with
  | nil => exact ⟨vec, rfl, rfl⟩
  | cons i is ih =>
    have hi : i.val < vec.length := hin i (List.mem_cons_self ..)
    obtain ⟨vec', hlen, heval⟩ := ih (vec.set i.val (field i mem)) (by
      intro j hj
      rw [List.length_set]
      exact hin j (List.mem_cons_of_mem _ hj))
    refine ⟨vec', by rw [hlen, List.length_set], ?_⟩
    simp only [copyLevels, Body.eval, hi, if_true, heval]

theorem snapshotLoop_eval (exchange : Exchange) (pair : String) (d : ℕ) (mem : TopOfBook) :
    ∃ l, ((snapshotLoop exchange pair d).body (snapshotLoop exchange pair d).init).eval mem =
      some l := by
  have hrange : ∀ n, ∀ i ∈ (List.finRange 20).take (min d n),
      i.val < (List.replicate d ({} : PriceLevel)).length := by
    intro n i hi
    have h := mem_take_finRange.mp hi
    rw [List.length_replicate]
    omega
  simp only [snapshotLoop, Body.eval]
  obtain ⟨bids, _, heval⟩ := copyLevels_eval mem (fun i m => m.topBids i) _ _ _ (hrange _)
  rw [heval]
  simp only [Body.eval]
  obtain ⟨asks, _, heval⟩ := copyLevels_eval mem (fun i m => m.topAsks i) _ _ _ (hrange _)
  rw [heval]
  exact ⟨_, rfl⟩

theorem snapshot_mirrored {b : OrderBook} (hb : b.Mirrored) {depth : ℤ} (hdepth : 0 ≤ depth) :
    ∃ snap, b.snapshot depth = some snap ∧ snap.exchange = b.exchange ∧ snap.pair = b.pair ∧
      snap.bids = b.bids.take (min depth 20).toNat ∧
      snap.asks = b.asks.take (min depth 20).toNat ∧
      snap.localTimestamp = b.top.lastUpdateTime := by
  obtain ⟨l, heval⟩ := snapshotLoop_eval b.exchange b.pair (min depth 20).toNat b.top
  have hev := evals_of_eval TopOfBook.view heval
  rw [hb] at hev
  obtain ⟨hbids, hasks, htime⟩ := snapshotLoop_evals (by omega) hev
  have hd : ¬ min depth 20 < 0 := by omega
  have hsnap : b.snapshot depth =
      some ((snapshotLoop b.exchange b.pair (min depth 20).toNat).finish l) := by
    simp only [OrderBook.snapshot, if_neg hd, Call.alone, heval, Option.map_some]
  refine ⟨_, hsnap, rfl, rfl, ?_, ?_, htime⟩
  · show l.bids = _
    rw [hbids]
    exact List.take_take.trans (by rw [min_eq_left (by omega)])
  · show l.asks = _
    rw [hasks]
    exact List.take_take.trans (by rw [min_eq_left (by omega)])

end CryptoArbBot
