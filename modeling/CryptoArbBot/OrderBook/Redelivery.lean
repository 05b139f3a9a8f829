import CryptoArbBot.OrderBook.Publication

/-!
# Deltas that are delivered again

A delta is dropped when its id is at most the last one that was let through. An
unnumbered delta is always let through and leaves the last id at 0, so numbered
deltas that were applied before it pass the check once more.
-/

namespace CryptoArbBot

def BookCall.sequenceId : BookCall → UInt64
  | .applySnapshot _ _ sequenceId _ | .applyDelta _ _ sequenceId _ => sequenceId

def BookCall.isDelta : BookCall → Bool
  | .applySnapshot .. => false
  | .applyDelta .. => true

/-- The early return of `apply_delta`. -/
abbrev StaleAt (last sequenceId : UInt64) : Prop := sequenceId ≠ 0 ∧ sequenceId ≤ last

theorem apply_delta_stale (std : StdSort PriceLevel) {b : OrderBook} (bids asks : List PriceLevel)
    {sequenceId : UInt64} (now : TimePoint) (h : StaleAt b.top.lastSequenceId sequenceId) :
    b.apply std (.applyDelta bids asks sequenceId now) = b :=
  congrArg Prod.fst (if_pos h)

theorem apply_delta_fresh (std : StdSort PriceLevel) {b : OrderBook} (bids asks : List PriceLevel)
    {sequenceId : UInt64} (now : TimePoint) (h : ¬ StaleAt b.top.lastSequenceId sequenceId) :
    b.apply std (.applyDelta bids asks sequenceId now) =
      (b.install (bids.foldl (updateVec · · true) b.bids) (asks.foldl (updateVec · · false) b.asks)
        sequenceId now).1 :=
  congrArg Prod.fst (if_neg h)

def lastIdAfter (last sequenceId : UInt64) : UInt64 :=
  if StaleAt last sequenceId then last else sequenceId

theorem apply_delta_lastSequenceId (std : StdSort PriceLevel) (b : OrderBook) {call : BookCall}
    (hdelta : call.isDelta = true) :
    (b.apply std call).top.lastSequenceId =
      lastIdAfter b.top.lastSequenceId call.sequenceId := by
  cases call with
  | applySnapshot bids asks sequenceId now => cases hdelta
  | applyDelta bids asks sequenceId now =>
    by_cases hstale : StaleAt b.top.lastSequenceId sequenceId
    · rw [apply_delta_stale std bids asks now hstale]
      exact (if_pos hstale).symm
    · rw [apply_delta_fresh std bids asks now hstale, install_lastSequenceId]
      exact (if_neg hstale).symm

theorem deltas_lastSequenceId (std : StdSort PriceLevel) {calls : List BookCall}
    (hdeltas : ∀ call ∈ calls, call.isDelta = true) (b : OrderBook) :
    (calls.foldl (OrderBook.apply std) b).top.lastSequenceId =
      (calls.map BookCall.sequenceId).foldl lastIdAfter b.top.lastSequenceId := by
  induction calls generalizing b with
  | nil => rfl
  | cons call calls ih =>
    have hcall := apply_delta_lastSequenceId std b (hdeltas call (List.mem_cons_self ..))
    rw [List.foldl_cons, ih (fun c hc => hdeltas c (List.mem_cons_of_mem _ hc)), hcall]
    rfl

/-- A delta changes the book exactly when it is not stale: an applied one moves
the last id. -/
theorem apply_delta_eq_iff (std : StdSort PriceLevel) (b : OrderBook) (bids asks : List PriceLevel)
    {sequenceId : UInt64} (hid : sequenceId ≠ 0) (now : TimePoint) :
    b.apply std (.applyDelta bids asks sequenceId now) = b ↔
      sequenceId ≤ b.top.lastSequenceId := by
  constructor
  · intro hsame
    have hdelta : (BookCall.applyDelta bids asks sequenceId now).isDelta = true := rfl
    have hlast := apply_delta_lastSequenceId std b hdelta
    rw [hsame] at hlast
    by_cases hstale : StaleAt b.top.lastSequenceId sequenceId
    · exact hstale.2
    · have hmoved : b.top.lastSequenceId = sequenceId := hlast.trans (if_neg hstale)
      rw [hmoved]
      exact UInt64.le_refl sequenceId
  · intro hle
    exact apply_delta_stale std bids asks now ⟨hid, hle⟩

/-! ### The last id of a run -/

/-- The ids that were delivered after the last unnumbered call. -/
def idsSinceUnnumbered (ids : List UInt64) : List UInt64 := ids.reverse.takeWhile (· ≠ 0)

theorem not_le_zero {s : UInt64} (hs : s ≠ 0) : ¬ s ≤ 0 := fun hle =>
  hs (UInt64.le_antisymm hle (UInt64.le_iff_toNat_le.mpr (Nat.zero_le _)))

theorem le_lastIdAfter_iff {last sequenceId s : UInt64} (hs : s ≠ 0) :
    s ≤ lastIdAfter last sequenceId ↔ sequenceId ≠ 0 ∧ (s ≤ sequenceId ∨ s ≤ last) := by
  unfold lastIdAfter
  by_cases h0 : sequenceId = 0
  · rw [if_neg fun h => h.1 h0, h0]
    simp [not_le_zero hs]
  · by_cases hle : sequenceId ≤ last
    · rw [if_pos ⟨h0, hle⟩]
      exact ⟨fun h => ⟨h0, .inr h⟩, fun h => h.2.elim (fun hid => UInt64.le_trans hid hle) id⟩
    · rw [if_neg fun h => hle h.2]
      have hlt : last ≤ sequenceId := UInt64.le_of_lt (UInt64.not_le.mp hle)
      exact ⟨fun h => ⟨h0, .inl h⟩, fun h => h.2.elim id fun hlast => UInt64.le_trans hlast hlt⟩

theorem le_foldl_lastIdAfter_iff {s : UInt64} (hs : s ≠ 0) (first : UInt64) (ids : List UInt64) :
    s ≤ ids.foldl lastIdAfter first ↔ ∃ id ∈ idsSinceUnnumbered (first :: ids), s ≤ id := by
  induction ids using List.reverseRecOn with
  | nil =>
    by_cases h0 : first = 0
    · simp [idsSinceUnnumbered, h0, not_le_zero hs]
    · simp [idsSinceUnnumbered, h0]
  | append_singleton ids id ih =>
    have hrev : (first :: (ids ++ [id])).reverse = id :: (first :: ids).reverse := by simp
    rw [List.foldl_append, List.foldl_cons, List.foldl_nil, le_lastIdAfter_iff hs, ih]
    unfold idsSinceUnnumbered
    rw [hrev]
    by_cases h0 : id = 0
    · simp [h0]
    · rw [List.takeWhile_cons_of_pos (by simpa using h0)]
      simp [h0]

/-- After an applied delta with id `s` and any further deltas, a numbered delta
changes nothing exactly when an id at least as new was delivered since the last
unnumbered one; `s` itself counts when no unnumbered delta came in between. -/
theorem redelivered_unchanged_iff (std : StdSort PriceLevel) (exchange : Exchange) (pair : String)
    (now : TimePoint) (before between : List BookCall) (bids asks bids' asks' : List PriceLevel)
    (s s' : UInt64) (t t' : TimePoint)
    (happlied : ¬ StaleAt
      (before.foldl (OrderBook.apply std) (.new exchange pair now)).top.lastSequenceId s)
    (hdeltas : ∀ call ∈ between, call.isDelta = true) (hs' : s' ≠ 0) :
    let b := (before ++ .applyDelta bids asks s t :: between).foldl (OrderBook.apply std)
      (.new exchange pair now)
    b.apply std (.applyDelta bids' asks' s' t') = b ↔
      ∃ id ∈ idsSinceUnnumbered (s :: between.map BookCall.sequenceId), s' ≤ id := by
  intro b
  have hfirst : ((before.foldl (OrderBook.apply std) (.new exchange pair now)).apply std
      (.applyDelta bids asks s t)).top.lastSequenceId = s := by
    rw [apply_delta_lastSequenceId std _ rfl]
    exact if_neg happlied
  have hlast : b.top.lastSequenceId = (between.map BookCall.sequenceId).foldl lastIdAfter s := by
    unfold b
    rw [List.foldl_append, List.foldl_cons, deltas_lastSequenceId std hdeltas, hfirst]
  rw [apply_delta_eq_iff std b bids' asks' hs' t', hlast]
  exact le_foldl_lastIdAfter_iff hs' s _

/-- A numbered feed: 5, then 7, then 5 again. -/
theorem redelivered_numbered :
    let b := [.applyDelta [⟨100, 1⟩] [] 5 10, .applyDelta [⟨100, 3⟩] [] 7 20].foldl
      (OrderBook.apply .mergeSort) (.new .bybit "BTCUSDT" 0)
    b.apply .mergeSort (.applyDelta [⟨100, 1⟩] [] 5 30) = b :=
  (redelivered_unchanged_iff .mergeSort .bybit "BTCUSDT" 0 [] [.applyDelta [⟨100, 3⟩] [] 7 20]
    [⟨100, 1⟩] [] [⟨100, 1⟩] [] 5 5 10 30 (by decide) (by decide) (by decide)).mpr (by decide)

/-- With an unnumbered delta in between, the second delivery of 5 undoes it. -/
theorem redelivered_after_unnumbered :
    let b := [.applyDelta [⟨100, 1⟩] [] 5 10, .applyDelta [⟨100, 3⟩] [] 0 20].foldl
      (OrderBook.apply .mergeSort) (.new .bybit "BTCUSDT" 0)
    let again := b.apply .mergeSort (.applyDelta [⟨100, 1⟩] [] 5 30)
    ¬ StaleAt (OrderBook.new .bybit "BTCUSDT" 0).top.lastSequenceId 5 ∧
      b.bids = [⟨100, 3⟩] ∧ again.bids = [⟨100, 1⟩] ∧ again ≠ b := by
  intro b again
  have hbids : b.bids = [⟨100, 3⟩] := by decide +kernel
  have hagain : again.bids = [⟨100, 1⟩] := by decide +kernel
  refine ⟨by decide, hbids, hagain, ?_⟩
  intro hsame
  rw [hsame, hbids] at hagain
  exact absurd hagain (by decide)

end CryptoArbBot
