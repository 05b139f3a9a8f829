import CryptoArbBot.OrderBook.BookInvariant
import CryptoArbBot.OrderBook.Redelivery

/-!
# Which stored level a delta level meets

`update_vec` compares the tolerance only with the level at the lower bound, the
first one that does not come before the price. A stored level that lies within
the tolerance but before the price (above it on the bids, below it on the asks)
is passed over, and the delta level is inserted beside it.
-/

namespace CryptoArbBot
open SortedMap

def Near (price : ℚ) (l : PriceLevel) : Prop := |l.price - price| < priceTolerance

/-- The levels are at least the tolerance apart. -/
def Spaced (vec : List PriceLevel) : Prop :=
  vec.Pairwise fun a b => priceTolerance ≤ |a.price - b.price|

/-- At most one stored level is near the price. -/
def NearUnique (vec : List PriceLevel) (price : ℚ) : Prop :=
  ∀ (i j : ℕ) (a b : PriceLevel), vec[i]? = some a → vec[j]? = some b → Near price a → Near price b → i = j

/-- The near level is updated or deleted, and nothing is inserted. -/
def Matched (vec : List PriceLevel) (level : PriceLevel) (after : List PriceLevel) : Prop :=
  ∀ (i : ℕ) (found : PriceLevel), vec[i]? = some found → Near level.price found →
    after = if level.quantity ≤ 0 then vec.eraseIdx i
      else vec.set i { found with quantity := level.quantity }

/-- No near level lies before the price in the order of the side. -/
def NoneBefore (descending : Bool) (vec : List PriceLevel) (level : PriceLevel) : Prop :=
  ∀ found ∈ vec, Near level.price found → ¬ sideOrder descending found.price level.price

/-! ### One level -/

section Level
variable {descending : Bool} {vec : List PriceLevel} {level : PriceLevel}

/-- The lower bound of the price. -/
abbrev boundOf (descending : Bool) (vec : List PriceLevel) (level : PriceLevel) : ℕ :=
  partitionPoint (comesBefore descending level.price) vec

theorem updateVec_near (h : SideOrdered descending vec) {found : PriceLevel}
    (hfound : vec[boundOf descending vec level]? = some found) (hnear : Near level.price found) :
    updateVec vec level descending =
      if level.quantity ≤ 0 then vec.eraseIdx (boundOf descending vec level)
      else vec.set (boundOf descending vec level) { found with quantity := level.quantity } := by
  simp only [updateVec, updateVec_cmp, lowerBound_eq_partitionPoint (h.partitioned level.price)]
  rw [hfound]
  exact if_pos hnear

theorem updateVec_not_near (h : SideOrdered descending vec)
    (hnear : ∀ found, vec[boundOf descending vec level]? = some found → ¬ Near level.price found) :
    updateVec vec level descending =
      if level.quantity > 0 then vec.insertIdx (boundOf descending vec level) level else vec := by
  simp only [updateVec, updateVec_cmp, lowerBound_eq_partitionPoint (h.partitioned level.price)]
  cases hfound : vec[boundOf descending vec level]? with
  | none => rfl
  | some found => exact if_neg (hnear found hfound)

theorem before_iff_lt_boundOf (h : SideOrdered descending vec) {i : ℕ} {a : PriceLevel}
    (ha : vec[i]? = some a) :
    sideOrder descending a.price level.price ↔ i < boundOf descending vec level := by
  rw [← before_iff_lt_partitionPoint (h.partitioned level.price) ha]
  exact (decide_eq_true_iff).symm

/-- From the price on, a level that stands earlier is nearer. -/
theorem near_of_between {p : ℚ} {a b : PriceLevel} (hp : ¬ sideOrder descending a.price p)
    (hab : ¬ sideOrder descending b.price a.price) (hb : Near p b) : Near p a := by
  unfold Near at hb ⊢
  cases descending with
  | true =>
    have ha : a.price ≤ p := not_lt.mp hp
    have hle : b.price ≤ a.price := not_lt.mp hab
    rw [abs_sub_comm, abs_of_nonneg (by linarith)] at hb ⊢
    linarith
  | false =>
    have ha : p ≤ a.price := not_lt.mp hp
    have hle : a.price ≤ b.price := not_lt.mp hab
    rw [abs_of_nonneg (by linarith)] at hb ⊢
    linarith

theorem index_eq_boundOf (h : SideOrdered descending vec) (hunique : NearUnique vec level.price)
    {i : ℕ} {found : PriceLevel} (hfound : vec[i]? = some found) (hnear : Near level.price found)
    (hafter : ¬ sideOrder descending found.price level.price) : i = boundOf descending vec level := by
  have hge : boundOf descending vec level ≤ i :=
    Nat.not_lt.mp fun hlt => hafter ((before_iff_lt_boundOf h hfound).mpr hlt)
  rcases Nat.eq_or_lt_of_le hge with heq | hlt
  · exact heq.symm
  · obtain ⟨hi, hvi⟩ := List.getElem?_eq_some_iff.mp hfound
    have hbound := List.getElem?_eq_getElem (hlt.trans hi)
    have hnot := mt (before_iff_lt_boundOf h hbound).mp (Nat.lt_irrefl _)
    have hord := List.pairwise_iff_getElem.mp h _ _ (hlt.trans hi) hi hlt
    rw [hvi] at hord
    exact hunique i _ found _ hfound hbound hnear (near_of_between hnot hord hnear)

/-- The near level is met exactly when it does not lie before the price. -/
theorem matched_iff_noneBefore (h : SideOrdered descending vec)
    (hunique : NearUnique vec level.price) :
    Matched vec level (updateVec vec level descending) ↔ NoneBefore descending vec level := by
  constructor
  · intro hmatched found hmem hnear hbefore
    obtain ⟨i, hi⟩ := List.mem_iff_getElem?.mp hmem
    have hlt : i < boundOf descending vec level := (before_iff_lt_boundOf h hi).mp hbefore
    have hlen : i < vec.length := (List.getElem?_eq_some_iff.mp hi).1
    -- the level at the bound is another one, so nothing is updated or deleted
    have hapart : ∀ b, vec[boundOf descending vec level]? = some b → ¬ Near level.price b :=
      fun b hb hbnear => hlt.ne (hunique i _ found b hi hb hnear hbnear)
    have hmiss := updateVec_not_near h hapart
    have hsame := congrArg List.length (hmiss.symm.trans (hmatched i found hi hnear))
    by_cases hq : level.quantity > 0
    · rw [if_pos hq, if_neg (not_le.mpr hq), List.length_set,
        List.length_insertIdx_of_le_length (partitionPoint_le _ _)] at hsame
      omega
    · rw [if_neg hq, if_pos (not_lt.mp hq), List.length_eraseIdx_of_lt hlen] at hsame
      omega
  · intro hnone i found hfound hnear
    have hi := index_eq_boundOf h hunique hfound hnear
      (hnone found (List.mem_of_getElem? hfound) hnear)
    rw [hi] at hfound ⊢
    exact updateVec_near h hfound hnear

theorem Spaced.set (h : Spaced vec) {i : ℕ} {found : PriceLevel} (hfound : vec[i]? = some found)
    (quantity : ℚ) : Spaced (vec.set i { found with quantity }) := by
  have hprices : (vec.set i { found with quantity }).map (·.price) = vec.map (·.price) := by
    obtain ⟨hi, hvi⟩ := List.getElem?_eq_some_iff.mp hfound
    rw [List.map_set]
    have hlen : i < (vec.map (·.price)).length := by simpa
    have hprice : (vec.map (·.price))[i] = found.price := by rw [List.getElem_map, hvi]
    rw [← hprice, List.set_getElem_self]
  have hspaced : (vec.map (·.price)).Pairwise fun p q => priceTolerance ≤ |p - q| :=
    List.pairwise_map.mpr h
  rw [← hprices] at hspaced
  exact List.pairwise_map.mp hspaced

theorem Spaced.updateVec (h : Spaced vec) (hord : SideOrdered descending vec)
    (hunique : NearUnique vec level.price) (hnone : NoneBefore descending vec level) :
    Spaced (updateVec vec level descending) := by
  by_cases hnear : ∃ (i : ℕ) (found : PriceLevel), vec[i]? = some found ∧ Near level.price found
  · obtain ⟨i, found, hfound, hnear⟩ := hnear
    rw [(matched_iff_noneBefore hord hunique).mpr hnone i found hfound hnear]
    split
    · exact h.sublist (List.eraseIdx_sublist ..)
    · exact h.set hfound _
  · have hfar : ∀ a ∈ vec, priceTolerance ≤ |level.price - a.price| := by
      intro a ha
      obtain ⟨i, hi⟩ := List.mem_iff_getElem?.mp ha
      rw [abs_sub_comm]
      exact not_lt.mp fun hlt => hnear ⟨i, a, hi, hlt⟩
    rw [updateVec_not_near hord fun found hfound hlt => hnear ⟨_, found, hfound, hlt⟩]
    have hsymm : ∀ {a b : PriceLevel}, priceTolerance ≤ |a.price - b.price| →
        priceTolerance ≤ |b.price - a.price| := by
      intro a b hab
      rwa [abs_sub_comm]
    split
    · rw [insertIdx_partitionPoint]
      apply (List.pairwise_middle hsymm).mpr
      rw [List.takeWhile_append_dropWhile]
      exact List.pairwise_cons.mpr ⟨hfar, h⟩
    · exact h

end Level

/-! ### The levels of a run of deltas -/

/-- Every level of a delta that is not dropped meets `ok` on the side it reaches. -/
def BookCall.EachLevel (ok : Bool → List PriceLevel → PriceLevel → Prop) (b : OrderBook) :
    BookCall → Prop
  | .applySnapshot .. => True
  | .applyDelta bids asks sequenceId _ => StaleAt b.top.lastSequenceId sequenceId ∨
      Runs.Along (updateVec · · true) (ok true) b.bids bids ∧
        Runs.Along (updateVec · · false) (ok false) b.asks asks

def OrderBook.Spaced (b : OrderBook) : Prop :=
  CryptoArbBot.Spaced b.bids ∧ CryptoArbBot.Spaced b.asks

def OrderBook.Reachable (std : StdSort PriceLevel) (b : OrderBook) : Prop :=
  ∃ exchange pair now calls, b = Runs.run (OrderBook.apply std) (.new exchange pair now) calls

theorem OrderBook.Reachable.kept {std : StdSort PriceLevel} {b : OrderBook}
    (h : b.Reachable std) : b.Kept := by
  obtain ⟨exchange, pair, now, calls, rfl⟩ := h
  exact Runs.invariant_run (fun _ call hb => apply_kept std call hb) calls (new_kept exchange pair now)

theorem side_matched_iff {descending : Bool} {vec : List PriceLevel} {levels : List PriceLevel}
    (hkept : SideKept descending vec) (hspaced : Spaced vec)
    (hunique : Runs.Along (updateVec · · descending) (fun vec level => NearUnique vec level.price)
      vec levels) :
    Runs.Along (updateVec · · descending)
        (fun vec level => Matched vec level (updateVec vec level descending)) vec levels ↔
      Runs.Along (updateVec · · descending) (NoneBefore descending) vec levels := by
  refine Runs.along_iff_along (I := fun vec => SideKept descending vec ∧ Spaced vec) ?_ ?_
    ⟨hkept, hspaced⟩ hunique
  · intro vec level _ hI hu hnone
    exact ⟨hI.1.updateVec level, hI.2.updateVec hI.1.ordered hu hnone⟩
  · intro vec level _ hI hu
    exact matched_iff_noneBefore hI.1.ordered hu

theorem side_spaced {descending : Bool} {vec : List PriceLevel} {levels : List PriceLevel}
    (hkept : SideKept descending vec) (hspaced : Spaced vec)
    (hunique : Runs.Along (updateVec · · descending) (fun vec level => NearUnique vec level.price)
      vec levels)
    (hnone : Runs.Along (updateVec · · descending) (NoneBefore descending) vec levels) :
    Spaced (levels.foldl (updateVec · · descending) vec) := by
  rw [← Runs.run_eq_foldl]
  have hrun := Runs.invariant_along (I := fun vec => SideKept descending vec ∧ Spaced vec)
    (fun vec level hI hok => ⟨hI.1.updateVec level, hI.2.updateVec hI.1.ordered hok.1 hok.2⟩)
    ⟨hkept, hspaced⟩ (hunique.and hnone)
  exact hrun.2

theorem OrderBook.Spaced.apply (std : StdSort PriceLevel) {b : OrderBook} {call : BookCall}
    (hdelta : call.isDelta = true) (hkept : b.Kept) (h : b.Spaced)
    (hunique : call.EachLevel (fun _ vec level => NearUnique vec level.price) b)
    (hnone : call.EachLevel NoneBefore b) : (b.apply std call).Spaced := by
  cases call with
  | applySnapshot bids asks sequenceId now => cases hdelta
  | applyDelta bids asks sequenceId now =>
    by_cases hstale : StaleAt b.top.lastSequenceId sequenceId
    · rw [apply_delta_stale std bids asks now hstale]
      exact h
    · rw [apply_delta_fresh std bids asks now hstale]
      obtain ⟨hub, hua⟩ := hunique.resolve_left hstale
      obtain ⟨hnb, hna⟩ := hnone.resolve_left hstale
      exact ⟨side_spaced hkept.sideBids h.1 hub hnb, side_spaced hkept.sideAsks h.2 hua hna⟩

theorem eachLevel_matched_iff {b : OrderBook} (hkept : b.Kept) (h : b.Spaced) {call : BookCall}
    (hunique : call.EachLevel (fun _ vec level => NearUnique vec level.price) b) :
    call.EachLevel (fun descending vec level =>
        Matched vec level (updateVec vec level descending)) b ↔ call.EachLevel NoneBefore b := by
  cases call with
  | applySnapshot bids asks sequenceId now => exact Iff.rfl
  | applyDelta bids asks sequenceId now =>
    by_cases hstale : StaleAt b.top.lastSequenceId sequenceId
    · exact ⟨fun _ => .inl hstale, fun _ => .inl hstale⟩
    · obtain ⟨hub, hua⟩ := hunique.resolve_left hstale
      exact or_congr_right (and_congr (side_matched_iff hkept.sideBids h.1 hub)
        (side_matched_iff hkept.sideAsks h.2 hua))

/-- In a run of deltas each of whose levels is near at most one stored level, all
near levels are met, and the sides stay spaced, exactly when no near level lies
before its price. -/
theorem deltas_matched_iff (std : StdSort PriceLevel) {b : OrderBook} (hreach : b.Reachable std)
    (hspaced : b.Spaced) (deltas : List BookCall) (hdeltas : ∀ call ∈ deltas, call.isDelta = true)
    (hunique : Runs.Along (OrderBook.apply std)
      (BookCall.EachLevel fun _ vec level => NearUnique vec level.price) b deltas) :
    Runs.Along (OrderBook.apply std) (BookCall.EachLevel fun descending vec level =>
          Matched vec level (updateVec vec level descending)) b deltas ∧
        Runs.Always (OrderBook.apply std) OrderBook.Spaced b deltas ↔
      Runs.Along (OrderBook.apply std) (BookCall.EachLevel NoneBefore) b deltas := by
  have hmatched : Runs.Along (OrderBook.apply std) (BookCall.EachLevel fun descending vec level =>
        Matched vec level (updateVec vec level descending)) b deltas ↔
      Runs.Along (OrderBook.apply std) (BookCall.EachLevel NoneBefore) b deltas := by
    refine Runs.along_iff_along (I := fun b : OrderBook => b.Kept ∧ b.Spaced) ?_ ?_
      ⟨hreach.kept, hspaced⟩ hunique
    · intro b call hcall hI hu hnone
      exact ⟨apply_kept std call hI.1, hI.2.apply std (hdeltas call hcall) hI.1 hu hnone⟩
    · intro b call _ hI hu
      exact eachLevel_matched_iff hI.1 hI.2 hu
  refine ⟨fun h => hmatched.mp h.1, fun hnone => ⟨hmatched.mpr hnone, ?_⟩⟩
  have hdelta : Runs.Along (OrderBook.apply std) (fun _ call => call.isDelta) b deltas :=
    Runs.along_of_mem hdeltas b
  refine (Runs.always_of_along (I := fun b : OrderBook => b.Kept ∧ b.Spaced) ?_
    ⟨hreach.kept, hspaced⟩ (hdelta.and (hunique.and hnone))).imp fun _ hI => hI.2
  intro b call hI hok
  exact ⟨apply_kept std call hI.1, hI.2.apply std hok.1 hI.1 hok.2.1 hok.2.2⟩

/-! ### A neighbour on either side of the price -/

def storedCalls (bid ask : ℚ) : List BookCall := [.applyDelta [⟨bid, 1⟩] [⟨ask, 1⟩] 1 10]

def storedBook (bid ask : ℚ) : OrderBook :=
  Runs.run (OrderBook.apply .mergeSort) (.new .okx "BTC-USDT" 0) (storedCalls bid ask)

theorem storedBook_reachable (bid ask : ℚ) : (storedBook bid ask).Reachable .mergeSort :=
  ⟨_, _, _, _, rfl⟩

theorem storedBook_spaced (bid ask : ℚ) : (storedBook bid ask).Spaced :=
  ⟨List.pairwise_singleton _ _, List.pairwise_singleton _ _⟩

theorem nearUnique_singleton (l : PriceLevel) (price : ℚ) : NearUnique [l] price := by
  intro i j a b ha hb _ _
  obtain ⟨hi, _⟩ := List.getElem?_eq_some_iff.mp ha
  obtain ⟨hj, _⟩ := List.getElem?_eq_some_iff.mp hb
  simp only [List.length_singleton] at hi hj
  omega

/-- The stored bid lies below the price and the stored ask above it. -/
theorem storedBook_matched :
    let delta : BookCall :=
      .applyDelta [⟨100 + priceTolerance / 2, 2⟩] [⟨101 - priceTolerance / 2, 0⟩] 2 20
    Runs.Along (OrderBook.apply .mergeSort) (BookCall.EachLevel fun descending vec level =>
        Matched vec level (updateVec vec level descending)) (storedBook 100 101) [delta] ∧
      Runs.Always (OrderBook.apply .mergeSort) OrderBook.Spaced (storedBook 100 101) [delta] := by
  refine (deltas_matched_iff .mergeSort (storedBook_reachable 100 101) (storedBook_spaced 100 101)
    [.applyDelta [⟨100 + priceTolerance / 2, 2⟩] [⟨101 - priceTolerance / 2, 0⟩] 2 20]
    (by decide) ⟨.inr ⟨⟨nearUnique_singleton _ _, trivial⟩, ⟨nearUnique_singleton _ _, trivial⟩⟩,
      trivial⟩).mpr ⟨.inr ⟨⟨?_, trivial⟩, ⟨?_, trivial⟩⟩, trivial⟩
  · intro found hfound _
    rw [List.mem_singleton.mp hfound]
    norm_num [sideOrder, priceTolerance]
  · intro found hfound _
    rw [List.mem_singleton.mp hfound]
    norm_num [sideOrder, priceTolerance]

/-- With the neighbours on the other side of the prices, both are passed over. -/
theorem storedBook_passed_over :
    let b := storedBook (100 + priceTolerance / 2) (101 - priceTolerance / 2)
    let b' := b.apply .mergeSort (.applyDelta [⟨100, 2⟩] [⟨101, 2⟩] 2 20)
    b.Reachable .mergeSort ∧ b.Spaced ∧
      |100 + priceTolerance / 2 - 100| < priceTolerance ∧
      |101 - priceTolerance / 2 - 101| < priceTolerance ∧
      b'.bids = [⟨100 + priceTolerance / 2, 1⟩, ⟨100, 2⟩] ∧
      b'.asks = [⟨101 - priceTolerance / 2, 1⟩, ⟨101, 2⟩] ∧ ¬ b'.Spaced := by
  intro b b'
  have hbids : b'.bids = [⟨100 + priceTolerance / 2, 1⟩, ⟨100, 2⟩] := by decide +kernel
  have hasks : b'.asks = [⟨101 - priceTolerance / 2, 1⟩, ⟨101, 2⟩] := by decide +kernel
  refine ⟨storedBook_reachable _ _, storedBook_spaced _ _, by norm_num [priceTolerance, abs_lt],
    by norm_num [priceTolerance, abs_lt], hbids, hasks, ?_⟩
  intro hspaced
  have hpair := hspaced.1
  rw [hbids] at hpair
  have hgap := (List.pairwise_cons.mp hpair).1 ⟨100, 2⟩ (List.mem_singleton_self _)
  norm_num [priceTolerance] at hgap

end CryptoArbBot
