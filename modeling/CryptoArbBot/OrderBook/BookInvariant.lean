import CryptoArbBot.Library.Runs
import CryptoArbBot.OrderBook.Refinement

/-!
# What every call leaves in the book

Nothing is assumed of the levels that arrive. The sides stay sorted, perhaps
with equal or nearly equal prices, every stored quantity is positive, and the
arrays hold the first levels of the sides.
-/

namespace CryptoArbBot
open SortedMap

/-! ### One level on a sorted side -/

/-- No level comes strictly before one on its left. -/
def SideOrdered (descending : Bool) (vec : List PriceLevel) : Prop :=
  vec.Pairwise fun a b => ¬ sideOrder descending b.price a.price

theorem sideOrder_of_le {descending : Bool} {p q s : ℚ} (hpq : ¬ sideOrder descending q p)
    (hqs : sideOrder descending q s) : sideOrder descending p s := by
  cases descending with
  | true => exact lt_of_lt_of_le hqs (not_lt.mp hpq)
  | false => exact lt_of_le_of_lt (not_lt.mp hpq) hqs

/-- The comparison with which `update_vec` searches. -/
abbrev comesBefore (descending : Bool) (price : ℚ) : PriceLevel → Bool :=
  keyBefore (sideOrder descending) PriceLevel.price price

theorem SideOrdered.partitioned {descending : Bool} {vec : List PriceLevel}
    (h : SideOrdered descending vec) (price : ℚ) : Partitioned (comesBefore descending price) vec := by
  refine h.imp ?_
  intro a b hab hb
  exact decide_eq_true (sideOrder_of_le hab (of_decide_eq_true hb))

/-- What becomes of the levels from the lower bound on. -/
def updateAtBound (level : PriceLevel) : List PriceLevel → List PriceLevel
  | [] => if level.quantity > 0 then [level] else []
  | found :: rest =>
    if |found.price - level.price| < priceTolerance then
      if level.quantity ≤ 0 then rest else { found with quantity := level.quantity } :: rest
    else if level.quantity > 0 then level :: found :: rest
    else found :: rest

theorem updateVec_eq {descending : Bool} {vec : List PriceLevel} (h : SideOrdered descending vec)
    (level : PriceLevel) :
    updateVec vec level descending =
      vec.takeWhile (comesBefore descending level.price) ++
        updateAtBound level (vec.dropWhile (comesBefore descending level.price)) := by
  simp only [updateVec, updateVec_cmp, lowerBound_eq_partitionPoint (h.partitioned level.price)]
  have hsplit := vec.takeWhile_append_dropWhile (p := comesBefore descending level.price)
  have hinserted := insertIdx_partitionPoint (comesBefore descending level.price) vec level
  rw [getElem?_partitionPoint]
  cases hback : vec.dropWhile (comesBefore descending level.price) with
  | nil =>
    rw [hback, List.append_nil] at hsplit
    rw [hback] at hinserted
    simp only [List.head?_nil, updateAtBound]
    split
    · exact hinserted
    · rw [List.append_nil, hsplit]
  | cons found rest =>
    have hne : vec.dropWhile (comesBefore descending level.price) ≠ [] := by simp [hback]
    have herase := eraseIdx_partitionPoint (comesBefore descending level.price) vec
    have hset := set_partitionPoint hne { found with quantity := level.quantity }
    rw [hback] at hsplit hinserted herase hset
    simp only [List.head?_cons, updateAtBound]
    split
    · split
      · exact herase
      · exact hset
    · split
      · exact hinserted
      · exact hsplit.symm

/-- Where the found level stood there is nothing, the same price or the new level. -/
theorem mem_updateAtBound {level a : PriceLevel} {back : List PriceLevel}
    (h : a ∈ updateAtBound level back) :
    a ∈ back ∨ (a = level ∨ ∃ found ∈ back, a = { found with quantity := level.quantity }) ∧
      level.quantity > 0 := by
  cases back with
  | nil =>
    simp only [updateAtBound] at h
    split at h
    next hq => exact .inr ⟨.inl (List.mem_singleton.mp h), hq⟩
    next => cases h
  | cons found rest =>
    simp only [updateAtBound] at h
    split at h
    · split at h
      next => exact .inl (List.mem_cons_of_mem _ h)
      next hq =>
        rcases List.mem_cons.mp h with rfl | hrest
        · exact .inr ⟨.inr ⟨found, List.mem_cons_self .., rfl⟩, not_le.mp hq⟩
        · exact .inl (List.mem_cons_of_mem _ hrest)
    · split at h
      next hq =>
        rcases List.mem_cons.mp h with rfl | hback
        · exact .inr ⟨.inl rfl, hq⟩
        · exact .inl hback
      next => exact .inl h

theorem SideOrdered.updateAtBound {descending : Bool} {level : PriceLevel} {back : List PriceLevel}
    (h : SideOrdered descending back)
    (hback : ∀ a ∈ back, ¬ sideOrder descending a.price level.price) :
    SideOrdered descending (updateAtBound level back) := by
  cases back with
  | nil =>
    simp only [CryptoArbBot.updateAtBound]
    split
    · exact List.pairwise_singleton _ _
    · exact List.Pairwise.nil
  | cons found rest =>
    obtain ⟨hfound, hrest⟩ := List.pairwise_cons.mp h
    simp only [CryptoArbBot.updateAtBound]
    split
    · split
      · exact hrest
      · exact List.pairwise_cons.mpr ⟨hfound, hrest⟩
    · split
      · exact List.pairwise_cons.mpr ⟨hback, h⟩
      · exact h

theorem SideOrdered.updateVec {descending : Bool} {vec : List PriceLevel}
    (h : SideOrdered descending vec) (level : PriceLevel) :
    SideOrdered descending (updateVec vec level descending) := by
  have hpart := h.partitioned level.price
  have hback : ∀ a ∈ vec.dropWhile (comesBefore descending level.price),
      ¬ sideOrder descending a.price level.price := fun a ha =>
    of_decide_eq_false (not_before_of_mem_dropWhile hpart ha)
  have hfront : ∀ a ∈ vec.takeWhile (comesBefore descending level.price),
      sideOrder descending a.price level.price := by
    intro a ha
    have hbefore : comesBefore descending level.price a = true := List.mem_takeWhile_imp ha
    exact of_decide_eq_true hbefore
  rw [updateVec_eq h]
  refine List.pairwise_append.mpr ⟨h.sublist (List.takeWhile_sublist _),
    SideOrdered.updateAtBound (h.sublist (List.dropWhile_sublist _)) hback, ?_⟩
  -- everything in front comes before the price, nothing at the bound does
  intro a ha b hb hba
  have hbefore : sideOrder descending b.price level.price := trans_of _ hba (hfront a ha)
  rcases mem_updateAtBound hb with hold | ⟨rfl | ⟨found, hfound, rfl⟩, _⟩
  · exact hback b hold hbefore
  · exact irrefl_of _ _ hbefore
  · exact hback found hfound hbefore

/-! ### One side -/

structure SideKept (descending : Bool) (vec : List PriceLevel) : Prop where
  ordered : SideOrdered descending vec
  positive : ∀ l ∈ vec, 0 < l.quantity

theorem SideKept.updateVec {descending : Bool} {vec : List PriceLevel}
    (h : SideKept descending vec) (level : PriceLevel) :
    SideKept descending (updateVec vec level descending) := by
  refine ⟨h.ordered.updateVec level, ?_⟩
  intro l hl
  rw [updateVec_eq h.ordered] at hl
  rcases List.mem_append.mp hl with hfront | hbound
  · exact h.positive l ((List.takeWhile_sublist _).subset hfront)
  · rcases mem_updateAtBound hbound with hold | ⟨rfl | ⟨found, _, rfl⟩, hquantity⟩
    · exact h.positive l ((List.dropWhile_sublist _).subset hold)
    · exact hquantity
    · exact hquantity

theorem SideKept.updates {descending : Bool} (levels : List PriceLevel) {vec : List PriceLevel}
    (h : SideKept descending vec) :
    SideKept descending (levels.foldl (CryptoArbBot.updateVec · · descending) vec) := by
  induction levels generalizing vec with
  | nil => exact h
  | cons level levels ih => exact ih (h.updateVec level)

theorem sideKept_sort (std : StdSort PriceLevel) (descending : Bool)
    {comp : PriceLevel → PriceLevel → Bool} (hcomp : StrictWeak comp)
    (hside : ∀ a b, comp a b = false → ¬ sideOrder descending a.price b.price)
    (levels : List PriceLevel) :
    SideKept descending (std.sort comp (levels.filter fun l => l.quantity > 0)) := by
  refine ⟨(std.sorted comp _ hcomp).imp fun hab => hside _ _ hab, ?_⟩
  intro l hl
  have hmem : l ∈ levels.filter fun l => l.quantity > 0 := (std.perm comp _).mem_iff.mp hl
  exact of_decide_eq_true (List.mem_filter.mp hmem).2

/-! ### The book -/

/-- The sides are sorted and hold positive quantities only; the counts and the
arrays are the first twenty levels of the sides. -/
structure OrderBook.Kept (b : OrderBook) : Prop where
  bids : b.bids.Pairwise fun l l' => l'.price ≤ l.price
  asks : b.asks.Pairwise fun l l' => l.price ≤ l'.price
  positive : ∀ l ∈ b.bids ++ b.asks, 0 < l.quantity
  numTopBids : b.top.numTopBids = min 20 b.bids.length
  numTopAsks : b.top.numTopAsks = min 20 b.asks.length
  topBids : ∀ i : Fin 20, i.val < b.top.numTopBids → b.bids[i.val]? = some (b.top.topBids i)
  topAsks : ∀ i : Fin 20, i.val < b.top.numTopAsks → b.asks[i.val]? = some (b.top.topAsks i)

theorem OrderBook.Kept.sideBids {b : OrderBook} (h : b.Kept) : SideKept true b.bids :=
  ⟨h.bids.imp not_lt.mpr, fun l hl => h.positive l (List.mem_append_left _ hl)⟩

theorem OrderBook.Kept.sideAsks {b : OrderBook} (h : b.Kept) : SideKept false b.asks :=
  ⟨h.asks.imp not_lt.mpr, fun l hl => h.positive l (List.mem_append_right _ hl)⟩

theorem new_kept (exchange : Exchange) (pair : String) (now : TimePoint) :
    (OrderBook.new exchange pair now).Kept where
  bids := List.Pairwise.nil
  asks := List.Pairwise.nil
  positive := by simp [OrderBook.new]
  numTopBids := rfl
  numTopAsks := rfl
  topBids := fun _ hi => absurd hi (Nat.not_lt_zero _)
  topAsks := fun _ hi => absurd hi (Nat.not_lt_zero _)

theorem install_counts (b : OrderBook) (bids asks : List PriceLevel) (sequenceId : UInt64)
    (now : TimePoint) :
    (b.install bids asks sequenceId now).1.top.numTopBids = min 20 bids.length ∧
      (b.install bids asks sequenceId now).1.top.numTopAsks = min 20 asks.length := by
  simp only [OrderBook.install, runStores_publish, foldl_syncTopLevels, and_self]

theorem install_kept (b : OrderBook) {bids asks : List PriceLevel} (hbids : SideKept true bids)
    (hasks : SideKept false asks) (sequenceId : UInt64) (now : TimePoint) :
    (b.install bids asks sequenceId now).1.Kept := by
  obtain ⟨hnb, hna⟩ := install_counts b bids asks sequenceId now
  have hview := install_top_view b bids asks sequenceId now
  refine ⟨hbids.ordered.imp not_lt.mp, hasks.ordered.imp not_lt.mp, ?_, hnb, hna, ?_, ?_⟩
  · intro l hl
    rcases List.mem_append.mp hl with hbid | hask
    · exact hbids.positive l hbid
    · exact hasks.positive l hask
  · intro i hi
    have htop := view_bids_getElem? hview (i := i) (by rw [List.length_take]; omega)
    rwa [List.getElem?_take_of_lt i.isLt] at htop
  · intro i hi
    have htop := view_asks_getElem? hview (i := i) (by rw [List.length_take]; omega)
    rwa [List.getElem?_take_of_lt i.isLt] at htop

theorem apply_kept (std : StdSort PriceLevel) {b : OrderBook} (call : BookCall) (h : b.Kept) :
    (b.apply std call).Kept := by
  cases call with
  | applySnapshot bids asks sequenceId now =>
    refine install_kept b ?_ ?_ sequenceId now
    · exact sideKept_sort std true (strictWeak_key fun l => OrderDual.toDual l.price)
        (fun _ _ => of_decide_eq_false) bids
    · exact sideKept_sort std false (strictWeak_key fun l => l.price)
        (fun _ _ => of_decide_eq_false) asks
  | applyDelta bids asks sequenceId now =>
    simp only [OrderBook.apply, OrderBook.start, OrderBook.applyDelta]
    split
    · exact h
    · exact install_kept b (h.sideBids.updates bids) (h.sideAsks.updates asks) sequenceId now

theorem book_always_kept (std : StdSort PriceLevel) (exchange : Exchange) (pair : String)
    (now : TimePoint) (calls : List BookCall) :
    Runs.Always (OrderBook.apply std) OrderBook.Kept (.new exchange pair now) calls :=
  have hany : Runs.Along (OrderBook.apply std) (fun _ _ => True) (.new exchange pair now) calls :=
    Runs.along_of_forall (fun _ _ => trivial) _ calls
  Runs.always_of_along (fun _ call hb _ => apply_kept std call hb) (new_kept exchange pair now) hany

end CryptoArbBot
