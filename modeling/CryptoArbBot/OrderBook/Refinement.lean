import CryptoArbBot.Library.SortedMap
import CryptoArbBot.OrderBook.Publication
import Mathlib.Tactic.Linarith
import Mathlib.Tactic.NormNum

/-!
# The order book refines a map from prices to quantities

The abstract book keeps two finite maps and a sequence id. A snapshot resets
the maps to its levels of positive quantity; a delta that passes the sequence
check sets or removes one price after another. The sorted vectors of the book
list these maps whenever the prices in use are equal or at least the tolerance
of `update_vec` apart.
-/

namespace CryptoArbBot
open SortedMap

/-! ### The abstract book -/

abbrev PriceMap := ℚ → Option ℚ

/-- A positive quantity sets the entry of the price, any other removes it. -/
def PriceMap.put (m : PriceMap) (level : PriceLevel) : PriceMap :=
  Function.update m level.price (if level.quantity > 0 then some level.quantity else none)

def PriceMap.reset (levels : List PriceLevel) : PriceMap :=
  ofEntries PriceLevel.price PriceLevel.quantity (levels.filter fun l => l.quantity > 0)

structure BookMap where
  bids : PriceMap := fun _ => none
  asks : PriceMap := fun _ => none
  lastSequenceId : UInt64 := 0

def BookMap.apply (m : BookMap) : BookCall → BookMap
  | .applySnapshot bids asks sequenceId _ =>
    { bids := .reset bids, asks := .reset asks, lastSequenceId := sequenceId }
  | .applyDelta bids asks sequenceId _ =>
    if sequenceId ≠ 0 ∧ sequenceId ≤ m.lastSequenceId then m
    else
      { bids := bids.foldl PriceMap.put m.bids
        asks := asks.foldl PriceMap.put m.asks
        lastSequenceId := sequenceId }

/-! ### The runs the refinement is about -/

def BookCall.prices : BookCall → List ℚ
  | .applySnapshot bids asks _ _ => (bids ++ asks).map (·.price)
  | .applyDelta bids asks _ _ => (bids ++ asks).map (·.price)

/-- Within each side of a snapshot the levels of positive quantity have
distinct prices. -/
def BookCall.Distinct : BookCall → Prop
  | .applySnapshot bids asks _ _ =>
    ((bids.filter fun l => l.quantity > 0).map (·.price)).Nodup ∧
      ((asks.filter fun l => l.quantity > 0).map (·.price)).Nodup
  | .applyDelta _ _ _ _ => True

/-- Two prices are equal or at least the tolerance apart. -/
def Separated (prices : Set ℚ) : Prop :=
  ∀ p ∈ prices, ∀ q ∈ prices, p = q ∨ priceTolerance ≤ |p - q|

theorem Separated.within_iff {prices : Set ℚ} (h : Separated prices) {p q : ℚ} (hp : p ∈ prices)
    (hq : q ∈ prices) : |p - q| < priceTolerance ↔ p = q := by
  constructor
  · intro hlt
    rcases h p hp q hq with heq | hge
    · exact heq
    · exact absurd hlt (not_lt.mpr hge)
  · rintro rfl
    rw [sub_self, abs_zero]
    norm_num [priceTolerance]

/-! ### One side -/

def sideOrder : Bool → ℚ → ℚ → Prop
  | true => fun p q => p > q
  | false => fun p q => p < q

instance (descending : Bool) : DecidableRel (sideOrder descending) := fun p q =>
  match descending with
  | true => inferInstanceAs (Decidable (p > q))
  | false => inferInstanceAs (Decidable (p < q))

instance (descending : Bool) : IsStrictTotalOrder ℚ (sideOrder descending) :=
  match descending with
  | true => inferInstanceAs (IsStrictTotalOrder ℚ (· > ·))
  | false => inferInstanceAs (IsStrictTotalOrder ℚ (· < ·))

/-- The levels of a side list a map and carry prices of the given set. -/
structure SideRefines (prices : Set ℚ) (descending : Bool) (vec : List PriceLevel)
    (m : PriceMap) : Prop where
  lists : Lists (sideOrder descending) PriceLevel.price PriceLevel.quantity vec m
  known : ∀ l ∈ vec, l.price ∈ prices

theorem level_ext (a b : PriceLevel) (hp : a.price = b.price) (hq : a.quantity = b.quantity) :
    a = b := by
  cases a
  cases b
  simp_all

theorem updateVec_cmp (level : PriceLevel) (descending : Bool) :
    (if descending then fun a : PriceLevel => decide (a.price > level.price)
      else fun a => decide (a.price < level.price)) =
      keyBefore (sideOrder descending) PriceLevel.price level.price := by
  cases descending with
  | true => rfl
  | false => rfl

theorem SideRefines.inserted {prices : Set ℚ} {descending : Bool} {vec : List PriceLevel}
    {m : PriceMap} (h : SideRefines prices descending vec m) {level : PriceLevel}
    (hlevel : level.price ∈ prices) (habs : ∀ a ∈ vec, a.price ≠ level.price) :
    SideRefines prices descending
      (if level.quantity > 0 then
        vec.insertIdx (partitionPoint (keyBefore (sideOrder descending) PriceLevel.price level.price)
          vec) level
      else vec)
      (m.put level) := by
  by_cases hq : level.quantity > 0
  · simp only [PriceMap.put, if_pos hq]
    refine ⟨h.lists.insertIdx level_ext level habs, ?_⟩
    intro l hl
    rcases List.eq_or_mem_of_mem_insertIdx hl with rfl | hl
    · exact hlevel
    · exact h.known l hl
  · simp only [PriceMap.put, if_neg hq]
    exact ⟨h.lists.absent habs, h.known⟩

theorem SideRefines.updateVec {prices : Set ℚ} (hsep : Separated prices) {descending : Bool}
    {vec : List PriceLevel} {m : PriceMap} (h : SideRefines prices descending vec m)
    {level : PriceLevel} (hlevel : level.price ∈ prices) :
    SideRefines prices descending (updateVec vec level descending) (m.put level) := by
  have hpart := partitioned_of_ordered h.lists.ordered level.price
  have habs := absent_of_partitionPoint h.lists.ordered level.price
  simp only [CryptoArbBot.updateVec, updateVec_cmp, lowerBound_eq_partitionPoint hpart]
  cases hit : vec[partitionPoint (keyBefore (sideOrder descending) PriceLevel.price level.price)
      vec]? with
  | none => exact h.inserted hlevel (habs fun a ha => by rw [hit] at ha; cases ha)
  | some found =>
    have hmem : found ∈ vec := List.mem_of_getElem? hit
    simp only [hsep.within_iff (h.known found hmem) hlevel]
    by_cases heq : found.price = level.price
    · rw [if_pos heq]
      by_cases hq : level.quantity ≤ 0
      · have herase := h.lists.eraseIdx hit
        rw [heq] at herase
        rw [if_pos hq, PriceMap.put, if_neg (not_lt.mpr hq)]
        exact ⟨herase, fun l hl => h.known l (List.mem_of_mem_eraseIdx hl)⟩
      · have hset : { found with quantity := level.quantity } = level := level_ext _ _ heq rfl
        rw [if_neg hq, hset, PriceMap.put, if_pos (not_le.mp hq)]
        refine ⟨h.lists.set level_ext hit heq, ?_⟩
        intro l hl
        rcases List.mem_or_eq_of_mem_set hl with hl | rfl
        · exact h.known l hl
        · exact hlevel
    · rw [if_neg heq]
      refine h.inserted hlevel (habs fun a ha => ?_)
      rw [hit, Option.some.injEq] at ha
      exact ha ▸ heq

theorem SideRefines.updates {prices : Set ℚ} (hsep : Separated prices) {descending : Bool}
    (levels : List PriceLevel) {vec : List PriceLevel} {m : PriceMap}
    (h : SideRefines prices descending vec m) (hlevels : ∀ l ∈ levels, l.price ∈ prices) :
    SideRefines prices descending (levels.foldl (CryptoArbBot.updateVec · · descending) vec)
      (levels.foldl PriceMap.put m) := by
  induction levels generalizing vec m with
  | nil => exact h
  | cons level levels ih =>
    exact ih (h.updateVec hsep (hlevels level (List.mem_cons_self ..)))
      fun l hl => hlevels l (List.mem_cons_of_mem _ hl)

theorem sideRefines_reset (std : StdSort PriceLevel) {prices : Set ℚ} (descending : Bool)
    {comp : PriceLevel → PriceLevel → Bool} (hcomp : StrictWeak comp)
    (hside : ∀ a b, comp b a = false → a.price ≠ b.price → sideOrder descending a.price b.price)
    {levels : List PriceLevel}
    (hdistinct : ((levels.filter fun l => l.quantity > 0).map (·.price)).Nodup)
    (hlevels : ∀ l ∈ levels, l.price ∈ prices) :
    SideRefines prices descending (std.sort comp (levels.filter fun l => l.quantity > 0))
      (.reset levels) := by
  have hperm := std.perm comp (levels.filter fun l => l.quantity > 0)
  have hne : (std.sort comp (levels.filter fun l => l.quantity > 0)).Pairwise
      fun a b => a.price ≠ b.price := by
    have hnodup := (hperm.map (·.price)).nodup_iff.mpr hdistinct
    exact List.pairwise_map.mp hnodup
  have hord : (std.sort comp (levels.filter fun l => l.quantity > 0)).Pairwise
      fun a b => sideOrder descending a.price b.price :=
    ((std.sorted comp _ hcomp).and hne).imp fun hab => hside _ _ hab.1 hab.2
  refine ⟨Lists.of_perm level_ext hperm hord, fun l hl => hlevels l ?_⟩
  exact List.mem_of_mem_filter (hperm.mem_iff.mp hl)

/-! ### The book -/

structure Refines (prices : Set ℚ) (b : OrderBook) (m : BookMap) : Prop where
  bids : SideRefines prices true b.bids m.bids
  asks : SideRefines prices false b.asks m.asks
  sequenceId : b.top.lastSequenceId = m.lastSequenceId
  mirrored : b.Mirrored

theorem refines_new (prices : Set ℚ) (exchange : Exchange) (pair : String) (now : TimePoint) :
    Refines prices (.new exchange pair now) {} :=
  ⟨⟨.empty, by simp [OrderBook.new]⟩, ⟨.empty, by simp [OrderBook.new]⟩, rfl,
    new_mirrored exchange pair now⟩

theorem Refines.apply (std : StdSort PriceLevel) {prices : Set ℚ} (hsep : Separated prices)
    {b : OrderBook} {m : BookMap} (h : Refines prices b m) {call : BookCall}
    (hprices : ∀ p ∈ call.prices, p ∈ prices) (hdistinct : call.Distinct) :
    Refines prices (b.apply std call) (m.apply call) := by
  have hmirror := apply_mirrored std call h.mirrored
  cases call with
  | applySnapshot bids asks sequenceId now =>
    have hbids : ∀ l ∈ bids, l.price ∈ prices := fun l hl =>
      hprices _ (List.mem_map_of_mem (List.mem_append_left _ hl))
    have hasks : ∀ l ∈ asks, l.price ∈ prices := fun l hl =>
      hprices _ (List.mem_map_of_mem (List.mem_append_right _ hl))
    refine ⟨?_, ?_, install_lastSequenceId .., hmirror⟩
    · refine sideRefines_reset std true (strictWeak_key fun l => OrderDual.toDual l.price) ?_
        hdistinct.1 hbids
      intro c d hcd hne
      exact lt_of_le_of_ne (not_lt.mp (of_decide_eq_false hcd)) hne.symm
    · refine sideRefines_reset std false (strictWeak_key fun l => l.price) ?_ hdistinct.2 hasks
      intro c d hcd hne
      exact lt_of_le_of_ne (not_lt.mp (of_decide_eq_false hcd)) hne
  | applyDelta bids asks sequenceId now =>
    have hbids : ∀ l ∈ bids, l.price ∈ prices := fun l hl =>
      hprices _ (List.mem_map_of_mem (List.mem_append_left _ hl))
    have hasks : ∀ l ∈ asks, l.price ∈ prices := fun l hl =>
      hprices _ (List.mem_map_of_mem (List.mem_append_right _ hl))
    simp only [OrderBook.apply, OrderBook.start, OrderBook.applyDelta, BookMap.apply] at hmirror ⊢
    rw [← h.sequenceId]
    by_cases hstale : sequenceId ≠ 0 ∧ sequenceId ≤ b.top.lastSequenceId
    · rw [if_pos hstale, if_pos hstale]
      exact h
    · rw [if_neg hstale] at hmirror
      rw [if_neg hstale, if_neg hstale]
      exact ⟨h.bids.updates hsep bids hbids, h.asks.updates hsep asks hasks,
        install_lastSequenceId .., hmirror⟩

theorem Refines.run (std : StdSort PriceLevel) {prices : Set ℚ} (hsep : Separated prices)
    (calls : List BookCall) {b : OrderBook} {m : BookMap} (h : Refines prices b m)
    (hprices : ∀ call ∈ calls, ∀ p ∈ call.prices, p ∈ prices)
    (hdistinct : ∀ call ∈ calls, call.Distinct) :
    Refines prices (calls.foldl (OrderBook.apply std) b) (calls.foldl BookMap.apply m) := by
  induction calls generalizing b m with
  | nil => exact h
  | cons call calls ih =>
    exact ih (h.apply std hsep (hprices call (List.mem_cons_self ..))
        (hdistinct call (List.mem_cons_self ..)))
      (fun c hc => hprices c (List.mem_cons_of_mem _ hc))
      (fun c hc => hdistinct c (List.mem_cons_of_mem _ hc))

/-- After every run the sides are the entries of the maps in strict price
order, and `snapshot` returns their first `min(depth, TOP_LEVELS)` levels. -/
theorem orderBook_refines_priceMap (std : StdSort PriceLevel) (exchange : Exchange) (pair : String)
    (now : TimePoint) (calls : List BookCall)
    (hsep : Separated {p | ∃ call ∈ calls, p ∈ call.prices})
    (hdistinct : ∀ call ∈ calls, call.Distinct) :
    let b := calls.foldl (OrderBook.apply std) (.new exchange pair now)
    let m := calls.foldl BookMap.apply {}
    Lists (· > ·) PriceLevel.price PriceLevel.quantity b.bids m.bids ∧
      Lists (· < ·) PriceLevel.price PriceLevel.quantity b.asks m.asks ∧
      ∀ depth : ℤ, 0 ≤ depth → ∃ snap, b.snapshot depth = some snap ∧
        snap.bids = b.bids.take (min depth 20).toNat ∧
        snap.asks = b.asks.take (min depth 20).toNat := by
  intro b m
  have h : Refines _ b m := (refines_new _ exchange pair now).run std hsep calls
    (fun call hcall p hp => ⟨call, hcall, hp⟩) hdistinct
  refine ⟨h.bids.lists, h.asks.lists, fun depth hdepth => ?_⟩
  obtain ⟨snap, hsnap, _, _, hbids, hasks, _⟩ := snapshot_mirrored h.mirrored hdepth
  exact ⟨snap, hsnap, hbids, hasks⟩

/-- A snapshot with an empty level, a delta that removes, overwrites and inserts
levels, and a stale delta. -/
def sampleCalls : List BookCall :=
  [.applySnapshot [⟨99, 2⟩, ⟨98, 0⟩, ⟨100, 1⟩] [⟨101, 3⟩] 7 0,
    .applyDelta [⟨99, 0⟩, ⟨97, 4⟩] [⟨101, 1⟩, ⟨101, 5⟩, ⟨102, 1⟩] 8 10,
    .applyDelta [⟨100, 0⟩] [] 8 20]

theorem sampleCalls_separated :
    ∀ p ∈ sampleCalls.flatMap BookCall.prices, ∀ q ∈ sampleCalls.flatMap BookCall.prices,
      p = q ∨ priceTolerance ≤ |p - q| := by
  decide +kernel

theorem sampleCalls_refine :
    let b := sampleCalls.foldl (OrderBook.apply .mergeSort) (.new .okx "BTC-USDT" 0)
    let m := sampleCalls.foldl BookMap.apply {}
    Lists (· > ·) PriceLevel.price PriceLevel.quantity b.bids m.bids ∧
      Lists (· < ·) PriceLevel.price PriceLevel.quantity b.asks m.asks ∧
      ∀ depth : ℤ, 0 ≤ depth → ∃ snap, b.snapshot depth = some snap ∧
        snap.bids = b.bids.take (min depth 20).toNat ∧
        snap.asks = b.asks.take (min depth 20).toNat := by
  refine orderBook_refines_priceMap .mergeSort .okx "BTC-USDT" 0 sampleCalls ?_ ?_
  · rintro p ⟨c, hc, hp⟩ q ⟨d, hd, hq⟩
    exact sampleCalls_separated p (List.mem_flatMap.mpr ⟨c, hc, hp⟩) q
      (List.mem_flatMap.mpr ⟨d, hd, hq⟩)
  · intro call hcall
    simp only [sampleCalls, List.mem_cons, List.not_mem_nil, or_false] at hcall
    rcases hcall with rfl | rfl | rfl
    · exact ⟨by decide +kernel, by decide +kernel⟩
    · trivial
    · trivial

end CryptoArbBot
