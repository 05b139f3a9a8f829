import CryptoArbBot.OrderBook.Publication

/-!
# The order book aggregator (orderbook/order_book_aggregator.cpp)

For each pair an array with a book for each exchange that has one. A book is
stored under its own exchange and pair and its published arrays mirror its
sides.
-/

namespace CryptoArbBot

/-- The indices of an enum-indexed array, in order. -/
def Exchange.ids : List Exchange := [.binance, .okx, .bybit, .mexc, .gateio]

structure OrderBookAggregator where
  books : String → Exchange → Option OrderBook
  keyed : ∀ pair exch book, books pair exch = some book →
    book.exchange = exch ∧ book.pair = pair ∧ book.Mirrored

namespace OrderBookAggregator

def empty : OrderBookAggregator where
  books _ _ := none
  keyed _ _ _ h := by cases h

def getBook (aggregator : OrderBookAggregator) (exch : Exchange) (pair : String) : Option OrderBook :=
  aggregator.books pair exch

def bookOrNew (aggregator : OrderBookAggregator) (exch : Exchange) (pair : String)
    (now : TimePoint) : OrderBook :=
  (aggregator.getBook exch pair).getD (.new exch pair now)

theorem bookOrNew_keyed (aggregator : OrderBookAggregator) (exch : Exchange) (pair : String)
    (now : TimePoint) :
    (aggregator.bookOrNew exch pair now).exchange = exch ∧
      (aggregator.bookOrNew exch pair now).pair = pair ∧
      (aggregator.bookOrNew exch pair now).Mirrored := by
  unfold bookOrNew getBook
  cases hbook : aggregator.books pair exch with
  | none => exact ⟨rfl, rfl, new_mirrored exch pair now⟩
  | some book => exact aggregator.keyed pair exch book hbook

/-- `get_or_create_book`: the slot holds a book afterwards, no other slot changes. -/
def getOrCreateBook (aggregator : OrderBookAggregator) (exch : Exchange) (pair : String)
    (now : TimePoint) : OrderBookAggregator where
  books pair' exch' :=
    if pair' = pair ∧ exch' = exch then some (aggregator.bookOrNew exch pair now)
    else aggregator.books pair' exch'
  keyed pair' exch' book h := by
    split at h
    next hkey =>
      obtain ⟨rfl, rfl⟩ := hkey
      cases h
      exact aggregator.bookOrNew_keyed exch' pair' now
    next => exact aggregator.keyed pair' exch' book h

theorem apply_exchange_pair (std : StdSort PriceLevel) (book : OrderBook) (call : BookCall) :
    (book.apply std call).exchange = book.exchange ∧ (book.apply std call).pair = book.pair := by
  unfold OrderBook.apply
  rcases start_cases std call book with hgive | ⟨bids, asks, sequenceId, now, hinstall⟩
  · rw [hgive]
    exact ⟨rfl, rfl⟩
  · rw [hinstall]
    exact ⟨rfl, rfl⟩

/-- A writer call on `get_or_create_book(exch, pair)`; a book created for it
reads the clock at `created`. -/
def applyTo (std : StdSort PriceLevel) (aggregator : OrderBookAggregator) (exch : Exchange)
    (pair : String) (created : TimePoint) (call : BookCall) : OrderBookAggregator where
  books pair' exch' :=
    if pair' = pair ∧ exch' = exch then
      some ((aggregator.bookOrNew exch pair created).apply std call)
    else aggregator.books pair' exch'
  keyed pair' exch' book h := by
    split at h
    next hkey =>
      obtain ⟨hpair, hexch⟩ := hkey
      subst hpair hexch
      cases h
      obtain ⟨hexchange, hname, hmirrored⟩ := aggregator.bookOrNew_keyed exch' pair' created
      obtain ⟨hsame, hsame'⟩ := apply_exchange_pair std (aggregator.bookOrNew exch' pair' created) call
      exact ⟨hsame.trans hexchange, hsame'.trans hname, apply_mirrored std call hmirrored⟩
    next => exact aggregator.keyed pair' exch' book h

/-- `get_pair_snapshots`, with every book at rest while it is read. -/
def getPairSnapshots (aggregator : OrderBookAggregator) (pair : String) (depth : ℤ) :
    List OrderBookSnapshot :=
  Exchange.ids.filterMap fun exch => (aggregator.getBook exch pair).bind (·.snapshot depth)

/-- The exchange and the sides of a snapshot. -/
def sides (snap : OrderBookSnapshot) : Exchange × List PriceLevel × List PriceLevel :=
  (snap.exchange, snap.bids, snap.asks)

theorem getPairSnapshots_sides_of_nonneg (aggregator : OrderBookAggregator) (pair : String) {depth : ℤ}
    (hdepth : 0 ≤ depth) :
    (aggregator.getPairSnapshots pair depth).map sides =
      Exchange.ids.filterMap fun exch =>
        (aggregator.books pair exch).map fun book =>
          (exch, book.bids.take (min depth 20).toNat, book.asks.take (min depth 20).toNat) := by
  rw [getPairSnapshots, List.map_filterMap]
  refine List.filterMap_congr ?_
  intro exch _
  rw [getBook]
  cases hbook : aggregator.books pair exch with
  | none => rfl
  | some book =>
    obtain ⟨hexch, _, hmirrored⟩ := aggregator.keyed pair exch book hbook
    obtain ⟨snap, hsnap, hsnapExch, _, hbids, hasks, _⟩ := snapshot_mirrored hmirrored hdepth
    simp only [Option.bind_some, hsnap, Option.map_some, sides, hsnapExch, hexch, hbids, hasks]

theorem getPairSnapshots_sides (aggregator : OrderBookAggregator) (pair : String) :
    (aggregator.getPairSnapshots pair 20).map sides =
      Exchange.ids.filterMap fun exch =>
        (aggregator.books pair exch).map fun book => (exch, book.bids.take 20, book.asks.take 20) :=
  aggregator.getPairSnapshots_sides_of_nonneg pair (show (0 : ℤ) ≤ 20 by decide)

/-- The snapshots at a smaller depth have the first levels of the same books. -/
theorem getPairSnapshots_shallow (aggregator : OrderBookAggregator) (pair : String) {n : ℕ}
    (hn : n ≤ 20) :
    (aggregator.getPairSnapshots pair n).map sides =
      ((aggregator.getPairSnapshots pair 20).map sides).map fun s =>
        (s.1, s.2.1.take n, s.2.2.take n) := by
  have hmin : (min (n : ℤ) 20).toNat = n := by omega
  rw [getPairSnapshots_sides_of_nonneg aggregator pair (Int.natCast_nonneg n), getPairSnapshots_sides,
    List.map_filterMap, hmin]
  refine List.filterMap_congr ?_
  intro exch _
  cases aggregator.books pair exch with
  | none => rfl
  | some book => simp only [Option.map_some, List.take_take, min_eq_left hn]

/-- Each exchange has at most one snapshot of a pair. -/
theorem getPairSnapshots_nodup (aggregator : OrderBookAggregator) (pair : String) :
    ((aggregator.getPairSnapshots pair 20).map (·.exchange)).Nodup := by
  have hids : Exchange.ids.Nodup := by decide
  have hmap : (aggregator.getPairSnapshots pair 20).map (·.exchange) =
      ((aggregator.getPairSnapshots pair 20).map sides).map Prod.fst := by
    rw [List.map_map]
    rfl
  rw [hmap, getPairSnapshots_sides, List.map_filterMap]
  refine hids.sublist ?_
  induction Exchange.ids with
  | nil => exact .slnil
  | cons exch ids ih =>
    rw [List.filterMap_cons]
    cases aggregator.books pair exch with
    | none => exact ih.cons exch
    | some book => exact ih.cons_cons exch

theorem shallow_nodup (aggregator : OrderBookAggregator) (pair : String) {n : ℕ} (hn : n ≤ 20) :
    ((aggregator.getPairSnapshots pair n).map (·.exchange)).Nodup := by
  have hsame : (aggregator.getPairSnapshots pair n).map (·.exchange) =
      (aggregator.getPairSnapshots pair 20).map (·.exchange) := by
    have hsides := congrArg (List.map Prod.fst) (aggregator.getPairSnapshots_shallow pair hn)
    simp only [List.map_map] at hsides
    exact hsides
  rw [hsame]
  exact aggregator.getPairSnapshots_nodup pair

theorem mem_getPairSnapshots {aggregator : OrderBookAggregator} {pair : String}
    {snap : OrderBookSnapshot} (h : snap ∈ aggregator.getPairSnapshots pair 20) :
    (aggregator.books pair snap.exchange).isSome := by
  have hsides : sides snap ∈ (aggregator.getPairSnapshots pair 20).map sides :=
    List.mem_map_of_mem h
  rw [getPairSnapshots_sides] at hsides
  obtain ⟨exch, _, hbook⟩ := List.mem_filterMap.mp hsides
  obtain ⟨book, hbooks, hsame⟩ := Option.map_eq_some_iff.mp hbook
  have hexch : exch = snap.exchange := congrArg Prod.fst hsame
  rw [← hexch, hbooks]
  rfl

end OrderBookAggregator

/-! ### Pairs of snapshots -/

/-- The two loops over `i` and `j` with `i == j` skipped. -/
def indexPairs (n : ℕ) : List (ℕ × ℕ) :=
  ((List.range n).flatMap fun i => (List.range n).map fun j => (i, j)).filter fun p => p.1 ≠ p.2

theorem mem_indexPairs {n i j : ℕ} : (i, j) ∈ indexPairs n ↔ i < n ∧ j < n ∧ i ≠ j := by
  simp [indexPairs, and_assoc]

/-- Two snapshots of different exchanges, when each exchange has at most one. -/
theorem exchange_ne_of_index {snapshots : List OrderBookSnapshot}
    (hexchanges : (snapshots.map (·.exchange)).Nodup) {i j : ℕ} (hij : i ≠ j)
    {buyBook sellBook : OrderBookSnapshot} (hi : snapshots[i]? = some buyBook)
    (hj : snapshots[j]? = some sellBook) : buyBook.exchange ≠ sellBook.exchange := by
  intro hsame
  obtain ⟨hilt, _⟩ := List.getElem?_eq_some_iff.mp hi
  have hmap : (snapshots.map (·.exchange))[i]? = (snapshots.map (·.exchange))[j]? := by
    rw [List.getElem?_map, List.getElem?_map, hi, hj, Option.map_some, Option.map_some, hsame]
  exact hij ((List.getElem?_inj (by rwa [List.length_map]) hexchanges).mp hmap)

end CryptoArbBot
