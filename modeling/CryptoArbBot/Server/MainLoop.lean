import CryptoArbBot.Server.MessageTypes
import CryptoArbBot.Strategy.MaxArbQuantity

/-!
# The fast path of the main loop (main.cpp)

Every 100 ms the loop sends the best prices of all books and, for each pair, the
spread of every two exchanges at the top of their books.
-/

namespace CryptoArbBot.MainLoop
open Assignments MessageTypes

/-- `m[k].push_back(v)`. -/
def pushBack {ν : Type} (m : List (String × List ν)) (k : String) (v : ν) : List (String × List ν) :=
  assign k ((m.lookup k).getD [] ++ [v]) m

def exchangePrice (now : TimePoint) (snap : OrderBookSnapshot) : ExchangePrice where
  exchange := snap.exchange.toString
  bid := (snap.bids.head?.map (·.price)).getD 0
  ask := (snap.asks.head?.map (·.price)).getD 0
  ageMs := SpreadDetector.ageMs now snap.localTimestamp

def allPrices (now : TimePoint) (snapshotsOf : String → List OrderBookSnapshot)
    (pairs : List String) : List (String × List ExchangePrice) :=
  pairs.foldl (fun m pair =>
    (snapshotsOf pair).foldl (fun m snap => pushBack m pair (exchangePrice now snap)) m) []

/-- The gross and the net spread at the top of two books. -/
def topSpread (fees : FeeManager) (pair : String) (buyBook sellBook : OrderBookSnapshot) :
    Option (ℚ × ℚ) :=
  match buyBook.asks, sellBook.bids with
  | topAsk :: _, topBid :: _ =>
    if topAsk.price ≤ 0 then none
    else
      let grossBps := (topBid.price - topAsk.price) / topAsk.price * 10000
      let feeRate := fees.totalFeeRate buyBook.exchange sellBook.exchange pair
      some (grossBps, grossBps - feeRate * 10000)
  | _, _ => none

/-- `spread_matrix[buyExch][sellExch] = bps`. -/
def setCell (m : SpreadMatrix) (buyExch sellExch : String) (bps : ℚ × ℚ) : SpreadMatrix :=
  assign buyExch (assign sellExch bps ((m.lookup buyExch).getD [])) m

/-- The body of the loops over `i` and `j`. -/
def fillCell (fees : FeeManager) (pair : String) (snapshots : List OrderBookSnapshot)
    (m : SpreadMatrix) (p : ℕ × ℕ) : SpreadMatrix :=
  match snapshots[p.1]?, snapshots[p.2]? with
  | some buyBook, some sellBook =>
    match topSpread fees pair buyBook sellBook with
    | some bps => setCell m buyBook.exchange.toString sellBook.exchange.toString bps
    | none => m
  | _, _ => m

def spreadMatrix (fees : FeeManager) (pair : String) (snapshots : List OrderBookSnapshot) :
    SpreadMatrix :=
  (indexPairs snapshots.length).foldl (fillCell fees pair snapshots) []

/-- What one fast tick broadcasts, in order. -/
def fastTick (now : TimePoint) (fees : FeeManager) (snapshotsOf : String → List OrderBookSnapshot)
    (pairs : List String) : List ServerMessage :=
  let spreads := pairs.filterMap fun pair =>
    let matrix := spreadMatrix fees pair (snapshotsOf pair)
    if (snapshotsOf pair).length < 2 ∨ matrix.isEmpty then none else some (.spreads pair matrix)
  let prices := allPrices now snapshotsOf pairs
  if prices.isEmpty then spreads else spreads ++ [.prices prices]

/-! ### The cells of the matrix -/

def cell (m : SpreadMatrix) (buyExch sellExch : String) : Option (ℚ × ℚ) :=
  (m.lookup buyExch).bind (·.lookup sellExch)

theorem cell_setCell (m : SpreadMatrix) (buyExch sellExch buyExch' sellExch' : String)
    (bps : ℚ × ℚ) :
    cell (setCell m buyExch sellExch bps) buyExch' sellExch' =
      if buyExch' = buyExch ∧ sellExch' = sellExch then some bps
      else cell m buyExch' sellExch' := by
  unfold cell setCell
  rw [lookup_assign]
  by_cases hbuy : buyExch' = buyExch
  · rw [if_pos hbuy, hbuy, Option.bind_some, lookup_assign]
    by_cases hsell : sellExch' = sellExch
    · rw [if_pos hsell, if_pos ⟨rfl, hsell⟩]
    · rw [if_neg hsell, if_neg fun h => hsell h.2]
      cases m.lookup buyExch with
      | none => rfl
      | some row => rfl
  · rw [if_neg hbuy, if_neg fun h => hbuy h.1]

/-- The rows and the columns are in order and named by exchanges. -/
structure Tidy (m : SpreadMatrix) : Prop where
  rows : Ordered m
  columns : ∀ row ∈ m, Ordered row.2
  names : ∀ row ∈ m, (∃ exch : Exchange, row.1 = exch.toString) ∧
    ∀ entry ∈ row.2, ∃ exch : Exchange, entry.1 = exch.toString

theorem tidy_nil : Tidy [] := ⟨.nil, nofun, nofun⟩

theorem Tidy.setCell {m : SpreadMatrix} (h : Tidy m) (buyExch sellExch : Exchange) (bps : ℚ × ℚ) :
    Tidy (setCell m buyExch.toString sellExch.toString bps) := by
  have hrow : ∀ row ∈ MainLoop.setCell m buyExch.toString sellExch.toString bps,
      row = (buyExch.toString,
        assign sellExch.toString bps ((m.lookup buyExch.toString).getD [])) ∨ row ∈ m :=
    fun row hmem => mem_assign hmem
  have hold : ∀ entry ∈ (m.lookup buyExch.toString).getD [],
      ∃ row ∈ m, entry ∈ row.2 ∧ (m.lookup buyExch.toString).getD [] = row.2 := by
    intro entry hentry
    cases hlookup : m.lookup buyExch.toString with
    | none =>
      rw [hlookup] at hentry
      cases hentry
    | some row =>
      rw [hlookup] at hentry
      exact ⟨(buyExch.toString, row), mem_of_lookup hlookup, hentry, rfl⟩
  refine ⟨h.rows.assign _ _, fun row hmem => ?_, fun row hmem => ?_⟩
  · rcases hrow row hmem with rfl | hmem
    · refine Ordered.assign ?_ _ _
      cases hlookup : m.lookup buyExch.toString with
      | none => exact .nil
      | some row => exact h.columns _ (mem_of_lookup hlookup)
    · exact h.columns row hmem
  · rcases hrow row hmem with rfl | hmem
    · refine ⟨⟨buyExch, rfl⟩, fun entry hentry => ?_⟩
      rcases mem_assign hentry with rfl | hentry
      · exact ⟨sellExch, rfl⟩
      · obtain ⟨row, hmem, hin, -⟩ := hold entry hentry
        exact (h.names row hmem).2 entry hin
    · exact h.names row hmem

theorem Tidy.fillCell {m : SpreadMatrix} (h : Tidy m) (fees : FeeManager) (pair : String)
    (snapshots : List OrderBookSnapshot) (p : ℕ × ℕ) : Tidy (fillCell fees pair snapshots m p) := by
  unfold MainLoop.fillCell
  split
  · split
    · exact h.setCell _ _ _
    · exact h
  · exact h

theorem tidy_spreadMatrix (fees : FeeManager) (pair : String) (snapshots : List OrderBookSnapshot) :
    Tidy (spreadMatrix fees pair snapshots) := by
  unfold spreadMatrix
  generalize indexPairs snapshots.length = ps
  induction ps using List.reverseRecOn with
  | nil => exact tidy_nil
  | append_singleton ps p ih =>
    rw [List.foldl_append]
    exact ih.fillCell fees pair snapshots p

theorem toString_injective : Function.Injective Exchange.toString := by
  intro exch exch' h
  revert h
  cases exch <;> cases exch' <;> simp [Exchange.toString]

section Cells
variable {fees : FeeManager} {pair : String} {snapshots : List OrderBookSnapshot}
  {i j : ℕ} {buyBook sellBook : OrderBookSnapshot}

theorem cell_fillCell_self (hi : snapshots[i]? = some buyBook) (hj : snapshots[j]? = some sellBook)
    (m : SpreadMatrix) :
    cell (fillCell fees pair snapshots m (i, j)) buyBook.exchange.toString sellBook.exchange.toString =
      (topSpread fees pair buyBook sellBook).or
        (cell m buyBook.exchange.toString sellBook.exchange.toString) := by
  simp only [fillCell, hi, hj]
  cases topSpread fees pair buyBook sellBook with
  | none => rfl
  | some bps => rw [cell_setCell, if_pos ⟨rfl, rfl⟩, Option.some_or]

variable (hexchanges : (snapshots.map (·.exchange)).Nodup)
include hexchanges

theorem index_eq {i' : ℕ} {book : OrderBookSnapshot} (hi : snapshots[i]? = some buyBook)
    (hi' : snapshots[i']? = some book) (hsame : book.exchange.toString = buyBook.exchange.toString) :
    i' = i := by
  by_contra hne
  exact exchange_ne_of_index hexchanges hne hi' hi (toString_injective hsame)

/-- Two other books never write the cell of these two. -/
theorem cell_fillCell_other (hi : snapshots[i]? = some buyBook) (hj : snapshots[j]? = some sellBook)
    {p : ℕ × ℕ} (hp : p ≠ (i, j)) (m : SpreadMatrix) :
    cell (fillCell fees pair snapshots m p) buyBook.exchange.toString sellBook.exchange.toString =
      cell m buyBook.exchange.toString sellBook.exchange.toString := by
  unfold fillCell
  split
  next buyBook' sellBook' hi' hj' =>
    split
    next bps _ =>
      rw [cell_setCell, if_neg]
      rintro ⟨hbuy, hsell⟩
      exact hp (Prod.ext (index_eq hexchanges hi hi' hbuy.symm) (index_eq hexchanges hj hj' hsell.symm))
    next => rfl
  next => rfl

theorem cell_spreadMatrix (hi : snapshots[i]? = some buyBook) (hj : snapshots[j]? = some sellBook)
    (hij : i ≠ j) :
    cell (spreadMatrix fees pair snapshots) buyBook.exchange.toString sellBook.exchange.toString =
      topSpread fees pair buyBook sellBook := by
  have hfold : ∀ ps : List (ℕ × ℕ), cell (ps.foldl (fillCell fees pair snapshots) [])
      buyBook.exchange.toString sellBook.exchange.toString =
        if (i, j) ∈ ps then topSpread fees pair buyBook sellBook else none := by
    intro ps
    induction ps using List.reverseRecOn with
    | nil => rfl
    | append_singleton ps p ih =>
      rw [List.foldl_append, List.foldl_cons, List.foldl_nil]
      by_cases hp : p = (i, j)
      · rw [hp, cell_fillCell_self hi hj, ih, if_pos (List.mem_append_right _ (List.mem_singleton_self _))]
        split
        · rw [Option.or_self]
        · rw [Option.or_none]
      · rw [cell_fillCell_other hexchanges hi hj hp, ih]
        simp only [List.mem_append, List.mem_singleton, Ne.symm hp, or_false]
  have hmem : (i, j) ∈ indexPairs snapshots.length :=
    mem_indexPairs.mpr ⟨(List.getElem?_eq_some_iff.mp hi).1, (List.getElem?_eq_some_iff.mp hj).1, hij⟩
  rw [spreadMatrix, hfold, if_pos hmem]

end Cells

/-! ### Against the detector -/

/-- No opportunity nets more than the top of its two books. -/
theorem examine_le_top {detector : SpreadDetector} {fees : FeeManager} {pair : String}
    {now : TimePoint} {buyBook sellBook : OrderBookSnapshot} {opp : ArbitrageOpportunity}
    (hbuy : SpreadDetector.Sorted buyBook ∧ buyBook.Positive)
    (hsell : SpreadDetector.Sorted sellBook ∧ sellBook.Positive)
    (h : detector.examine fees pair now buyBook sellBook = some opp) :
    ∃ grossBps netBps, topSpread fees pair buyBook sellBook = some (grossBps, netBps) ∧
      opp.netSpreadBps ≤ netBps := by
  have hopp := SpreadDetector.examine_some hbuy.1 hbuy.2 h
  have hdepthAsks := DepthAnalyzer.le_depth_of_fullyFillable hbuy.2.1 hopp.buyFillable
  have hdepthBids := DepthAnalyzer.le_depth_of_fullyFillable hsell.2.2 hopp.sellFillable
  have hnet : opp.netSpreadBps = DepthAnalyzer.netSpread buyBook.asks sellBook.bids
      (fees.totalFeeRate buyBook.exchange sellBook.exchange pair) opp.quantity := by
    rw [hopp.net, hopp.gross, hopp.buyPrice, hopp.sellPrice]
    rfl
  unfold topSpread
  cases hasks : buyBook.asks with
  | nil =>
    rw [hasks] at hdepthAsks
    exact absurd hopp.quantity (not_lt.mpr hdepthAsks)
  | cons topAsk asks =>
    cases hbids : sellBook.bids with
    | nil =>
      rw [hbids] at hdepthBids
      exact absurd hopp.quantity (not_lt.mpr hdepthBids)
    | cons topBid bids =>
      have hpositive : 0 < topAsk.price :=
        (hbuy.2.1 topAsk (by rw [hasks]; exact List.mem_cons_self ..)).1
      have hsortedAsks := hbuy.1.1
      have hsortedBids := hsell.1.2
      have hposAsks := hbuy.2.1
      have hposBids := hsell.2.2
      rw [hasks] at hsortedAsks hposAsks hdepthAsks hnet
      rw [hbids] at hsortedBids hposBids hdepthBids hnet
      dsimp only
      rw [if_neg hpositive.not_ge]
      refine ⟨_, _, rfl, ?_⟩
      rw [hnet]
      exact DepthAnalyzer.netSpread_le_top hsortedAsks hsortedBids hposAsks hposBids _ hopp.quantity
        hdepthAsks hdepthBids

/-- The matrix looks at the top of the books only. -/
theorem topSpread_congr {fees : FeeManager} {pair : String}
    {buyBook sellBook buyBook' sellBook' : OrderBookSnapshot} {n : ℕ}
    (hbuy : OrderBookAggregator.sides buyBook' =
      (buyBook.exchange, buyBook.bids.take (n + 1), buyBook.asks.take (n + 1)))
    (hsell : OrderBookAggregator.sides sellBook' =
      (sellBook.exchange, sellBook.bids.take (n + 1), sellBook.asks.take (n + 1))) :
    topSpread fees pair buyBook' sellBook' = topSpread fees pair buyBook sellBook := by
  simp only [OrderBookAggregator.sides, Prod.mk.injEq] at hbuy hsell
  obtain ⟨hbuyExch, -, hasks⟩ := hbuy
  obtain ⟨hsellExch, hbids, -⟩ := hsell
  unfold topSpread
  rw [hasks, hbids, hbuyExch, hsellExch]
  cases buyBook.asks with
  | nil => rfl
  | cons topAsk asks =>
    cases sellBook.bids with
    | nil => rfl
    | cons topBid bids => rfl

theorem fastTick_spreads {now : TimePoint} {fees : FeeManager}
    {snapshotsOf : String → List OrderBookSnapshot} {pairs : List String} {pair : String}
    (hpair : pair ∈ pairs) (hlength : 2 ≤ (snapshotsOf pair).length)
    (hmatrix : spreadMatrix fees pair (snapshotsOf pair) ≠ []) :
    ServerMessage.spreads pair (spreadMatrix fees pair (snapshotsOf pair)) ∈
        fastTick now fees snapshotsOf pairs ∧
      ∀ matrix, .spreads pair matrix ∈ fastTick now fees snapshotsOf pairs →
        matrix = spreadMatrix fees pair (snapshotsOf pair) := by
  have hmessage : ∀ m ∈ fastTick now fees snapshotsOf pairs,
      m ∈ (pairs.filterMap fun pair =>
        if (snapshotsOf pair).length < 2 ∨ (spreadMatrix fees pair (snapshotsOf pair)).isEmpty then none
        else some (ServerMessage.spreads pair (spreadMatrix fees pair (snapshotsOf pair)))) ∨
      ∃ prices, m = .prices prices := by
    intro m hm
    unfold fastTick at hm
    dsimp only at hm
    split at hm
    · exact .inl hm
    · rcases List.mem_append.mp hm with hspreads | hprices
      · exact .inl hspreads
      · exact .inr ⟨_, List.mem_singleton.mp hprices⟩
  constructor
  · have hmem : ServerMessage.spreads pair (spreadMatrix fees pair (snapshotsOf pair)) ∈
        pairs.filterMap fun pair =>
          if (snapshotsOf pair).length < 2 ∨ (spreadMatrix fees pair (snapshotsOf pair)).isEmpty then
            none
          else some (ServerMessage.spreads pair (spreadMatrix fees pair (snapshotsOf pair))) := by
      refine List.mem_filterMap.mpr ⟨pair, hpair, if_neg ?_⟩
      rw [not_or, not_lt, List.isEmpty_iff]
      exact ⟨hlength, hmatrix⟩
    unfold fastTick
    dsimp only
    split
    · exact hmem
    · exact List.mem_append_left _ hmem
  · intro matrix hm
    rcases hmessage _ hm with hspreads | ⟨prices, hprices⟩
    · obtain ⟨pair', _, heq⟩ := List.mem_filterMap.mp hspreads
      split at heq
      · cases heq
      · cases heq
        rfl
    · cases hprices

end CryptoArbBot.MainLoop
