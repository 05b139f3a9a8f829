import CryptoArbBot.Dashboard.DashboardRuns
import CryptoArbBot.Server.MainLoop

/-!
# The heat map against the detector

A cell of the heat map is the net spread that the main loop put into its matrix. It
is never below the net spread of an opportunity found in the same books, when the map
has a row and a column for the two exchanges.
-/

namespace CryptoArbBot.Dashboard
open Assignments MessageTypes MainLoop WsReceiver

/-! ### The routes of a matrix -/

def routes (m : SpreadMatrix) : List (String × Json) :=
  m.flatMap fun row => row.2.map fun entry => (route row.1 entry.1, bpsData entry.2)

theorem hyphen_not_mem (exch : Exchange) : '-' ∉ exch.toString.toList := by
  cases exch <;> simp [Exchange.toString]

theorem route_inj {buyExch sellExch buyExch' sellExch' : Exchange}
    (h : route buyExch.toString sellExch.toString = route buyExch'.toString sellExch'.toString) :
    buyExch = buyExch' ∧ sellExch = sellExch' := by
  have hlist : ∀ buy sell : String,
      (route buy sell).toList = buy.toList ++ '-' :: '>' :: sell.toList := by
    intro buy sell
    rw [route, String.toList_append, String.toList_append, List.append_assoc]
    rfl
  have hrest : '-' ∉ '>' :: sellExch.toString.toList :=
    List.not_mem_cons_of_ne_of_not_mem (by decide) (hyphen_not_mem sellExch)
  have hsplit := congrArg String.toList h
  rw [hlist, hlist, List.append_cons_inj_of_notMem (hyphen_not_mem _) hrest] at hsplit
  obtain ⟨hbuy, -, hsell⟩ := hsplit
  rw [List.cons.injEq] at hsell
  exact ⟨toString_injective (String.toList_inj.mp hbuy),
    toString_injective (String.toList_inj.mp hsell.2)⟩

variable {m : SpreadMatrix}

theorem routes_nodup (h : Tidy m) : ((routes m).map Prod.fst).Nodup := by
  rw [routes, List.map_flatMap, List.Nodup, List.pairwise_flatMap]
  constructor
  · intro row hrow
    obtain ⟨⟨buy, hbuy⟩, hcolumns⟩ := h.names row hrow
    rw [List.map_map, List.pairwise_map]
    refine (h.columns row hrow).imp_of_mem ?_
    rintro a b ha hb hlt heq
    obtain ⟨sell, hsell⟩ := hcolumns a ha
    obtain ⟨sell', hsell'⟩ := hcolumns b hb
    simp only [Function.comp_apply, hbuy, hsell, hsell'] at heq
    rw [hsell, hsell', (route_inj heq).2] at hlt
    exact lt_irrefl _ hlt
  · refine h.rows.imp_of_mem ?_
    rintro row row' hrow hrow' hlt key hkey key' hkey' rfl
    rw [List.map_map] at hkey hkey'
    obtain ⟨a, ha, rfl⟩ := List.mem_map.mp hkey
    obtain ⟨b, hb, heq⟩ := List.mem_map.mp hkey'
    obtain ⟨⟨buy, hbuy⟩, hcolumns⟩ := h.names row hrow
    obtain ⟨⟨buy', hbuy'⟩, hcolumns'⟩ := h.names row' hrow'
    obtain ⟨sell, hsell⟩ := hcolumns a ha
    obtain ⟨sell', hsell'⟩ := hcolumns' b hb
    simp only [Function.comp_apply, hbuy, hbuy', hsell, hsell'] at heq
    rw [hbuy, hbuy', (route_inj heq).1] at hlt
    exact lt_irrefl _ hlt

theorem mem_routes (h : Tidy m) (buyExch sellExch : Exchange) (v : Json) :
    (route buyExch.toString sellExch.toString, v) ∈ routes m ↔
      (cell m buyExch.toString sellExch.toString).map bpsData = some v := by
  constructor
  · intro hmem
    obtain ⟨row, hrow, hroute⟩ := List.mem_flatMap.mp hmem
    obtain ⟨entry, hentry, heq⟩ := List.mem_map.mp hroute
    obtain ⟨⟨buy, hbuy⟩, hcolumns⟩ := h.names row hrow
    obtain ⟨sell, hsell⟩ := hcolumns entry hentry
    rw [hbuy, hsell, Prod.mk.injEq] at heq
    obtain ⟨hsame, rfl⟩ := heq
    obtain ⟨rfl, rfl⟩ := route_inj hsame
    rw [cell, ← hbuy, lookup_of_mem h.rows.nodup (show (row.1, row.2) ∈ m from hrow),
      Option.bind_some, ← hsell, lookup_of_mem (h.columns row hrow).nodup
        (show (entry.1, entry.2) ∈ row.2 from hentry)]
    rfl
  · intro hcell
    obtain ⟨bps, hbps, rfl⟩ := Option.map_eq_some_iff.mp hcell
    obtain ⟨row, hrow, hentry⟩ := Option.bind_eq_some_iff.mp hbps
    exact List.mem_flatMap.mpr ⟨_, mem_of_lookup hrow,
      List.mem_map.mpr ⟨_, mem_of_lookup hentry, rfl⟩⟩

theorem member?_pairData (h : Tidy m) (buyExch sellExch : Exchange) :
    (pairData m).member? (route buyExch.toString sellExch.toString) =
      (cell m buyExch.toString sellExch.toString).map bpsData := by
  have hlookup : (pairData m).member? (route buyExch.toString sellExch.toString) =
      (routes m).lookup (route buyExch.toString sellExch.toString) :=
    member?_ofAssignments_of_nodup (routes_nodup h) _
  rw [hlookup]
  cases hcell : (cell m buyExch.toString sellExch.toString).map bpsData with
  | some v => exact lookup_of_mem (routes_nodup h) ((mem_routes h buyExch sellExch v).mpr hcell)
  | none =>
    rw [List.lookup_eq_none_iff]
    intro entry hentry
    rw [bne_iff_ne]
    rintro hkey
    have hmem : (route buyExch.toString sellExch.toString, entry.2) ∈ routes m := hkey ▸ hentry
    rw [mem_routes h, hcell] at hmem
    cases hmem

/-- A cell shows the net spread of the matrix, and 0 when there is none. -/
theorem netBps_pairData (h : Tidy m) (buyExch sellExch : Exchange) :
    netBps (pairData m) buyExch.toString sellExch.toString =
      ((cell m buyExch.toString sellExch.toString).map fun bps => Json.float bps.2).getD
        (.integer 0) := by
  rw [netBps, member?_pairData h]
  cases cell m buyExch.toString sellExch.toString with
  | none => rfl
  | some bps =>
    have hnet : (bpsData bps).member? "net_bps" = some (.float bps.2) := by
      simp [bpsData, Json.member?_ofInitializerList]
    obtain ⟨members, hmembers⟩ : ∃ members, bpsData bps = .object members := ⟨_, rfl⟩
    rw [hmembers, member?_object] at hnet
    rw [Option.map_some, Option.getD_some, hmembers]
    simp only [get, hnet, Option.map_some, Option.getD_some]

theorem spreadHeatmap_cell (pairSpreads : Json) {row col : ℕ} {buyExch sellExch : String}
    (hrow : exchangeNames[row]? = some buyExch) (hcol : exchangeNames[col]? = some sellExch)
    (hne : buyExch ≠ sellExch) :
    ((spreadHeatmap pairSpreads)[row]?.bind (·[col]?)) =
      some (some (netBps pairSpreads buyExch sellExch)) := by
  rw [spreadHeatmap, List.getElem?_map, hrow, Option.map_some, Option.bind_some, heatmapRow,
    List.getElem?_map, hcol, Option.map_some, if_neg hne]

/-! ### After a tick -/

theorem lastOf_append {α β : Type} (f : α → Option β) (earlier later : List α) :
    lastOf f (earlier ++ later) = (lastOf f later).or (lastOf f earlier) := by
  rw [lastOf, List.filterMap_append, List.getLast?_append]
  rfl

theorem lastOf_eq_some {α β : Type} {f : α → Option β} {log : List α} {a : α} {b : β} (ha : a ∈ log)
    (hab : f a = some b) (hall : ∀ a' ∈ log, ∀ b', f a' = some b' → b' = b) :
    lastOf f log = some b := by
  have hmem : b ∈ log.filterMap f := List.mem_filterMap.mpr ⟨a, ha, hab⟩
  rw [lastOf, List.getLast?_eq_some_getLast (List.ne_nil_of_mem hmem)]
  obtain ⟨a', ha', hlast⟩ := List.mem_filterMap.mp (List.getLast_mem (List.ne_nil_of_mem hmem))
  rw [hall a' ha' _ hlast]

/-- The same two books in the shallow snapshots of the main loop. -/
theorem exists_shallow {aggregator : OrderBookAggregator} {pair : String} {i : ℕ}
    {book : OrderBookSnapshot} (h : (aggregator.getPairSnapshots pair 20)[i]? = some book) :
    ∃ book', (aggregator.getPairSnapshots pair 5)[i]? = some book' ∧
      OrderBookAggregator.sides book' =
        (book.exchange, book.bids.take (4 + 1), book.asks.take (4 + 1)) := by
  have hmap := congrArg (·[i]?) (aggregator.getPairSnapshots_shallow pair (show 5 ≤ 20 by decide))
  simp only [List.getElem?_map, Option.map_map] at hmap
  rw [h] at hmap
  obtain ⟨book', hbook', hsides⟩ := Option.map_eq_some_iff.mp hmap
  exact ⟨book', hbook', hsides⟩

/-- After a fast tick on the books of a detection, whatever was sent before it; `row`
and `col` are those of its two exchanges. -/
theorem heatmap_covers_opportunity {aggregator : OrderBookAggregator} {fees : FeeManager}
    {detector : SpreadDetector} {clock : ℕ → ℕ → TimePoint} {now tick : TimePoint}
    {lastTradeTime : String → Option TimePoint} {opp : ArbitrageOpportunity} {pair : String}
    {pairs : List String} (hpair : pair ∈ pairs)
    (hbooks : ∀ snap ∈ aggregator.getPairSnapshots pair 20,
      SpreadDetector.Sorted snap ∧ snap.Positive)
    (hscan : (detector.scanPair fees pair clock now (aggregator.getPairSnapshots pair 20)
      lastTradeTime).1 = some opp)
    {loads : String → Option Json} {log : List ServerMessage} {events : List SocketEvent}
    (hcarries : Carries loads events
      (log ++ fastTick tick fees (aggregator.getPairSnapshots · 5) pairs)) (maxBuffer : ℕ)
    {row col : ℕ} (hrow : exchangeNames[row]? = some opp.buyExchange.toString)
    (hcol : exchangeNames[col]? = some opp.sellExchange.toString) :
    ∃ pairSpreads gross net,
      (Runs.run (WsReceiver.step loads) { maxBuffer } events).spreads.lookup pair =
        some pairSpreads ∧
      ((spreadHeatmap pairSpreads)[row]?.bind (·[col]?)) = some (some (.float net)) ∧
      cell (spreadMatrix fees pair (aggregator.getPairSnapshots pair 5)) opp.buyExchange.toString
        opp.sellExchange.toString = some (gross, net) ∧
      opp.netSpreadBps ≤ net := by
  obtain ⟨i, j, buyBook, sellBook, hij, hi, hj, hexamine⟩ := SpreadDetector.scanPair_some hscan
  obtain ⟨buyBook', hi', hbuySides⟩ := exists_shallow hi
  obtain ⟨sellBook', hj', hsellSides⟩ := exists_shallow hj
  obtain ⟨gross, net, htop, hle⟩ := examine_le_top (hbooks buyBook (List.mem_of_getElem? hi))
    (hbooks sellBook (List.mem_of_getElem? hj)) hexamine
  have hopp := SpreadDetector.examine_some (hbooks buyBook (List.mem_of_getElem? hi)).1
    (hbooks buyBook (List.mem_of_getElem? hi)).2 hexamine
  have hbuyExch : buyBook'.exchange = opp.buyExchange :=
    (congrArg Prod.fst hbuySides).trans hopp.buyExchange.symm
  have hsellExch : sellBook'.exchange = opp.sellExchange :=
    (congrArg Prod.fst hsellSides).trans hopp.sellExchange.symm
  have hnodup : ((aggregator.getPairSnapshots pair 5).map (·.exchange)).Nodup :=
    aggregator.shallow_nodup pair (show 5 ≤ 20 by decide)
  let matrix := spreadMatrix fees pair (aggregator.getPairSnapshots pair 5)
  have hcell : cell matrix opp.buyExchange.toString opp.sellExchange.toString = some (gross, net) := by
    rw [← hbuyExch, ← hsellExch, ← htop, ← topSpread_congr hbuySides hsellSides]
    exact cell_spreadMatrix hnodup hi' hj' hij
  have hmatrix : matrix ≠ [] := by
    intro hnil
    rw [hnil] at hcell
    cases hcell
  have hlength : 2 ≤ (aggregator.getPairSnapshots pair 5).length := by
    have hilt := (List.getElem?_eq_some_iff.mp hi').1
    have hjlt := (List.getElem?_eq_some_iff.mp hj').1
    omega
  obtain ⟨hsent, hunique⟩ :=
    @fastTick_spreads tick fees (aggregator.getPairSnapshots · 5) pairs pair hpair hlength hmatrix
  have hlast : lastOf (ServerMessage.spreads? pair)
      (log ++ fastTick tick fees (aggregator.getPairSnapshots · 5) pairs) = some matrix := by
    have htick : lastOf (ServerMessage.spreads? pair)
        (fastTick tick fees (aggregator.getPairSnapshots · 5) pairs) = some matrix := by
      refine lastOf_eq_some hsent (if_pos rfl) fun m hm matrix' hm' => ?_
      cases m with
      | spreads pair' matrix'' =>
        rw [ServerMessage.spreads?] at hm'
        split at hm'
        next heq =>
          cases hm'
          exact hunique _ (heq ▸ hm)
        next => cases hm'
      | _ => cases hm'
    rw [lastOf_append, htick, Option.some_or]
  have hshows := (shows_nil maxBuffer).run hcarries
  have hdistinct : opp.buyExchange.toString ≠ opp.sellExchange.toString := by
    rw [← hbuyExch, ← hsellExch]
    exact fun hsame => hij (index_eq hnodup hj' hi' hsame)
  refine ⟨pairData matrix, gross, net, ?_, ?_, hcell, hle⟩
  · have hlookup := hshows.spreads pair
    rw [List.nil_append, hlast] at hlookup
    exact hlookup
  · rw [spreadHeatmap_cell _ hrow hcol hdistinct, netBps_pairData (tidy_spreadMatrix _ _ _), hcell]
    rfl

/-! ### One route -/

def tradable : OrderBookAggregator :=
  (OrderBookAggregator.empty.applyTo .insertionSort .binance "BTC-USDT" 0
    (.applySnapshot [⟨99, 5⟩] [⟨100, 5⟩] 1 0)).applyTo .insertionSort .okx "BTC-USDT" 0
    (.applySnapshot [⟨102, 5⟩] [⟨132, 5⟩] 1 0)

def tradableMatrix : SpreadMatrix :=
  [("BINANCE", [("OKX", 200, 180)]), ("OKX", [("BINANCE", -2500, -2520)])]

def tradablePrices : List (String × List ExchangePrice) :=
  [("BTC-USDT", [⟨"BINANCE", 99, 100, 0⟩, ⟨"OKX", 102, 132, 0⟩])]

def spreadsText : String := String.join [
  "\x7b\"data\":\x7b\"BTC-USDT\":\x7b\"BINANCE->OKX\":\x7b\"gross_bps\":200.0,",
  "\"net_bps\":180.0\x7d,\"OKX->BINANCE\":\x7b\"gross_bps\":-2500.0,",
  "\"net_bps\":-2520.0\x7d\x7d\x7d,\"timestamp\":\"2024-01-01T00:00:00.000Z\",",
  "\"type\":\"spreads\"\x7d"]

def pricesText : String := String.join [
  "\x7b\"data\":\x7b\"BTC-USDT\":[\x7b\"age_ms\":0,\"ask\":100.0,\"bid\":99.0,",
  "\"exchange\":\"BINANCE\"\x7d,\x7b\"age_ms\":0,\"ask\":132.0,\"bid\":102.0,",
  "\"exchange\":\"OKX\"\x7d]\x7d,\"timestamp\":\"2024-01-01T00:00:00.000Z\",",
  "\"type\":\"prices\"\x7d"]

def tickLoads (text : String) : Option Json :=
  if text = spreadsText then
    some ((ServerMessage.spreads "BTC-USDT" tradableMatrix).envelope beatTime)
  else if text = pricesText then some ((ServerMessage.prices tradablePrices).envelope beatTime)
  else none

theorem tradable_tick : fastTick 0 {} (tradable.getPairSnapshots · 5) ["BTC-USDT"] =
    [.spreads "BTC-USDT" tradableMatrix, .prices tradablePrices] := by decide +kernel

theorem tradable_sorted_positive : ∀ snap ∈ tradable.getPairSnapshots "BTC-USDT" 20,
    SpreadDetector.Sorted snap ∧ snap.Positive := by
  have hsnaps : tradable.getPairSnapshots "BTC-USDT" 20 =
      [{ SpreadDetector.singleLevels .binance 99 100 5 with sequenceId := 1 },
        { SpreadDetector.singleLevels .okx 102 132 5 with sequenceId := 1 }] := by decide +kernel
  rw [hsnaps]
  intro snap hsnap
  simp only [List.mem_cons, List.not_mem_nil, or_false] at hsnap
  rcases hsnap with rfl | rfl
  · exact SpreadDetector.singleLevels_sorted_positive .binance (by norm_num) (by norm_num) (by norm_num)
  · exact SpreadDetector.singleLevels_sorted_positive .okx (by norm_num) (by norm_num) (by norm_num)

theorem tradable_covered : ∃ pairSpreads gross net,
    (Runs.run (WsReceiver.step tickLoads) { maxBuffer := 1000 }
      [.message 0 spreadsText, .message 0 pricesText]).spreads.lookup "BTC-USDT" = some pairSpreads ∧
    ((spreadHeatmap pairSpreads)[0]?.bind (·[1]?)) = some (some (.float net)) ∧
    cell (spreadMatrix {} "BTC-USDT" (tradable.getPairSnapshots "BTC-USDT" 5)) "BINANCE" "OKX" =
      some (gross, net) ∧ 180 ≤ net := by
  have hcarries : Carries tickLoads [.message 0 spreadsText, .message 0 pricesText]
      ([] ++ fastTick 0 {} (tradable.getPairSnapshots · 5) ["BTC-USDT"]) := by
    rw [tradable_tick]
    exact .message 0 (if_pos rfl) (.message 0 ((if_neg (by decide +kernel)).trans (if_pos rfl)) .nil)
  exact heatmap_covers_opportunity (List.mem_singleton_self "BTC-USDT") tradable_sorted_positive
    (show ((SpreadDetector.mk 3 50 250).scanPair {} "BTC-USDT" (fun _ _ => 0) 0
      (tradable.getPairSnapshots "BTC-USDT" 20) (fun _ => none)).1 =
        some SpreadDetector.cappedOpportunity by decide +kernel) hcarries 1000 rfl rfl

end CryptoArbBot.Dashboard
