import CryptoArbBot.Execution.PaperSolvency
import CryptoArbBot.Library.Tallies
import CryptoArbBot.Persistence.TornAppend
import CryptoArbBot.Server.MessageTypes

/-!
# The figures of a paper session (main.cpp)

Every two seconds the loop sends the P&L that the executor keeps in memory beside
figures read from the trade log: the P&L of each pair, the fees and the win rate.
When each append stores its line, the two agree.
-/

namespace CryptoArbBot.PaperSession
open Assignments MessageTypes PaperExecutor TradeLogger

/-! ### The slow path -/

structure TradeStats where
  winningTrades : ℤ := 0
  totalFees : ℚ := 0
  feesPerExchange : List (String × ℚ) := []

/-- The body of the loop over `all_trades`. -/
def addTrade (stats : TradeStats) (t : TradeRecord) : TradeStats where
  winningTrades := if t.realizedPnl > 0 then stats.winningTrades + 1 else stats.winningTrades
  totalFees := stats.totalFees + (t.buyResult.feePaid + t.sellResult.feePaid)
  feesPerExchange :=
    Tallies.add t.sellExchange.toString t.sellResult.feePaid
      (Tallies.add t.buyExchange.toString t.buyResult.feePaid stats.feesPerExchange)

/-- `static_cast<int>(all_trades.size())`. -/
def tradeCount (trades : List TradeRecord) : ℤ := (trades.length : ℤ).bmod (2 ^ 32)

def winRate (winningTrades totalTrades : ℤ) : ℚ :=
  if totalTrades > 0 then 100 * winningTrades / totalTrades else 0

/-- The P&L message of a slow tick; `totalPnl` is the `get_virtual_pnl()` of the executor. -/
def pnlStats (parse : String → Except String Json) (file : Option String) (totalPnl : ℚ)
    (pairs : List String) : PnlStats :=
  let trades := loadAllTrades parse file
  let stats := trades.foldl addTrade {}
  { totalPnl
    pnlPerPair := assignAll (pairs.map fun pair => (pair, pnlForPair parse file pair)) []
    totalTrades := tradeCount trades
    winRate := winRate stats.winningTrades (tradeCount trades)
    totalFees := stats.totalFees
    feesPerExchange := stats.feesPerExchange }

/-! ### The statistics of a list of trades -/

/-- The fees of a trade, each with the name it is added under. -/
def feeEntries (t : TradeRecord) : List (String × ℚ) :=
  [(t.buyExchange.toString, t.buyResult.feePaid), (t.sellExchange.toString, t.sellResult.feePaid)]

def wins (trades : List TradeRecord) : ℕ := (trades.filter fun t => t.realizedPnl > 0).length

theorem addTrade_foldl (trades : List TradeRecord) :
    trades.foldl addTrade {} =
      { winningTrades := wins trades
        totalFees := ((trades.flatMap feeEntries).map Prod.snd).sum
        feesPerExchange := Tallies.tally Prod.fst Prod.snd (trades.flatMap feeEntries) } := by
  induction trades using List.reverseRecOn with
  | nil => rfl
  | append_singleton trades t ih =>
    rw [List.foldl_append, ih, List.flatMap_append, List.foldl_cons, List.foldl_nil, addTrade,
      TradeStats.mk.injEq]
    refine ⟨?_, ?_, ?_⟩
    · by_cases hwin : t.realizedPnl > 0
      · simp [wins, hwin]
      · simp [wins, hwin]
    · simp [feeEntries]
    · rw [Tallies.tally, Tallies.tally, List.foldl_append]
      rfl

theorem sum_over_pairs {pairs : List String} (hpairs : pairs.Nodup) {trades : List TradeRecord}
    (hall : ∀ t ∈ trades, t.pair ∈ pairs) :
    (pairs.map fun pair => ((trades.filter (·.pair = pair)).map (·.realizedPnl)).sum).sum =
      (trades.map (·.realizedPnl)).sum := by
  induction trades with
  | nil => simp
  | cons t trades ih =>
    have hrest := ih fun t' ht' => hall t' (List.mem_cons_of_mem _ ht')
    have hone : (pairs.map fun pair => if t.pair = pair then t.realizedPnl else 0).sum =
        t.realizedPnl := by
      have hpair : t.pair ∈ pairs := hall t (List.mem_cons_self ..)
      rw [List.sum_map_eq_nsmul_single t.pair _ fun pair hne _ => if_neg hne.symm,
        List.count_eq_one_of_mem hpairs hpair, one_nsmul, if_pos rfl]
    have hsplit : ∀ pair : String, (((t :: trades).filter (·.pair = pair)).map (·.realizedPnl)).sum =
        (if t.pair = pair then t.realizedPnl else 0) +
          ((trades.filter (·.pair = pair)).map (·.realizedPnl)).sum := by
      intro pair
      by_cases hpair : t.pair = pair
      · simp [hpair]
      · simp [hpair]
    simp only [hsplit]
    rw [List.sum_map_add, hone, hrest, List.map_cons, List.sum_cons]

/-- The figures of one message agree with each other and with the trades. -/
structure AddsUp (trades : List TradeRecord) (stats : PnlStats) : Prop where
  totalPnl : stats.totalPnl = (trades.map (·.realizedPnl)).sum
  pairs : (stats.pnlPerPair.map Prod.snd).sum = stats.totalPnl
  totalFees : stats.totalFees =
    (trades.map fun t => t.buyResult.feePaid + t.sellResult.feePaid).sum
  exchanges : (stats.feesPerExchange.map Prod.snd).sum = stats.totalFees
  fees : Tallies.Sums stats.feesPerExchange
    (Tallies.sumOf Prod.fst Prod.snd (trades.flatMap feeEntries))
  counted : trades.length < 2 ^ 31 → stats.totalTrades = trades.length ∧
    stats.winRate * trades.length = 100 * wins trades ∧ 0 ≤ stats.winRate ∧ stats.winRate ≤ 100

theorem winRate_spec (trades : List TradeRecord) :
    winRate (wins trades) trades.length * trades.length = 100 * wins trades ∧
      0 ≤ winRate (wins trades) trades.length ∧ winRate (wins trades) trades.length ≤ 100 := by
  have hwins : wins trades ≤ trades.length := List.length_filter_le _ _
  unfold winRate
  by_cases hpos : 0 < trades.length
  · have hcast : (0 : ℚ) < trades.length := Nat.cast_pos.mpr hpos
    have hle : (wins trades : ℚ) ≤ trades.length := Nat.cast_le.mpr hwins
    rw [if_pos (Int.natCast_pos.mpr hpos)]
    push_cast
    refine ⟨div_mul_cancel₀ _ hcast.ne', by positivity, ?_⟩
    rw [div_le_iff₀ hcast]
    exact mul_le_mul_of_nonneg_left hle (by norm_num)
  · have hzero : trades.length = 0 := by omega
    have hnone : wins trades = 0 := by omega
    rw [hzero, hnone]
    norm_num

theorem tradeCount_eq {trades : List TradeRecord} (h : trades.length < 2 ^ 31) :
    tradeCount trades = trades.length :=
  Int.bmod_eq_of_le_mul_two (by norm_num; omega) (by norm_num; omega)

theorem sum_feeEntries (trades : List TradeRecord) :
    ((trades.flatMap feeEntries).map Prod.snd).sum =
      (trades.map fun t => t.buyResult.feePaid + t.sellResult.feePaid).sum := by
  induction trades with
  | nil => rfl
  | cons t trades ih =>
    rw [List.flatMap_cons, List.map_append, List.sum_append, ih, List.map_cons, List.sum_cons]
    simp [feeEntries]

theorem pnlStats_addsUp {parse : String → Except String Json} {file : Option String}
    {trades : List TradeRecord} (hload : loadAllTrades parse file = trades) {totalPnl : ℚ}
    (hpnl : totalPnl = (trades.map (·.realizedPnl)).sum) {pairs : List String} (hpairs : pairs.Nodup)
    (hall : ∀ t ∈ trades, t.pair ∈ pairs) : AddsUp trades (pnlStats parse file totalPnl pairs) := by
  have hstats := addTrade_foldl trades
  unfold pnlStats
  dsimp only
  rw [hload, hstats]
  refine ⟨hpnl, ?_, ?_, ?_, Tallies.tally_sums _ _ _, fun hlength => ?_⟩
  · have hkeys : ((pairs.map fun pair => (pair, pnlForPair parse file pair)).map Prod.fst).Nodup := by
      rw [List.map_map]
      exact (List.map_id pairs).symm ▸ hpairs
    show ((assignAll (pairs.map fun pair => (pair, pnlForPair parse file pair)) []).map Prod.snd).sum =
      totalPnl
    rw [((perm_assignAll hkeys).map Prod.snd).sum_eq, List.map_map, hpnl, ← sum_over_pairs hpairs hall]
    simp only [Function.comp_def, pnlForPair_eq, hload]
  · exact sum_feeEntries trades
  · exact Tallies.sum_tally _ _ _
  · have hcount := tradeCount_eq hlength
    rw [hcount]
    exact ⟨rfl, winRate_spec trades⟩

/-! ### Runs -/

/-- The executor and its log, with the records of the calls that traded. -/
structure Session where
  executor : PaperState
  file : Option String := none
  records : List TradeRecord := []

/-- A call of `execute` with what the system does with its append, or a rebalance. -/
inductive SessionAction where
  | execute (opp : ArbitrageOpportunity) (inputs : Inputs) (call : Append)
  | rebalance

/-- The call gets as far as `log_trade`. -/
def reachesLog (opp : ArbitrageOpportunity) (inputs : Inputs) (st : PaperState) : Bool :=
  checkQuote st opp && checkBase st opp && inputs.buyBook.isSome && inputs.sellBook.isSome

def step (dump : Json → String) (s : Session) : SessionAction → Session
  | .execute opp inputs call =>
    let (record, executor) := PaperExecutor.execute opp inputs s.executor
    if reachesLog opp inputs s.executor then
      { executor
        file := logTrade dump call s.file record
        records := s.records ++ [record] }
    else { s with executor }
  | .rebalance => { s with executor := PaperExecutor.rebalance s.executor }

/-- A record that is logged can be read back, and its line is written whole. -/
def Stored (dump : Json → String) (parse : String → Except String Json) (s : Session) :
    SessionAction → Prop
  | .execute opp inputs call =>
    reachesLog opp inputs s.executor = true →
      Loadable dump parse (PaperExecutor.execute opp inputs s.executor).1 ∧
        Append.full dump (call, (PaperExecutor.execute opp inputs s.executor).1) = true
  | .rebalance => True

structure InStep (dump : Json → String) (parse : String → Except String Json) (pairs : List String)
    (s : Session) : Prop where
  framed : Framed s.file (s.records.map (jsonLine dump)) ""
  totalPnl : s.executor.totalPnl = (s.records.map (·.realizedPnl)).sum
  loadable : ∀ record ∈ s.records, Loadable dump parse record
  pairs : ∀ record ∈ s.records, record.pair ∈ pairs

variable {dump : Json → String} {parse : String → Except String Json} {pairs : List String}
  {s : Session}

theorem settled_totalPnl (st : PaperState) (opp : ArbitrageOpportunity) (inputs : Inputs)
    (buySnap sellSnap : OrderBookSnapshot) :
    (settled st opp inputs buySnap sellSnap).totalPnl =
      st.totalPnl + (tradeRecord opp inputs buySnap sellSnap).realizedPnl := rfl

theorem InStep.step (h : InStep dump parse pairs s) {action : SessionAction}
    (hpair : ∀ opp inputs call, action = .execute opp inputs call → opp.pair ∈ pairs)
    (hstored : Stored dump parse s action) : InStep dump parse pairs (step dump s action) := by
  cases action with
  | rebalance => exact ⟨h.framed, (totalPnl_rebalance _).trans h.totalPnl, h.loadable, h.pairs⟩
  | execute opp inputs call =>
    simp only [PaperSession.step]
    rcases execute_cases opp inputs s.executor with
      ⟨hfree, -, -, hsame⟩ | ⟨buySnap, sellSnap, hbuy, hsell, hquote, hbase, hexecute⟩
    · have hreach : reachesLog opp inputs s.executor = false := by
        unfold reachesLog
        rcases hfree with hfree | hfree | hfree | hfree
        · simp [hfree]
        · simp [hfree]
        · simp [hfree]
        · simp [hfree]
      rw [if_neg (by rw [hreach]; exact Bool.false_ne_true), hsame]
      exact ⟨h.framed, h.totalPnl, h.loadable, h.pairs⟩
    · have hreach : reachesLog opp inputs s.executor = true := by
        simp [reachesLog, hquote, hbase, hbuy, hsell]
      obtain ⟨hloadable, hfull⟩ := hstored hreach
      have hpnl : (PaperExecutor.execute opp inputs s.executor).2.totalPnl =
          s.executor.totalPnl + (PaperExecutor.execute opp inputs s.executor).1.realizedPnl := by
        rw [hexecute]
        exact settled_totalPnl s.executor opp inputs buySnap sellSnap
      have hnamed : (PaperExecutor.execute opp inputs s.executor).1.pair = opp.pair := by
        rw [hexecute]
        rfl
      rw [if_pos hreach]
      generalize PaperExecutor.execute opp inputs s.executor = result at hpnl hnamed hloadable hfull ⊢
      have hframed :=
        @Framed.log_full dump s.file _ _ h.framed (call, result.1) hloadable.dumps.oneLine hfull
      rw [String.empty_append] at hframed
      refine ⟨?_, ?_, ?_, ?_⟩
      · rw [List.map_append]
        exact hframed
      · rw [List.map_append, List.sum_append, ← h.totalPnl, List.map_singleton, List.sum_singleton]
        exact hpnl
      · intro record hrecord
        rcases List.mem_append.mp hrecord with hold | hlast
        · exact h.loadable record hold
        · rw [List.mem_singleton.mp hlast]
          exact hloadable
      · intro record hrecord
        rcases List.mem_append.mp hrecord with hold | hlast
        · exact h.pairs record hold
        · rw [List.mem_singleton.mp hlast, hnamed]
          exact hpair opp inputs call rfl

theorem InStep.loaded (h : InStep dump parse pairs s) (hempty : ∀ j, parse "" ≠ .ok j) :
    loadAllTrades parse s.file = s.records := by
  have hlines : (s.records.map (jsonLine dump)).filterMap (loadLine parse) = s.records := by
    rw [List.filterMap_map]
    refine (List.filterMap_congr fun record hrecord => ?_).trans List.filterMap_some
    obtain ⟨hdumps, hbuy, hsell⟩ := h.loadable record hrecord
    exact loadLine_jsonLine hempty hdumps hbuy hsell
  rw [h.framed.loaded, List.filterMap_append, hlines]
  exact List.append_nil _

theorem inStep_construct (initialBalances : AssetMap) (activeExchanges : List Exchange) :
    InStep dump parse pairs { executor := construct initialBalances activeExchanges } := by
  have hpnl : (construct initialBalances activeExchanges).totalPnl = 0 := by
    unfold construct
    split
    · rfl
    · rfl
  exact ⟨framed_none, hpnl, List.forall_mem_nil _, List.forall_mem_nil _⟩

/-- The pairs traded are among the monitored ones. -/
theorem session_adds_up (hempty : ∀ j, parse "" ≠ .ok j) (initialBalances : AssetMap)
    (activeExchanges : List Exchange) {actions : List SessionAction} (hpairs : pairs.Nodup)
    (hmonitored : ∀ opp inputs call, .execute opp inputs call ∈ actions → opp.pair ∈ pairs)
    (hstored : Runs.Along (step dump) (Stored dump parse)
      { executor := construct initialBalances activeExchanges } actions) :
    let s := Runs.run (step dump) { executor := construct initialBalances activeExchanges } actions
    loadAllTrades parse s.file = s.records ∧
      AddsUp s.records (pnlStats parse s.file s.executor.totalPnl pairs) := by
  intro s
  have hstep : ∀ s, ∀ action ∈ actions, InStep dump parse pairs s → Stored dump parse s action →
      InStep dump parse pairs (step dump s action) ∧ True := by
    intro s action haction hs hok
    refine ⟨hs.step (fun opp inputs call heq => hmonitored opp inputs call ?_) hok, trivial⟩
    exact heq ▸ haction
  have hs : InStep dump parse pairs s :=
    (Runs.Along.carry hstep hstored
      (inStep_construct initialBalances activeExchanges)).1
  have hloaded := hs.loaded hempty
  exact ⟨hloaded, pnlStats_addsUp hloaded hs.totalPnl hpairs hs.pairs⟩

/-! ### One trade without fees -/

def freeTrade : SessionAction := .execute samplePair (sampleInputs 0 5) (.stored 1000)

def freeRecord : TradeRecord :=
  (PaperExecutor.execute samplePair (sampleInputs 0 5) (construct sampleBalances [.binance, .okx])).1

def freeLine : String := String.join [
  "\x7b\"buy_exchange\":\"BINANCE\",\"buy_price\":100.0,",
  "\"buy_result\":\x7b\"avg_fill_price\":100.0,\"error_message\":\"\",",
  "\"exchange_order_id\":\"PAPER-\",\"fee_paid\":0.0,\"filled_quantity\":1.0,",
  "\"status\":\"FILLED\"\x7d,\"gross_spread_bps\":200.0,\"id\":\"\",\"mode\":\"PAPER\",",
  "\"net_spread_bps\":180.0,\"pair\":\"BTC-USDT\",\"quantity\":1.0,\"realized_pnl\":2.0,",
  "\"sell_exchange\":\"OKX\",\"sell_price\":102.0,",
  "\"sell_result\":\x7b\"avg_fill_price\":102.0,\"error_message\":\"\",",
  "\"exchange_order_id\":\"PAPER-\",\"fee_paid\":0.0,\"filled_quantity\":1.0,",
  "\"status\":\"FILLED\"\x7d,\"timestamp\":\"2024-01-01T00:00:00Z\"\x7d"]

def parseFree (line : String) : Except String Json :=
  if line = freeLine then .ok (toJson freeRecord) else .error "[json.exception.parse_error.101]"

theorem freeLine_oneLine : '\n' ∉ freeLine.toList := by
  rw [freeLine, String.toList_join, List.mem_flatMap]
  rintro ⟨piece, hpiece, hbreak⟩
  revert piece
  decide +kernel

theorem freeRecord_loadable : Loadable (fun _ => freeLine) parseFree freeRecord :=
  ⟨⟨if_pos rfl, freeLine_oneLine⟩, by decide +kernel, by decide +kernel⟩

theorem freeRecord_full : Append.full (fun _ => freeLine) (.stored 1000, freeRecord) = true := by
  have hjson : jsonLine (fun _ => freeLine) freeRecord = freeLine := rfl
  refine full_stored.mpr ?_
  rw [hjson, String.length_append, freeLine, String.length_join]
  decide +kernel

theorem freeTrade_stored : Stored (fun _ => freeLine) parseFree
    { executor := construct sampleBalances [.binance, .okx] } freeTrade :=
  fun _ => ⟨freeRecord_loadable, freeRecord_full⟩

theorem parseFree_empty (j : Json) : parseFree "" ≠ .ok j := by
  intro hj
  unfold parseFree at hj
  rw [if_neg (by decide +kernel)] at hj
  cases hj

theorem freeTrade_adds_up :
    let s := Runs.run (step fun _ => freeLine)
      { executor := construct sampleBalances [.binance, .okx] } [freeTrade, .rebalance]
    loadAllTrades parseFree s.file = s.records ∧
      AddsUp s.records (pnlStats parseFree s.file s.executor.totalPnl ["BTC-USDT"]) := by
  refine session_adds_up parseFree_empty sampleBalances [.binance, .okx] (by decide) ?_
    ⟨freeTrade_stored, trivial, trivial⟩
  intro opp inputs call hmem
  rcases List.mem_cons.mp hmem with heq | hrest
  · cases heq
    exact List.mem_singleton_self _
  · cases List.mem_singleton.mp hrest

end CryptoArbBot.PaperSession
