import CryptoArbBot.Library.Ledger
import CryptoArbBot.Library.Runs
import CryptoArbBot.OrderBook.DepthAnalyzer
import Mathlib.Algebra.Order.Ring.Rat
import Mathlib.Data.Rat.Cast.Defs

/-!
# The paper executor (execution/paper_executor.cpp)

Virtual balances of each exchange and the running P&L. What a call gets from the
aggregator, the fee manager, the random generator, the clock and the id
generator are its inputs; the trade log is left out.
-/

namespace CryptoArbBot.PaperExecutor

structure PaperState where
  virtualBalances : Ledger Exchange String ℚ := fun _ => none
  totalPnl : ℚ := 0

def construct (initialBalances : AssetMap) (activeExchanges : List Exchange) : PaperState :=
  if activeExchanges.isEmpty then {}
  else
    { virtualBalances := initialBalances.entries.foldl
        (fun balances entry => activeExchanges.foldl
          (fun balances exch =>
            balances.assign exch entry.1 (entry.2 / (activeExchanges.length : ℚ)))
          balances)
        fun _ => none }

def extractBaseAsset (pair : String) : String := ((splitPair pair).map Prod.fst).getD pair

def extractQuoteAsset (pair : String) : String := ((splitPair pair).map Prod.snd).getD "USDT"

def checkVirtualBalance (st : PaperState) (exch : Exchange) (asset : String) (amount : ℚ) : Bool :=
  match st.virtualBalances exch with
  | none => false
  | some assets =>
    match assets asset with
    | none => false
    | some balance => balance ≥ amount

def updateVirtualBalance (st : PaperState) (exch : Exchange) (asset : String) (delta : ℚ) :
    PaperState :=
  { st with virtualBalances := st.virtualBalances.add exch asset delta }

/-- What `simulate_fill` reads off a walk: all of the quantity, or the drawn
fraction of what the side holds. -/
def fillOf (effective : EffectivePrice) (quantity fillPct : ℚ) : OrderResult :=
  if effective.fullyFillable then
    { filledQuantity := quantity, avgFillPrice := effective.avgPrice, status := .filled }
  else
    { filledQuantity := effective.quantityFilled * fillPct, avgFillPrice := effective.avgPrice
      status := .partiallyFilled }

/-- `fillPct` is the draw of `partial_dist`, `uuid` that of `generate_uuid`. -/
def simulateFill (req : OrderRequest) (book : OrderBookSnapshot) (takerFeeRate fillPct : ℚ)
    (uuid : String) : OrderResult :=
  let result :=
    match req.side with
    | .buy => fillOf (DepthAnalyzer.effectiveBuyPrice book req.quantity) req.quantity fillPct
    | .sell => fillOf (DepthAnalyzer.effectiveSellPrice book req.quantity) req.quantity fillPct
  { result with
    exchangeOrderId := "PAPER-" ++ uuid
    feePaid := result.filledQuantity * result.avgFillPrice * takerFeeRate }

/-- What a call is handed from outside; `uuids` are the ids it draws, in order. -/
structure Inputs where
  uuids : ℕ → String
  timestampIso : String
  buyBook : Option OrderBookSnapshot
  sellBook : Option OrderBookSnapshot
  buyTakerFee : ℚ
  sellTakerFee : ℚ
  buyFillPct : ℚ
  sellFillPct : ℚ

def newRecord (opp : ArbitrageOpportunity) (inputs : Inputs) : TradeRecord :=
  { id := inputs.uuids 0
    pair := opp.pair
    buyExchange := opp.buyExchange
    sellExchange := opp.sellExchange
    buyPrice := opp.buyPrice
    sellPrice := opp.sellPrice
    quantity := opp.quantity
    grossSpreadBps := opp.grossSpreadBps
    netSpreadBps := opp.netSpreadBps
    timestampIso := inputs.timestampIso
    mode := .paper }

def rejected (record : TradeRecord) (buyError sellError : String) : TradeRecord :=
  { record with
    buyResult := { status := .rejected, errorMessage := buyError }
    sellResult := { status := .rejected, errorMessage := sellError } }

def checkQuote (st : PaperState) (opp : ArbitrageOpportunity) : Bool :=
  checkVirtualBalance st opp.buyExchange (extractQuoteAsset opp.pair) (opp.buyPrice * opp.quantity)

def checkBase (st : PaperState) (opp : ArbitrageOpportunity) : Bool :=
  checkVirtualBalance st opp.sellExchange (extractBaseAsset opp.pair) opp.quantity

def quoteRejected (opp : ArbitrageOpportunity) (inputs : Inputs) : TradeRecord :=
  rejected (newRecord opp inputs) "Insufficient virtual balance" ""

def baseRejected (opp : ArbitrageOpportunity) (inputs : Inputs) : TradeRecord :=
  rejected (newRecord opp inputs) "" "Insufficient virtual balance"

def bookRejected (opp : ArbitrageOpportunity) (inputs : Inputs) : TradeRecord :=
  rejected (newRecord opp inputs) "No order book available" ""

def buyFill (opp : ArbitrageOpportunity) (inputs : Inputs) (book : OrderBookSnapshot) :
    OrderResult :=
  simulateFill ⟨opp.buyExchange, opp.pair, .buy, opp.buyPrice, opp.quantity, inputs.uuids 1⟩ book
    inputs.buyTakerFee inputs.buyFillPct (inputs.uuids 3)

def sellFill (opp : ArbitrageOpportunity) (inputs : Inputs) (book : OrderBookSnapshot) :
    OrderResult :=
  simulateFill ⟨opp.sellExchange, opp.pair, .sell, opp.sellPrice, opp.quantity, inputs.uuids 2⟩ book
    inputs.sellTakerFee inputs.sellFillPct (inputs.uuids 4)

def matchedQty (buy sell : OrderResult) : ℚ := min buy.filledQuantity sell.filledQuantity

def realizedPnl (buy sell : OrderResult) : ℚ :=
  sell.avgFillPrice * matchedQty buy sell - buy.avgFillPrice * matchedQty buy sell - buy.feePaid -
    sell.feePaid

def tradeRecord (opp : ArbitrageOpportunity) (inputs : Inputs) (buySnap sellSnap : OrderBookSnapshot) :
    TradeRecord :=
  let buy := buyFill opp inputs buySnap
  let sell := sellFill opp inputs sellSnap
  { newRecord opp inputs with
    buyResult := buy
    sellResult := sell
    realizedPnl := realizedPnl buy sell }

/-- A section under `mutex_` that writes. -/
inductive Section where
  | updateBalance (exch : Exchange) (asset : String) (delta : ℚ)
  | addPnl (pnl : ℚ)
  deriving DecidableEq

def Section.apply (st : PaperState) : Section → PaperState
  | .updateBalance exch asset delta => updateVirtualBalance st exch asset delta
  | .addPnl pnl => { st with totalPnl := st.totalPnl + pnl }

def bookings (opp : ArbitrageOpportunity) (buy sell : OrderResult) : List Section :=
  let base := extractBaseAsset opp.pair
  let quote := extractQuoteAsset opp.pair
  let matched := matchedQty buy sell
  let buyCost := buy.avgFillPrice * matched
  let sellProceeds := sell.avgFillPrice * matched
  [.updateBalance opp.buyExchange base matched,
    .updateBalance opp.buyExchange quote (-buyCost - buy.feePaid),
    .updateBalance opp.sellExchange base (-matched),
    .updateBalance opp.sellExchange quote (sellProceeds - sell.feePaid),
    .addPnl (realizedPnl buy sell)]

/-- `execute` on a state nobody else touches. -/
def execute (opp : ArbitrageOpportunity) (inputs : Inputs) (st : PaperState) :
    TradeRecord × PaperState :=
  if checkQuote st opp = false then (quoteRejected opp inputs, st)
  else if checkBase st opp = false then (baseRejected opp inputs, st)
  else
    match inputs.buyBook, inputs.sellBook with
    | some buySnap, some sellSnap =>
      (tradeRecord opp inputs buySnap sellSnap,
        (bookings opp (buyFill opp inputs buySnap) (sellFill opp inputs sellSnap)).foldl
          Section.apply st)
    | _, _ => (bookRejected opp inputs, st)

def settled (st : PaperState) (opp : ArbitrageOpportunity) (inputs : Inputs)
    (buySnap sellSnap : OrderBookSnapshot) : PaperState :=
  (bookings opp (buyFill opp inputs buySnap) (sellFill opp inputs sellSnap)).foldl Section.apply st

/-- What a call can do: turn both legs away and change nothing, or trade. -/
theorem execute_cases (opp : ArbitrageOpportunity) (inputs : Inputs) (st : PaperState) :
    ((checkQuote st opp = false ∨ checkBase st opp = false ∨ inputs.buyBook = none ∨
        inputs.sellBook = none) ∧
      (execute opp inputs st).1.buyResult.status = .rejected ∧
      (execute opp inputs st).1.sellResult.status = .rejected ∧ (execute opp inputs st).2 = st) ∨
    ∃ buySnap sellSnap, inputs.buyBook = some buySnap ∧ inputs.sellBook = some sellSnap ∧
      checkQuote st opp = true ∧ checkBase st opp = true ∧
      execute opp inputs st =
        (tradeRecord opp inputs buySnap sellSnap, settled st opp inputs buySnap sellSnap) := by
  unfold execute
  by_cases hquote : checkQuote st opp = false
  · rw [if_pos hquote]
    exact .inl ⟨.inl hquote, rfl, rfl, rfl⟩
  · rw [if_neg hquote]
    by_cases hbase : checkBase st opp = false
    · rw [if_pos hbase]
      exact .inl ⟨.inr (.inl hbase), rfl, rfl, rfl⟩
    · rw [if_neg hbase]
      cases hbuy : inputs.buyBook with
      | none => exact .inl ⟨.inr (.inr (.inl rfl)), rfl, rfl, rfl⟩
      | some buySnap =>
        cases hsell : inputs.sellBook with
        | none => exact .inl ⟨.inr (.inr (.inr rfl)), rfl, rfl, rfl⟩
        | some sellSnap =>
          exact .inr ⟨buySnap, sellSnap, rfl, rfl, eq_true_of_ne_false hquote,
            eq_true_of_ne_false hbase, rfl⟩

/-- `rebalance`, one section under `mutex_`. -/
def rebalance (st : PaperState) : PaperState :=
  if st.virtualBalances.size = 0 then st
  else { st with virtualBalances := st.virtualBalances.spread }

/-! ### What the operations do to the balances -/

namespace PaperState

/-- The balance of an asset on an exchange; an absent one counts as zero. -/
def balance (st : PaperState) (exch : Exchange) (asset : String) : ℚ :=
  st.virtualBalances.amount exch asset

def holdings (st : PaperState) (asset : String) : ℚ := st.virtualBalances.total asset

theorem holdings_eq_sum (st : PaperState) (asset : String) :
    st.holdings asset = ∑ exch, st.balance exch asset := rfl

end PaperState

theorem balance_updateVirtualBalance (st : PaperState) (exch exch' : Exchange)
    (asset asset' : String) (delta : ℚ) :
    (updateVirtualBalance st exch asset delta).balance exch' asset' =
      st.balance exch' asset' + if exch' = exch ∧ asset' = asset then delta else 0 :=
  Ledger.amount_add ..

theorem holdings_updateVirtualBalance (st : PaperState) (exch : Exchange) (asset asset' : String)
    (delta : ℚ) :
    (updateVirtualBalance st exch asset delta).holdings asset' =
      st.holdings asset' + if asset' = asset then delta else 0 :=
  Ledger.total_add ..

theorem balance_rebalance_nonneg {st : PaperState} (h : ∀ exch asset, 0 ≤ st.balance exch asset)
    (exch : Exchange) (asset : String) : 0 ≤ (rebalance st).balance exch asset := by
  unfold rebalance
  split
  · exact h exch asset
  · exact Ledger.amount_spread_nonneg h exch asset

theorem holdings_rebalance (st : PaperState) (asset : String) :
    (rebalance st).holdings asset = st.holdings asset := by
  unfold rebalance
  split
  · rfl
  · exact Ledger.total_spread ..

theorem totalPnl_rebalance (st : PaperState) : (rebalance st).totalPnl = st.totalPnl := by
  unfold rebalance
  split <;> rfl

theorem le_balance_of_check {st : PaperState} {exch : Exchange} {asset : String} {amount : ℚ}
    (h : checkVirtualBalance st exch asset amount = true) : amount ≤ st.balance exch asset := by
  unfold checkVirtualBalance at h
  show amount ≤ ((st.virtualBalances exch).bind (· asset)).getD 0
  cases hexch : st.virtualBalances exch with
  | none => simp [hexch] at h
  | some assets =>
    cases hasset : assets asset with
    | none => simp [hexch, hasset] at h
    | some balance => simpa [hexch, hasset] using h

/-! ### The constructor -/

/-- What the constructor hands out of an asset: its whole amount, or nothing
when no exchange is active. -/
def distributed (initialBalances : AssetMap) (activeExchanges : List Exchange) (asset : String) : ℚ :=
  if activeExchanges.isEmpty then 0 else initialBalances.amount asset

theorem amount_foldl_entries (active : List Exchange) (share : ℚ → ℚ)
    (entries : List (String × ℚ)) (balances : Ledger Exchange String ℚ) (exch : Exchange)
    (asset : String) (hnodup : (entries.map Prod.fst).Nodup) :
    (entries.foldl (fun balances entry => active.foldl
        (fun balances exch => balances.assign exch entry.1 (share entry.2)) balances)
      balances).amount exch asset =
      if exch ∈ active then
        ((entries.lookup asset).map share).getD (balances.amount exch asset)
      else balances.amount exch asset := by
  induction entries generalizing balances with
  | nil => simp
  | cons entry entries ih =>
    obtain ⟨name, amount⟩ := entry
    simp only [List.map_cons, List.nodup_cons] at hnodup
    obtain ⟨hnew, hrest⟩ := hnodup
    rw [List.foldl_cons, ih _ hrest, Ledger.amount_foldl_assign]
    by_cases hactive : exch ∈ active
    · by_cases hname : asset = name
      · -- the key occurs once, so no later entry overwrites it
        subst hname
        have habsent : entries.lookup asset = none := by
          rw [List.lookup_eq_none_iff]
          intro entry hentry
          have hne : asset ≠ entry.1 := fun heq => hnew (heq ▸ List.mem_map_of_mem hentry)
          simpa using hne
        simp [hactive, habsent]
      · have hkey : (asset == name) = false := by simpa using hname
        simp [hactive, hname, List.lookup_cons, hkey]
    · simp [hactive]

theorem balance_construct (initialBalances : AssetMap) (activeExchanges : List Exchange)
    (exch : Exchange) (asset : String) :
    (construct initialBalances activeExchanges).balance exch asset =
      if exch ∈ activeExchanges then
        initialBalances.amount asset / (activeExchanges.length : ℚ)
      else 0 := by
  unfold construct
  cases activeExchanges with
  | nil => rfl
  | cons first others =>
    simp only [List.isEmpty_cons, Bool.false_eq_true, if_false]
    refine (amount_foldl_entries (first :: others) (· / ((first :: others).length : ℚ)) _ _ exch asset
      initialBalances.nodup).trans ?_
    have hempty : Ledger.amount (fun _ : Exchange => none) exch asset = (0 : ℚ) := rfl
    unfold AssetMap.amount
    cases initialBalances.entries.lookup asset with
    | none => simp [hempty]
    | some amount => simp [hempty]

theorem holdings_construct (initialBalances : AssetMap) {activeExchanges : List Exchange}
    (hdistinct : activeExchanges.Nodup) (asset : String) :
    (construct initialBalances activeExchanges).holdings asset =
      distributed initialBalances activeExchanges asset := by
  have hsum : (construct initialBalances activeExchanges).holdings asset =
      activeExchanges.length * (initialBalances.amount asset / (activeExchanges.length : ℚ)) := by
    calc (construct initialBalances activeExchanges).holdings asset
        = ∑ exch, if exch ∈ activeExchanges then
            initialBalances.amount asset / (activeExchanges.length : ℚ) else 0 := by
          rw [PaperState.holdings_eq_sum]
          exact Finset.sum_congr rfl fun exch _ => balance_construct ..
      _ = ∑ _exch ∈ activeExchanges.toFinset,
            initialBalances.amount asset / (activeExchanges.length : ℚ) := by
          rw [← Finset.sum_filter]
          congr 1
          ext exch
          simp
      _ = activeExchanges.length * (initialBalances.amount asset / (activeExchanges.length : ℚ)) := by
          rw [Finset.sum_const, List.toFinset_card_of_nodup hdistinct, nsmul_eq_mul]
  rw [hsum]
  unfold distributed
  cases activeExchanges with
  | nil => simp
  | cons first others =>
    rw [List.isEmpty_cons, if_neg Bool.false_ne_true]
    exact mul_div_cancel₀ _ (Nat.cast_ne_zero.mpr (Nat.succ_ne_zero _))

theorem balance_construct_nonneg {initialBalances : AssetMap}
    (h : ∀ entry ∈ initialBalances.entries, 0 ≤ entry.2) (activeExchanges : List Exchange)
    (exch : Exchange) (asset : String) :
    0 ≤ (construct initialBalances activeExchanges).balance exch asset := by
  rw [balance_construct]
  split
  · exact div_nonneg (AssetMap.amount_nonneg h asset) (Nat.cast_nonneg _)
  · exact le_rfl

end CryptoArbBot.PaperExecutor
