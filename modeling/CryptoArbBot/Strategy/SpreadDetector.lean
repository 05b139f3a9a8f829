import CryptoArbBot.OrderBook.Aggregator
import CryptoArbBot.OrderBook.DepthAnalyzer
import CryptoArbBot.Strategy.FeeManager

/-!
# The spread detector (strategy/spread_detector.h)

A scan examines every ordered pair of snapshots, caps the quantity by the
largest trade size and keeps the candidate with the highest net spread.
-/

namespace CryptoArbBot

structure SpreadDetector where
  minNetSpreadBps : ℚ
  minTradeSizeUsd : ℚ
  maxTradeSizeUsd : ℚ

namespace SpreadDetector

/-- `duration_cast<milliseconds>(now - timestamp).count()`, which truncates. -/
def ageMs (now timestamp : TimePoint) : ℤ := (now - timestamp).tdiv (10 ^ 6)

/-- The quantity after the cap on the trade size, with the prices at it. -/
def sized (detector : SpreadDetector) (buyBook sellBook : OrderBookSnapshot) (maxQty : ℚ) :
    Option (ℚ × EffectivePrice × EffectivePrice) :=
  let buyEff := DepthAnalyzer.effectiveBuyPrice buyBook maxQty
  let sellEff := DepthAnalyzer.effectiveSellPrice sellBook maxQty
  if buyEff.fullyFillable = false ∨ sellEff.fullyFillable = false then none
  else if buyEff.avgPrice ≤ 0 then none
  else
    let tradeSizeUsd := buyEff.avgPrice * maxQty
    if tradeSizeUsd < detector.minTradeSizeUsd then none
    else if tradeSizeUsd > detector.maxTradeSizeUsd then
      let actualQty := detector.maxTradeSizeUsd / buyEff.avgPrice
      let buyEff := DepthAnalyzer.effectiveBuyPrice buyBook actualQty
      let sellEff := DepthAnalyzer.effectiveSellPrice sellBook actualQty
      if buyEff.fullyFillable = false ∨ sellEff.fullyFillable = false then none
      else if buyEff.avgPrice ≤ 0 then none
      else some (actualQty, buyEff, sellEff)
    else some (maxQty, buyEff, sellEff)

/-- The body of the two loops, up to the comparison with the best so far. -/
def examine (detector : SpreadDetector) (fees : FeeManager) (pair : String) (now : TimePoint)
    (buyBook sellBook : OrderBookSnapshot) : Option ArbitrageOpportunity :=
  match buyBook.asks, sellBook.bids with
  | topAsk :: _, topBid :: _ =>
    if ageMs now buyBook.localTimestamp > 5000 ∨ ageMs now sellBook.localTimestamp > 5000 then none
    else if topAsk.price ≤ 0 ∨ topBid.price ≤ topAsk.price then none
    else
      let feeRate := fees.totalFeeRate buyBook.exchange sellBook.exchange pair
      let quickGrossBps := (topBid.price - topAsk.price) / topAsk.price * 10000
      if quickGrossBps - feeRate * 10000 < detector.minNetSpreadBps then none
      else
        let maxQty := DepthAnalyzer.maxArbQuantity buyBook sellBook detector.minNetSpreadBps feeRate
        if maxQty ≤ 0 then none
        else
          match detector.sized buyBook sellBook maxQty with
          | none => none
          | some (actualQty, buyEff, sellEff) =>
            let grossSpreadBps := (sellEff.avgPrice - buyEff.avgPrice) / buyEff.avgPrice * 10000
            let netSpreadBps := grossSpreadBps - feeRate * 10000
            if netSpreadBps < detector.minNetSpreadBps then none
            else
              some
                { pair
                  buyExchange := buyBook.exchange
                  sellExchange := sellBook.exchange
                  buyPrice := buyEff.avgPrice
                  sellPrice := sellEff.avgPrice
                  quantity := actualQty
                  grossSpreadBps
                  netSpreadBps }
  | _, _ => none

def keepBest (best : ℚ × Option ArbitrageOpportunity) :
    Option ArbitrageOpportunity → ℚ × Option ArbitrageOpportunity
  | none => best
  | some opp => if opp.netSpreadBps > best.1 then (opp.netSpreadBps, some opp) else best

/-- `clock i j` is the time read when the snapshots `i` and `j` are examined. -/
def candidate (detector : SpreadDetector) (fees : FeeManager) (pair : String)
    (clock : ℕ → ℕ → TimePoint) (snapshots : List OrderBookSnapshot) (p : ℕ × ℕ) :
    Option ArbitrageOpportunity :=
  match snapshots[p.1]?, snapshots[p.2]? with
  | some buyBook, some sellBook => detector.examine fees pair (clock p.1 p.2) buyBook sellBook
  | _, _ => none

def bestOpportunity (detector : SpreadDetector) (fees : FeeManager) (pair : String)
    (clock : ℕ → ℕ → TimePoint) (snapshots : List OrderBookSnapshot) : Option ArbitrageOpportunity :=
  if snapshots.length < 2 then none
  else
    ((indexPairs snapshots.length).foldl
      (fun best p => keepBest best (detector.candidate fees pair clock snapshots p))
      (detector.minNetSpreadBps, none)).2

def cooldownMs : ℤ := 1000

def cooldownKey (opp : ArbitrageOpportunity) : String :=
  opp.pair ++ ":" ++ toString opp.buyExchange.ctorIdx ++ ":" ++ toString opp.sellExchange.ctorIdx

def inCooldown (lastTradeTime : String → Option TimePoint) (key : String) (now : TimePoint) : Bool :=
  match lastTradeTime key with
  | none => false
  | some last => ageMs now last < cooldownMs

/-- `scan_pair`: the opportunity handed to the callback, and the map
`last_trade_time_` after it; `now` is the time read under `cooldown_mutex_`. -/
def scanPair (detector : SpreadDetector) (fees : FeeManager) (pair : String)
    (clock : ℕ → ℕ → TimePoint) (now : TimePoint) (snapshots : List OrderBookSnapshot)
    (lastTradeTime : String → Option TimePoint) :
    Option ArbitrageOpportunity × (String → Option TimePoint) :=
  match detector.bestOpportunity fees pair clock snapshots with
  | none => (none, lastTradeTime)
  | some opp =>
    if inCooldown lastTradeTime (cooldownKey opp) now then (none, lastTradeTime)
    else (some opp, Function.update lastTradeTime (cooldownKey opp) (some now))

/-! ### One candidate -/

/-- Asks ascend and bids descend. -/
def Sorted (book : OrderBookSnapshot) : Prop :=
  book.asks.Pairwise (fun a b => a.price ≤ b.price) ∧
    book.bids.Pairwise (fun a b => b.price ≤ a.price)

/-- What an opportunity promises of the snapshots it was found in. -/
structure Executable (detector : SpreadDetector) (fees : FeeManager) (pair : String)
    (now : TimePoint) (buyBook sellBook : OrderBookSnapshot) (opp : ArbitrageOpportunity) :
    Prop where
  samePair : opp.pair = pair
  buyExchange : opp.buyExchange = buyBook.exchange
  sellExchange : opp.sellExchange = sellBook.exchange
  quantity : 0 < opp.quantity
  buyFresh : ageMs now buyBook.localTimestamp ≤ 5000
  sellFresh : ageMs now sellBook.localTimestamp ≤ 5000
  buyFillable : (DepthAnalyzer.effectiveBuyPrice buyBook opp.quantity).fullyFillable = true
  sellFillable : (DepthAnalyzer.effectiveSellPrice sellBook opp.quantity).fullyFillable = true
  buyPrice : opp.buyPrice = DepthAnalyzer.vwap opp.quantity buyBook.asks
  sellPrice : opp.sellPrice = DepthAnalyzer.vwap opp.quantity sellBook.bids
  buyPrice_pos : 0 < opp.buyPrice
  gross : opp.grossSpreadBps = (opp.sellPrice - opp.buyPrice) / opp.buyPrice * 10000
  net : opp.netSpreadBps =
    opp.grossSpreadBps - fees.totalFeeRate buyBook.exchange sellBook.exchange pair * 10000
  threshold : detector.minNetSpreadBps ≤ opp.netSpreadBps
  notional : opp.buyPrice * opp.quantity ≤ detector.maxTradeSizeUsd

section Candidate
variable {detector : SpreadDetector} {fees : FeeManager} {pair : String} {now : TimePoint}
  {buyBook sellBook : OrderBookSnapshot}

/-- On ascending asks the average price does not rise when the quantity falls. -/
theorem avgPrice_le (hsorted : Sorted buyBook) (hpositive : buyBook.Positive) {small large : ℚ}
    (hle : small ≤ large)
    (hsmall : (DepthAnalyzer.effectiveBuyPrice buyBook small).fullyFillable = true)
    (hlarge : (DepthAnalyzer.effectiveBuyPrice buyBook large).fullyFillable = true) :
    (DepthAnalyzer.effectiveBuyPrice buyBook small).avgPrice ≤
      (DepthAnalyzer.effectiveBuyPrice buyBook large).avgPrice := by
  have hpos : 0 < small :=
    (DepthAnalyzer.effectivePrice_bounded hpositive.1 _ small).fillable hsmall
  have hdepth : large ≤ DepthAnalyzer.depth buyBook.asks :=
    DepthAnalyzer.le_depth_of_fullyFillable hpositive.1 hlarge
  unfold DepthAnalyzer.effectiveBuyPrice at hsmall hlarge ⊢
  rw [DepthAnalyzer.avgPrice_eq _ hsmall, DepthAnalyzer.avgPrice_eq _ hlarge]
  exact PricedLots.average_le hpositive.1.sized hsorted.1 hpos hle hdepth

/-- What `sized` has tested: the quantity before the cap, and the one it takes. -/
structure TestedSize (detector : SpreadDetector) (buyBook sellBook : OrderBookSnapshot)
    (maxQty quantity : ℚ) (buyEff sellEff : EffectivePrice) : Prop where
  maxFillable : (DepthAnalyzer.effectiveBuyPrice buyBook maxQty).fullyFillable = true
  maxPrice : 0 < (DepthAnalyzer.effectiveBuyPrice buyBook maxQty).avgPrice
  minSize : detector.minTradeSizeUsd ≤
    (DepthAnalyzer.effectiveBuyPrice buyBook maxQty).avgPrice * maxQty
  quantity_eq : quantity =
    if (DepthAnalyzer.effectiveBuyPrice buyBook maxQty).avgPrice * maxQty >
        detector.maxTradeSizeUsd then
      detector.maxTradeSizeUsd / (DepthAnalyzer.effectiveBuyPrice buyBook maxQty).avgPrice
    else maxQty
  buyEff_eq : buyEff = DepthAnalyzer.effectiveBuyPrice buyBook quantity
  sellEff_eq : sellEff = DepthAnalyzer.effectiveSellPrice sellBook quantity
  buyFillable : buyEff.fullyFillable = true
  sellFillable : sellEff.fullyFillable = true
  price : 0 < buyEff.avgPrice

theorem sized_spec {maxQty quantity : ℚ} {buyEff sellEff : EffectivePrice}
    (h : detector.sized buyBook sellBook maxQty = some (quantity, buyEff, sellEff)) :
    TestedSize detector buyBook sellBook maxQty quantity buyEff sellEff := by
  unfold sized at h
  dsimp only at h
  split at h
  · cases h
  next hfillable =>
    simp only [not_or, Bool.not_eq_false] at hfillable
    split at h
    · cases h
    next hprice =>
      split at h
      · cases h
      next hmin =>
        split at h
        next hcap =>
          split at h
          · cases h
          next hcapped =>
            simp only [not_or, Bool.not_eq_false] at hcapped
            split at h
            · cases h
            next hprice' =>
              cases h
              exact ⟨hfillable.1, not_le.mp hprice, not_lt.mp hmin, (if_pos hcap).symm, rfl, rfl,
                hcapped.1, hcapped.2, not_le.mp hprice'⟩
        next hcap =>
          cases h
          exact ⟨hfillable.1, not_le.mp hprice, not_lt.mp hmin, (if_neg hcap).symm, rfl, rfl,
            hfillable.1, hfillable.2, not_le.mp hprice⟩

theorem TestedSize.quantity_le {maxQty quantity : ℚ} {buyEff sellEff : EffectivePrice}
    (h : TestedSize detector buyBook sellBook maxQty quantity buyEff sellEff) :
    quantity ≤ maxQty := by
  have hquantity := h.quantity_eq
  split at hquantity
  next hcap =>
    rw [hquantity, div_le_iff₀ h.maxPrice, mul_comm]
    exact hcap.le
  next => exact hquantity.le

theorem TestedSize.notional (hsorted : Sorted buyBook) (hpositive : buyBook.Positive)
    {maxQty quantity : ℚ} {buyEff sellEff : EffectivePrice}
    (h : TestedSize detector buyBook sellBook maxQty quantity buyEff sellEff) :
    buyEff.avgPrice * quantity ≤ detector.maxTradeSizeUsd := by
  have hfill := h.buyFillable
  rw [h.buyEff_eq] at hfill ⊢
  have havg := avgPrice_le hsorted hpositive h.quantity_le hfill h.maxFillable
  have hpos : 0 < quantity := DepthAnalyzer.pos_of_fullyFillable hfill
  have hquantity := h.quantity_eq
  split at hquantity
  next hcap =>
    -- the capped quantity costs at most the cap at the old price, and less at the new one
    calc _ ≤ (DepthAnalyzer.effectiveBuyPrice buyBook maxQty).avgPrice * quantity :=
          mul_le_mul_of_nonneg_right havg hpos.le
      _ = detector.maxTradeSizeUsd := by rw [hquantity, mul_div_cancel₀ _ h.maxPrice.ne']
  next hcap =>
    rw [hquantity]
    exact not_lt.mp hcap

/-- What `examine` has tested of an opportunity that it returns. -/
theorem examine_spec {opp : ArbitrageOpportunity}
    (h : detector.examine fees pair now buyBook sellBook = some opp) :
    ∃ quantity buyEff sellEff,
      detector.sized buyBook sellBook
          (DepthAnalyzer.maxArbQuantity buyBook sellBook detector.minNetSpreadBps
            (fees.totalFeeRate buyBook.exchange sellBook.exchange pair)) =
        some (quantity, buyEff, sellEff) ∧
      ageMs now buyBook.localTimestamp ≤ 5000 ∧ ageMs now sellBook.localTimestamp ≤ 5000 ∧
      detector.minNetSpreadBps ≤ opp.netSpreadBps ∧
      opp =
        { pair
          buyExchange := buyBook.exchange
          sellExchange := sellBook.exchange
          buyPrice := buyEff.avgPrice
          sellPrice := sellEff.avgPrice
          quantity
          grossSpreadBps := (sellEff.avgPrice - buyEff.avgPrice) / buyEff.avgPrice * 10000
          netSpreadBps := (sellEff.avgPrice - buyEff.avgPrice) / buyEff.avgPrice * 10000 -
            fees.totalFeeRate buyBook.exchange sellBook.exchange pair * 10000 } := by
  unfold examine at h
  split at h
  next =>
    split at h
    · cases h
    next hfresh =>
      simp only [gt_iff_lt, not_or, not_lt] at hfresh
      split at h
      · cases h
      · dsimp only at h
        split at h
        · cases h
        · split at h
          · cases h
          · split at h
            · cases h
            next quantity buyEff sellEff hsized =>
              split at h
              · cases h
              next hnet =>
                cases h
                exact ⟨quantity, buyEff, sellEff, hsized, hfresh.1, hfresh.2, not_lt.mp hnet, rfl⟩
  next => cases h

theorem examine_some (hsorted : Sorted buyBook) (hbuy : buyBook.Positive) {opp : ArbitrageOpportunity}
    (h : detector.examine fees pair now buyBook sellBook = some opp) :
    detector.Executable fees pair now buyBook sellBook opp := by
  obtain ⟨quantity, buyEff, sellEff, hsized, hbuyFresh, hsellFresh, hnet, rfl⟩ := examine_spec h
  have htested := sized_spec hsized
  have hnotional := htested.notional hsorted hbuy
  obtain ⟨-, -, -, -, rfl, rfl, hbuyFill, hsellFill, hprice⟩ := htested
  exact ⟨rfl, rfl, rfl, DepthAnalyzer.pos_of_fullyFillable hbuyFill, hbuyFresh, hsellFresh, hbuyFill,
    hsellFill, DepthAnalyzer.avgPrice_eq _ hbuyFill, DepthAnalyzer.avgPrice_eq _ hsellFill, hprice,
    rfl, rfl, hnet, hnotional⟩

end Candidate

/-! ### The whole scan -/

theorem foldl_keepBest {ι : Type*} (f : ι → Option ArbitrageOpportunity) (ps : List ι)
    (best : ℚ × Option ArbitrageOpportunity) {opp : ArbitrageOpportunity}
    (h : (ps.foldl (fun best p => keepBest best (f p)) best).2 = some opp) :
    best.2 = some opp ∨ ∃ p ∈ ps, f p = some opp := by
  induction ps generalizing best with
  | nil => exact .inl h
  | cons p ps ih =>
    rcases ih _ h with hbest | hfound
    · have hbest : (keepBest best (f p)).2 = some opp := hbest
      cases hp : f p with
      | none =>
        rw [hp] at hbest
        exact .inl hbest
      | some found =>
        rw [hp, keepBest] at hbest
        split at hbest
        · exact .inr ⟨p, List.mem_cons_self .., hp.trans hbest⟩
        · exact .inl hbest
    · obtain ⟨p', hp', hf⟩ := hfound
      exact .inr ⟨p', List.mem_cons_of_mem _ hp', hf⟩

theorem scanPair_some {detector : SpreadDetector} {fees : FeeManager} {pair : String}
    {clock : ℕ → ℕ → TimePoint} {now : TimePoint} {snapshots : List OrderBookSnapshot}
    {lastTradeTime : String → Option TimePoint} {opp : ArbitrageOpportunity}
    (h : (detector.scanPair fees pair clock now snapshots lastTradeTime).1 = some opp) :
    ∃ i j buyBook sellBook, i ≠ j ∧ snapshots[i]? = some buyBook ∧ snapshots[j]? = some sellBook ∧
      detector.examine fees pair (clock i j) buyBook sellBook = some opp := by
  have hbest : detector.bestOpportunity fees pair clock snapshots = some opp := by
    unfold scanPair at h
    split at h
    · cases h
    next best hbest =>
      split at h
      · cases h
      · rw [hbest]
        exact h
  unfold bestOpportunity at hbest
  split at hbest
  · cases hbest
  · rcases foldl_keepBest _ _ _ hbest with hstart | ⟨⟨i, j⟩, hij, hcandidate⟩
    · cases hstart
    · unfold candidate at hcandidate
      split at hcandidate
      next buyBook sellBook hi hj =>
        exact ⟨i, j, buyBook, sellBook, (mem_indexPairs.mp hij).2.2, hi, hj, hcandidate⟩
      next => cases hcandidate

/-- An opportunity handed to the callback is between two different exchanges
whose snapshots keep what it promises. -/
theorem scanPair_executable (detector : SpreadDetector) (fees : FeeManager) (pair : String)
    (clock : ℕ → ℕ → TimePoint) (now : TimePoint) {snapshots : List OrderBookSnapshot}
    (lastTradeTime : String → Option TimePoint)
    (hexchanges : (snapshots.map (·.exchange)).Nodup)
    (hbooks : ∀ snap ∈ snapshots, Sorted snap ∧ snap.Positive) {opp : ArbitrageOpportunity}
    (h : (detector.scanPair fees pair clock now snapshots lastTradeTime).1 = some opp) :
    opp.buyExchange ≠ opp.sellExchange ∧
      ∃ i j buyBook sellBook, snapshots[i]? = some buyBook ∧ snapshots[j]? = some sellBook ∧
        detector.Executable fees pair (clock i j) buyBook sellBook opp := by
  obtain ⟨i, j, buyBook, sellBook, hij, hi, hj, hexamine⟩ := scanPair_some h
  obtain ⟨hsorted, hpositive⟩ := hbooks buyBook (List.mem_of_getElem? hi)
  have hexecutable := examine_some hsorted hpositive hexamine
  refine ⟨?_, i, j, buyBook, sellBook, hi, hj, hexecutable⟩
  rw [hexecutable.buyExchange, hexecutable.sellExchange]
  exact exchange_ne_of_index hexchanges hij hi hj

/-! ### A capped opportunity -/

def singleLevels (exch : Exchange) (bid ask quantity : ℚ) : OrderBookSnapshot :=
  { exchange := exch, pair := "BTC-USDT", bids := [⟨bid, quantity⟩], asks := [⟨ask, quantity⟩] }

theorem singleLevels_sorted_positive (exch : Exchange) {bid ask quantity : ℚ} (hbid : 0 < bid)
    (hask : 0 < ask) (hquantity : 0 < quantity) :
    Sorted (singleLevels exch bid ask quantity) ∧ (singleLevels exch bid ask quantity).Positive := by
  refine ⟨⟨List.pairwise_singleton _ _, List.pairwise_singleton _ _⟩, ?_, ?_⟩
  · intro level hlevel
    rw [List.mem_singleton.mp hlevel]
    exact ⟨hask, hquantity⟩
  · intro level hlevel
    rw [List.mem_singleton.mp hlevel]
    exact ⟨hbid, hquantity⟩

def cappedSnapshots : List OrderBookSnapshot :=
  [singleLevels .binance 99 100 5, singleLevels .okx 102 103 5]

theorem cappedSnapshots_sorted_positive :
    ∀ snap ∈ cappedSnapshots, Sorted snap ∧ snap.Positive := by
  intro snap hsnap
  simp only [cappedSnapshots, List.mem_cons, List.not_mem_nil, or_false] at hsnap
  rcases hsnap with rfl | rfl
  · exact singleLevels_sorted_positive .binance (by norm_num) (by norm_num) (by norm_num)
  · exact singleLevels_sorted_positive .okx (by norm_num) (by norm_num) (by norm_num)

def cappedOpportunity : ArbitrageOpportunity :=
  { pair := "BTC-USDT", buyExchange := .binance, sellExchange := .okx, buyPrice := 100
    sellPrice := 102, quantity := 5 / 2, grossSpreadBps := 200, netSpreadBps := 180 }

theorem cappedOpportunity_executable :
    let detector : SpreadDetector := ⟨3, 50, 250⟩
    cappedOpportunity.buyExchange ≠ cappedOpportunity.sellExchange ∧
      ∃ (i j : ℕ) (buyBook sellBook : OrderBookSnapshot), cappedSnapshots[i]? = some buyBook ∧
        cappedSnapshots[j]? = some sellBook ∧
        detector.Executable {} "BTC-USDT" 0 buyBook sellBook cappedOpportunity := by
  intro detector
  exact scanPair_executable detector {} "BTC-USDT" (fun _ _ => 0) 0 (fun _ => none) (by decide)
    cappedSnapshots_sorted_positive (by decide +kernel)

end SpreadDetector

end CryptoArbBot
