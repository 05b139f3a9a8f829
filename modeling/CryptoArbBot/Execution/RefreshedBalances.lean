import CryptoArbBot.Exchange.AccountAnswers
import CryptoArbBot.Execution.BalanceGuard
import CryptoArbBot.Execution.TrackedInventory
import CryptoArbBot.Strategy.CachedFees

/-!
# Balances from answers to balances that are tracked (execution/inventory_tracker.cpp)

A refresh sends one authenticated GET to each exchange and books what the client
makes of the answer. Between refreshes `record_fill` adds to what is tracked.
-/

namespace CryptoArbBot
open TrackedInventory (owed)

namespace InventoryTracker

/-- What a list of balances says of one asset: the last positive total. -/
def lastTotal (asset : String) (balances : List BalanceInfo) : ℚ :=
  ((balances.filter fun b => b.asset = asset ∧ 0 < b.free + b.locked).getLast?.map
    fun b => b.free + b.locked).getD 0

@[simp] theorem lastTotal_nil (asset : String) : lastTotal asset [] = 0 := rfl

theorem amount_fetchedBalances (asset : String) (balances : List BalanceInfo) :
    (fetchedBalances balances).amount asset = lastTotal asset balances := by
  induction balances using List.reverseRecOn with
  | nil => rfl
  | append_singleton earlier b ih =>
    have hlast : fetchedBalances (earlier ++ [b]) =
        if b.free + b.locked > 0 then
          Function.update (fetchedBalances earlier) b.asset (some (b.free + b.locked))
        else fetchedBalances earlier := by
      unfold fetchedBalances
      rw [List.foldl_append, List.foldl_cons, List.foldl_nil]
    rw [hlast, lastTotal, List.filter_append, List.getLast?_append]
    by_cases hpos : 0 < b.free + b.locked
    · rw [if_pos hpos]
      by_cases hasset : b.asset = asset
      · subst hasset
        simp [hpos, Balances.amount]
      · simp only [hasset, false_and, decide_false, Bool.false_eq_true, not_false_eq_true, List.filter_cons_of_neg,
          List.filter_nil, List.getLast?_nil, Option.none_or]
        rw [Balances.amount, Function.update_of_ne (Ne.symm hasset)]
        exact ih
    · rw [if_neg hpos]
      simp only [hpos, and_false, decide_false, Bool.false_eq_true, not_false_eq_true, List.filter_cons_of_neg,
        List.filter_nil, List.getLast?_nil, Option.none_or]
      exact ih

/-- A refresh sets what a fetch returned, on the exchanges of the tracker. -/
theorem balance_refreshBalances (t : InventoryTracker)
    (fetchBalances : Exchange → Except String (List BalanceInfo)) {exch : Exchange}
    (hexch : exch ∈ t.exchanges) (asset : String) :
    (t.refreshBalances fetchBalances).balance exch asset =
      match fetchBalances exch with
      | .ok fetched => lastTotal asset fetched
      | .error _ => t.balance exch asset := by
  have hfold : ∀ (exchanges : List Exchange) (states : Exchange → Option Balances),
      exchanges.foldl (fun states exch =>
          match fetchBalances exch with
          | .ok fetched => Function.update states exch (some (fetchedBalances fetched))
          | .error _ => states) states exch =
        match fetchBalances exch with
        | .ok fetched => if exch ∈ exchanges then some (fetchedBalances fetched) else states exch
        | .error _ => states exch := by
    intro exchanges states
    induction exchanges generalizing states with
    | nil => cases fetchBalances exch <;> rfl
    | cons first exchanges ih =>
      rw [List.foldl_cons, ih]
      by_cases hfirst : exch = first
      · subst hfirst
        cases fetchBalances exch <;> simp
      · cases fetchBalances first <;> simp [hfirst]
  have hstates : (t.refreshBalances fetchBalances).states exch =
      match fetchBalances exch with
      | .ok fetched => if exch ∈ t.exchanges then some (fetchedBalances fetched) else t.states exch
      | .error _ => t.states exch := hfold t.exchanges t.states
  unfold balance getState
  rw [hstates]
  cases fetchBalances exch with
  | error e => rfl
  | ok fetched =>
    dsimp only
    rw [if_pos hexch]
    exact amount_fetchedBalances asset fetched

end InventoryTracker

namespace RefreshedBalances
open InventoryTracker

/-! ### Refreshes over the network and fills -/

/-- A refresh meets a connection to each exchange. -/
inductive Action where
  | refresh (net : Venue → Connection)
  | fill (f : Fill)

def ofExchange : Exchange → Option Venue
  | .binance => some .binance
  | .okx => some .okx
  | .bybit => some .bybit
  | .mexc => some .mexc
  | .gateio => some .gateio
  | .count => none

theorem ofExchange_exchange (venue : Venue) : ofExchange venue.exchange = some venue := by
  cases venue <;> rfl

section Runs
variable (P : Platform) (escape : String → String)

def fetchBalances (net : Venue → Connection) (venue : Venue) : Except String (List BalanceInfo) :=
  venue.readBalances P (venue.answer P escape .balances (net venue))

/-- The tracker holds an interface for each of its exchanges only. -/
def step (t : InventoryTracker) : Action → InventoryTracker
  | .refresh net => t.refreshBalances fun exch =>
      match ofExchange exch with
      | some venue => fetchBalances P escape net venue
      | none => .error "no interface"
  | .fill f => t.recordFill f.exchange f.asset f.delta

def run (venues : List Venue) (actions : List Action) : InventoryTracker :=
  Runs.run (step P escape) { exchanges := venues.map Venue.exchange } actions

/-! ### One balance along a run -/

/-- What an action makes of the tracked balance of one asset on one exchange. -/
def balanceStep (venue : Venue) (asset : String) (total : ℚ) : Action → ℚ
  | .refresh net =>
    match fetchBalances P escape net venue with
    | .ok balances => lastTotal asset balances
    | .error _ => total
  | .fill f => total + if venue.exchange = f.exchange ∧ asset = f.asset then f.delta else 0

def Action.fill? : Action → Option Fill
  | .refresh _ => none
  | .fill f => some f

/-- The refresh, if it is one, throws for the exchange. -/
def Fails (venue : Venue) : Action → Prop
  | .refresh net => ∃ e, fetchBalances P escape net venue = .error e
  | .fill _ => True

variable {P escape} {venue : Venue} {asset : String}

theorem step_exchanges (t : InventoryTracker) (action : Action) :
    (step P escape t action).exchanges = t.exchanges := by
  cases action <;> rfl

theorem balance_step {t : InventoryTracker} (hvenue : venue.exchange ∈ t.exchanges) (action : Action) :
    (step P escape t action).balance venue.exchange asset =
      balanceStep P escape venue asset (t.balance venue.exchange asset) action := by
  cases action with
  | refresh net =>
    rw [step, balance_refreshBalances t _ hvenue, ofExchange_exchange]
    rfl
  | fill f => exact TrackedInventory.balance_recordFill t f

theorem balance_runs {t : InventoryTracker} (hvenue : venue.exchange ∈ t.exchanges) (actions : List Action) :
    (Runs.run (step P escape) t actions).balance venue.exchange asset =
      actions.foldl (balanceStep P escape venue asset) (t.balance venue.exchange asset) := by
  induction actions generalizing t with
  | nil => rfl
  | cons action actions ih =>
    have hnext : venue.exchange ∈ (step P escape t action).exchanges := by
      rw [step_exchanges]
      exact hvenue
    rw [Runs.run_cons, ih hnext, List.foldl_cons, balance_step hvenue]

theorem balance_run {venues : List Venue} (hvenue : venue ∈ venues) (actions : List Action) :
    (run P escape venues actions).balance venue.exchange asset =
      actions.foldl (balanceStep P escape venue asset) 0 :=
  balance_runs (List.mem_map_of_mem hvenue) actions

/-- While every refresh fails, the fills add up. -/
theorem foldl_balanceStep {actions : List Action} (hfails : ∀ action ∈ actions, Fails P escape venue action)
    (total : ℚ) : actions.foldl (balanceStep P escape venue asset) total =
      total + owed (actions.filterMap Action.fill?) venue.exchange asset := by
  induction actions generalizing total with
  | nil => rw [List.foldl_nil, List.filterMap_nil, TrackedInventory.owed_nil, add_zero]
  | cons action actions ih =>
    have hrest := ih fun action hmem => hfails action (List.mem_cons_of_mem _ hmem)
    rw [List.foldl_cons, hrest]
    cases action with
    | refresh net =>
      obtain ⟨e, he⟩ := hfails _ (List.mem_cons_self ..)
      rw [balanceStep, he]
      rfl
    | fill f =>
      have hfills : (Action.fill f :: actions).filterMap Action.fill? = f :: actions.filterMap Action.fill? :=
        rfl
      rw [hfills, TrackedInventory.owed_cons, ← add_assoc]
      rfl

end Runs

/-! ### What is tracked after an answer -/

/-- After any run the tracked balance of an asset is what the last answer that the client
could use says, with the fills since. Only Binance's answer may be passed over; an
unreadable one of the four others empties the balances, so that `check_balances` refuses to
buy there until fills cover the cost. -/
theorem balances_follow_answers (P : Platform) (escape : String → String) {venues : List Venue}
    {venue : Venue} (hvenue : venue ∈ venues) (before : List Action) (net : Venue → Connection)
    {after : List Action} (hafter : ∀ action ∈ after, Fails P escape venue action) :
    let answer := venue.answer P escape .balances (net venue)
    let tracked := run P escape venues (before ++ .refresh net :: after)
    let booked := owed (after.filterMap Action.fill?) venue.exchange
    (∀ balances, venue.readBalances P answer = .ok balances →
      (∀ asset, tracked.balance venue.exchange asset = lastTotal asset balances + booked asset) ∧
        ∀ entries, venue.balanceEntries P answer = .ok entries →
          balances = readableBalances venue.balanceEntry entries) ∧
    (∀ e, venue.readBalances P answer = .error e → venue = .binance ∧
      ∀ asset, tracked.balance venue.exchange asset =
        (run P escape venues before).balance venue.exchange asset + booked asset) ∧
    ∀ e, P.parseJson answer.body = .error e → venue ≠ .binance →
      ∀ opp base quote, splitPair opp.pair = some (base, quote) → opp.buyExchange = venue.exchange →
        booked quote < opp.buyPrice * opp.quantity → checkBalances tracked opp = false := by
  intro answer tracked booked
  have hsplit : ∀ asset, tracked.balance venue.exchange asset =
      balanceStep P escape venue asset ((run P escape venues before).balance venue.exchange asset)
        (.refresh net) + booked asset := by
    intro asset
    rw [balance_run hvenue, balance_run hvenue, List.foldl_append, List.foldl_cons, foldl_balanceStep hafter]
  have hanswered : ∀ balances, venue.readBalances P answer = .ok balances →
      ∀ asset, tracked.balance venue.exchange asset = lastTotal asset balances + booked asset := by
    intro balances hread asset
    have hfetch : fetchBalances P escape net venue = .ok balances := hread
    rw [hsplit, balanceStep, hfetch]
  refine ⟨?_, ?_, ?_⟩
  · intro balances hread
    exact ⟨hanswered balances hread, fun entries hentries => Venue.readBalances_ok hentries hread⟩
  · intro e hread
    have hfetch : fetchBalances P escape net venue = .error e := hread
    refine ⟨Venue.readBalances_error hread, fun asset => ?_⟩
    rw [hsplit, balanceStep, hfetch]
  · intro e hparse hbinance opp base quote hpair hbuy hless
    have hempty := hanswered [] (Venue.readBalances_unreadable hbinance hparse) quote
    rw [lastTotal_nil, zero_add] at hempty
    rw [← Bool.not_eq_true, checkBalances_iff]
    rintro ⟨base', quote', hpair', hcost, -⟩
    rw [hpair] at hpair'
    cases hpair'
    rw [hbuy, hempty] at hcost
    exact absurd hless (not_lt.mpr hcost)

/-! ### A coin with an empty amount -/

/-- The second coin stops the reading, so the third is not seen. -/
def coinsAnswer : Json :=
  .object [("code", .string "0"), ("data", .array [.object [("details", .array
    [.object [("availBal", .string "1000.5"), ("ccy", .string "USDT"), ("frozenBal", .string "20")],
      .object [("availBal", .string ""), ("ccy", .string "BTC"), ("frozenBal", .string "0")],
      .object [("availBal", .string "3"), ("ccy", .string "ETH"), ("frozenBal", .string "0")]])]])]

def coinsText : String := String.join
  ["\x7b\"code\":\"0\",\"data\":[\x7b\"details\":[",
    "\x7b\"availBal\":\"1000.5\",\"ccy\":\"USDT\",\"frozenBal\":\"20\"\x7d,",
    "\x7b\"availBal\":\"\",\"ccy\":\"BTC\",\"frozenBal\":\"0\"\x7d,",
    "\x7b\"availBal\":\"3\",\"ccy\":\"ETH\",\"frozenBal\":\"0\"\x7d]\x7d]\x7d"]

def coinsPlatform : Platform :=
  { plainPlatform with
    parseJson := fun text => if text = coinsText then .ok coinsAnswer else .error "parse_error" }

def coinsNet (_ : Venue) : Connection where
  adapter := plainAdapter
  clock := fun _ => 0
  server := fun _ _ => (true, .http 200 coinsText)
  log := []

def coinsFill : Fill := ⟨.okx, "USDT", -100, true⟩

theorem coins_tracked :
    let tracked := run coinsPlatform id [.binance, .okx] [.refresh coinsNet, .fill coinsFill]
    tracked.balance .okx "USDT" = 1841 / 2 ∧ tracked.balance .okx "ETH" = 0 := by
  have hfails : ∀ action ∈ [Action.fill coinsFill], Fails coinsPlatform id .okx action := by
    intro action haction
    rw [List.mem_singleton.mp haction]
    trivial
  have hread : Venue.okx.readBalances coinsPlatform
      (Venue.okx.answer coinsPlatform id .balances (coinsNet .okx)) =
        .ok [{ exchange := .okx, asset := "USDT", free := 2001 / 2, locked := 20 }] := by
    decide +kernel
  have hfollow := (@balances_follow_answers coinsPlatform id [.binance, .okx] .okx (by decide) [] coinsNet
    _ hfails).1 _ hread
  refine ⟨(hfollow.1 "USDT").trans ?_, (hfollow.1 "ETH").trans ?_⟩
  · decide +kernel
  · decide +kernel

end RefreshedBalances

end CryptoArbBot
