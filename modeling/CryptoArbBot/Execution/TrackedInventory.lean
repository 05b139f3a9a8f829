import CryptoArbBot.Execution.ExecutionEngine
import CryptoArbBot.Library.Ledger
import CryptoArbBot.Library.Runs
import Mathlib.Tactic.Linarith

/-!
# Tracked and true balances

The exchanges hold the true balances. A fill changes them at once and reaches the
tracker later, when `execute` passes it to `record_fill`; the monitor thread
overwrites the tracked balances with what `fetch_balances` reports. Fees are
zero and both legs of a trade are filled completely.
-/

namespace CryptoArbBot

/-! ### The exchanges -/

/-- A spot account; only listed assets are held. -/
structure Account where
  assets : List String
  amount : String → ℚ
  unlisted : ∀ asset ∉ assets, amount asset = 0

def Account.credit (account : Account) (asset : String) (delta : ℚ) : Account where
  assets := asset :: account.assets
  amount := Function.update account.amount asset (account.amount asset + delta)
  unlisted := by
    intro other hother
    obtain ⟨hne, hlisted⟩ := not_or.mp (mt List.mem_cons.mpr hother)
    rw [Function.update_of_ne hne]
    exact account.unlisted other hlisted

def Account.report (exch : Exchange) (account : Account) : List BalanceInfo :=
  account.assets.map fun asset => { exchange := exch, asset, free := account.amount asset }

structure FilledTrade where
  opp : ArbitrageOpportunity
  buyAvg : ℚ
  sellAvg : ℚ
  base : String
  quote : String
  split : splitPair opp.pair = some (base, quote)

def FilledTrade.results (t : FilledTrade) : DualOrderResult where
  buy := { status := .filled, filledQuantity := t.opp.quantity, avgFillPrice := t.buyAvg }
  sell := { status := .filled, filledQuantity := t.opp.quantity, avgFillPrice := t.sellAvg }

def FilledTrade.leg (t : FilledTrade) : Side → List Fill
  | .buy =>
    [⟨t.opp.buyExchange, t.base, t.opp.quantity, false⟩,
      ⟨t.opp.buyExchange, t.quote, -(t.buyAvg * t.opp.quantity), true⟩]
  | .sell =>
    [⟨t.opp.sellExchange, t.base, -t.opp.quantity, false⟩,
      ⟨t.opp.sellExchange, t.quote, t.sellAvg * t.opp.quantity, true⟩]

theorem FilledTrade.tradeFills_eq (t : FilledTrade) :
    tradeFills t.opp t.results = t.leg .buy ++ t.leg .sell := by
  simp [tradeFills, t.split, buyCost, sellProceeds, matchedQty, results, leg]

/-! ### The system -/

namespace TrackedInventory

/-- Where the call of `execute` under `execution_mutex_` stands. -/
inductive ExecutePhase where
  | idle
  | placed (trade : FilledTrade) (buyFilled sellFilled : Bool)
  | booking (todo : List Fill)

structure System where
  accounts : Exchange → Account
  tracker : InventoryTracker
  phase : ExecutePhase := .idle
  refreshed : Bool := false

inductive Action where
  | execute (trade : FilledTrade)
  | fill (side : Side)
  | book
  | refresh

def creditAll (accounts : Exchange → Account) (changes : List Fill) : Exchange → Account :=
  changes.foldl
    (fun accounts f =>
      Function.update accounts f.exchange ((accounts f.exchange).credit f.asset f.delta))
    accounts

/-- An action that is not enabled leaves the system as it is. The engine and the
tracker are given the same exchanges. -/
def step (s : System) : Action → System
  | .execute trade =>
    match s.phase with
    | .idle =>
      if validateOpportunity s.tracker.exchanges trade.opp = true then
        { s with phase := .placed trade false false }
      else s
    | .placed _ _ _ | .booking _ => s
  | .fill side =>
    match s.phase, side with
    | .placed trade false sellFilled, .buy =>
      { s with
        accounts := creditAll s.accounts (trade.leg .buy)
        phase := .placed trade true sellFilled }
    | .placed trade buyFilled false, .sell =>
      { s with
        accounts := creditAll s.accounts (trade.leg .sell)
        phase := .placed trade buyFilled true }
    | _, _ => s
  | .book =>
    match s.phase with
    | .placed trade true true => { s with phase := .booking (tradeFills trade.opp trade.results) }
    | .booking (f :: todo) =>
      { s with
        tracker := s.tracker.recordFill f.exchange f.asset f.delta
        phase := .booking todo }
    | .booking [] => { s with phase := .idle }
    | .idle | .placed _ _ _ => s
  | .refresh =>
    { s with
      tracker := s.tracker.refreshBalances fun exch => .ok ((s.accounts exch).report exch)
      refreshed := true }

/-! ### What is still to be booked -/

/-- The fills at the exchanges whose `record_fill` has not run. -/
def ExecutePhase.waiting : ExecutePhase → List Fill
  | .idle => []
  | .placed trade buyFilled sellFilled =>
    (if buyFilled then trade.leg .buy else []) ++ if sellFilled then trade.leg .sell else []
  | .booking todo => todo

/-- What the fills amount to on one exchange and asset. -/
def owed (fills : List Fill) (exch : Exchange) (asset : String) : ℚ :=
  (fills.map fun f => if exch = f.exchange ∧ asset = f.asset then f.delta else 0).sum

variable {exch : Exchange} {asset : String}

@[simp] theorem owed_nil : owed [] exch asset = 0 := rfl

@[simp] theorem owed_cons (f : Fill) (fills : List Fill) :
    owed (f :: fills) exch asset =
      (if exch = f.exchange ∧ asset = f.asset then f.delta else 0) + owed fills exch asset := by
  simp [owed]

@[simp] theorem owed_append (fills more : List Fill) :
    owed (fills ++ more) exch asset = owed fills exch asset + owed more exch asset := by
  simp [owed]

theorem amount_creditAll (accounts : Exchange → Account) (changes : List Fill) :
    (creditAll accounts changes exch).amount asset =
      (accounts exch).amount asset + owed changes exch asset := by
  unfold creditAll
  induction changes generalizing accounts with
  | nil => simp
  | cons f changes ih =>
    rw [List.foldl_cons, ih, owed_cons]
    by_cases hexch : exch = f.exchange
    · subst hexch
      rw [Function.update_self]
      by_cases hasset : asset = f.asset
      · simp [Account.credit, hasset, add_assoc]
      · simp [Account.credit, hasset]
    · simp [hexch]

/-! ### What the tracker reads and writes -/

theorem balance_eq_amount (t : InventoryTracker) :
    t.balance exch asset = Ledger.amount t.states exch asset := by
  unfold InventoryTracker.balance InventoryTracker.getState Ledger.amount Balances.amount
  cases t.states exch <;> rfl

theorem balance_recordFill (t : InventoryTracker) (f : Fill) :
    (t.recordFill f.exchange f.asset f.delta).balance exch asset =
      t.balance exch asset + if exch = f.exchange ∧ asset = f.asset then f.delta else 0 := by
  have hadd : (t.recordFill f.exchange f.asset f.delta).states =
      Ledger.add t.states f.exchange f.asset f.delta := by
    rw [Ledger.add, ← balance_eq_amount]
    rfl
  rw [balance_eq_amount, balance_eq_amount, hadd, Ledger.amount_add]

theorem foldl_report (account : Account) (assets : List String) (balances : Balances) :
    (assets.map fun asset =>
        ({ exchange := exch, asset, free := account.amount asset } : BalanceInfo)).foldl
      (fun (balances : Balances) b =>
        if b.free + b.locked > 0 then Function.update balances b.asset (some (b.free + b.locked))
        else balances) balances asset =
      if asset ∈ assets ∧ 0 < account.amount asset then some (account.amount asset)
      else balances asset := by
  induction assets generalizing balances with
  | nil => simp
  | cons first assets ih =>
    rw [List.map_cons, List.foldl_cons, ih]
    dsimp only
    rw [add_zero]
    by_cases hfirst : asset = first
    · subst hfirst
      by_cases hpos : 0 < account.amount asset
      · simp [hpos]
      · simp [hpos]
    · by_cases hpos : 0 < account.amount first
      · simp [hfirst, hpos]
      · simp [hfirst, hpos]

theorem fetchedBalances_report (account : Account) :
    (InventoryTracker.fetchedBalances (account.report exch)).amount asset =
      max (account.amount asset) 0 := by
  unfold Balances.amount InventoryTracker.fetchedBalances Account.report
  rw [foldl_report]
  by_cases hpos : 0 < account.amount asset
  · have hlisted : asset ∈ account.assets := by
      by_contra hunlisted
      exact hpos.ne' (account.unlisted asset hunlisted)
    rw [if_pos ⟨hlisted, hpos⟩, max_eq_left hpos.le]
    rfl
  · rw [if_neg fun h => hpos h.2, max_eq_right (not_lt.mp hpos)]
    rfl

theorem balance_refresh (t : InventoryTracker) (accounts : Exchange → Account)
    (hexch : exch ∈ t.exchanges) :
    (t.refreshBalances fun exch => .ok ((accounts exch).report exch)).balance exch asset =
      max ((accounts exch).amount asset) 0 := by
  rw [← fetchedBalances_report]
  unfold InventoryTracker.balance InventoryTracker.getState
  rw [InventoryTracker.refreshBalances_states, if_pos hexch]
  rfl

/-! ### The invariant -/

/-- Once refreshed, the tracker lacks exactly what is still to be booked. -/
def Inv (s : System) : Prop :=
  s.refreshed = true → ∀ exch ∈ s.tracker.exchanges, ∀ asset,
    s.tracker.balance exch asset + owed s.phase.waiting exch asset = (s.accounts exch).amount asset

/-- No fill waits for its `record_fill` during a refresh, and no account is
overdrawn. -/
def RefreshSettled (s : System) : Action → Prop
  | .refresh => ∀ exch ∈ s.tracker.exchanges, ∀ asset,
      owed s.phase.waiting exch asset = 0 ∧ 0 ≤ (s.accounts exch).amount asset
  | .execute _ | .fill _ | .book => True

variable {s : System}

theorem Inv.setPhase (h : Inv s) {phase : ExecutePhase}
    (hwaiting : ∀ exch asset, owed phase.waiting exch asset = owed s.phase.waiting exch asset) :
    Inv { s with phase } := by
  intro hrefreshed exch hexch asset
  show s.tracker.balance exch asset + owed phase.waiting exch asset = _
  rw [hwaiting]
  exact h hrefreshed exch hexch asset

theorem Inv.fill (h : Inv s) {changes : List Fill} {phase : ExecutePhase}
    (hwaiting : ∀ exch asset, owed phase.waiting exch asset =
      owed s.phase.waiting exch asset + owed changes exch asset) :
    Inv { s with accounts := creditAll s.accounts changes, phase } := by
  intro hrefreshed exch hexch asset
  have hinv := h hrefreshed exch hexch asset
  show s.tracker.balance exch asset + owed phase.waiting exch asset =
    (creditAll s.accounts changes exch).amount asset
  rw [amount_creditAll, ← hinv, hwaiting, add_assoc]

theorem Inv.record (h : Inv s) {f : Fill} {todo : List Fill} (hphase : s.phase = .booking (f :: todo)) :
    Inv { s with
      tracker := s.tracker.recordFill f.exchange f.asset f.delta
      phase := .booking todo } := by
  intro hrefreshed exch hexch asset
  have hinv := h hrefreshed exch hexch asset
  rw [hphase, ExecutePhase.waiting, owed_cons, ← add_assoc] at hinv
  show (s.tracker.recordFill f.exchange f.asset f.delta).balance exch asset + owed todo exch asset = _
  rw [balance_recordFill]
  exact hinv

theorem Inv.refresh (h : RefreshSettled s .refresh) : Inv (step s .refresh) := by
  intro _ exch hexch asset
  obtain ⟨hsettled, hnonneg⟩ := h exch hexch asset
  simp only [TrackedInventory.step] at hexch ⊢
  rw [balance_refresh s.tracker s.accounts hexch, hsettled, add_zero, max_eq_left hnonneg]

theorem Inv.step (h : Inv s) {a : Action} (hok : RefreshSettled s a) : Inv (step s a) := by
  cases a with
  | execute trade =>
    cases hphase : s.phase with
    | idle =>
      simp only [TrackedInventory.step, hphase]
      split
      · refine h.setPhase ?_
        rw [hphase]
        exact fun _ _ => rfl
      · exact h
    | placed trade buyFilled sellFilled =>
      simp only [TrackedInventory.step, hphase]
      exact h
    | booking todo =>
      simp only [TrackedInventory.step, hphase]
      exact h
  | fill side =>
    simp only [TrackedInventory.step]
    split
    next trade sellFilled hphase =>
      refine h.fill fun exch asset => ?_
      rw [hphase]
      simp [ExecutePhase.waiting, add_comm]
    next trade buyFilled hphase =>
      refine h.fill fun exch asset => ?_
      rw [hphase]
      simp [ExecutePhase.waiting]
    next => exact h
  | book =>
    simp only [TrackedInventory.step]
    split
    next trade hphase =>
      refine h.setPhase fun exch asset => ?_
      rw [hphase, ExecutePhase.waiting, trade.tradeFills_eq]
      rfl
    next f todo hphase => exact h.record hphase
    next hphase =>
      refine h.setPhase fun exch asset => ?_
      rw [hphase]
      rfl
    next => exact h
    next => exact h
  | refresh => exact Inv.refresh hok

/-- With no call in progress the tracked positive balances are the true ones. -/
def Agrees (s : System) : Prop :=
  s.phase = .idle → s.refreshed = true → ∀ exch ∈ s.tracker.exchanges, ∀ asset,
    0 < s.tracker.balance exch asset →
      s.tracker.balance exch asset = (s.accounts exch).amount asset

theorem Inv.agrees (h : Inv s) : Agrees s := by
  intro hidle hrefreshed exch hexch asset _
  have hinv := h hrefreshed exch hexch asset
  rw [hidle, ExecutePhase.waiting, owed_nil, add_zero] at hinv
  exact hinv

def System.new (exchanges : List Exchange) (accounts : Exchange → Account) : System :=
  { accounts, tracker := { exchanges } }

theorem tracked_inventory_agrees (exchanges : List Exchange) (accounts : Exchange → Account)
    {actions : List Action}
    (hok : Runs.Along step RefreshSettled (System.new exchanges accounts) actions) :
    Runs.Always step Agrees (System.new exchanges accounts) actions := by
  have hnew : Inv (System.new exchanges accounts) := fun hrefreshed => by cases hrefreshed
  have hinv : Runs.Always step Inv (System.new exchanges accounts) actions :=
    Runs.always_of_along (fun _ _ hs ha => hs.step ha) hnew hok
  exact hinv.imp fun _ hs => hs.agrees

/-! ### A refresh between a fill and its booking -/

def holding (asset : String) (amount : ℚ) : Account where
  assets := [asset]
  amount := Function.update (fun _ => 0) asset amount
  unlisted := fun _ hother => Function.update_of_ne (fun heq => hother (List.mem_singleton.mpr heq)) ..

def sampleAccounts : Exchange → Account
  | .binance => holding "USDT" 1000
  | .okx | .bybit | .mexc | .gateio | .count => holding "BTC" 5

def sampleTrade : FilledTrade where
  opp :=
    { pair := "BTC-USDT", buyExchange := .binance, sellExchange := .okx, buyPrice := 100
      sellPrice := 102, quantity := 1, grossSpreadBps := 200, netSpreadBps := 180 }
  buyAvg := 100
  sellAvg := 102
  base := "BTC"
  quote := "USDT"
  split := by decide

theorem sampleAccounts_nonneg (exch : Exchange) (asset : String) :
    0 ≤ (sampleAccounts exch).amount asset := by
  have hholding : ∀ (held : String) (amount : ℚ), 0 ≤ amount →
      0 ≤ (holding held amount).amount asset := by
    intro held amount hamount
    show 0 ≤ Function.update (fun _ => (0 : ℚ)) held amount asset
    by_cases hheld : asset = held
    · rw [hheld, Function.update_self]
      exact hamount
    · rw [Function.update_of_ne hheld]
  cases exch <;> exact hholding _ _ (by norm_num)

theorem tracked_inventory_agrees_sample :
    Runs.Always step Agrees (System.new [.binance, .okx] sampleAccounts)
      [.refresh, .execute sampleTrade, .fill .buy, .fill .sell, .book, .book, .book, .book, .book,
        .book] :=
  tracked_inventory_agrees _ _
    ⟨fun exch _ asset => ⟨rfl, sampleAccounts_nonneg exch asset⟩, trivial, trivial, trivial, trivial,
      trivial, trivial, trivial, trivial, trivial, trivial⟩

/-- The refresh already sees the bought coin that is booked afterwards. -/
def refreshedBetween : List Action :=
  [.refresh, .execute sampleTrade, .fill .buy, .refresh, .fill .sell, .book, .book, .book, .book,
    .book, .book]

theorem refresh_counts_fill_twice : ¬ ∀ exchanges accounts actions,
    Runs.Always step Agrees (System.new exchanges accounts) actions := by
  intro h
  have hlast := (h [.binance, .okx] sampleAccounts refreshedBetween).last
  have htracked : (Runs.run step (System.new [.binance, .okx] sampleAccounts)
      refreshedBetween).tracker.balance .binance "BTC" = 2 := by decide +kernel
  have htrue : ((Runs.run step (System.new [.binance, .okx] sampleAccounts)
      refreshedBetween).accounts .binance).amount "BTC" = 1 := by decide +kernel
  have hagree := hlast rfl rfl .binance (List.mem_cons_self ..) "BTC"
  rw [htracked, htrue] at hagree
  exact absurd (hagree (by norm_num)) (by norm_num)

end TrackedInventory

end CryptoArbBot
