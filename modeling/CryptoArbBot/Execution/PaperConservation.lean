import CryptoArbBot.Execution.PaperCalls
import Mathlib.Tactic.Ring

/-!
# Conservation of the paper ledger

Whatever the order of the sections, an asset's holdings less the P&L, when the
asset is the quote, together with what the calls in progress have still to book,
never change. Between calls nothing is left to book.
-/

namespace CryptoArbBot.PaperExecutor

/-- What a section adds to the holdings of the asset beyond the P&L. -/
def Section.effect (quote asset : String) : Section → ℚ
  | .updateBalance _ name delta => if asset = name then delta else 0
  | .addPnl pnl => if asset = quote then -pnl else 0

def Call.held (quote asset : String) (call : Call) : ℚ :=
  match call.stage with
  | .booking _ _ todo => (todo.map (Section.effect quote asset)).sum
  | .checkQuote | .checkBase | .readBooks | .returned _ => 0

/-- The holdings of the asset without the P&L, which is in the quote. -/
def PaperState.principal (quote asset : String) (st : PaperState) : ℚ :=
  st.holdings asset - if asset = quote then st.totalPnl else 0

theorem principal_apply (quote asset : String) (st : PaperState) (s : Section) :
    (s.apply st).principal quote asset = st.principal quote asset + s.effect quote asset := by
  cases s with
  | updateBalance exch name delta =>
    have hholdings := holdings_updateVirtualBalance st exch name asset delta
    have hpnl : (updateVirtualBalance st exch name delta).totalPnl = st.totalPnl := rfl
    simp only [Section.apply, PaperState.principal, Section.effect, hholdings, hpnl]
    ring
  | addPnl pnl =>
    show st.holdings asset - (if asset = quote then st.totalPnl + pnl else 0) = _
    simp only [PaperState.principal, Section.effect]
    split <;> ring

theorem bookings_effect {opp : ArbitrageOpportunity} {quote : String}
    (hquote : extractQuoteAsset opp.pair = quote) (buy sell : OrderResult) (asset : String) :
    ((bookings opp buy sell).map (Section.effect quote asset)).sum = 0 := by
  simp only [bookings, realizedPnl, hquote, List.map_cons, List.map_nil, List.sum_cons, List.sum_nil,
    Section.effect]
  by_cases hbase : asset = extractBaseAsset opp.pair
  · by_cases hasset : asset = quote
    · rw [if_pos hbase, if_pos hasset, if_pos hbase, if_pos hasset, if_pos hasset]
      ring
    · rw [if_pos hbase, if_neg hasset, if_pos hbase, if_neg hasset, if_neg hasset]
      ring
  · by_cases hasset : asset = quote
    · rw [if_neg hbase, if_pos hasset, if_neg hbase, if_pos hasset, if_pos hasset]
      ring
    · rw [if_neg hbase, if_neg hasset, if_neg hbase, if_neg hasset, if_neg hasset]
      ring

theorem advance_principal {quote : String} (asset : String) (st : PaperState) {call : Call}
    (hquote : extractQuoteAsset call.opp.pair = quote) :
    (call.advance st).1.principal quote asset + (call.advance st).2.held quote asset =
      st.principal quote asset + call.held quote asset := by
  obtain ⟨opp, inputs, stage⟩ := call
  cases stage with
  | checkQuote => cases hcheck : checkQuote st opp <;> simp [Call.advance, Call.held, hcheck]
  | checkBase => cases hcheck : checkBase st opp <;> simp [Call.advance, Call.held, hcheck]
  | readBooks =>
    simp only [Call.advance, Call.held]
    cases inputs.buyBook with
    | none => rfl
    | some buySnap =>
      cases inputs.sellBook with
      | none => rfl
      | some sellSnap => simp only [bookings_effect hquote]
  | booking buySnap sellSnap todo =>
    cases todo with
    | nil => rfl
    | cons s todo =>
      simp only [Call.advance, Call.held, principal_apply, List.map_cons, List.sum_cons]
      ring
  | returned record => rfl

theorem program_conserves (quote asset : String) :
    Interleaving.Conserves program (PaperState.principal quote asset) (Call.held quote asset)
      (fun args => extractQuoteAsset args.1.pair = quote)
      (fun call => extractQuoteAsset call.opp.pair = quote) where
  fresh _ hargs := ⟨hargs, rfl⟩
  keeps st call hcall := by
    have hopp : (call.advance st).2.opp = call.opp := by
      unfold Call.advance
      split <;> rfl
    show extractQuoteAsset (call.advance st).2.opp.pair = quote
    rw [hopp]
    exact hcall
  advance st _ hcall := advance_principal asset st hcall
  atomic st _ := by
    show (rebalance st).principal quote asset = st.principal quote asset
    rw [PaperState.principal, holdings_rebalance, totalPnl_rebalance]
    rfl

theorem principal_quiet {quote : String} (asset : String) (st : PaperState) {schedule : List Action}
    (hquote : ∀ opp inputs, .start (opp, inputs) ∈ schedule → extractQuoteAsset opp.pair = quote)
    (hquiet : Quiet (runFrom st schedule)) :
    (runFrom st schedule).shared.principal quote asset = st.principal quote asset := by
  have hworth := (program_conserves quote asset).worth_run st
    (fun args hargs => hquote args.1 args.2 hargs)
  have hheld : ((runFrom st schedule).calls.map (Call.held quote asset)).sum = 0 := by
    refine List.sum_eq_zero fun held hmem => ?_
    obtain ⟨call, hcall, rfl⟩ := List.mem_map.mp hmem
    have hreturned := hquiet call hcall
    unfold Call.result at hreturned
    unfold Call.held
    split at hreturned
    next hstage => rw [hstage]
    all_goals cases hreturned
  rw [Interleaving.worth, hheld, add_zero] at hworth
  exact hworth

/-! ### Rejected calls -/

def Traded (record : TradeRecord) : Prop :=
  record.buyResult.status ≠ .rejected ∧ record.sellResult.status ≠ .rejected

theorem simulateFill_status (req : OrderRequest) (book : OrderBookSnapshot)
    (takerFeeRate fillPct : ℚ) (uuid : String) :
    (simulateFill req book takerFeeRate fillPct uuid).status ≠ .rejected := by
  unfold simulateFill fillOf
  cases req.side with
  | buy => dsimp only; split <;> simp
  | sell => dsimp only; split <;> simp

theorem tradeRecord_traded (opp : ArbitrageOpportunity) (inputs : Inputs)
    (buySnap sellSnap : OrderBookSnapshot) : Traded (tradeRecord opp inputs buySnap sellSnap) :=
  ⟨simulateFill_status _ _ _ _ _, simulateFill_status _ _ _ _ _⟩

/-- The call has begun to book or has returned a trade. -/
def Call.Committed (call : Call) : Prop :=
  match call.stage with
  | .booking _ _ _ => True
  | .returned record => Traded record
  | .checkQuote | .checkBase | .readBooks => False

theorem Call.Committed.traded {call : Call} (h : call.Committed) {record : TradeRecord}
    (hresult : call.result = some record) : Traded record := by
  obtain ⟨opp, inputs, stage⟩ := call
  cases stage with
  | returned r =>
    cases hresult
    exact h
  | checkQuote => cases hresult
  | checkBase => cases hresult
  | readBooks => cases hresult
  | booking buySnap sellSnap todo => cases hresult

theorem committed_advance (st : PaperState) {call : Call} (h : call.Committed) :
    (call.advance st).2.Committed := by
  obtain ⟨opp, inputs, stage⟩ := call
  cases stage with
  | checkQuote => exact h.elim
  | checkBase => exact h.elim
  | readBooks => exact h.elim
  | booking buySnap sellSnap todo =>
    cases todo with
    | nil => exact tradeRecord_traded opp inputs buySnap sellSnap
    | cons s todo => exact trivial
  | returned record => exact h

theorem advance_fst_of_not_committed (st : PaperState) {call : Call} (h : ¬ call.Committed) :
    (call.advance st).1 = st := by
  obtain ⟨opp, inputs, stage⟩ := call
  cases stage with
  | checkQuote => rfl
  | checkBase => rfl
  | readBooks => rfl
  | booking buySnap sellSnap todo => exact absurd trivial h
  | returned record => rfl

def ReturnsRejected (sys : System) (i : ℕ) : Prop :=
  ∃ call record, sys.calls[i]? = some call ∧ call.result = some record ∧
    (record.buyResult.status = .rejected ∨ record.sellResult.status = .rejected)

theorem rejected_untouched (st : PaperState) (before after : List Action) (i : ℕ)
    (h : ReturnsRejected (runFrom st (before ++ .advance i :: after)) i) :
    (runFrom st (before ++ [.advance i])).shared = (runFrom st before).shared := by
  obtain ⟨final, record, hfinal, hrecord, hrejected⟩ := h
  simp only [runFrom, Runs.run_append, Runs.run_cons, Runs.run_nil] at hfinal ⊢
  generalize Runs.run (Interleaving.step program) ⟨st, []⟩ before = sys at hfinal ⊢
  cases hi : sys.calls[i]? with
  | none => rw [Interleaving.step_advance_none hi]
  | some call =>
    have hfree : ¬ call.Committed := by
      intro hcommitted
      obtain ⟨call', hcall', hcommitted'⟩ := Interleaving.call_persists (p := program)
        (P := Call.Committed) (fun st _ h => committed_advance st h) (.advance i :: after)
        ⟨call, hi, hcommitted⟩
      have hsame : call' = final := Option.some.inj (hcall'.symm.trans hfinal)
      have htraded : Traded record := (hsame ▸ hcommitted').traded hrecord
      exact hrejected.elim htraded.1 htraded.2
    rw [Interleaving.step_advance_some hi]
    exact advance_fst_of_not_committed sys.shared hfree

/-! ### The ledger -/

/-- In every schedule of calls on pairs with one quote and of rebalances, between
calls the holdings of the quote are what was distributed of it plus the P&L and
those of any other asset are what was distributed; and no section of a call that
returns a rejection changes anything. -/
theorem paper_conserved (initialBalances : AssetMap) {activeExchanges : List Exchange}
    (hdistinct : activeExchanges.Nodup) {quote : String} {schedule : List Action}
    (hquote : ∀ opp inputs, .start (opp, inputs) ∈ schedule → extractQuoteAsset opp.pair = quote) :
    let st := construct initialBalances activeExchanges
    let final := runFrom st schedule
    (Quiet final →
      final.shared.holdings quote =
        distributed initialBalances activeExchanges quote + final.shared.totalPnl ∧
      ∀ asset, asset ≠ quote →
        final.shared.holdings asset = distributed initialBalances activeExchanges asset) ∧
    ∀ before i after, schedule = before ++ .advance i :: after → ReturnsRejected final i →
      (runFrom st (before ++ [.advance i])).shared = (runFrom st before).shared := by
  intro st final
  have hpnl : st.totalPnl = 0 := by
    show (construct initialBalances activeExchanges).totalPnl = 0
    unfold construct
    split <;> rfl
  refine ⟨?_, ?_⟩
  · intro hquiet
    have hprincipal : ∀ asset, final.shared.principal quote asset =
        distributed initialBalances activeExchanges asset := by
      intro asset
      rw [principal_quiet asset st hquote hquiet, PaperState.principal, hpnl, ite_self, sub_zero,
        holdings_construct initialBalances hdistinct]
    refine ⟨?_, ?_⟩
    · have h := hprincipal quote
      rw [PaperState.principal, if_pos rfl] at h
      exact sub_eq_iff_eq_add.mp h
    · intro asset hasset
      have h := hprincipal asset
      rwa [PaperState.principal, if_neg hasset, sub_zero] at h
  · intro before i after hschedule hrejected
    subst hschedule
    exact rejected_untouched st before after i hrejected

/-! ### Two exchanges -/

def sampleBalances : AssetMap := ⟨[("BTC", 4), ("USDT", 2000)], by decide⟩

def samplePair : ArbitrageOpportunity :=
  { pair := "BTC-USDT", buyExchange := .binance, sellExchange := .okx, buyPrice := 100
    sellPrice := 102, quantity := 1, grossSpreadBps := 200, netSpreadBps := 180 }

def sampleBook (exch : Exchange) (bid ask quantity : ℚ) : OrderBookSnapshot :=
  { exchange := exch, pair := "BTC-USDT", bids := [⟨bid, quantity⟩], asks := [⟨ask, quantity⟩] }

def sampleInputs (takerFee depth : ℚ) : Inputs :=
  { uuids := fun _ => ""
    timestampIso := "2024-01-01T00:00:00Z"
    buyBook := some (sampleBook .binance 99 100 depth)
    sellBook := some (sampleBook .okx 102 103 depth)
    buyTakerFee := takerFee
    sellTakerFee := takerFee
    buyFillPct := 1 / 2
    sellFillPct := 1 / 2 }

/-- Two calls whose sections interleave, with a rebalance between two updates of
the first. -/
def sampleSchedule : List Action :=
  [.start (samplePair, sampleInputs (1 / 1000) 5), .start (samplePair, sampleInputs (1 / 1000) (1 / 2))] ++
    List.replicate 5 (.advance 0) ++ [.atomic ()] ++ List.replicate 9 (.advance 1) ++
    [.atomic ()] ++ List.replicate 4 (.advance 0)

theorem sampleSchedule_conserved :
    let st := construct sampleBalances [.binance, .okx]
    (runFrom st sampleSchedule).shared.holdings "USDT" =
      distributed sampleBalances [.binance, .okx] "USDT" + (runFrom st sampleSchedule).shared.totalPnl := by
  refine ((paper_conserved sampleBalances (by decide) ?_).1 (by decide +kernel)).1
  intro opp inputs hstart
  have hargs : opp = samplePair ∧ inputs = sampleInputs (1 / 1000) 5 ∨
      opp = samplePair ∧ inputs = sampleInputs (1 / 1000) (1 / 2) := by
    simpa [sampleSchedule] using hstart
  have hopp : opp = samplePair := hargs.elim And.left And.left
  rw [hopp]
  decide +kernel

/-- With no exchange active nothing is distributed, and the sum is not the
initial amount. -/
theorem noExchange_not_conserved :
    let final := runFrom (construct sampleBalances []) []
    Quiet final ∧
      final.shared.holdings "USDT" ≠ sampleBalances.amount "USDT" + final.shared.totalPnl := by
  decide +kernel

end CryptoArbBot.PaperExecutor
