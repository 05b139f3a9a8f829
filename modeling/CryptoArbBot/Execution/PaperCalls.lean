import CryptoArbBot.Execution.PaperExecutor
import CryptoArbBot.Library.Interleaving

/-!
# Concurrent calls of the paper executor

The feed threads call `execute` beside each other and beside `rebalance`. A call
holds `mutex_` for one section at a time: each balance check, each balance
update and the P&L update; `rebalance` is one section.
-/

namespace CryptoArbBot.PaperExecutor

/-- Where a call stands: what it does next. -/
inductive Stage where
  | checkQuote
  | checkBase
  | readBooks
  | booking (buySnap sellSnap : OrderBookSnapshot) (todo : List Section)
  | returned (record : TradeRecord)

structure Call where
  opp : ArbitrageOpportunity
  inputs : Inputs
  stage : Stage := .checkQuote

def Call.advance (st : PaperState) (call : Call) : PaperState × Call :=
  match call.stage with
  | .checkQuote =>
    (st, { call with
      stage := if checkQuote st call.opp = false then .returned (quoteRejected call.opp call.inputs)
        else .checkBase })
  | .checkBase =>
    (st, { call with
      stage := if checkBase st call.opp = false then .returned (baseRejected call.opp call.inputs)
        else .readBooks })
  | .readBooks =>
    (st, { call with
      stage :=
        match call.inputs.buyBook, call.inputs.sellBook with
        | some buySnap, some sellSnap =>
          .booking buySnap sellSnap
            (bookings call.opp (buyFill call.opp call.inputs buySnap)
              (sellFill call.opp call.inputs sellSnap))
        | _, _ => .returned (bookRejected call.opp call.inputs) })
  | .booking buySnap sellSnap [] =>
    (st, { call with stage := .returned (tradeRecord call.opp call.inputs buySnap sellSnap) })
  | .booking buySnap sellSnap (s :: todo) =>
    (s.apply st, { call with stage := .booking buySnap sellSnap todo })
  | .returned _ => (st, call)

/-- Calls start from an opportunity and their inputs; the atomic operation is
`rebalance`. -/
def program : Interleaving.Program PaperState (ArbitrageOpportunity × Inputs) Call Unit where
  fresh args := { opp := args.1, inputs := args.2 }
  advance := Call.advance
  atomic st _ := rebalance st

abbrev System := Interleaving.System PaperState Call

abbrev Action := Interleaving.Event (ArbitrageOpportunity × Inputs) Unit

abbrev runFrom (st : PaperState) (schedule : List Action) : System :=
  Runs.run (Interleaving.step program) ⟨st, []⟩ schedule

def Call.result (call : Call) : Option TradeRecord :=
  match call.stage with
  | .returned record => some record
  | .checkQuote | .checkBase | .readBooks | .booking _ _ _ => none

def Quiet (sys : System) : Prop := ∀ call ∈ sys.calls, call.result.isSome

instance (sys : System) : Decidable (Quiet sys) :=
  inferInstanceAs (Decidable (∀ call ∈ sys.calls, call.result.isSome))

/-! ### A call on its own is `execute` -/

theorem solo_booking (opp : ArbitrageOpportunity) (inputs : Inputs)
    (buySnap sellSnap : OrderBookSnapshot) (todo : List Section) (st : PaperState) :
    Interleaving.solo program (todo.length + 1) (st, ⟨opp, inputs, .booking buySnap sellSnap todo⟩) =
      (todo.foldl Section.apply st,
        ⟨opp, inputs, .returned (tradeRecord opp inputs buySnap sellSnap)⟩) := by
  induction todo generalizing st with
  | nil => rfl
  | cons s todo ih => exact ih (s.apply st)

theorem solo_returned (opp : ArbitrageOpportunity) (inputs : Inputs) (record : TradeRecord)
    (n : ℕ) (st : PaperState) :
    Interleaving.solo program n (st, ⟨opp, inputs, .returned record⟩) =
      (st, ⟨opp, inputs, .returned record⟩) := by
  induction n with
  | zero => rfl
  | succ n ih => exact ih

theorem solo_readBooks (opp : ArbitrageOpportunity) (inputs : Inputs) (st : PaperState)
    (hquote : checkQuote st opp ≠ false) (hbase : checkBase st opp ≠ false) :
    Interleaving.solo program 7 (st, ⟨opp, inputs, .readBooks⟩) =
      ((execute opp inputs st).2, ⟨opp, inputs, .returned (execute opp inputs st).1⟩) := by
  unfold execute
  rw [if_neg hquote, if_neg hbase, Interleaving.solo]
  simp only [program, Call.advance]
  cases hbuy : inputs.buyBook with
  | none => exact solo_returned ..
  | some buySnap =>
    cases hsell : inputs.sellBook with
    | none => exact solo_returned ..
    | some sellSnap =>
      exact solo_booking opp inputs buySnap sellSnap (bookings opp (buyFill opp inputs buySnap)
        (sellFill opp inputs sellSnap)) st

/-- Two checks, the books, five bookings and the return. -/
theorem solo_execute (opp : ArbitrageOpportunity) (inputs : Inputs) (st : PaperState) :
    Interleaving.solo program 9 (st, ⟨opp, inputs, .checkQuote⟩) =
      ((execute opp inputs st).2, ⟨opp, inputs, .returned (execute opp inputs st).1⟩) := by
  rw [Interleaving.solo]
  simp only [program, Call.advance]
  by_cases hquote : checkQuote st opp = false
  · rw [if_pos hquote, execute, if_pos hquote]
    exact solo_returned ..
  · rw [if_neg hquote, Interleaving.solo]
    simp only [Call.advance]
    by_cases hbase : checkBase st opp = false
    · rw [if_pos hbase, execute, if_neg hquote, if_pos hbase]
      exact solo_returned ..
    · rw [if_neg hbase]
      exact solo_readBooks opp inputs st hquote hbase

theorem execute_alone (opp : ArbitrageOpportunity) (inputs : Inputs) (sys : System) :
    Runs.run (Interleaving.step program) sys
        (.start (opp, inputs) :: List.replicate 9 (.advance sys.calls.length)) =
      ⟨(execute opp inputs sys.shared).2,
        sys.calls ++ [⟨opp, inputs, .returned (execute opp inputs sys.shared).1⟩]⟩ := by
  have hstart : Interleaving.step program sys (.start (opp, inputs)) =
      ⟨sys.shared, sys.calls ++ [⟨opp, inputs, .checkQuote⟩]⟩ := rfl
  rw [Runs.run_cons, hstart, Interleaving.run_solo, solo_execute]

end CryptoArbBot.PaperExecutor
