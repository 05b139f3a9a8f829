import CryptoArbBot.Common.Types
import Mathlib.Algebra.Order.Ring.Rat
import Mathlib.Logic.Function.Basic

/-!
# The inventory tracker (execution/inventory_tracker.cpp)

Tracked balances of each exchange. The dollar value and the monitoring thread are
not read by any modelled function and are left out; a refresh is one locked
section.
-/

namespace CryptoArbBot

abbrev Balances := String → Option ℚ

/-- `count(asset) ? at(asset) : 0.0`. -/
def Balances.amount (balances : Balances) (asset : String) : ℚ := (balances asset).getD 0

structure InventoryTracker where
  exchanges : List Exchange
  states : Exchange → Option Balances := fun _ => none

namespace InventoryTracker

/-- Balances without a positive total are dropped. -/
def fetchedBalances (fetched : List BalanceInfo) : Balances :=
  fetched.foldl
    (fun balances b =>
      if b.free + b.locked > 0 then Function.update balances b.asset (some (b.free + b.locked))
      else balances)
    fun _ => none

/-- `refresh_balances`: an exchange whose `fetch_balances` throws keeps its state. -/
def refreshBalances (t : InventoryTracker)
    (fetchBalances : Exchange → Except String (List BalanceInfo)) : InventoryTracker :=
  { t with
    states := t.exchanges.foldl
      (fun states exch =>
        match fetchBalances exch with
        | .ok fetched => Function.update states exch (some (fetchedBalances fetched))
        | .error _ => states)
      t.states }

def getState (t : InventoryTracker) (exch : Exchange) : Balances :=
  (t.states exch).getD fun _ => none

/-- `states_[exch].balances[asset] += delta`. -/
def recordFill (t : InventoryTracker) (exch : Exchange) (asset : String) (delta : ℚ) :
    InventoryTracker :=
  { t with
    states := Function.update t.states exch
      (some (Function.update (t.getState exch) asset (some ((t.getState exch).amount asset + delta)))) }

def balance (t : InventoryTracker) (exch : Exchange) (asset : String) : ℚ :=
  (t.getState exch).amount asset

theorem refreshBalances_states (t : InventoryTracker) (fetched : Exchange → List BalanceInfo)
    (exch : Exchange) :
    (t.refreshBalances fun exch => .ok (fetched exch)).states exch =
      if exch ∈ t.exchanges then some (fetchedBalances (fetched exch)) else t.states exch := by
  have hfold : ∀ (exchanges : List Exchange) (states : Exchange → Option Balances),
      exchanges.foldl (fun states exch =>
          Function.update states exch (some (fetchedBalances (fetched exch)))) states exch =
        if exch ∈ exchanges then some (fetchedBalances (fetched exch)) else states exch := by
    intro exchanges states
    induction exchanges generalizing states with
    | nil => rfl
    | cons first exchanges ih =>
      rw [List.foldl_cons, ih]
      by_cases hfirst : exch = first
      · subst hfirst
        simp
      · simp [hfirst]
  exact hfold t.exchanges t.states

end InventoryTracker

end CryptoArbBot
