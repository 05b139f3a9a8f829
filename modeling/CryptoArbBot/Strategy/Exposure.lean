import CryptoArbBot.Strategy.Cooldown
import Mathlib.Algebra.Order.BigOperators.Group.List
import Mathlib.Data.Finset.Prod

/-!
# How much the detector lets through (strategy/spread_detector.h)

The cooldown admits each pair and direction once a second, and the largest trade
size caps what one opportunity buys. Between them they bound what all feed threads
together can take through the cooldown in any stretch of time.
-/

namespace CryptoArbBot.SpreadDetector

def notional (opp : ArbitrageOpportunity) : ℚ := opp.buyPrice * opp.quantity

/-- A pair with the two exchanges of the trade. -/
def route (opp : ArbitrageOpportunity) : String × Exchange × Exchange :=
  (opp.pair, opp.buyExchange, opp.sellExchange)

def routes (pairs : List String) (active : List Exchange) : Finset (String × Exchange × Exchange) :=
  pairs.toFinset ×ˢ active.toFinset.offDiag

theorem card_routes_le (pairs : List String) (active : List Exchange) :
    (routes pairs active).card ≤ pairs.length * (active.length * (active.length - 1)) := by
  have hactive : active.toFinset.card ≤ active.length := List.toFinset_card_le active
  rw [routes, Finset.card_product, Finset.offDiag_card, ← Nat.mul_sub_one]
  exact Nat.mul_le_mul (List.toFinset_card_le pairs)
    (Nat.mul_le_mul hactive (Nat.sub_le_sub_right hactive 1))

/-- What a scan of a monitored pair gets from the aggregator. -/
structure Monitored (pairs : List String) (active : List Exchange) (inputs : ScanInputs) : Prop where
  pair : inputs.pair ∈ pairs
  exchanges : (inputs.snapshots.map (·.exchange)).Nodup
  active : ∀ snap ∈ inputs.snapshots, snap.exchange ∈ active
  books : ∀ snap ∈ inputs.snapshots, Sorted snap ∧ snap.Positive

structure Limited (detector : SpreadDetector) (pairs : List String) (active : List Exchange)
    (opp : ArbitrageOpportunity) : Prop where
  route : route opp ∈ routes pairs active
  notional : notional opp ≤ detector.maxTradeSizeUsd

variable {detector : SpreadDetector} {pairs : List String} {active : List Exchange}

theorem scanPair_of_best {inputs : ScanInputs} {opp : ArbitrageOpportunity}
    (h : detector.bestOpportunity inputs.fees inputs.pair inputs.clock inputs.snapshots = some opp) :
    (detector.scanPair inputs.fees inputs.pair inputs.clock 0 inputs.snapshots fun _ => none).1 =
      some opp := by
  simp [scanPair, h, inCooldown]

theorem limited_of_best {inputs : ScanInputs} (hinputs : Monitored pairs active inputs)
    {opp : ArbitrageOpportunity}
    (h : detector.bestOpportunity inputs.fees inputs.pair inputs.clock inputs.snapshots = some opp) :
    Limited detector pairs active opp := by
  obtain ⟨i, j, buyBook, sellBook, hij, hi, hj, hexamine⟩ := scanPair_some (scanPair_of_best h)
  have hbuy := List.mem_of_getElem? hi
  have hsell := List.mem_of_getElem? hj
  obtain ⟨hsorted, hpositive⟩ := hinputs.books buyBook hbuy
  have hopp := examine_some hsorted hpositive hexamine
  have hne : opp.buyExchange ≠ opp.sellExchange := by
    rw [hopp.buyExchange, hopp.sellExchange]
    exact exchange_ne_of_index hinputs.exchanges hij hi hj
  refine ⟨?_, hopp.notional⟩
  simp only [route, routes, Finset.mem_product, Finset.mem_offDiag, List.mem_toFinset]
  rw [hopp.samePair]
  refine ⟨hinputs.pair, ?_, ?_, hne⟩
  · rw [hopp.buyExchange]
    exact hinputs.active buyBook hbuy
  · rw [hopp.sellExchange]
    exact hinputs.active sellBook hsell

/-! ### The calls -/

/-- A call under way holds nothing beyond the limits. -/
def ScanCall.Within (detector : SpreadDetector) (pairs : List String) (active : List Exchange)
    (call : ScanCall) : Prop :=
  Monitored pairs active call.inputs ∧
    match call.stage with
    | .won opp => Limited detector pairs active opp
    | .passed pass => Limited detector pairs active pass.opp
    | .scanning | .returned _ => True

theorem ScanCall.Within.advance {call : ScanCall} (h : call.Within detector pairs active) (s : Shared) :
    (call.advance detector s).2.Within detector pairs active := by
  obtain ⟨hinputs, hstage⟩ := h
  unfold ScanCall.advance
  cases hcall : call.stage with
  | scanning =>
    dsimp only
    split
    next => exact ⟨hinputs, trivial⟩
    next opp hbest => exact ⟨hinputs, limited_of_best hinputs hbest⟩
  | won opp =>
    rw [hcall] at hstage
    dsimp only
    split
    next => exact ⟨hinputs, trivial⟩
    next => exact ⟨hinputs, hstage⟩
  | passed pass => exact ⟨hinputs, trivial⟩
  | returned fired =>
    refine ⟨hinputs, ?_⟩
    dsimp only
    rw [hcall]
    trivial

structure AllWithin (detector : SpreadDetector) (pairs : List String) (active : List Exchange)
    (sys : Interleaving.System Shared ScanCall) : Prop where
  calls : ∀ call ∈ sys.calls, call.Within detector pairs active
  passes : ∀ pass ∈ sys.shared.passes, Limited detector pairs active pass.opp

theorem passes_advance {call : ScanCall} (h : call.Within detector pairs active) {s : Shared}
    (hpasses : ∀ pass ∈ s.passes, Limited detector pairs active pass.opp) :
    ∀ pass ∈ (call.advance detector s).1.passes, Limited detector pairs active pass.opp := by
  obtain ⟨-, hstage⟩ := h
  unfold ScanCall.advance
  cases hcall : call.stage with
  | scanning =>
    dsimp only
    split
    next => exact hpasses
    next => exact hpasses
  | won opp =>
    rw [hcall] at hstage
    dsimp only
    split
    next => exact hpasses
    next =>
      intro pass hpass
      rcases List.mem_cons.mp hpass with rfl | hold
      · exact hstage
      · exact hpasses pass hold
  | returned fired => exact hpasses
  | passed pass => exact hpasses

theorem AllWithin.step {sys : Interleaving.System Shared ScanCall}
    (h : AllWithin detector pairs active sys) {event : Interleaving.Event ScanInputs ℕ}
    (hevent : ∀ inputs, event = .start inputs → Monitored pairs active inputs) :
    AllWithin detector pairs active (Interleaving.step (program detector) sys event) := by
  refine ⟨Interleaving.forall_calls_step (fun s call hcall => hcall.advance s) h.calls
    fun inputs heq => ⟨hevent inputs heq, trivial⟩, ?_⟩
  cases event with
  | start inputs => exact h.passes
  | atomic elapsed => exact h.passes
  | advance i =>
    cases hcall : sys.calls[i]? with
    | none =>
      rw [Interleaving.step_advance_none hcall]
      exact h.passes
    | some call =>
      rw [Interleaving.step_advance_some hcall]
      exact passes_advance (h.calls call (List.mem_of_getElem? hcall)) h.passes

theorem allWithin_run (start : TimePoint) {schedule : List (Interleaving.Event ScanInputs ℕ)}
    (hscans : ∀ inputs, .start inputs ∈ schedule → Monitored pairs active inputs) :
    AllWithin detector pairs active (runFrom detector start schedule) := by
  refine Runs.invariant_run_mem (I := AllWithin detector pairs active) ?_
    ⟨List.forall_mem_nil _, List.forall_mem_nil _⟩
  intro sys event hevent h
  exact h.step fun inputs heq => hscans inputs (heq ▸ hevent)

/-! ### What a stretch of time lets through -/

/-- The opportunities that went through the section in the seconds from `since`. -/
def passedWithin (s : Shared) (since : TimePoint) (seconds : ℕ) : List Pass :=
  s.passes.filter fun pass => since ≤ pass.time ∧ pass.time < since + seconds * 10 ^ 9

theorem passes_apart (detector : SpreadDetector) (start : TimePoint)
    (schedule : List (Interleaving.Event ScanInputs ℕ)) :
    (runFrom detector start schedule).shared.passes.Pairwise
      (LastSeen.Apart (fun pass : Pass => route pass.opp) Pass.time (10 ^ 9)) := by
  refine (CooldownInv.run detector start schedule).tracks.apart.imp ?_
  intro p q hapart hroute
  obtain ⟨hpair, hexchanges⟩ := Prod.mk.inj hroute
  obtain ⟨hbuy, hsell⟩ := Prod.mk.inj hexchanges
  exact hapart (cooldownKey_eq_iff.mpr ⟨hpair, hbuy, hsell⟩)

/-- However the feed threads interleave, the opportunities that pass the cooldown in a
stretch of `seconds` are at most one a second for each pair and direction, what they buy
together stays below that many of the largest trades, and nothing else is ever fired. -/
theorem exposure_bounded (hmax : 0 ≤ detector.maxTradeSizeUsd) (start : TimePoint)
    {schedule : List (Interleaving.Event ScanInputs ℕ)}
    (hscans : ∀ inputs, .start inputs ∈ schedule → Monitored pairs active inputs)
    (since : TimePoint) (seconds : ℕ) :
    let s := (runFrom detector start schedule).shared
    let passed := passedWithin s since seconds
    let most := pairs.length * (active.length * (active.length - 1)) * seconds
    passed.length ≤ most ∧
      (passed.map fun pass => notional pass.opp).sum ≤ most * detector.maxTradeSizeUsd ∧
      s.fired.Subperm s.passes := by
  intro s passed most
  have hwithin := (@allWithin_run detector _ _ start _ hscans).passes
  have hlimited : ∀ pass ∈ passed, Limited detector pairs active pass.opp :=
    fun pass hpass => hwithin pass (List.mem_of_mem_filter hpass)
  have hwindow : ∀ pass ∈ passed, since ≤ pass.time ∧ pass.time < since + seconds * 10 ^ 9 :=
    fun pass hpass => of_decide_eq_true (List.mem_filter.mp hpass).2
  have hapart := (passes_apart detector start schedule).filter
    fun pass => since ≤ pass.time ∧ pass.time < since + seconds * 10 ^ 9
  have hlength : passed.length ≤ most :=
    calc passed.length ≤ (routes pairs active).card * seconds :=
          LastSeen.length_le_of_apart hapart (fun pass hpass => (hlimited pass hpass).route) hwindow
      _ ≤ most := Nat.mul_le_mul_right seconds (card_routes_le pairs active)
  refine ⟨hlength, ?_, fired_subperm detector start schedule⟩
  have hsum : (passed.map fun pass => notional pass.opp).sum ≤
      passed.length • detector.maxTradeSizeUsd := by
    refine (List.sum_le_card_nsmul _ detector.maxTradeSizeUsd ?_).trans_eq (by rw [List.length_map])
    intro bought hbought
    obtain ⟨pass, hpass, rfl⟩ := List.mem_map.mp hbought
    exact (hlimited pass hpass).notional
  calc (passed.map fun pass => notional pass.opp).sum
      ≤ passed.length * detector.maxTradeSizeUsd := by rwa [nsmul_eq_mul] at hsum
    _ ≤ most * detector.maxTradeSizeUsd :=
      mul_le_mul_of_nonneg_right (Nat.cast_le.mpr hlength) hmax

/-! ### One scan passes -/

def cappedScan : ScanInputs :=
  { fees := {}, pair := "BTC-USDT", clock := fun _ _ => 0, snapshots := cappedSnapshots }

theorem cappedScan_monitored : Monitored ["BTC-USDT"] [.binance, .okx] cappedScan :=
  ⟨by decide, by decide, by decide, cappedSnapshots_sorted_positive⟩

theorem cappedScan_exposure :
    let detector : SpreadDetector := ⟨3, 50, 250⟩
    let schedule : List (Interleaving.Event ScanInputs ℕ) :=
      [.start cappedScan, .advance 0, .advance 0, .advance 0]
    let s := (runFrom detector 0 schedule).shared
    let passed := passedWithin s 0 1
    passed.length ≤ 1 * (2 * (2 - 1)) * 1 ∧
      (passed.map fun pass => notional pass.opp).sum ≤ (1 * (2 * (2 - 1)) * 1 : ℕ) * (250 : ℚ) ∧
      s.fired.Subperm s.passes := by
  intro detector schedule
  refine @exposure_bounded detector ["BTC-USDT"] [.binance, .okx] (by decide +kernel) 0 schedule ?_ 0 1
  intro inputs hstart
  rcases List.mem_cons.mp hstart with heq | hrest
  · cases heq
    exact cappedScan_monitored
  · simp at hrest

end CryptoArbBot.SpreadDetector
