import CryptoArbBot.Library.Interleaving
import CryptoArbBot.Library.LastSeen
import CryptoArbBot.Strategy.SpreadDetector
import Mathlib.Algebra.Order.BigOperators.Group.List
import Mathlib.Algebra.Order.Pi
import Mathlib.Tactic.Ring

/-!
# The cooldown over whole runs (strategy/spread_detector.h)

The feed threads call `scan_pair` beside each other. A call looks for its best
opportunity, takes it through the section under `cooldown_mutex_`, which reads the
clock, and then fires the callback.
-/

namespace CryptoArbBot.SpreadDetector

/-! ### The key -/

def SameTriple (a b : ArbitrageOpportunity) : Prop :=
  a.pair = b.pair ∧ a.buyExchange = b.buyExchange ∧ a.sellExchange = b.sellExchange

def exchangeDigit (exch : Exchange) : Char := Nat.digitChar exch.ctorIdx

theorem toList_cooldownKey (opp : ArbitrageOpportunity) :
    (cooldownKey opp).toList =
      opp.pair.toList ++ [':', exchangeDigit opp.buyExchange, ':', exchangeDigit opp.sellExchange] := by
  have hdigit : ∀ exch : Exchange, (toString exch.ctorIdx).toList = [exchangeDigit exch] := by
    intro exch
    cases exch <;> rfl
  simp only [cooldownKey, String.toList_append, hdigit]
  simp

theorem exchangeDigit_injective {exch exch' : Exchange} (h : exchangeDigit exch = exchangeDigit exch') :
    exch = exch' := by
  cases exch <;> cases exch' <;> first | rfl | exact absurd h (by decide)

/-- Whatever the pair, the last four characters are the two exchanges. -/
theorem cooldownKey_eq_iff {a b : ArbitrageOpportunity} : cooldownKey a = cooldownKey b ↔ SameTriple a b := by
  constructor
  · intro h
    have hlists := congrArg String.toList h
    rw [toList_cooldownKey, toList_cooldownKey] at hlists
    obtain ⟨hpair, hexchanges⟩ := List.append_inj' hlists rfl
    simp only [List.cons.injEq, true_and, and_true] at hexchanges
    exact ⟨String.toList_inj.mp hpair, exchangeDigit_injective hexchanges.1,
      exchangeDigit_injective hexchanges.2⟩
  · intro h
    unfold cooldownKey
    rw [h.1, h.2.1, h.2.2]

/-- Truncated to milliseconds or not, an age below a second is the same. -/
theorem ageMs_lt_iff (now last : ℤ) : ageMs now last < cooldownMs ↔ now - last < 10 ^ 9 := by
  unfold ageMs cooldownMs
  rcases Int.le_total 0 (now - last) with hpos | hneg
  · rw [Int.tdiv_eq_ediv_of_nonneg hpos]
    omega
  · have hle : (now - last).tdiv (10 ^ 6) ≤ Int.tdiv 0 (10 ^ 6) := Int.tdiv_le_tdiv (by decide) hneg
    rw [Int.zero_tdiv] at hle
    omega

/-! ### Calls beside each other -/

/-- An opportunity and the time at which it went through the section. -/
structure Pass where
  opp : ArbitrageOpportunity
  time : TimePoint
  deriving DecidableEq

/-- `now` is the steady clock. The lists are the history, latest first. -/
structure Shared where
  now : TimePoint
  lastTradeTime : String → Option TimePoint := fun _ => none
  passes : List Pass := []
  suppressed : List Pass := []
  fired : List Pass := []

/-- What a call of `scan_pair` works on; `clock` is read while it scans. -/
structure ScanInputs where
  fees : FeeManager
  pair : String
  clock : ℕ → ℕ → TimePoint
  snapshots : List OrderBookSnapshot

inductive ScanStage where
  | scanning
  | won (opp : ArbitrageOpportunity)
  | passed (pass : Pass)
  | returned (fired : Option ArbitrageOpportunity)

structure ScanCall where
  inputs : ScanInputs
  stage : ScanStage := .scanning

def ScanCall.advance (detector : SpreadDetector) (s : Shared) (call : ScanCall) : Shared × ScanCall :=
  match call.stage with
  | .scanning =>
    match detector.bestOpportunity call.inputs.fees call.inputs.pair call.inputs.clock
        call.inputs.snapshots with
    | none => (s, { call with stage := .returned none })
    | some opp => (s, { call with stage := .won opp })
  | .won opp =>
    if inCooldown s.lastTradeTime (cooldownKey opp) s.now then
      ({ s with suppressed := ⟨opp, s.now⟩ :: s.suppressed }, { call with stage := .returned none })
    else
      ({ s with
          lastTradeTime := Function.update s.lastTradeTime (cooldownKey opp) (some s.now)
          passes := ⟨opp, s.now⟩ :: s.passes },
        { call with stage := .passed ⟨opp, s.now⟩ })
  | .passed pass =>
    ({ s with fired := pass :: s.fired }, { call with stage := .returned (some pass.opp) })
  | .returned _ => (s, call)

/-- The atomic operation lets the clock run on. -/
def program (detector : SpreadDetector) : Interleaving.Program Shared ScanInputs ScanCall ℕ where
  fresh inputs := { inputs }
  advance := ScanCall.advance detector
  atomic s elapsed := { s with now := s.now + elapsed }

abbrev runFrom (detector : SpreadDetector) (start : TimePoint)
    (schedule : List (Interleaving.Event ScanInputs ℕ)) : Interleaving.System Shared ScanCall :=
  Runs.run (Interleaving.step (program detector)) ⟨{ now := start }, []⟩ schedule

theorem solo_won (detector : SpreadDetector) (s : Shared) (inputs : ScanInputs)
    (opp : ArbitrageOpportunity) :
    let last := Interleaving.solo (program detector) 2 (s, ⟨inputs, .won opp⟩)
    let result := if inCooldown s.lastTradeTime (cooldownKey opp) s.now then (none, s.lastTradeTime)
      else (some opp, Function.update s.lastTradeTime (cooldownKey opp) (some s.now))
    last.1.lastTradeTime = result.2 ∧ last.2.stage = .returned result.1 := by
  cases hcooldown : inCooldown s.lastTradeTime (cooldownKey opp) s.now with
  | true => simp [Interleaving.solo, program, ScanCall.advance, hcooldown]
  | false => simp [Interleaving.solo, program, ScanCall.advance, hcooldown]

/-- A call on its own is `scan_pair`. -/
theorem solo_scanPair (detector : SpreadDetector) (s : Shared) (inputs : ScanInputs) :
    let last := Interleaving.solo (program detector) 3 (s, { inputs })
    let result := detector.scanPair inputs.fees inputs.pair inputs.clock s.now inputs.snapshots s.lastTradeTime
    last.1.lastTradeTime = result.2 ∧ last.2.stage = .returned result.1 := by
  unfold scanPair
  cases hbest : detector.bestOpportunity inputs.fees inputs.pair inputs.clock inputs.snapshots with
  | none => simp [Interleaving.solo, program, ScanCall.advance, hbest]
  | some opp =>
    have hfirst : ScanCall.advance detector s { inputs } = (s, ⟨inputs, .won opp⟩) := by
      simp only [ScanCall.advance, hbest]
    have hsolo : Interleaving.solo (program detector) 3 (s, { inputs }) =
        Interleaving.solo (program detector) 2 (ScanCall.advance detector s { inputs }) := rfl
    rw [hsolo, hfirst]
    exact solo_won detector s inputs opp

/-! ### The map and the history -/

structure CooldownInv (s : Shared) : Prop where
  tracks : LastSeen.Tracks (fun pass : Pass => cooldownKey pass.opp) Pass.time (10 ^ 9) s.lastTradeTime
    s.passes s.now
  suppressed : ∀ p ∈ s.suppressed, ∃ q ∈ s.passes, SameTriple q.opp p.opp ∧ q.time ≤ p.time ∧
    p.time - q.time < 10 ^ 9

theorem cooldown_free {s : Shared} {opp : ArbitrageOpportunity}
    (h : inCooldown s.lastTradeTime (cooldownKey opp) s.now = false) {t : TimePoint}
    (ht : s.lastTradeTime (cooldownKey opp) = some t) : 10 ^ 9 ≤ s.now - t := by
  unfold inCooldown at h
  rw [ht] at h
  have hfree := of_decide_eq_false h
  rw [ageMs_lt_iff, not_lt] at hfree
  exact hfree

theorem cooldown_held {s : Shared} {opp : ArbitrageOpportunity}
    (h : inCooldown s.lastTradeTime (cooldownKey opp) s.now = true) :
    ∃ t, s.lastTradeTime (cooldownKey opp) = some t ∧ s.now - t < 10 ^ 9 := by
  unfold inCooldown at h
  split at h
  next => cases h
  next t ht => exact ⟨t, ht, (ageMs_lt_iff s.now t).mp (of_decide_eq_true h)⟩

theorem CooldownInv.advance {detector : SpreadDetector} {s : Shared} (h : CooldownInv s) (call : ScanCall) :
    CooldownInv (call.advance detector s).1 := by
  unfold ScanCall.advance
  cases call.stage with
  | scanning =>
    dsimp only
    split
    next => exact h
    next => exact h
  | passed pass => exact ⟨h.tracks, h.suppressed⟩
  | returned fired => exact h
  | won opp =>
    dsimp only
    split
    next hheld =>
      obtain ⟨t, ht, hnear⟩ := cooldown_held hheld
      obtain ⟨q, hq, hkey, hbefore, hgap⟩ := h.tracks.refused ht hnear
      refine ⟨h.tracks, ?_⟩
      intro p hp
      rcases List.mem_cons.mp hp with rfl | hold
      · exact ⟨q, hq, cooldownKey_eq_iff.mp hkey, hbefore, hgap⟩
      · exact h.suppressed p hold
    next hfree =>
      rw [Bool.not_eq_true] at hfree
      refine ⟨h.tracks.record (e := ⟨opp, s.now⟩) rfl fun t ht => cooldown_free hfree ht, ?_⟩
      intro p hp
      obtain ⟨q, hq, hsame⟩ := h.suppressed p hp
      exact ⟨q, List.mem_cons_of_mem _ hq, hsame⟩

theorem CooldownInv.run (detector : SpreadDetector) (start : TimePoint)
    (schedule : List (Interleaving.Event ScanInputs ℕ)) :
    CooldownInv (runFrom detector start schedule).shared := by
  refine Runs.invariant_run (I := fun sys : Interleaving.System Shared ScanCall => CooldownInv sys.shared)
    ?_ schedule ⟨LastSeen.tracks_nil start, fun p hp => by cases hp⟩
  intro sys event h
  cases event with
  | start inputs => exact h
  | atomic elapsed =>
    have hlater : sys.shared.now ≤ sys.shared.now + elapsed := Int.le_add_of_nonneg_right (Int.natCast_nonneg _)
    exact ⟨h.tracks.later hlater, h.suppressed⟩
  | advance i =>
    cases hcall : sys.calls[i]? with
    | none =>
      rw [Interleaving.step_advance_none hcall]
      exact h
    | some call =>
      rw [Interleaving.step_advance_some hcall]
      exact h.advance call

/-! ### The callbacks -/

def ScanInputs.best (detector : SpreadDetector) (inputs : ScanInputs) : Option ArbitrageOpportunity :=
  detector.bestOpportunity inputs.fees inputs.pair inputs.clock inputs.snapshots

theorem advance_inputs (detector : SpreadDetector) (s : Shared) (call : ScanCall) :
    (call.advance detector s).2.inputs = call.inputs := by
  unfold ScanCall.advance
  cases call.stage with
  | scanning =>
    dsimp only
    split <;> rfl
  | won opp =>
    dsimp only
    split <;> rfl
  | passed pass => rfl
  | returned fired => rfl

/-- What a call holds on its way is the best opportunity of its inputs. -/
def ScanCall.Holds (detector : SpreadDetector) (call : ScanCall) : Prop :=
  match call.stage with
  | .won opp => call.inputs.best detector = some opp
  | .passed pass => call.inputs.best detector = some pass.opp
  | .scanning | .returned _ => True

theorem ScanCall.Holds.advance {detector : SpreadDetector} {call : ScanCall}
    (h : call.Holds detector) (s : Shared) : (call.advance detector s).2.Holds detector := by
  unfold ScanCall.Holds at h
  unfold ScanCall.advance
  cases hcall : call.stage with
  | scanning =>
    dsimp only
    split
    next => trivial
    next opp hbest => exact hbest
  | won opp =>
    rw [hcall] at h
    dsimp only
    split
    next => trivial
    next => exact h
  | passed pass => trivial
  | returned fired =>
    unfold ScanCall.Holds
    dsimp only
    rw [hcall]
    trivial

/-- A call between the section and its callback. -/
def ScanCall.passed? (call : ScanCall) : Option Pass :=
  match call.stage with
  | .passed pass => some pass
  | .scanning | .won _ | .returned _ => none

/-- The winner of a call that has returned. -/
def ScanCall.settled (detector : SpreadDetector) (call : ScanCall) : Option ArbitrageOpportunity :=
  match call.stage with
  | .returned _ => call.inputs.best detector
  | .scanning | .won _ | .passed _ => none

/-- Between the section and the callback a pass is held by its call. -/
theorem conserves_passes (detector : SpreadDetector) :
    Interleaving.Conserves (program detector)
      (fun s pass => (s.passes.count pass : ℤ) - s.fired.count pass)
      (fun call pass => -(call.passed?.toList.count pass : ℤ)) (fun _ => True) fun _ => True where
  fresh _ _ := ⟨trivial, rfl⟩
  keeps _ _ _ := trivial
  atomic _ _ := rfl
  advance s call _ := by
    funext pass
    simp only [Pi.add_apply, program, ScanCall.advance, ScanCall.passed?]
    cases hstage : call.stage with
    | scanning =>
      dsimp only
      split <;> simp
    | passed p =>
      simp only [List.count_cons, Option.toList_some, Option.toList_none, List.count_nil]
      split <;> push_cast <;> ring
    | returned fired => simp [hstage]
    | won opp =>
      dsimp only
      split
      next => simp
      next =>
        simp only [List.count_cons, Option.toList_some, Option.toList_none, List.count_nil]
        split <;> push_cast <;> ring

theorem passes_perm (detector : SpreadDetector) (start : TimePoint)
    (schedule : List (Interleaving.Event ScanInputs ℕ)) :
    let sys := runFrom detector start schedule
    sys.shared.passes.Perm (sys.shared.fired ++ sys.calls.filterMap ScanCall.passed?) :=
  (conserves_passes detector).perm rfl fun _ _ => trivial

theorem fired_subperm (detector : SpreadDetector) (start : TimePoint)
    (schedule : List (Interleaving.Event ScanInputs ℕ)) :
    let s := (runFrom detector start schedule).shared
    s.fired.Subperm s.passes :=
  (List.sublist_append_left ..).subperm.trans (passes_perm detector start schedule).symm.subperm

/-- The opportunities that were fired or kept back. -/
def Shared.decided (s : Shared) : List ArbitrageOpportunity := (s.fired ++ s.suppressed).map Pass.opp

theorem conserves_winners (detector : SpreadDetector) :
    Interleaving.Conserves (program detector)
      (fun s opp => (s.decided.count opp : ℤ) - ([] : List ArbitrageOpportunity).count opp)
      (fun call opp => -((call.settled detector).toList.count opp : ℤ)) (fun _ => True)
      (ScanCall.Holds detector) where
  fresh _ _ := ⟨trivial, rfl⟩
  keeps s _ h := h.advance s
  atomic _ _ := rfl
  advance s call h := by
    funext opp
    unfold ScanCall.Holds at h
    simp only [Pi.add_apply, program, ScanCall.advance, ScanCall.settled, Shared.decided]
    cases hstage : call.stage with
    | scanning =>
      dsimp only
      split
      next hbest => simp [ScanInputs.best, hbest]
      next => simp
    | passed p =>
      rw [hstage] at h
      simp only [h, List.cons_append, List.map_cons, List.count_cons, Option.toList_some,
        Option.toList_none, List.count_nil]
      split <;> push_cast <;> ring
    | returned fired => simp [hstage]
    | won winner =>
      rw [hstage] at h
      dsimp only
      split
      next =>
        simp only [h, List.map_append, List.map_cons, List.count_append, List.count_cons,
          Option.toList_some, Option.toList_none, List.count_nil]
        split <;> push_cast <;> ring
      next => simp

theorem winners_perm (detector : SpreadDetector) (start : TimePoint)
    (schedule : List (Interleaving.Event ScanInputs ℕ)) :
    let sys := runFrom detector start schedule
    sys.shared.decided.Perm (sys.calls.filterMap (ScanCall.settled detector)) :=
  (conserves_winners detector).perm rfl fun _ _ => trivial

/-- Every pass is fired or held by a call on its way to the callback, and the winners of
the calls that have returned are those fired and those suppressed. Firings of one pair
and direction went through the section a second apart, and only one that went through
it less than a second before suppresses an opportunity. -/
theorem cooldown_holds (detector : SpreadDetector) (start : TimePoint)
    (schedule : List (Interleaving.Event ScanInputs ℕ)) :
    let sys := runFrom detector start schedule
    let s := sys.shared
    s.passes.Perm (s.fired ++ sys.calls.filterMap ScanCall.passed?) ∧
      ((s.fired ++ s.suppressed).map Pass.opp).Perm (sys.calls.filterMap (ScanCall.settled detector)) ∧
      s.fired.Pairwise (fun p q => SameTriple p.opp q.opp → 10 ^ 9 ≤ |p.time - q.time|) ∧
      (∀ p ∈ s.suppressed, ∃ q ∈ s.passes, SameTriple q.opp p.opp ∧ q.time ≤ p.time ∧
        p.time - q.time < 10 ^ 9) ∧
      ∀ a b : ArbitrageOpportunity, cooldownKey a = cooldownKey b → SameTriple a b := by
  have hinv := CooldownInv.run detector start schedule
  have hsub := fired_subperm detector start schedule
  refine ⟨passes_perm detector start schedule, winners_perm detector start schedule, ?_, hinv.suppressed,
    fun a b => cooldownKey_eq_iff.mp⟩
  refine (hinv.tracks.apart_of_subperm hsub).imp ?_
  intro p q hapart hsame
  exact hapart (cooldownKey_eq_iff.mpr hsame)

end CryptoArbBot.SpreadDetector
