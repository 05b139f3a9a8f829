import CryptoArbBot.Strategy.SpreadDetector
import Mathlib.Data.List.MinMax

/-!
# Which candidate a scan fires

The loop body lets a candidate pass when its net spread reaches the threshold;
the running best starts at the threshold and gives way only to a greater one.
-/

namespace CryptoArbBot.SpreadDetector

/-! ### The running best -/

/-- The loop keeps the first of the best opportunities found, if it is above the start. -/
theorem foldl_keepBest_eq {ι : Type*} (f : ι → Option ArbitrageOpportunity) (ps : List ι) (start : ℚ) :
    ps.foldl (fun best p => keepBest best (f p)) (start, none) =
      match (ps.filterMap f).argmax (·.netSpreadBps) with
      | some first => if start < first.netSpreadBps then (first.netSpreadBps, some first) else (start, none)
      | none => (start, none) := by
  induction ps using List.reverseRecOn with
  | nil => rfl
  | append_singleton ps p ih =>
    rw [List.foldl_append, List.foldl_cons, List.foldl_nil, ih, List.filterMap_append]
    cases hp : f p with
    | none =>
      rw [List.filterMap_cons_none hp, List.filterMap_nil, List.append_nil]
      rfl
    | some opp =>
      rw [List.filterMap_cons_some hp, List.filterMap_nil, List.argmax_concat]
      cases (ps.filterMap f).argmax (·.netSpreadBps) with
      | none => rfl
      | some first =>
        dsimp only [keepBest]
        by_cases habove : start < first.netSpreadBps
        · rw [if_pos habove]
          by_cases hgreater : first.netSpreadBps < opp.netSpreadBps
          · rw [if_pos hgreater, if_pos hgreater]
            exact (if_pos (habove.trans hgreater)).symm
          · rw [if_neg hgreater, if_neg hgreater]
            exact (if_pos habove).symm
        · -- nothing is above the start yet
          rw [if_neg habove]
          by_cases hgreater : first.netSpreadBps < opp.netSpreadBps
          · rw [if_pos hgreater]
          · have hbelow : ¬ start < opp.netSpreadBps := fun hopp => habove (hopp.trans_le (not_lt.mp hgreater))
            rw [if_neg hgreater]
            exact (if_neg hbelow).trans (if_neg habove).symm

/-! ### The candidates of a scan -/

section Scan
variable (detector : SpreadDetector) (fees : FeeManager) (pair : String)
  (clock : ℕ → ℕ → TimePoint) (snapshots : List OrderBookSnapshot)

/-- The ordered pairs that pass every filter of the loop body, in the order of the loops. -/
def candidates : List ArbitrageOpportunity :=
  (indexPairs snapshots.length).filterMap (detector.candidate fees pair clock snapshots)

/-- The first of the candidates with the greatest net spread. -/
def winner : Option ArbitrageOpportunity :=
  (detector.candidates fees pair clock snapshots).argmax (·.netSpreadBps)

theorem indexPairs_few {n : ℕ} (h : n < 2) : indexPairs n = [] := by
  refine List.eq_nil_iff_forall_not_mem.mpr ?_
  intro p hp
  obtain ⟨hi, hj, hne⟩ := mem_indexPairs.mp hp
  omega

theorem bestOpportunity_eq : detector.bestOpportunity fees pair clock snapshots =
    (detector.winner fees pair clock snapshots).filter fun first =>
      detector.minNetSpreadBps < first.netSpreadBps := by
  unfold bestOpportunity winner candidates
  split
  next hfew =>
    rw [indexPairs_few hfew]
    rfl
  next =>
    rw [foldl_keepBest_eq]
    cases List.argmax (·.netSpreadBps)
        ((indexPairs snapshots.length).filterMap (detector.candidate fees pair clock snapshots)) with
    | none => rfl
    | some first =>
      rw [Option.filter_some]
      by_cases habove : detector.minNetSpreadBps < first.netSpreadBps
      · simp [habove]
      · simp [habove]

/-! ### Firing -/

/-- Without a candidate the callback is not called; otherwise the first of the best
candidates is handed to it unless that one is in cooldown. -/
def FiresBest (now : TimePoint) (lastTradeTime : String → Option TimePoint) : Prop :=
  let fired := (detector.scanPair fees pair clock now snapshots lastTradeTime).1
  (detector.candidates fees pair clock snapshots = [] → fired = none) ∧
    ∀ first, detector.winner fees pair clock snapshots = some first →
      fired = if inCooldown lastTradeTime (cooldownKey first) now then none else some first

theorem scanPair_fired (now : TimePoint) (lastTradeTime : String → Option TimePoint) :
    (detector.scanPair fees pair clock now snapshots lastTradeTime).1 =
      (detector.bestOpportunity fees pair clock snapshots).filter fun opp =>
        !inCooldown lastTradeTime (cooldownKey opp) now := by
  unfold scanPair
  cases detector.bestOpportunity fees pair clock snapshots with
  | none => rfl
  | some opp =>
    dsimp only
    rw [Option.filter_some]
    cases inCooldown lastTradeTime (cooldownKey opp) now with
    | true => rfl
    | false => rfl

theorem firesBest_iff (now : TimePoint) (lastTradeTime : String → Option TimePoint) :
    FiresBest detector fees pair clock snapshots now lastTradeTime ↔
      ∀ first, detector.winner fees pair clock snapshots = some first →
        detector.minNetSpreadBps < first.netSpreadBps ∨
          inCooldown lastTradeTime (cooldownKey first) now = true := by
  unfold FiresBest
  rw [scanPair_fired, bestOpportunity_eq]
  cases hwinner : detector.winner fees pair clock snapshots with
  | none =>
    refine iff_of_true ⟨fun _ => rfl, ?_⟩ ?_
    · intro first hfirst
      cases hfirst
    · intro first hfirst
      cases hfirst
  | some first =>
    have hsome : detector.candidates fees pair clock snapshots ≠ [] := by
      intro hnil
      rw [winner, hnil] at hwinner
      cases hwinner
    simp only [Option.some.injEq, forall_eq', hsome, false_implies, true_and, Option.filter_some]
    by_cases habove : detector.minNetSpreadBps < first.netSpreadBps
    · cases hcool : inCooldown lastTradeTime (cooldownKey first) now with
      | true => simp [habove, hcool, Option.filter_some]
      | false => simp [habove, hcool, Option.filter_some]
    · -- nothing fires, so only a winner in cooldown agrees
      cases hcool : inCooldown lastTradeTime (cooldownKey first) now with
      | true => simp [habove]
      | false => simp [habove]

end Scan

/-- The candidate's net spread is the threshold itself. -/
theorem candidate_at_threshold_silent : ¬ ∀ (detector : SpreadDetector) (fees : FeeManager)
    (pair : String) (clock : ℕ → ℕ → TimePoint) (snapshots : List OrderBookSnapshot)
    (now : TimePoint) (lastTradeTime : String → Option TimePoint),
    FiresBest detector fees pair clock snapshots now lastTradeTime := by
  intro h
  have hwinner : winner ⟨180, 50, 250⟩ {} "BTC-USDT" (fun _ _ => 0) cappedSnapshots =
      some cappedOpportunity := by decide +kernel
  have hfired := (h ⟨180, 50, 250⟩ {} "BTC-USDT" (fun _ _ => 0) cappedSnapshots 0 fun _ => none).2
    cappedOpportunity hwinner
  have hsilent : (scanPair ⟨180, 50, 250⟩ {} "BTC-USDT" (fun _ _ => 0) 0 cappedSnapshots
      fun _ => none).1 = none := by decide +kernel
  rw [hsilent, inCooldown] at hfired
  cases hfired

end CryptoArbBot.SpreadDetector
