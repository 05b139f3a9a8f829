import CryptoArbBot.Execution.InventoryTracker
import CryptoArbBot.Library.OrderedSet
import Mathlib.Algebra.BigOperators.Group.List.Basic
import Mathlib.Tactic.Linarith
import Mathlib.Tactic.Positivity

/-!
# Drift alerts (execution/inventory_tracker.cpp)

`check_drift` compares the exchanges that have an entry for an asset. A refresh
drops the entries that are zero, so an exchange without any of the asset is not
among them. The message of an alert is left out.
-/

namespace CryptoArbBot

structure DriftAlert where
  asset : String
  excessExchange : Exchange
  deficitExchange : Exchange
  imbalancePct : ℚ
  deriving DecidableEq, Repr

namespace InventoryTracker

/-- In the order of the enumeration, in which `std::map<Exchange, double>` keeps them. -/
def allExchanges : List Exchange := [.binance, .okx, .bybit, .mexc, .gateio, .count]

/-- `asset_balances[asset]`. -/
def exchAmounts (t : InventoryTracker) (asset : String) : List (Exchange × ℚ) :=
  allExchanges.filterMap fun exch => (t.getState exch asset).map fun amount => (exch, amount)

/-- The keys of `asset_balances`, which `std::map` gives in ascending order. -/
structure KnownAssets (t : InventoryTracker) where
  assets : List String
  ascending : assets.Pairwise (· < ·)
  mem_iff : ∀ asset, asset ∈ assets ↔ t.exchAmounts asset ≠ []

def KnownAssets.ofCover (t : InventoryTracker) (cover : List String)
    (h : ∀ asset, t.exchAmounts asset ≠ [] → asset ∈ cover) : KnownAssets t where
  assets := orderedSet (cover.filter fun asset => t.exchAmounts asset ≠ [])
  ascending := orderedSet_ascending _
  mem_iff := by
    intro asset
    rw [mem_orderedSet, List.mem_filter, decide_eq_true_eq]
    exact ⟨fun h => h.2, fun hne => ⟨h asset hne, hne⟩⟩

/-- The entry left by the loop that replaces the best one by each better one. -/
def pickOf (better : ℚ → ℚ → Prop) [DecidableRel better] (first : Exchange × ℚ)
    (amounts : List (Exchange × ℚ)) : Exchange × ℚ :=
  amounts.foldl (fun best p => if better p.2 best.2 then p else best) first

/-- `max_exch` and `max_amt` after the loop. -/
def mostOf (first : Exchange × ℚ) (amounts : List (Exchange × ℚ)) : Exchange × ℚ :=
  pickOf (· > ·) first amounts

/-- `min_exch` and `min_amt` after the loop. -/
def leastOf (first : Exchange × ℚ) (amounts : List (Exchange × ℚ)) : Exchange × ℚ :=
  pickOf (· < ·) first amounts

/-- The loop body for one asset, with `drift_threshold_pct_`. -/
def driftAlert (driftThresholdPct : ℚ) (asset : String) (amounts : List (Exchange × ℚ)) :
    Option DriftAlert :=
  match amounts with
  | first :: _ :: _ =>
    let total := (amounts.map Prod.snd).sum
    if total ≤ 0 then none
    else
      let avg := total / amounts.length
      let most := mostOf first amounts
      let least := leastOf first amounts
      let imbalancePct := if avg > 0 then (most.2 - least.2) / avg * 100 else 0
      if imbalancePct > driftThresholdPct then
        some { asset, excessExchange := most.1, deficitExchange := least.1, imbalancePct }
      else none
  | _ => none

def checkDrift (driftThresholdPct : ℚ) (t : InventoryTracker) (known : KnownAssets t) :
    List DriftAlert :=
  known.assets.filterMap fun asset => driftAlert driftThresholdPct asset (t.exchAmounts asset)

/-! ### The extremes of a list of amounts -/

theorem pickOf_spec (better : ℚ → ℚ → Prop) [DecidableRel better] [IsStrictTotalOrder ℚ better]
    (first : Exchange × ℚ) (amounts : List (Exchange × ℚ)) :
    pickOf better first amounts ∈ first :: amounts ∧
      ∀ p ∈ first :: amounts, ¬ better p.2 (pickOf better first amounts).2 := by
  induction amounts generalizing first with
  | nil => simpa [pickOf] using irrefl_of better first.2
  | cons next amounts ih =>
    have hstep : pickOf better first (next :: amounts) =
        pickOf better (if better next.2 first.2 then next else first) amounts := rfl
    rw [hstep]
    by_cases hbetter : better next.2 first.2
    · rw [if_pos hbetter]
      obtain ⟨hmem, hbest⟩ := ih next
      refine ⟨List.mem_cons_of_mem _ hmem, List.forall_mem_cons.mpr ⟨?_, hbest⟩⟩
      intro hfirst
      exact hbest next (List.mem_cons_self ..) (trans_of better hbetter hfirst)
    · rw [if_neg hbetter]
      obtain ⟨hmem, hbest⟩ := ih first
      obtain ⟨hfirst, hrest⟩ := List.forall_mem_cons.mp hbest
      constructor
      · rcases List.mem_cons.mp hmem with heq | hmem
        · rw [heq]
          exact List.mem_cons_self ..
        · exact List.mem_cons_of_mem _ (List.mem_cons_of_mem _ hmem)
      · refine List.forall_mem_cons.mpr ⟨hfirst, List.forall_mem_cons.mpr ⟨?_, hrest⟩⟩
        intro hnext
        rcases trichotomous_of better next.2 first.2 with hlt | heq | hgt
        · exact hbetter hlt
        · exact hfirst (heq ▸ hnext)
        · exact hfirst (trans_of better hgt hnext)

structure Extremes (amounts : List (Exchange × ℚ)) (most least : Exchange × ℚ) : Prop where
  most_mem : most ∈ amounts
  least_mem : least ∈ amounts
  le_most : ∀ p ∈ amounts, p.2 ≤ most.2
  least_le : ∀ p ∈ amounts, least.2 ≤ p.2

theorem extremes_picked (first : Exchange × ℚ) (rest : List (Exchange × ℚ)) :
    Extremes (first :: rest) (mostOf first (first :: rest)) (leastOf first (first :: rest)) := by
  obtain ⟨hmost, hmax⟩ := pickOf_spec (· > ·) first (first :: rest)
  obtain ⟨hleast, hmin⟩ := pickOf_spec (· < ·) first (first :: rest)
  have htwice : ∀ p ∈ first :: first :: rest, p ∈ first :: rest := by simp
  refine ⟨htwice _ hmost, htwice _ hleast, ?_, ?_⟩
  · exact fun p hp => not_lt.mp (hmax p (List.mem_cons_of_mem _ hp))
  · exact fun p hp => not_lt.mp (hmin p (List.mem_cons_of_mem _ hp))

theorem Extremes.unique {amounts : List (Exchange × ℚ)} {most least most' least' : Exchange × ℚ}
    (h : Extremes amounts most least) (h' : Extremes amounts most' least') :
    most.2 = most'.2 ∧ least.2 = least'.2 :=
  ⟨le_antisymm (h'.le_most _ h.most_mem) (h.le_most _ h'.most_mem),
    le_antisymm (h.least_le _ h'.least_mem) (h'.least_le _ h.least_mem)⟩

def imbalance (amounts : List (Exchange × ℚ)) (most least : ℚ) : ℚ :=
  (most - least) / ((amounts.map Prod.snd).sum / amounts.length) * 100

theorem length_pos (first : Exchange × ℚ) (rest : List (Exchange × ℚ)) :
    (0 : ℚ) < (first :: rest).length := by
  rw [List.length_cons]
  positivity

theorem of_driftAlert {threshold : ℚ} {asset : String} {amounts : List (Exchange × ℚ)}
    {alert : DriftAlert} (h : driftAlert threshold asset amounts = some alert) :
    alert.asset = asset ∧ 2 ≤ amounts.length ∧ 0 < (amounts.map Prod.snd).sum ∧
      ∃ most least, Extremes amounts most least ∧ alert.excessExchange = most.1 ∧
        alert.deficitExchange = least.1 ∧ threshold < imbalance amounts most.2 least.2 := by
  match amounts, h with
  | first :: second :: rest, h =>
    simp only [driftAlert] at h
    split at h
    · cases h
    next hpos =>
      have htotal := not_le.mp hpos
      rw [if_pos (div_pos htotal (length_pos first (second :: rest)))] at h
      split at h
      next hfar =>
        cases h
        exact ⟨rfl, by simp, htotal, _, _, extremes_picked first (second :: rest), rfl, rfl, hfar⟩
      next => cases h

theorem driftAlert_raised {threshold : ℚ} (asset : String) {amounts : List (Exchange × ℚ)}
    (hlen : 2 ≤ amounts.length) (hpos : 0 < (amounts.map Prod.snd).sum) {most least : Exchange × ℚ}
    (h : Extremes amounts most least) (hfar : threshold < imbalance amounts most.2 least.2) :
    ∃ alert, driftAlert threshold asset amounts = some alert := by
  match amounts, hlen with
  | first :: second :: rest, _ =>
    obtain ⟨hmost, hleast⟩ := h.unique (extremes_picked first (second :: rest))
    rw [hmost, hleast] at hfar
    simp only [driftAlert]
    rw [if_neg (not_le.mpr hpos), if_pos (div_pos hpos (length_pos first (second :: rest)))]
    exact ⟨_, if_pos hfar⟩

/-! ### With and without the exchanges that hold nothing -/

section Full
variable {full amounts : List (Exchange × ℚ)}

theorem Extremes.perm {most least : Exchange × ℚ} (hperm : amounts.Perm full)
    (h : Extremes amounts most least) : Extremes full most least :=
  ⟨hperm.mem_iff.mp h.most_mem, hperm.mem_iff.mp h.least_mem,
    fun p hp => h.le_most p (hperm.mem_iff.mpr hp),
    fun p hp => h.least_le p (hperm.mem_iff.mpr hp)⟩

theorem exists_extremes (hne : full ≠ []) : ∃ most least, Extremes full most least := by
  cases full with
  | nil => exact absurd rfl hne
  | cons first rest => exact ⟨_, _, extremes_picked first rest⟩

theorem sum_positive (hnonneg : ∀ p ∈ full, 0 ≤ p.2) :
    ((full.filter fun p => 0 < p.2).map Prod.snd).sum = (full.map Prod.snd).sum := by
  induction full with
  | nil => rfl
  | cons p full ih =>
    obtain ⟨hp, hnonneg⟩ := List.forall_mem_cons.mp hnonneg
    by_cases hpos : 0 < p.2
    · simp [hpos, ih hnonneg]
    · have hzero : p.2 = 0 := le_antisymm (not_lt.mp hpos) hp
      simp [hzero, ih hnonneg]

/-- An alert is due: the asset is held and its extremes are further apart than the
threshold. -/
def Due (threshold : ℚ) (full : List (Exchange × ℚ)) : Prop :=
  0 < (full.map Prod.snd).sum ∧ ∃ most least, Extremes full most least ∧
    threshold < imbalance full most.2 least.2

def Names (full : List (Exchange × ℚ)) (alert : DriftAlert) : Prop :=
  ∃ most least, Extremes full most least ∧ alert.excessExchange = most.1 ∧
    alert.deficitExchange = least.1

/-- Were all exchanges counted, none of those that hold the asset would exceed
the threshold over those that do not. -/
def WithinThreshold (threshold : ℚ) (full : List (Exchange × ℚ)) : Prop :=
  (∃ p ∈ full, 0 < p.2) → (∃ p ∈ full, p.2 = 0) → ∀ p ∈ full, imbalance full p.2 0 ≤ threshold

/-- The alert for one asset is raised when it is due, and names the extremes. -/
def AlertExact (threshold : ℚ) (asset : String) (amounts full : List (Exchange × ℚ)) : Prop :=
  ((∃ alert, driftAlert threshold asset amounts = some alert) ↔ Due threshold full) ∧
    ∀ alert, driftAlert threshold asset amounts = some alert → Names full alert

variable {threshold : ℚ} {asset : String}

theorem driftAlert_of_all_held (hperm : amounts.Perm full) (hlen : 2 ≤ full.length) :
    AlertExact threshold asset amounts full := by
  have hsum : (amounts.map Prod.snd).sum = (full.map Prod.snd).sum := (hperm.map Prod.snd).sum_eq
  have himbalance : ∀ most least, imbalance amounts most least = imbalance full most least := by
    intro most least
    unfold imbalance
    rw [hsum, hperm.length_eq]
  refine ⟨⟨?_, ?_⟩, ?_⟩
  · intro h
    obtain ⟨alert, h⟩ := h
    obtain ⟨_, _, hpos, most, least, hext, _, _, hfar⟩ := of_driftAlert h
    exact ⟨hsum ▸ hpos, most, least, hext.perm hperm, himbalance _ _ ▸ hfar⟩
  · intro h
    obtain ⟨hpos, most, least, hext, hfar⟩ := h
    exact driftAlert_raised asset (hperm.length_eq ▸ hlen) (hsum ▸ hpos) (hext.perm hperm.symm)
      (himbalance _ _ ▸ hfar)
  · intro alert h
    obtain ⟨_, _, _, most, least, hext, hmost, hleast, _⟩ := of_driftAlert h
    exact ⟨most, least, hext.perm hperm, hmost, hleast⟩

theorem imbalance_le (hperm : amounts.Perm (full.filter fun p => 0 < p.2))
    (hnonneg : ∀ p ∈ full, 0 ≤ p.2) (hpos : 0 < (full.map Prod.snd).sum) {most least : ℚ}
    (hmost : 0 ≤ most) (hleast : 0 ≤ least) :
    imbalance amounts most least ≤ imbalance full most 0 := by
  have hsum : (amounts.map Prod.snd).sum = (full.map Prod.snd).sum := by
    rw [(hperm.map Prod.snd).sum_eq, sum_positive hnonneg]
  have hlength : (amounts.length : ℚ) ≤ full.length := by
    rw [hperm.length_eq]
    exact_mod_cast List.length_filter_le ..
  unfold imbalance
  rw [hsum, div_div_eq_mul_div, div_div_eq_mul_div]
  gcongr

theorem imbalance_mono (hpos : 0 < (full.map Prod.snd).sum) {most least most' least' : ℚ}
    (h : most - least ≤ most' - least') :
    imbalance full most least ≤ imbalance full most' least' := by
  unfold imbalance
  gcongr

theorem sum_pos_of_held (hnonneg : ∀ p ∈ full, 0 ≤ p.2) (hheld : ∃ p ∈ full, 0 < p.2) :
    0 < (full.map Prod.snd).sum := by
  obtain ⟨p, hp, hpos⟩ := hheld
  have hle : p.2 ≤ (full.map Prod.snd).sum := by
    refine List.single_le_sum ?_ _ (List.mem_map_of_mem hp)
    intro amount hamount
    obtain ⟨q, hq, rfl⟩ := List.mem_map.mp hamount
    exact hnonneg q hq
  exact hpos.trans_le hle

theorem Extremes.least_zero {most least : Exchange × ℚ} (hnonneg : ∀ p ∈ full, 0 ≤ p.2)
    (hzero : ∃ p ∈ full, p.2 = 0) (h : Extremes full most least) : least.2 = 0 := by
  obtain ⟨p, hp, hp0⟩ := hzero
  exact le_antisymm (hp0 ▸ h.least_le p hp) (hnonneg least h.least_mem)

section PartlyHeld
variable (hperm : amounts.Perm (full.filter fun p => 0 < p.2)) (hnonneg : ∀ p ∈ full, 0 ≤ p.2)
include hperm

theorem holder_of_mem {p : Exchange × ℚ} (hp : p ∈ amounts) : p ∈ full ∧ 0 < p.2 := by
  obtain ⟨hfull, hpos⟩ := List.mem_filter.mp (hperm.mem_iff.mp hp)
  exact ⟨hfull, of_decide_eq_true hpos⟩

include hnonneg

/-- The alert that is raised names a holder as deficit, so none may be due. -/
theorem within_of_alertExact (hkeys : ∀ p ∈ full, ∀ q ∈ full, p.1 = q.1 → p = q)
    (hheld : ∃ p ∈ full, 0 < p.2) (hzero : ∃ p ∈ full, p.2 = 0)
    (hexact : AlertExact threshold asset amounts full) :
    ∀ p ∈ full, imbalance full p.2 0 ≤ threshold := by
  have hpos := sum_pos_of_held hnonneg hheld
  intro p hp
  by_contra hfar
  obtain ⟨most, least, hext⟩ := exists_extremes (List.ne_nil_of_mem hp)
  have hgap : p.2 - 0 ≤ most.2 - least.2 := by
    have hmost := hext.le_most p hp
    rw [hext.least_zero hnonneg hzero]
    linarith
  obtain ⟨alert, h⟩ := hexact.1.mpr
    ⟨hpos, most, least, hext, (not_le.mp hfar).trans_le (imbalance_mono hpos hgap)⟩
  obtain ⟨_, _, _, most', least', hext', _, hname', _⟩ := of_driftAlert h
  obtain ⟨most'', least'', hext'', _, hname''⟩ := hexact.2 alert h
  obtain ⟨hfull, hholds⟩ := holder_of_mem hperm hext'.least_mem
  have hsame := hkeys least' hfull least'' hext''.least_mem (hname'.symm.trans hname'')
  rw [hsame, hext''.least_zero hnonneg hzero] at hholds
  exact lt_irrefl _ hholds

theorem alertExact_of_within (hheld : ∃ p ∈ full, 0 < p.2)
    (hwithin : ∀ p ∈ full, imbalance full p.2 0 ≤ threshold) :
    AlertExact threshold asset amounts full := by
  have hpos := sum_pos_of_held hnonneg hheld
  have hsilent : ∀ alert, driftAlert threshold asset amounts ≠ some alert := by
    intro alert h
    obtain ⟨_, _, _, most, least, hext, _, _, hfar⟩ := of_driftAlert h
    obtain ⟨hmost, hmostPos⟩ := holder_of_mem hperm hext.most_mem
    obtain ⟨_, hleastPos⟩ := holder_of_mem hperm hext.least_mem
    have hle := imbalance_le hperm hnonneg hpos hmostPos.le hleastPos.le
    exact absurd (hfar.trans_le (hle.trans (hwithin most hmost))) (lt_irrefl _)
  refine ⟨⟨fun h => ?_, fun h => ?_⟩, fun alert h => absurd h (hsilent alert)⟩
  · obtain ⟨alert, h⟩ := h
    exact absurd h (hsilent alert)
  · obtain ⟨_, most, least, hext, hfar⟩ := h
    have hleast := hnonneg least hext.least_mem
    have hle : imbalance full most.2 least.2 ≤ imbalance full most.2 0 :=
      imbalance_mono hpos (by linarith)
    exact absurd (hfar.trans_le (hle.trans (hwithin most hext.most_mem))) (lt_irrefl _)

end PartlyHeld

theorem alertExact_of_not_held (hperm : amounts.Perm (full.filter fun p => 0 < p.2))
    (hnonneg : ∀ p ∈ full, 0 ≤ p.2) (hheld : ¬ ∃ p ∈ full, 0 < p.2) :
    AlertExact threshold asset amounts full := by
  have hnone : full.filter (fun p => 0 < p.2) = [] := by
    rw [List.filter_eq_nil_iff]
    intro p hp hpos
    exact hheld ⟨p, hp, of_decide_eq_true hpos⟩
  have hsum := sum_positive hnonneg
  rw [hnone] at hperm hsum
  rw [hperm.eq_nil]
  refine ⟨⟨fun h => ?_, fun h => ?_⟩, fun alert h => ?_⟩
  · obtain ⟨alert, h⟩ := h
    cases h
  · exact absurd h.1 (by rw [← hsum]; exact lt_irrefl _)
  · cases h

theorem driftAlert_exact_iff (hperm : amounts.Perm (full.filter fun p => 0 < p.2))
    (hnonneg : ∀ p ∈ full, 0 ≤ p.2) (hkeys : ∀ p ∈ full, ∀ q ∈ full, p.1 = q.1 → p = q)
    (hlen : 2 ≤ full.length) :
    AlertExact threshold asset amounts full ↔ WithinThreshold threshold full := by
  unfold WithinThreshold
  by_cases hheld : ∃ p ∈ full, 0 < p.2
  · by_cases hzero : ∃ p ∈ full, p.2 = 0
    · constructor
      · exact fun h _ _ => within_of_alertExact hperm hnonneg hkeys hheld hzero h
      · exact fun h => alertExact_of_within hperm hnonneg hheld (h hheld hzero)
    · have hall : full.filter (fun p => 0 < p.2) = full := by
        rw [List.filter_eq_self]
        intro p hp
        exact decide_eq_true (lt_of_le_of_ne (hnonneg p hp) fun h => hzero ⟨p, hp, h.symm⟩)
      rw [hall] at hperm
      exact ⟨fun _ _ hz => absurd hz hzero, fun _ => driftAlert_of_all_held hperm hlen⟩
  · exact ⟨fun _ h => absurd h hheld, fun _ => alertExact_of_not_held hperm hnonneg hheld⟩

end Full

/-! ### After a refresh -/

/-- What the exchange holds of the asset, by its response. -/
def held (fetched : Exchange → List BalanceInfo) (asset : String) (exch : Exchange) : ℚ :=
  (fetchedBalances (fetched exch)).amount asset

/-- One entry for every tracked exchange, zeros included. -/
def holdings (exchanges : List Exchange) (fetched : Exchange → List BalanceInfo) (asset : String) :
    List (Exchange × ℚ) :=
  exchanges.map fun exch => (exch, held fetched asset exch)

theorem fetchedBalances_append (fetched : List BalanceInfo) (b : BalanceInfo) :
    fetchedBalances (fetched ++ [b]) =
      if b.free + b.locked > 0 then
        Function.update (fetchedBalances fetched) b.asset (some (b.free + b.locked))
      else fetchedBalances fetched := by
  simp only [fetchedBalances, List.foldl_append, List.foldl_cons, List.foldl_nil]

theorem fetchedBalances_pos (fetched : List BalanceInfo) {asset : String} {amount : ℚ}
    (h : fetchedBalances fetched asset = some amount) : 0 < amount := by
  induction fetched using List.reverseRecOn with
  | nil => cases h
  | append_singleton fetched b ih =>
    rw [fetchedBalances_append] at h
    split at h
    next hpos =>
      rw [Function.update_apply] at h
      split at h
      · cases h
        exact hpos
      · exact ih h
    next => exact ih h

theorem fetchedBalances_listed (fetched : List BalanceInfo) {asset : String} {amount : ℚ}
    (h : fetchedBalances fetched asset = some amount) : asset ∈ fetched.map (·.asset) := by
  induction fetched using List.reverseRecOn with
  | nil => cases h
  | append_singleton fetched b ih =>
    rw [fetchedBalances_append] at h
    rw [List.map_append, List.mem_append]
    split at h
    · rw [Function.update_apply] at h
      split at h
      next heq => exact .inr (by simp [heq])
      next => exact .inl (ih h)
    · exact .inl (ih h)

/-- Where a response lists each asset once, its total is what the exchange holds. -/
theorem held_listed {fetched : Exchange → List BalanceInfo} {exch : Exchange}
    (honce : ((fetched exch).map (·.asset)).Nodup) {b : BalanceInfo} (hb : b ∈ fetched exch)
    (hnonneg : 0 ≤ b.free + b.locked) : held fetched b.asset exch = b.free + b.locked := by
  unfold held Balances.amount
  generalize fetched exch = response at honce hb
  induction response using List.reverseRecOn with
  | nil => cases hb
  | append_singleton response last ih =>
    rw [List.map_append, List.nodup_append] at honce
    obtain ⟨honce, _, hfresh⟩ := honce
    rw [fetchedBalances_append]
    rcases List.mem_append.mp hb with hb | hlast
    · have hother : b.asset ≠ last.asset :=
        hfresh _ (List.mem_map_of_mem hb) _ (List.mem_singleton_self _)
      split
      · rw [Function.update_of_ne hother]
        exact ih honce hb
      · exact ih honce hb
    · rw [← List.mem_singleton.mp hlast]
      split
      next => rw [Function.update_self, Option.getD_some]
      next hzero =>
        -- a response without the asset leaves no entry for it
        cases hentry : fetchedBalances response b.asset with
        | none => exact (le_antisymm (not_lt.mp hzero) hnonneg).symm
        | some amount =>
          have hmem := fetchedBalances_listed _ hentry
          rw [List.mem_singleton.mp hlast] at hmem
          exact absurd rfl (hfresh _ hmem _ (List.mem_singleton_self _))

theorem held_pos_iff {fetched : Exchange → List BalanceInfo} {asset : String} {exch : Exchange}
    {amount : ℚ} : fetchedBalances (fetched exch) asset = some amount ↔
      0 < held fetched asset exch ∧ amount = held fetched asset exch := by
  unfold held Balances.amount
  cases h : fetchedBalances (fetched exch) asset with
  | none => simp
  | some found =>
    have hpos := fetchedBalances_pos _ h
    rw [Option.getD_some, Option.some.injEq]
    exact ⟨fun heq => ⟨hpos, heq.symm⟩, fun h => h.2.symm⟩

theorem held_nonneg (fetched : Exchange → List BalanceInfo) (asset : String) (exch : Exchange) :
    0 ≤ held fetched asset exch := by
  cases h : fetchedBalances (fetched exch) asset with
  | none =>
    unfold held Balances.amount
    rw [h]
    exact le_rfl
  | some amount => exact (held_pos_iff.mp h).1.le

section Refreshed
variable {t : InventoryTracker} {fetched : Exchange → List BalanceInfo}

abbrev refreshed (t : InventoryTracker) (fetched : Exchange → List BalanceInfo) :
    InventoryTracker :=
  t.refreshBalances fun exch => .ok (fetched exch)

theorem mem_exchAmounts (hstates : ∀ exch ∉ t.exchanges, t.states exch = none) (asset : String)
    (p : Exchange × ℚ) : p ∈ (refreshed t fetched).exchAmounts asset ↔
      p.1 ∈ t.exchanges ∧ 0 < held fetched asset p.1 ∧ p.2 = held fetched asset p.1 := by
  have hentry : ∀ exch amount, (refreshed t fetched).getState exch asset = some amount ↔
      exch ∈ t.exchanges ∧ 0 < held fetched asset exch ∧ amount = held fetched asset exch := by
    intro exch amount
    unfold getState
    rw [refreshBalances_states, ← held_pos_iff]
    by_cases hexch : exch ∈ t.exchanges
    · simp [hexch]
    · simp [hexch, hstates exch hexch]
  have hall : ∀ exch, exch ∈ allExchanges := by
    intro exch
    cases exch <;> decide
  unfold exchAmounts
  rw [List.mem_filterMap, ← hentry]
  constructor
  · intro h
    obtain ⟨exch, _, h⟩ := h
    obtain ⟨amount, hamount, rfl⟩ := Option.map_eq_some_iff.mp h
    exact hamount
  · intro h
    exact ⟨p.1, hall p.1, by rw [h, Option.map_some]⟩

theorem exchAmounts_perm (hnodup : t.exchanges.Nodup)
    (hstates : ∀ exch ∉ t.exchanges, t.states exch = none) (asset : String) :
    ((refreshed t fetched).exchAmounts asset).Perm
      ((holdings t.exchanges fetched asset).filter fun p => 0 < p.2) := by
  have hkeys : ((refreshed t fetched).exchAmounts asset).Nodup := by
    refine List.Nodup.filterMap ?_ (by decide)
    intro exch exch' p h h'
    obtain ⟨_, _, rfl⟩ := Option.map_eq_some_iff.mp h
    obtain ⟨_, _, heq⟩ := Option.map_eq_some_iff.mp h'
    exact (congrArg Prod.fst heq).symm
  have hfull : (holdings t.exchanges fetched asset).Nodup :=
    hnodup.map fun _ _ h => congrArg Prod.fst h
  refine (List.perm_ext_iff_of_nodup hkeys (hfull.filter _)).mpr ?_
  intro p
  rw [mem_exchAmounts hstates, List.mem_filter, holdings, List.mem_map, decide_eq_true_eq]
  constructor
  · rintro ⟨hexch, hpos, hamount⟩
    exact ⟨⟨p.1, hexch, by rw [← hamount]⟩, hamount ▸ hpos⟩
  · rintro ⟨⟨exch, hexch, rfl⟩, hpos⟩
    exact ⟨hexch, hpos, rfl⟩

theorem mem_checkDrift {threshold : ℚ} {known : KnownAssets t} {alert : DriftAlert} :
    alert ∈ checkDrift threshold t known ↔
      driftAlert threshold alert.asset (t.exchAmounts alert.asset) = some alert := by
  unfold checkDrift
  rw [List.mem_filterMap]
  constructor
  · rintro ⟨asset, _, h⟩
    rw [(of_driftAlert h).1]
    exact h
  · intro h
    refine ⟨alert.asset, (known.mem_iff _).mpr fun hnil => ?_, h⟩
    rw [hnil] at h
    cases h

/-- Every asset of the responses, as a cover of the tracker's keys. -/
def knownAfterRefresh (hstates : ∀ exch ∉ t.exchanges, t.states exch = none) :
    KnownAssets (refreshed t fetched) :=
  .ofCover _ (t.exchanges.flatMap fun exch => (fetched exch).map (·.asset)) (by
    intro asset hne
    obtain ⟨p, hp⟩ := List.exists_mem_of_ne_nil _ hne
    obtain ⟨hexch, hpos, _⟩ := (mem_exchAmounts hstates asset p).mp hp
    exact List.mem_flatMap.mpr
      ⟨p.1, hexch, fetchedBalances_listed _ (held_pos_iff.mpr ⟨hpos, rfl⟩)⟩)

/-- The alerts are exact: one for an asset when it is due over all tracked
exchanges, and it names an exchange with the largest and one with the smallest
holding. -/
def DriftExact (threshold : ℚ) (full : String → List (Exchange × ℚ)) (alerts : List DriftAlert) :
    Prop :=
  ∀ asset, ((∃ alert ∈ alerts, alert.asset = asset) ↔ Due threshold (full asset)) ∧
    ∀ alert ∈ alerts, alert.asset = asset → Names (full asset) alert

theorem holdings_nonneg (exchanges : List Exchange) (fetched : Exchange → List BalanceInfo)
    (asset : String) : ∀ p ∈ holdings exchanges fetched asset, 0 ≤ p.2 := by
  intro p hp
  obtain ⟨exch, _, rfl⟩ := List.mem_map.mp hp
  exact held_nonneg fetched asset exch

theorem holdings_keys (exchanges : List Exchange) (fetched : Exchange → List BalanceInfo)
    (asset : String) : ∀ p ∈ holdings exchanges fetched asset,
      ∀ q ∈ holdings exchanges fetched asset, p.1 = q.1 → p = q := by
  intro p hp q hq hpq
  obtain ⟨exch, _, rfl⟩ := List.mem_map.mp hp
  obtain ⟨exch', _, rfl⟩ := List.mem_map.mp hq
  have heq : exch = exch' := hpq
  rw [heq]

theorem driftExact_iff {threshold : ℚ} {full : String → List (Exchange × ℚ)}
    {known : KnownAssets t} : DriftExact threshold full (checkDrift threshold t known) ↔
      ∀ asset, AlertExact threshold asset (t.exchAmounts asset) (full asset) := by
  refine forall_congr' fun asset => and_congr (iff_congr ?_ Iff.rfl) ?_
  · constructor
    · intro h
      obtain ⟨alert, hmem, rfl⟩ := h
      exact ⟨alert, mem_checkDrift.mp hmem⟩
    · intro h
      obtain ⟨alert, h⟩ := h
      have hasset := (of_driftAlert h).1
      exact ⟨alert, mem_checkDrift.mpr (by rwa [hasset]), hasset⟩
  · constructor
    · intro h alert halert
      have hasset := (of_driftAlert halert).1
      exact h alert (mem_checkDrift.mpr (by rwa [hasset])) hasset
    · intro h alert hmem hasset
      exact h alert (hasset ▸ mem_checkDrift.mp hmem)

/-- After a refresh of two or more exchanges the alerts are exact when, for every
asset that some tracked exchange holds and another lacks, no alert is due. -/
theorem checkDrift_exact_iff (threshold : ℚ) (hnodup : t.exchanges.Nodup)
    (hlen : 2 ≤ t.exchanges.length) (hstates : ∀ exch ∉ t.exchanges, t.states exch = none)
    (known : KnownAssets (refreshed t fetched)) :
    DriftExact threshold (holdings t.exchanges fetched)
        (checkDrift threshold (refreshed t fetched) known) ↔
      ∀ asset, WithinThreshold threshold (holdings t.exchanges fetched asset) := by
  rw [driftExact_iff]
  refine forall_congr' fun asset => ?_
  have hfull : 2 ≤ (holdings t.exchanges fetched asset).length := by
    rwa [holdings, List.length_map]
  exact driftAlert_exact_iff (exchAmounts_perm hnodup hstates asset) (holdings_nonneg _ _ _)
    (holdings_keys _ _ _) hfull

def twoVenues : InventoryTracker := { exchanges := [.binance, .okx] }

def twoBtc : List BalanceInfo := [{ exchange := .okx, asset := "BTC", free := 2 }]

def tenAndMore (onOkx : List BalanceInfo) : Exchange → List BalanceInfo
  | .binance => [{ exchange := .binance, asset := "BTC", free := 10 }]
  | _ => onOkx

theorem twoVenues_exact : DriftExact 20 (holdings twoVenues.exchanges (tenAndMore twoBtc))
    (checkDrift 20 (refreshed twoVenues (tenAndMore twoBtc))
      (knownAfterRefresh fun _ _ => rfl)) := by
  refine (checkDrift_exact_iff 20 (by decide) (by decide) (fun _ _ => rfl) _).mpr ?_
  intro asset
  by_cases hasset : asset = "BTC"
  · rintro - ⟨p, hp, hzero⟩
    subst hasset
    have hheld : ∀ p ∈ holdings twoVenues.exchanges (tenAndMore twoBtc) "BTC", p.2 ≠ 0 := by
      decide +kernel
    exact absurd hzero (hheld p hp)
  · rintro ⟨p, hp, hpos⟩
    obtain ⟨exch, hexch, rfl⟩ := List.mem_map.mp hp
    have hlisted := fetchedBalances_listed _ (held_pos_iff.mpr ⟨hpos, rfl⟩)
    exfalso
    revert hlisted
    cases exch <;> simp [tenAndMore, twoBtc, hasset]

/-- The second venue holds no BTC: nothing is left to compare with. -/
theorem emptied_venue_unreported : ¬ DriftExact 20 (holdings twoVenues.exchanges (tenAndMore []))
    (checkDrift 20 (refreshed twoVenues (tenAndMore [])) (knownAfterRefresh fun _ _ => rfl)) := by
  intro hexact
  have hext : Extremes (holdings twoVenues.exchanges (tenAndMore []) "BTC")
      (.binance, 10) (.okx, 0) :=
    ⟨by decide +kernel, by decide +kernel, by decide +kernel, by decide +kernel⟩
  have hfar : 20 < imbalance (holdings twoVenues.exchanges (tenAndMore []) "BTC") 10 0 := by
    decide +kernel
  obtain ⟨alert, hmem, hasset⟩ := (hexact "BTC").1.mpr ⟨by decide +kernel, _, _, hext, hfar⟩
  have hraised := mem_checkDrift.mp hmem
  have hnone : driftAlert 20 "BTC"
      ((refreshed twoVenues (tenAndMore [])).exchAmounts "BTC") = none := by decide +kernel
  rw [hasset, hnone] at hraised
  cases hraised

end Refreshed

end InventoryTracker

end CryptoArbBot
