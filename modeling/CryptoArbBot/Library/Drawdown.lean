import Mathlib.Algebra.Order.Group.Defs
import Mathlib.Order.PartialSups

/-!
# Drawdowns of a curve

The running peak of a curve is its largest value so far and a drawdown is how far the
curve is below it. The peak may go on rising after the deepest drawdown.
-/

namespace CryptoArbBot.Drawdown

variable {α : Type*} [LinearOrder α] {curve : ℕ → α} {first last j : ℕ}

/-! ### The running peak -/

theorem partialSups_congr {f g : ℕ → α} (h : ∀ i ≤ j, f i = g i) : partialSups f j = partialSups g j := by
  refine le_antisymm (partialSups_le f j _ ?_) (partialSups_le g j _ ?_)
  · intro i hi
    rw [h i hi]
    exact le_partialSups_of_le g hi
  · intro i hi
    rw [← h i hi]
    exact le_partialSups_of_le f hi

/-- Where no later value is higher, the peak is the final one. -/
theorem peak_eq_final_iff (hj : j ≤ last) :
    partialSups curve j = partialSups curve last ↔ ∀ k ≤ last, curve k ≤ partialSups curve j := by
  constructor
  · intro h k hk
    rw [h]
    exact le_partialSups_of_le curve hk
  · intro h
    exact le_antisymm ((partialSups curve).monotone hj) (partialSups_le _ _ _ h)

/-- After `first` every value up to `last` is higher than all before it. -/
def Records (curve : ℕ → α) (first last : ℕ) : Prop :=
  ∀ k, first < k → k ≤ last → ∀ i < k, curve i < curve k

theorem Records.peak_eq {k : ℕ} (h : Records curve first last) (hfirst : first < k) (hlast : k ≤ last) :
    partialSups curve k = curve k := by
  refine le_antisymm (partialSups_le _ _ _ ?_) (le_partialSups curve k)
  intro i hi
  rcases hi.lt_or_eq with hlt | heq
  · exact (h k hfirst hlast i hlt).le
  · rw [heq]

theorem Records.peak_lt (h : Records curve first last) (hlt : first < last) :
    partialSups curve first < partialSups curve last := by
  obtain ⟨i, hi, hpeak⟩ := exists_partialSups_eq curve first
  rw [hpeak]
  exact (h last hlt le_rfl i (hi.trans_lt hlt)).trans_le (le_partialSups curve last)

/-! ### Drawdowns -/

variable [AddCommGroup α]

def drawdown (curve : ℕ → α) (j : ℕ) : α := partialSups curve j - curve j

/-- Among the points up to `last` the curve falls deepest at `j`. -/
def Deepest (curve : ℕ → α) (last j : ℕ) : Prop :=
  j ≤ last ∧ ∀ i ≤ last, drawdown curve i ≤ drawdown curve j

instance (curve : ℕ → α) (last j : ℕ) : Decidable (Deepest curve last j) :=
  inferInstanceAs (Decidable (j ≤ last ∧ ∀ i ≤ last, drawdown curve i ≤ drawdown curve j))

theorem deepest_iff :
    Deepest curve last j ↔ j ≤ last ∧ drawdown curve j = partialSups (drawdown curve) last := by
  constructor
  · intro h
    exact ⟨h.1, le_antisymm (le_partialSups_of_le _ h.1) (partialSups_le _ _ _ h.2)⟩
  · intro h
    refine ⟨h.1, ?_⟩
    intro i hi
    rw [h.2]
    exact le_partialSups_of_le _ hi

theorem Deepest.drawdown_eq (h : Deepest curve last j) :
    drawdown curve j = partialSups (drawdown curve) last :=
  (deepest_iff.mp h).2

theorem drawdown_nonneg [IsOrderedAddMonoid α] (curve : ℕ → α) (j : ℕ) : 0 ≤ drawdown curve j :=
  sub_nonneg.mpr (le_partialSups curve j)

/-- What the curve loses from a point up to `last` to the same or a later one. -/
def falls (curve : ℕ → α) (last : ℕ) : Set α :=
  {fall | ∃ i j, i ≤ j ∧ j ≤ last ∧ fall = curve i - curve j}

theorem isGreatest_falls [IsOrderedAddMonoid α] (curve : ℕ → α) (last : ℕ) :
    IsGreatest (falls curve last) (partialSups (drawdown curve) last) := by
  constructor
  · obtain ⟨j, hj, hdeepest⟩ := exists_partialSups_eq (drawdown curve) last
    obtain ⟨i, hi, hpeak⟩ := exists_partialSups_eq curve j
    refine ⟨i, j, hi, hj, ?_⟩
    rw [hdeepest, drawdown, hpeak]
  · rintro fall ⟨i, j, hi, hj, rfl⟩
    calc curve i - curve j ≤ drawdown curve j :=
          sub_le_sub_right (le_partialSups_of_le curve hi) (curve j)
      _ ≤ partialSups (drawdown curve) last := le_partialSups_of_le (drawdown curve) hj

/-- New peaks alone do not deepen the deepest drawdown. -/
theorem Records.deepest_drawdown [IsOrderedAddMonoid α] (h : Records curve first last) (hle : first ≤ last) :
    partialSups (drawdown curve) last = partialSups (drawdown curve) first := by
  refine le_antisymm (partialSups_le _ _ _ ?_) ((partialSups (drawdown curve)).monotone hle)
  intro i hi
  rcases Nat.lt_or_ge first i with hlt | hge
  · rw [drawdown, h.peak_eq hlt hi, sub_self]
    exact (drawdown_nonneg curve first).trans (le_partialSups (drawdown curve) first)
  · exact le_partialSups_of_le (drawdown curve) hge

end CryptoArbBot.Drawdown
