import Mathlib.Algebra.BigOperators.Field
import Mathlib.Algebra.BigOperators.Group.Finset.Piecewise
import Mathlib.Algebra.Order.BigOperators.Group.Finset
import Mathlib.Algebra.Order.Field.Basic
import Mathlib.Data.Fintype.Basic
import Mathlib.Logic.Function.Basic

/-!
# Ledgers of one asset map per place

Each place of a finite type may hold an account, a partial map from assets to
amounts. A missing place or asset counts as zero. Assigning, adding and
spreading evenly are described by what they do to the amounts and to the total
of an asset over all places.
-/

namespace CryptoArbBot

abbrev Ledger (ι α K : Type*) := ι → Option (α → Option K)

namespace Ledger

variable {ι α K : Type*}

def Lists (l : Ledger ι α K) (a : α) : Prop := ∃ i, ((l i).bind (· a)).isSome

instance [Fintype ι] (l : Ledger ι α K) (a : α) : Decidable (l.Lists a) :=
  inferInstanceAs (Decidable (∃ i, ((l i).bind (· a)).isSome))

section Amounts
variable [AddCommMonoid K]

def amount (l : Ledger ι α K) (i : ι) (a : α) : K := ((l i).bind (· a)).getD 0

theorem amount_eq_zero_of_not_lists {l : Ledger ι α K} {a : α} (h : ¬ l.Lists a) (i : ι) :
    l.amount i a = 0 := by
  have hnone : (l i).bind (· a) = none := by
    cases hi : (l i).bind (· a) with
    | none => rfl
    | some v => exact absurd ⟨i, by rw [hi]; rfl⟩ h
  rw [amount, hnone]
  rfl

theorem amount_eq_zero_of_isNone {l : Ledger ι α K} {i : ι} (h : (l i).isSome = false) (a : α) :
    l.amount i a = 0 := by
  rw [Option.isSome_eq_false_iff, Option.isNone_iff_eq_none] at h
  rw [amount, h]
  rfl

variable [DecidableEq ι] [DecidableEq α]

/-- `m[i][a] = v`, which creates what is missing. -/
def assign (l : Ledger ι α K) (i : ι) (a : α) (v : K) : Ledger ι α K :=
  Function.update l i (some (Function.update ((l i).getD fun _ => none) a (some v)))

/-- `m[i][a] += d`. -/
def add (l : Ledger ι α K) (i : ι) (a : α) (d : K) : Ledger ι α K :=
  l.assign i a (l.amount i a + d)

theorem amount_assign (l : Ledger ι α K) (i j : ι) (a b : α) (v : K) :
    (l.assign i a v).amount j b = if j = i ∧ b = a then v else l.amount j b := by
  by_cases hj : j = i
  · subst hj
    by_cases hb : b = a
    · subst hb
      simp [amount, assign]
    · cases hl : l j <;> simp [amount, assign, hb, hl]
  · simp [amount, assign, hj]

theorem amount_add (l : Ledger ι α K) (i j : ι) (a b : α) (d : K) :
    (l.add i a d).amount j b = l.amount j b + if j = i ∧ b = a then d else 0 := by
  unfold add
  rw [amount_assign]
  split
  next h =>
    obtain ⟨rfl, rfl⟩ := h
    rfl
  next => rw [add_zero]

theorem amount_foldl_assign (l : Ledger ι α K) (places : List ι) (j : ι) (a b : α) (v : K) :
    (places.foldl (fun l i => l.assign i a v) l).amount j b =
      if j ∈ places ∧ b = a then v else l.amount j b := by
  induction places generalizing l with
  | nil => simp
  | cons i places ih =>
    rw [List.foldl_cons, ih, amount_assign]
    by_cases hb : b = a
    · by_cases hj : j = i <;> by_cases hp : j ∈ places <;> simp [hb, hj, hp]
    · simp [hb]

end Amounts

section Total
variable [AddCommMonoid K] [Fintype ι]

def total (l : Ledger ι α K) (a : α) : K := ∑ i, l.amount i a

theorem total_add [DecidableEq ι] [DecidableEq α] (l : Ledger ι α K) (i : ι) (a b : α) (d : K) :
    (l.add i a d).total b = l.total b + if b = a then d else 0 := by
  unfold total
  simp only [amount_add, Finset.sum_add_distrib]
  by_cases hb : b = a
  · simp [hb]
  · simp [hb]

end Total

/-! ### Even spreading -/

section Spread
variable [Fintype ι]

def size (l : Ledger ι α K) : ℕ := (Finset.univ.filter fun i => (l i).isSome).card

variable [Field K]

/-- Every account gets an equal share of the total of every listed asset. -/
def spread (l : Ledger ι α K) : Ledger ι α K :=
  fun i => (l i).map fun _ a => if l.Lists a then some (l.total a / l.size) else none

theorem amount_spread (l : Ledger ι α K) (i : ι) (a : α) :
    l.spread.amount i a = if (l i).isSome then l.total a / l.size else 0 := by
  cases hi : l i with
  | none => simp [amount, spread, hi]
  | some account =>
    by_cases hl : l.Lists a
    · simp [amount, spread, hi, hl]
    · have htotal : l.total a = 0 :=
        Finset.sum_eq_zero fun j _ => amount_eq_zero_of_not_lists hl j
      simp [amount, spread, hi, hl, htotal]

theorem total_spread [CharZero K] (l : Ledger ι α K) (a : α) : l.spread.total a = l.total a := by
  have hshares : l.spread.total a = l.size * (l.total a / l.size) := by
    unfold total
    simp only [amount_spread]
    rw [← Finset.sum_filter, Finset.sum_const, nsmul_eq_mul]
    rfl
  rw [hshares]
  by_cases hsize : l.size = 0
  · -- no account at all: both sides are zero
    have hnone : ∀ i, (l i).isSome = false := by
      intro i
      have hi := Finset.filter_eq_empty_iff.mp (Finset.card_eq_zero.mp hsize) (Finset.mem_univ i)
      simpa using hi
    have htotal : l.total a = 0 :=
      Finset.sum_eq_zero fun i _ => amount_eq_zero_of_isNone (hnone i) a
    rw [htotal, zero_div, mul_zero]
  · exact mul_div_cancel₀ _ (Nat.cast_ne_zero.mpr hsize)

theorem amount_spread_nonneg [LinearOrder K] [IsStrictOrderedRing K] {l : Ledger ι α K}
    (h : ∀ i a, 0 ≤ l.amount i a) (i : ι) (a : α) : 0 ≤ l.spread.amount i a := by
  rw [amount_spread]
  split
  · exact div_nonneg (Finset.sum_nonneg fun j _ => h j a) (Nat.cast_nonneg _)
  · exact le_rfl

end Spread

end Ledger

end CryptoArbBot
