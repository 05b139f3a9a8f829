import Mathlib.Data.List.Dedup
import Mathlib.Data.List.Sort

/-!
# std::set as an ascending list

Walking a set meets each of its values once, in ascending order. The order in
which the values were inserted does not matter.
-/

namespace CryptoArbBot

variable {α : Type*} [LE α] [LT α] [DecidableEq α] [DecidableLE α] [Std.IsLinearOrder α]
  [Std.LawfulOrderLT α]

def orderedSet (xs : List α) : List α := xs.dedup.insertionSort (· ≤ ·)

omit [LT α] [Std.IsLinearOrder α] [Std.LawfulOrderLT α] in
theorem mem_orderedSet {xs : List α} {x : α} : x ∈ orderedSet xs ↔ x ∈ xs := by
  rw [orderedSet, List.mem_insertionSort, List.mem_dedup]

theorem orderedSet_ascending (xs : List α) : (orderedSet xs).Pairwise (· < ·) := by
  have hsorted : (orderedSet xs).Pairwise (· ≤ ·) := List.pairwise_insertionSort _ _
  have hnodup : (orderedSet xs).Nodup :=
    (List.perm_insertionSort _ xs.dedup).nodup_iff.mpr (List.nodup_dedup xs)
  exact (hsorted.and hnodup).imp fun h => Std.lt_of_le_of_ne h.1 h.2

theorem orderedSet_congr {xs ys : List α} (h : ∀ x, x ∈ xs ↔ x ∈ ys) :
    orderedSet xs = orderedSet ys := by
  refine (orderedSet_ascending xs).eq_of_mem_iff (orderedSet_ascending ys) ?_
  intro x
  rw [mem_orderedSet, mem_orderedSet, h]

end CryptoArbBot
