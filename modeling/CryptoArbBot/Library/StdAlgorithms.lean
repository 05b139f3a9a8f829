import Mathlib.Data.List.Sort
import Mathlib.Data.List.TakeWhile
import Mathlib.Order.Lattice

/-!
# std::sort and std::lower_bound

`std::sort` fixes the order of a range only up to entries that compare equal,
so it is any operation with the two guarantees of `StdSort`. `lowerBound` is
the halving loop of `std::lower_bound`: it keeps a first position and a number
of entries left and compares the middle entry. On a list whose entries
satisfying the comparison all come first it stops at the end of that prefix.
-/

namespace CryptoArbBot

variable {α : Type*}

/-! ### Sorting -/

structure StrictWeak (comp : α → α → Bool) : Prop where
  asymm : ∀ a b, comp a b = true → comp b a = false
  negTrans : ∀ a b c, comp a b = false → comp b c = false → comp a c = false

/-- What `std::sort` guarantees; the order among equivalent entries is free. -/
structure StdSort (α : Type*) where
  sort : (α → α → Bool) → List α → List α
  perm : ∀ comp l, (sort comp l).Perm l
  sorted : ∀ comp l, StrictWeak comp → (sort comp l).Pairwise fun a b => comp b a = false

def StdSort.mergeSort : StdSort α where
  sort comp l := l.mergeSort fun a b => !comp b a
  perm comp l := List.mergeSort_perm l _
  sorted comp l hcomp := by
    have htrans : ∀ a b c : α, (!comp b a) = true → (!comp c b) = true → (!comp c a) = true := by
      intro a b c hab hbc
      simp only [Bool.not_eq_true'] at hab hbc ⊢
      exact hcomp.negTrans c b a hbc hab
    have htotal : ∀ a b : α, ((!comp b a) || (!comp a b)) = true := by
      intro a b
      cases h : comp a b with
      | false => simp
      | true => simp [hcomp.asymm a b h]
    exact (List.pairwise_mergeSort htrans htotal l).imp (by simp)

/-- A sort that evaluates by structural recursion. -/
def StdSort.insertionSort : StdSort α where
  sort comp l := l.insertionSort fun a b => comp b a = false
  perm comp l := List.perm_insertionSort _ l
  sorted comp l hcomp := by
    have htrans : IsTrans α fun a b => comp b a = false :=
      ⟨fun a b c hab hbc => hcomp.negTrans c b a hbc hab⟩
    have htotal : Std.Total fun a b => comp b a = false := by
      refine ⟨fun a b => ?_⟩
      cases h : comp b a with
      | false => exact .inl rfl
      | true => exact .inr (hcomp.asymm b a h)
    exact List.pairwise_insertionSort _ l

/-- Where equivalent entries are equal the order of the input does not matter. -/
theorem StdSort.sort_congr (std : StdSort α) {comp : α → α → Bool} (hcomp : StrictWeak comp)
    {xs ys : List α} (hperm : ys.Perm xs)
    (heq : ∀ a ∈ xs, ∀ b ∈ xs, comp a b = false → comp b a = false → a = b) :
    std.sort comp ys = std.sort comp xs := by
  have hsame : (std.sort comp ys).Perm (std.sort comp xs) :=
    (std.perm comp ys).trans (hperm.trans (std.perm comp xs).symm)
  refine hsame.eq_of_pairwise ?_ (std.sorted comp ys hcomp) (std.sorted comp xs hcomp)
  intro a b ha hb hab hba
  have hax : a ∈ xs := (std.perm comp xs).mem_iff.mp (hsame.mem_iff.mp ha)
  exact heq a hax b ((std.perm comp xs).mem_iff.mp hb) hba hab

theorem strictWeak_key {β : Type*} [LinearOrder β] (key : α → β) :
    StrictWeak fun a b => decide (key a < key b) := by
  constructor
  · intro a b hab
    simp only [decide_eq_true_eq, decide_eq_false_iff_not, not_lt] at hab ⊢
    exact hab.le
  · intro a b c hab hbc
    simp only [decide_eq_false_iff_not, not_lt] at hab hbc ⊢
    exact hbc.trans hab

/-! ### Binary search -/

/-- The loop from position `first` with `len` entries left; `fuel` bounds the
rounds, and `len` itself is always enough. -/
def lowerBoundLoop (before : α → Bool) (l : List α) : ℕ → ℕ → ℕ → ℕ
  | 0, first, _ => first
  | fuel + 1, first, len =>
    if len = 0 then first
    else
      let half := len / 2
      match l[first + half]? with
      | none => first
      | some x =>
        if before x then lowerBoundLoop before l fuel (first + half + 1) (len - half - 1)
        else lowerBoundLoop before l fuel first half

/-- `std::lower_bound(l.begin(), l.end(), value, comp)` as an index, with
`before x` for `comp(x, value)`. -/
def lowerBound (before : α → Bool) (l : List α) : ℕ :=
  lowerBoundLoop before l l.length 0 l.length

def Partitioned (before : α → Bool) (l : List α) : Prop :=
  l.Pairwise fun a b => before b = true → before a = true

def partitionPoint (before : α → Bool) (l : List α) : ℕ := (l.takeWhile before).length

theorem partitionPoint_le (before : α → Bool) (l : List α) :
    partitionPoint before l ≤ l.length :=
  (List.takeWhile_prefix before).length_le

theorem before_of_lt_partitionPoint {before : α → Bool} {l : List α} {i : ℕ} {x : α}
    (hi : i < partitionPoint before l) (hx : l[i]? = some x) : before x = true := by
  have htake : (l.takeWhile before)[i]? = some x := by
    have happ : (l.takeWhile before ++ l.dropWhile before)[i]? = (l.takeWhile before)[i]? :=
      List.getElem?_append_left hi
    rw [List.takeWhile_append_dropWhile] at happ
    exact happ.symm.trans hx
  exact List.mem_takeWhile_imp (List.mem_of_getElem? htake)

theorem not_before_at_partitionPoint {before : α → Bool} {l : List α} {x : α}
    (hx : l[partitionPoint before l]? = some x) : before x = false := by
  induction l with
  | nil => simp at hx
  | cons y ys ih =>
    by_cases hy : before y = true
    · have hp : partitionPoint before (y :: ys) = partitionPoint before ys + 1 := by
        simp [partitionPoint, hy]
      rw [hp, List.getElem?_cons_succ] at hx
      exact ih hx
    · have hp : partitionPoint before (y :: ys) = 0 := by
        simp [partitionPoint, hy]
      rw [hp, List.getElem?_cons_zero, Option.some.injEq] at hx
      simpa [hx] using hy

theorem before_iff_lt_partitionPoint {before : α → Bool} {l : List α}
    (hl : Partitioned before l) {i : ℕ} {x : α} (hx : l[i]? = some x) :
    before x = true ↔ i < partitionPoint before l := by
  refine ⟨fun hb => ?_, fun hi => before_of_lt_partitionPoint hi hx⟩
  by_contra hge
  obtain ⟨hilt, hix⟩ := List.getElem?_eq_some_iff.mp hx
  have hplt : partitionPoint before l < l.length := by omega
  have hp : before l[partitionPoint before l] = false :=
    not_before_at_partitionPoint (List.getElem?_eq_getElem hplt)
  rcases Nat.eq_or_lt_of_le (Nat.not_lt.mp hge) with heq | hlt
  · subst hix
    simp only [heq] at hp
    rw [hp] at hb
    exact Bool.false_ne_true hb
  · have hpair := List.pairwise_iff_getElem.mp hl _ _ hplt hilt hlt
    rw [hix, hp] at hpair
    exact Bool.false_ne_true (hpair hb)

/-- The loop invariant: the partition point lies between `first` and
`first + len`. -/
theorem lowerBoundLoop_eq {before : α → Bool} {l : List α} (hl : Partitioned before l)
    (fuel first len : ℕ) (hfuel : len ≤ fuel) (hlen : first + len ≤ l.length)
    (hlo : first ≤ partitionPoint before l) (hhi : partitionPoint before l ≤ first + len) :
    lowerBoundLoop before l fuel first len = partitionPoint before l := by
  induction fuel generalizing first len with
  | zero =>
    simp only [lowerBoundLoop]
    omega
  | succ fuel ih =>
    by_cases h0 : len = 0
    · simp only [lowerBoundLoop, h0, if_true]
      omega
    · have hhalf : len / 2 < len := Nat.div_lt_self (Nat.pos_of_ne_zero h0) (by omega)
      have hmid : first + len / 2 < l.length := by omega
      have hx : l[first + len / 2]? = some l[first + len / 2] := List.getElem?_eq_getElem hmid
      have hiff := before_iff_lt_partitionPoint hl hx
      simp only [lowerBoundLoop, h0, if_false, hx]
      by_cases hb : before l[first + len / 2] = true
      · rw [if_pos hb]
        have hlt : first + len / 2 < partitionPoint before l := hiff.mp hb
        exact ih (first + len / 2 + 1) (len - len / 2 - 1) (by omega) (by omega) (by omega)
          (by omega)
      · rw [if_neg hb]
        have hge : partitionPoint before l ≤ first + len / 2 := by
          by_contra hlt
          exact hb (hiff.mpr (by omega))
        exact ih first (len / 2) (by omega) (by omega) hlo hge

theorem lowerBound_eq_partitionPoint {before : α → Bool} {l : List α}
    (hl : Partitioned before l) : lowerBound before l = partitionPoint before l :=
  lowerBoundLoop_eq hl _ _ _ le_rfl (by omega) (Nat.zero_le _)
    (by have := partitionPoint_le before l; omega)

theorem take_partitionPoint (before : α → Bool) (l : List α) :
    l.take (partitionPoint before l) = l.takeWhile before :=
  (List.prefix_iff_eq_take.mp (List.takeWhile_prefix before)).symm

theorem drop_partitionPoint (before : α → Bool) (l : List α) :
    l.drop (partitionPoint before l) = l.dropWhile before := by
  have h : l.takeWhile before ++ l.drop (partitionPoint before l) =
      l.takeWhile before ++ l.dropWhile before := by
    rw [List.takeWhile_append_dropWhile, ← take_partitionPoint, List.take_append_drop]
  exact List.append_cancel_left h

theorem not_before_of_mem_dropWhile {before : α → Bool} {l : List α} (hl : Partitioned before l)
    {a : α} (ha : a ∈ l.dropWhile before) : before a = false := by
  cases hback : l.dropWhile before with
  | nil =>
    rw [hback] at ha
    cases ha
  | cons b rest =>
    have hb : before b = false := by
      refine not_before_at_partitionPoint (l := l) ?_
      rw [← List.head?_drop, drop_partitionPoint, hback, List.head?_cons]
    have hpair : (b :: rest).Pairwise fun a b => before b = true → before a = true := by
      rw [← hback]
      exact hl.sublist (List.dropWhile_sublist _)
    rw [hback] at ha
    rcases List.mem_cons.mp ha with rfl | hrest
    · exact hb
    · by_contra hbefore
      have hcontra := (List.pairwise_cons.mp hpair).1 a hrest (Bool.not_eq_false _ ▸ hbefore)
      rw [hb] at hcontra
      cases hcontra

theorem takeWhile_eq_filter {before : α → Bool} {l : List α} (hl : Partitioned before l) :
    l.takeWhile before = l.filter before := by
  have hfront : (l.takeWhile before).filter before = l.takeWhile before :=
    List.filter_eq_self.mpr fun a ha => List.mem_takeWhile_imp ha
  have hback : (l.dropWhile before).filter before = [] :=
    List.filter_eq_nil_iff.mpr fun a ha => by simp [not_before_of_mem_dropWhile hl ha]
  calc l.takeWhile before = (l.takeWhile before).filter before ++ (l.dropWhile before).filter before := by
        rw [hfront, hback, List.append_nil]
    _ = l.filter before := by rw [← List.filter_append, List.takeWhile_append_dropWhile]

/-! ### The entry at the partition point -/

theorem getElem?_partitionPoint (before : α → Bool) (l : List α) :
    l[partitionPoint before l]? = (l.dropWhile before).head? := by
  rw [← drop_partitionPoint, List.head?_drop]

theorem eraseIdx_partitionPoint (before : α → Bool) (l : List α) :
    l.eraseIdx (partitionPoint before l) = l.takeWhile before ++ (l.dropWhile before).tail := by
  rw [List.eraseIdx_eq_take_drop_succ, take_partitionPoint, ← drop_partitionPoint, List.tail_drop]

theorem set_partitionPoint {before : α → Bool} {l : List α} (h : l.dropWhile before ≠ []) (a : α) :
    l.set (partitionPoint before l) a =
      l.takeWhile before ++ a :: (l.dropWhile before).tail := by
  have hlt : partitionPoint before l < l.length := by
    by_contra hge
    rw [← drop_partitionPoint, List.drop_eq_nil_of_le (Nat.not_lt.mp hge)] at h
    exact h rfl
  rw [List.set_eq_take_append_cons_drop, if_pos hlt, take_partitionPoint, ← drop_partitionPoint,
    List.tail_drop]

end CryptoArbBot
