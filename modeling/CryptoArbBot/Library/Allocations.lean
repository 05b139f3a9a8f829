import CryptoArbBot.Library.PricedLots
import Mathlib.Algebra.Order.Group.MinMax
import Mathlib.Data.Set.Finite.Lattice
import Mathlib.Order.Bounds.Basic
import Mathlib.Tactic.NormNum

/-!
# Allocating a quantity over priced lots

An allocation takes an amount from every lot. A fill from the front is a cheapest
allocation of its quantity exactly when no lot it reaches is dearer than a lot it
does not use up.
-/

namespace CryptoArbBot.PricedLots

variable {K : Type*} [Field K] [LinearOrder K]
variable {α : Type*} (price size : α → K)

def Allocation (lots : List α) (amounts : List K) : Prop :=
  List.Forall₂ (fun lot amount => 0 ≤ amount ∧ amount ≤ size lot) lots amounts

def paid (lots : List α) (amounts : List K) : K :=
  (List.zipWith (fun lot amount => amount * price lot) lots amounts).sum

/-- What the allocations of the quantity cost. -/
def totals (quantity : K) (lots : List α) : Set K :=
  {total | ∃ amounts, Allocation size lots amounts ∧ amounts.sum = quantity ∧
    paid price lots amounts = total}

/-- The lots that a fill from the front takes from. -/
def reached (quantity : K) : List α → List α
  | [] => []
  | lot :: lots => if 0 < quantity then lot :: reached (quantity - size lot) lots else []

/-- The lots that a fill from the front does not use up. -/
def leftover (quantity : K) : List α → List α
  | [] => []
  | lot :: lots => if quantity < size lot then lot :: lots else leftover (quantity - size lot) lots

def BestFirst (quantity : K) (lots : List α) : Prop :=
  ∀ a ∈ reached size quantity lots, ∀ b ∈ leftover size quantity lots, price a ≤ price b

variable {price size}

/-! ### Allocations -/

omit [LinearOrder K] in
theorem paid_cons (lot : α) (lots : List α) (amount : K) (amounts : List K) :
    paid price (lot :: lots) (amount :: amounts) = amount * price lot + paid price lots amounts := by
  simp [paid]

theorem totals_cons {lot : α} {lots : List α} {amount quantity quantity' total total' : K}
    (hlow : 0 ≤ amount) (hhigh : amount ≤ size lot) (h : total ∈ totals price size quantity lots)
    (hquantity : quantity' = amount + quantity) (htotal : total' = amount * price lot + total) :
    total' ∈ totals price size quantity' (lot :: lots) := by
  obtain ⟨amounts, hallocation, hsum, hpaid⟩ := h
  refine ⟨amount :: amounts, List.Forall₂.cons ⟨hlow, hhigh⟩ hallocation, ?_, ?_⟩
  · rw [List.sum_cons, hsum, hquantity]
  · rw [paid_cons, hpaid, htotal]

theorem zero_mem_totals {lots : List α} (hsized : Sized size lots) : 0 ∈ totals price size 0 lots := by
  induction lots with
  | nil => exact ⟨[], List.Forall₂.nil, rfl, rfl⟩
  | cons lot lots ih =>
    have hsize : 0 < size lot := hsized lot (List.mem_cons_self ..)
    have hrest := ih fun l hl => hsized l (List.mem_cons_of_mem _ hl)
    exact totals_cons le_rfl hsize.le hrest (zero_add 0).symm (by ring)

theorem single_mem_totals {lots : List α} (hsized : Sized size lots) {lot : α} (hlot : lot ∈ lots)
    {amount : K} (hlow : 0 ≤ amount) (hhigh : amount ≤ size lot) :
    amount * price lot ∈ totals price size amount lots := by
  induction lots with
  | nil => exact absurd hlot List.not_mem_nil
  | cons first lots ih =>
    have hsized' : Sized size lots := fun l hl => hsized l (List.mem_cons_of_mem _ hl)
    rcases List.mem_cons.mp hlot with rfl | hmem
    · exact totals_cons hlow hhigh (zero_mem_totals hsized') (add_zero _).symm (add_zero _).symm
    · have hfirst : 0 < size first := hsized first (List.mem_cons_self ..)
      exact totals_cons le_rfl hfirst.le (ih hsized' hmem) (zero_add _).symm (by ring)

variable [IsStrictOrderedRing K]

/-! ### Filling from the front -/

omit [IsStrictOrderedRing K] in
theorem cost_zero {lots : List α} (hsized : Sized size lots) : cost price size 0 lots = 0 := by
  cases lots with
  | nil => rfl
  | cons lot lots => rw [cost, if_pos (hsized lot (List.mem_cons_self ..)).le, zero_mul]

omit [IsStrictOrderedRing K] in
theorem cost_of_size_le {lot : α} {lots : List α} (hsized : Sized size lots) {quantity : K}
    (h : size lot ≤ quantity) : cost price size quantity (lot :: lots) =
      size lot * price lot + cost price size (quantity - size lot) lots := by
  rw [cost]
  split
  next hle =>
    have heq : quantity = size lot := le_antisymm hle h
    rw [heq, sub_self, cost_zero hsized, add_zero]
  next => rfl

theorem cost_min_depth {lots : List α} (hsized : Sized size lots) (quantity : K) :
    cost price size (min quantity (depth size lots)) lots = cost price size quantity lots := by
  induction lots generalizing quantity with
  | nil => rfl
  | cons lot lots ih =>
    have hsized' : Sized size lots := fun l hl => hsized l (List.mem_cons_of_mem _ hl)
    have hdepth : size lot ≤ size lot + depth size lots :=
      le_add_of_nonneg_right (depth_nonneg hsized')
    rw [depth_cons]
    rcases le_total quantity (size lot) with hfirst | hmore
    · rw [min_eq_left (hfirst.trans hdepth)]
    · rw [cost_of_size_le hsized' (le_min hmore hdepth), cost_of_size_le hsized' hmore, ← min_sub_sub_right,
        add_sub_cancel_left, ih hsized']

theorem cost_mem_totals {lots : List α} (hsized : Sized size lots) {quantity : K}
    (hlow : 0 ≤ quantity) (hhigh : quantity ≤ depth size lots) :
    cost price size quantity lots ∈ totals price size quantity lots := by
  induction lots generalizing quantity with
  | nil => exact ⟨[], List.Forall₂.nil, le_antisymm hlow hhigh, rfl⟩
  | cons lot lots ih =>
    have hsize : 0 < size lot := hsized lot (List.mem_cons_self ..)
    have hsized' : Sized size lots := fun l hl => hsized l (List.mem_cons_of_mem _ hl)
    rw [depth_cons] at hhigh
    rcases le_total quantity (size lot) with hfirst | hmore
    · rw [cost, if_pos hfirst]
      exact totals_cons hlow hfirst (zero_mem_totals hsized') (add_zero _).symm (add_zero _).symm
    · rw [cost_of_size_le hsized' hmore]
      have hrest := ih hsized' (sub_nonneg.mpr hmore) (by linarith)
      exact totals_cons hsize.le le_rfl hrest (by ring) rfl

/-! ### Best first is enough -/

omit [Field K] [IsStrictOrderedRing K] in
theorem exists_separating {low high : List K} [Nonempty K] (h : ∀ a ∈ low, ∀ b ∈ high, a ≤ b) :
    ∃ p, (∀ a ∈ low, a ≤ p) ∧ ∀ b ∈ high, p ≤ b := by
  induction low with
  | nil =>
    obtain ⟨p, hp⟩ := (List.finite_toSet high).bddBelow
    exact ⟨p, fun _ ha => absurd ha List.not_mem_nil, fun b hb => hp hb⟩
  | cons a low ih =>
    obtain ⟨p, hlow, hhigh⟩ := ih fun a' ha' => h a' (List.mem_cons_of_mem _ ha')
    refine ⟨max a p, ?_, ?_⟩
    · intro a' ha'
      rcases List.mem_cons.mp ha' with rfl | hmem
      · exact le_max_left _ _
      · exact (hlow a' hmem).trans (le_max_right _ _)
    · intro b hb
      exact max_le (h a (List.mem_cons_self ..) b hb) (hhigh b hb)

theorem floor_le_paid {lots : List α} {p : K} (hprice : ∀ lot ∈ lots, p ≤ price lot)
    {amounts : List K} (h : Allocation size lots amounts) :
    p * amounts.sum ≤ paid price lots amounts := by
  induction h with
  | nil => simp [paid]
  | @cons lot amount lots amounts hamount _ ih =>
    rw [List.sum_cons, paid_cons, mul_add, mul_comm p amount]
    exact add_le_add (mul_le_mul_of_nonneg_left (hprice lot (List.mem_cons_self ..)) hamount.1)
      (ih fun l hl => hprice l (List.mem_cons_of_mem _ hl))

/-- At a price between the lots reached and the lots left over, no allocation saves
anything against the fill from the front. -/
theorem cost_add_le_paid {lots : List α} (hsized : Sized size lots) {p quantity : K}
    (hlow : 0 ≤ quantity) (hhigh : quantity ≤ depth size lots)
    (hreached : ∀ lot ∈ reached size quantity lots, price lot ≤ p)
    (hleft : ∀ lot ∈ leftover size quantity lots, p ≤ price lot) {amounts : List K}
    (h : Allocation size lots amounts) :
    cost price size quantity lots + p * amounts.sum ≤ paid price lots amounts + p * quantity := by
  induction h generalizing quantity with
  | nil =>
    have hzero : quantity = 0 := le_antisymm hhigh hlow
    simp [cost, paid, hzero]
  | @cons lot amount lots amounts hamount hrest ih =>
    have hsized' : Sized size lots := fun l hl => hsized l (List.mem_cons_of_mem _ hl)
    have hsize : 0 < size lot := hsized lot (List.mem_cons_self ..)
    rw [depth_cons] at hhigh
    rw [List.sum_cons, paid_cons]
    rcases lt_or_ge quantity (size lot) with hpart | hall
    · -- the fill ends inside the first lot
      rw [leftover, if_pos hpart] at hleft
      have hfloor := floor_le_paid (fun l hl => hleft l (List.mem_cons_of_mem _ hl)) hrest
      have hfirst : 0 ≤ (amount - quantity) * (price lot - p) := by
        rcases lt_or_ge amount quantity with hless | hmore
        · have hpos : 0 < quantity := hamount.1.trans_lt hless
          rw [reached, if_pos hpos] at hreached
          exact mul_nonneg_of_nonpos_of_nonpos (sub_nonpos.mpr hless.le)
            (sub_nonpos.mpr (hreached lot (List.mem_cons_self ..)))
        · exact mul_nonneg (sub_nonneg.mpr hmore)
            (sub_nonneg.mpr (hleft lot (List.mem_cons_self ..)))
      rw [cost, if_pos hpart.le]
      linarith
    · have hpos : 0 < quantity := hsize.trans_le hall
      rw [leftover, if_neg hall.not_gt] at hleft
      rw [reached, if_pos hpos] at hreached
      have htail := ih hsized' (sub_nonneg.mpr hall) (by linarith)
        (fun l hl => hreached l (List.mem_cons_of_mem _ hl)) hleft
      have hfirst : 0 ≤ (amount - size lot) * (price lot - p) :=
        mul_nonneg_of_nonpos_of_nonpos (sub_nonpos.mpr hamount.2)
          (sub_nonpos.mpr (hreached lot (List.mem_cons_self ..)))
      rw [cost_of_size_le hsized' hall]
      linarith

theorem cost_isLeast {lots : List α} (hsized : Sized size lots) {quantity : K} (hlow : 0 ≤ quantity)
    (hhigh : quantity ≤ depth size lots) (h : BestFirst price size quantity lots) :
    IsLeast (totals price size quantity lots) (cost price size quantity lots) := by
  refine ⟨cost_mem_totals hsized hlow hhigh, ?_⟩
  intro total htotal
  obtain ⟨amounts, hallocation, hsum, hpaid⟩ := htotal
  have hlists : ∀ a ∈ (reached size quantity lots).map price,
      ∀ b ∈ (leftover size quantity lots).map price, a ≤ b := by
    intro a ha b hb
    obtain ⟨lot, hlot, rfl⟩ := List.mem_map.mp ha
    obtain ⟨other, hother, rfl⟩ := List.mem_map.mp hb
    exact h lot hlot other hother
  obtain ⟨p, hreached, hleft⟩ := exists_separating hlists
  have hsaved := cost_add_le_paid hsized hlow hhigh
    (fun lot hlot => hreached _ (List.mem_map_of_mem hlot))
    (fun lot hlot => hleft _ (List.mem_map_of_mem hlot)) hallocation
  rw [hsum, hpaid] at hsaved
  exact le_of_add_le_add_right hsaved

/-! ### Best first is needed -/

omit [IsStrictOrderedRing K] in
theorem reached_of_nonpos {quantity : K} (h : quantity ≤ 0) (lots : List α) :
    reached size quantity lots = [] := by
  cases lots with
  | nil => rfl
  | cons lot lots => rw [reached, if_neg h.not_gt]

theorem exists_more {lots : List α} (hsized : Sized size lots) {quantity : K} (hlow : 0 ≤ quantity)
    {lot : α} (hlot : lot ∈ leftover size quantity lots) {bound : K} (hbound : 0 < bound) :
    ∃ more, 0 < more ∧ more ≤ bound ∧
      cost price size quantity lots + more * price lot ∈ totals price size (quantity + more) lots := by
  induction lots generalizing quantity with
  | nil => exact absurd hlot List.not_mem_nil
  | cons first lots ih =>
    have hsize : 0 < size first := hsized first (List.mem_cons_self ..)
    have hsized' : Sized size lots := fun l hl => hsized l (List.mem_cons_of_mem _ hl)
    rw [leftover] at hlot
    split at hlot
    next hpart =>
      rw [cost, if_pos hpart.le]
      rcases List.mem_cons.mp hlot with rfl | hmem
      · have hroom : 0 < size lot - quantity := sub_pos.mpr hpart
        have hfits : quantity + min bound (size lot - quantity) ≤ size lot := by
          have hmin := min_le_right bound (size lot - quantity)
          linarith
        refine ⟨min bound (size lot - quantity), lt_min hbound hroom, min_le_left _ _, ?_⟩
        exact totals_cons (add_nonneg hlow (lt_min hbound hroom).le) hfits (zero_mem_totals hsized')
          (add_zero _).symm (by ring)
      · have hother : 0 < size lot := hsized' lot hmem
        refine ⟨min bound (size lot), lt_min hbound hother, min_le_left _ _, ?_⟩
        exact totals_cons hlow hpart.le
          (single_mem_totals hsized' hmem (lt_min hbound hother).le (min_le_right _ _)) rfl rfl
    next hall =>
      have hmore : size first ≤ quantity := not_lt.mp hall
      obtain ⟨more, hpos, hle, htotal⟩ := ih hsized' (sub_nonneg.mpr hmore) hlot
      refine ⟨more, hpos, hle, ?_⟩
      rw [cost_of_size_le hsized' hmore]
      exact totals_cons hsize.le le_rfl htotal (by ring) (by ring)

/-- A fill that ends within the first lot can take from a later one in its place. -/
theorem exchange_first {lot : α} {lots : List α} (hsized : Sized size lots) {quantity : K}
    (hpos : 0 < quantity) (hpart : quantity < size lot) {b : α} (hb : b ∈ lots) :
    ∃ moved, 0 < moved ∧ cost price size quantity (lot :: lots) + moved * (price b - price lot) ∈
      totals price size quantity (lot :: lots) := by
  have hother : 0 < size b := hsized b hb
  have hmoved : 0 < min quantity (size b) := lt_min hpos hother
  have hmore : min quantity (size b) * price b ∈ totals price size (min quantity (size b)) lots :=
    single_mem_totals hsized hb hmoved.le (min_le_right _ _)
  refine ⟨min quantity (size b), hmoved, ?_⟩
  rw [cost, if_pos hpart.le]
  exact totals_cons (sub_nonneg.mpr (min_le_left quantity (size b)))
    ((sub_le_self _ hmoved.le).trans hpart.le) hmore (by ring) (by ring)

/-- Moving a little from a lot that is reached to one that is left over. -/
theorem exists_exchange {lots : List α} (hsized : Sized size lots) {quantity : K}
    (hlow : 0 ≤ quantity) (hhigh : quantity ≤ depth size lots) {a b : α}
    (ha : a ∈ reached size quantity lots) (hb : b ∈ leftover size quantity lots) :
    ∃ moved, 0 < moved ∧
      cost price size quantity lots + moved * (price b - price a) ∈ totals price size quantity lots := by
  induction lots generalizing quantity with
  | nil => exact absurd ha List.not_mem_nil
  | cons lot lots ih =>
    have hsize : 0 < size lot := hsized lot (List.mem_cons_self ..)
    have hsized' : Sized size lots := fun l hl => hsized l (List.mem_cons_of_mem _ hl)
    have hall : cost price size quantity (lot :: lots) ∈ totals price size quantity (lot :: lots) :=
      cost_mem_totals hsized hlow hhigh
    rw [depth_cons] at hhigh
    rw [reached] at ha
    rw [leftover] at hb
    split at ha
    next hpos =>
      split at hb
      next hpart =>
        -- only the first lot is reached, and it is not used up
        rw [reached_of_nonpos (sub_neg.mpr hpart).le, List.mem_singleton] at ha
        subst ha
        rcases List.mem_cons.mp hb with rfl | hmem
        · refine ⟨1, one_pos, ?_⟩
          rwa [sub_self, mul_zero, add_zero]
        · exact exchange_first hsized' hpos hpart hmem
      next hused =>
        have hmore : size lot ≤ quantity := not_lt.mp hused
        have hrest : 0 ≤ quantity - size lot := sub_nonneg.mpr hmore
        rw [cost_of_size_le hsized' hmore]
        rcases List.mem_cons.mp ha with rfl | hmem
        · obtain ⟨moved, hmoved, hle, htotal⟩ := exists_more hsized' hrest hb hsize
          refine ⟨moved, hmoved, ?_⟩
          exact totals_cons (sub_nonneg.mpr hle) (sub_le_self _ hmoved.le) htotal (by ring) (by ring)
        · obtain ⟨moved, hmoved, htotal⟩ := ih hsized' hrest (by linarith) hmem hb
          refine ⟨moved, hmoved, ?_⟩
          exact totals_cons hsize.le le_rfl htotal (by ring) (by ring)
    next => exact absurd ha List.not_mem_nil

theorem cost_isLeast_iff {lots : List α} (hsized : Sized size lots) {quantity : K}
    (hlow : 0 ≤ quantity) (hhigh : quantity ≤ depth size lots) :
    IsLeast (totals price size quantity lots) (cost price size quantity lots) ↔
      BestFirst price size quantity lots := by
  refine ⟨?_, cost_isLeast hsized hlow hhigh⟩
  intro hleast a ha b hb
  obtain ⟨moved, hmoved, htotal⟩ := exists_exchange hsized hlow hhigh ha hb
  have hgain : 0 ≤ moved * (price b - price a) := le_add_iff_nonneg_right _ |>.mp (hleast.2 htotal)
  exact sub_nonneg.mp (nonneg_of_mul_nonneg_right hgain hmoved)

omit [IsStrictOrderedRing K] in
theorem mem_of_mem_leftover {lots : List α} {quantity : K} {lot : α}
    (h : lot ∈ leftover size quantity lots) : lot ∈ lots := by
  induction lots generalizing quantity with
  | nil => exact h
  | cons first lots ih =>
    rw [leftover] at h
    split at h
    · exact h
    · exact List.mem_cons_of_mem _ (ih h)

theorem bestFirst_of_ascending {lots : List α} (h : Ascending price lots) (quantity : K) :
    BestFirst price size quantity lots := by
  induction lots generalizing quantity with
  | nil => exact fun _ ha => absurd ha List.not_mem_nil
  | cons lot lots ih =>
    obtain ⟨hfront, hrest⟩ := List.pairwise_cons.mp h
    intro a ha b hb
    rw [reached] at ha
    split at ha
    next =>
      rcases List.mem_cons.mp ha with rfl | hmem
      · rcases List.mem_cons.mp (mem_of_mem_leftover hb) with rfl | hother
        · exact le_rfl
        · exact hfront b hother
      · rw [leftover] at hb
        split at hb
        next hpart =>
          rw [reached_of_nonpos (sub_neg.mpr hpart).le] at hmem
          exact absurd hmem List.not_mem_nil
        next => exact ih hrest _ a hmem b hb
    next => exact absurd ha List.not_mem_nil

theorem leftover_of_depth_le {lots : List α} (hsized : Sized size lots) {quantity : K}
    (h : depth size lots ≤ quantity) : leftover size quantity lots = [] := by
  induction lots generalizing quantity with
  | nil => rfl
  | cons lot lots ih =>
    have hsized' : Sized size lots := fun l hl => hsized l (List.mem_cons_of_mem _ hl)
    have hrest := depth_nonneg hsized'
    rw [depth_cons] at h
    have hall : size lot ≤ quantity := by linarith
    rw [leftover, if_neg hall.not_gt, ih hsized' (by linarith)]

theorem bestFirst_min_depth {lots : List α} (hsized : Sized size lots) (quantity : K) :
    BestFirst price size (min quantity (depth size lots)) lots ↔ BestFirst price size quantity lots := by
  rcases le_total quantity (depth size lots) with hle | hge
  · rw [min_eq_left hle]
  · rw [min_eq_right hge]
    unfold BestFirst
    rw [leftover_of_depth_le hsized le_rfl, leftover_of_depth_le hsized hge]
    exact iff_of_true (fun _ _ _ hb => absurd hb List.not_mem_nil)
      fun _ _ _ hb => absurd hb List.not_mem_nil

theorem cost_append {front : List α} (back : List α) (hsized : Sized size (front ++ back)) {quantity : K}
    (hlow : 0 ≤ quantity) (h : quantity ≤ depth size front) :
    cost price size quantity (front ++ back) = cost price size quantity front := by
  induction front generalizing quantity with
  | nil =>
    have hzero : quantity = 0 := le_antisymm h hlow
    rw [hzero, cost_zero hsized, cost]
  | cons lot front ih =>
    have hsized' : Sized size (front ++ back) := fun l hl => hsized l (List.mem_cons_of_mem _ hl)
    rw [depth_cons] at h
    rw [List.cons_append, cost, cost]
    split
    next => rfl
    next hmore => rw [ih hsized' (sub_nonneg.mpr (not_le.mp hmore).le) (by linarith)]

/-! ### The dearest allocation -/

omit [LinearOrder K] [IsStrictOrderedRing K] in
theorem paid_neg (lots : List α) (amounts : List K) :
    paid (fun lot => -price lot) lots amounts = -paid price lots amounts := by
  induction lots generalizing amounts with
  | nil => simp [paid]
  | cons lot lots ih =>
    cases amounts with
    | nil => simp [paid]
    | cons amount amounts => rw [paid_cons, paid_cons, ih, mul_neg, neg_add]

omit [IsStrictOrderedRing K] in
theorem neg_mem_totals {quantity total : K} {lots : List α} :
    -total ∈ totals (fun lot => -price lot) size quantity lots ↔
      total ∈ totals price size quantity lots := by
  unfold totals
  simp only [Set.mem_ofPred_eq, paid_neg, neg_inj]

theorem cost_isGreatest_iff {lots : List α} (hsized : Sized size lots) {quantity : K}
    (hlow : 0 ≤ quantity) (hhigh : quantity ≤ depth size lots) :
    IsGreatest (totals price size quantity lots) (cost price size quantity lots) ↔
      BestFirst (fun lot => -price lot) size quantity lots := by
  rw [← cost_isLeast_iff hsized hlow hhigh, cost_neg]
  constructor
  · intro h
    refine ⟨neg_mem_totals.mpr h.1, ?_⟩
    intro total htotal
    rw [← neg_neg total, neg_mem_totals] at htotal
    exact neg_le.mp (h.2 htotal)
  · intro h
    exact ⟨neg_mem_totals.mp h.1, fun total htotal => neg_le_neg_iff.mp (h.2 (neg_mem_totals.mpr htotal))⟩

end CryptoArbBot.PricedLots
