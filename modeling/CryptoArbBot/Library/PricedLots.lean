import Mathlib.Algebra.BigOperators.Group.List.Basic
import Mathlib.Algebra.Order.Field.Basic
import Mathlib.Tactic.Linarith
import Mathlib.Tactic.Ring

/-!
# Filling a quantity from priced lots

A quantity is filled from the front of a list of lots, each with a price and a
size. On lots of ascending price the average price of a fill never falls as the
quantity grows.
-/

namespace CryptoArbBot.PricedLots

variable {K : Type*} [Field K] [LinearOrder K]
variable {α : Type*} (price size : α → K)

/-- What the first `quantity` units cost. -/
def cost (quantity : K) : List α → K
  | [] => 0
  | lot :: lots =>
    if quantity ≤ size lot then quantity * price lot
    else size lot * price lot + cost (quantity - size lot) lots

def depth (lots : List α) : K := (lots.map size).sum

def Ascending (lots : List α) : Prop := lots.Pairwise fun a b => price a ≤ price b

def Descending (lots : List α) : Prop := lots.Pairwise fun a b => price b ≤ price a

def Sized (lots : List α) : Prop := ∀ lot ∈ lots, 0 < size lot

variable {price size}

omit [Field K] in
theorem Ascending.head_le {lot : α} {lots : List α} (h : Ascending price (lot :: lots)) :
    ∀ l ∈ lot :: lots, price lot ≤ price l := by
  intro l hl
  rcases List.mem_cons.mp hl with rfl | hmem
  · exact le_rfl
  · exact (List.pairwise_cons.mp h).1 l hmem

omit [Field K] in
theorem Descending.le_head {lot : α} {lots : List α} (h : Descending price (lot :: lots)) :
    ∀ l ∈ lot :: lots, price l ≤ price lot := by
  intro l hl
  rcases List.mem_cons.mp hl with rfl | hmem
  · exact le_rfl
  · exact (List.pairwise_cons.mp h).1 l hmem

omit [LinearOrder K] in
theorem depth_cons (lot : α) (lots : List α) :
    depth size (lot :: lots) = size lot + depth size lots := by
  simp [depth]

variable [IsStrictOrderedRing K]

theorem depth_nonneg {lots : List α} (h : Sized size lots) : 0 ≤ depth size lots := by
  induction lots with
  | nil => exact le_rfl
  | cons lot lots ih =>
    rw [depth_cons]
    exact add_nonneg (h lot (List.mem_cons_self ..)).le
      (ih fun l hl => h l (List.mem_cons_of_mem _ hl))

theorem le_cost {lots : List α} (hsized : Sized size lots) {p : K}
    (hprice : ∀ lot ∈ lots, p ≤ price lot) {quantity : K} (hlow : 0 ≤ quantity)
    (hhigh : quantity ≤ depth size lots) : p * quantity ≤ cost price size quantity lots := by
  induction lots generalizing quantity with
  | nil =>
    have hzero : quantity = 0 := le_antisymm hhigh hlow
    simp [hzero, cost]
  | cons lot lots ih =>
    have hp : p ≤ price lot := hprice lot (List.mem_cons_self ..)
    unfold cost
    split
    · rw [mul_comm]
      exact mul_le_mul_of_nonneg_left hp hlow
    next hmore =>
      have hsize : 0 < size lot := hsized lot (List.mem_cons_self ..)
      rw [depth_cons] at hhigh
      have hrest : p * (quantity - size lot) ≤ cost price size (quantity - size lot) lots :=
        ih (fun l hl => hsized l (List.mem_cons_of_mem _ hl))
          (fun l hl => hprice l (List.mem_cons_of_mem _ hl))
          (sub_nonneg.mpr (not_le.mp hmore).le) (by linarith)
      have hfirst : size lot * p ≤ size lot * price lot := mul_le_mul_of_nonneg_left hp hsize.le
      calc p * quantity = size lot * p + p * (quantity - size lot) := by ring
        _ ≤ _ := add_le_add hfirst hrest

theorem cost_pos {lots : List α} (hsized : Sized size lots)
    (hprice : ∀ lot ∈ lots, 0 < price lot) {quantity : K} (hpos : 0 < quantity)
    (hdepth : quantity ≤ depth size lots) : 0 < cost price size quantity lots := by
  cases lots with
  | nil => exact absurd hdepth hpos.not_ge
  | cons lot lots =>
    have hfirst := hprice lot (List.mem_cons_self ..)
    unfold cost
    split
    · exact mul_pos hpos hfirst
    next hmore =>
      rw [depth_cons] at hdepth
      have hrest : 0 * (quantity - size lot) ≤ cost price size (quantity - size lot) lots :=
        le_cost (fun l hl => hsized l (List.mem_cons_of_mem _ hl))
          (fun l hl => (hprice l (List.mem_cons_of_mem _ hl)).le)
          (sub_nonneg.mpr (not_le.mp hmore).le) (by linarith)
      rw [zero_mul] at hrest
      exact add_pos_of_pos_of_nonneg (mul_pos (hsized lot (List.mem_cons_self ..)) hfirst) hrest

/-- Two fills with the same first lot: the remainders decide, as long as the
larger one costs at least the first lot's price. -/
theorem mul_le_of_rest {first p small large c c' : K} (hfirst : 0 ≤ first) (hsmall : 0 < small)
    (hle : small ≤ large) (hrest : large * c ≤ small * c') (hfloor : p * large ≤ c') :
    (large + first) * (first * p + c) ≤ (small + first) * (first * p + c') := by
  have hlarge : 0 < large := hsmall.trans_le hle
  have hscaled : (large + first) * (large * c) ≤ (large + first) * (small * c') :=
    mul_le_mul_of_nonneg_left hrest (by linarith)
  have hgap : 0 ≤ first * (large - small) * (c' - p * large) :=
    mul_nonneg (mul_nonneg hfirst (sub_nonneg.mpr hle)) (sub_nonneg.mpr hfloor)
  refine le_of_mul_le_mul_left ?_ hlarge
  calc large * ((large + first) * (first * p + c))
      = large * (large + first) * first * p + (large + first) * (large * c) := by ring
    _ ≤ large * (large + first) * first * p + (large + first) * (small * c') +
          first * (large - small) * (c' - p * large) := by linarith
    _ = large * ((small + first) * (first * p + c')) := by ring

/-- Cross-multiplied, so that no division is needed: the smaller of two fills is
the cheaper one on average. -/
theorem cost_mul_le {lots : List α} (hsized : Sized size lots) (hsorted : Ascending price lots)
    {small large : K} (hpos : 0 ≤ small) (hle : small ≤ large) (hdepth : large ≤ depth size lots) :
    large * cost price size small lots ≤ small * cost price size large lots := by
  induction lots generalizing small large with
  | nil => simp [cost]
  | cons lot lots ih =>
    have hsize : 0 < size lot := hsized lot (List.mem_cons_self ..)
    have hsized' : Sized size lots := fun l hl => hsized l (List.mem_cons_of_mem _ hl)
    obtain ⟨hfront, hsorted'⟩ := List.pairwise_cons.mp hsorted
    by_cases hsmall : small ≤ size lot
    · -- the small fill pays the front price, the large one at least that
      have hfloor : price lot * large ≤ cost price size large (lot :: lots) :=
        le_cost hsized hsorted.head_le (hpos.trans hle) hdepth
      have hfirst : cost price size small (lot :: lots) = small * price lot := by
        simp only [cost, if_pos hsmall]
      rw [hfirst]
      calc large * (small * price lot) = small * (price lot * large) := by ring
        _ ≤ _ := mul_le_mul_of_nonneg_left hfloor hpos
    · have hlarge : ¬ large ≤ size lot := fun h => hsmall (hle.trans h)
      have hlow : 0 < small - size lot := sub_pos.mpr (not_le.mp hsmall)
      have hdiff : small - size lot ≤ large - size lot := sub_le_sub_right hle _
      have hhigh : large - size lot ≤ depth size lots := by
        rw [depth_cons] at hdepth
        linarith
      have hrest := ih hsized' hsorted' hlow.le hdiff hhigh
      have hfloor := le_cost hsized' hfront (hlow.le.trans hdiff) hhigh
      have hmul := mul_le_of_rest hsize.le hlow hdiff hrest hfloor
      simpa only [cost, if_neg hsmall, if_neg hlarge, sub_add_cancel] using hmul

theorem average_le {lots : List α} (hsized : Sized size lots) (hsorted : Ascending price lots)
    {small large : K} (hpos : 0 < small) (hle : small ≤ large) (hdepth : large ≤ depth size lots) :
    cost price size small lots / small ≤ cost price size large lots / large := by
  rw [div_le_div_iff₀ hpos (hpos.trans_le hle), mul_comm, mul_comm (cost price size large lots)]
  exact cost_mul_le hsized hsorted hpos.le hle hdepth

/-! ### Lots of descending price -/

omit [IsStrictOrderedRing K] in
theorem cost_neg (quantity : K) (lots : List α) :
    cost (fun lot => -price lot) size quantity lots = -cost price size quantity lots := by
  induction lots generalizing quantity with
  | nil => simp [cost]
  | cons lot lots ih =>
    unfold cost
    split
    · rw [mul_neg]
    · rw [ih, mul_neg, ← neg_add]

theorem cost_le {lots : List α} (hsized : Sized size lots) {p : K}
    (hprice : ∀ lot ∈ lots, price lot ≤ p) {quantity : K} (hlow : 0 ≤ quantity)
    (hhigh : quantity ≤ depth size lots) : cost price size quantity lots ≤ p * quantity := by
  have hneg : ∀ lot ∈ lots, -p ≤ -price lot := fun lot hlot => neg_le_neg (hprice lot hlot)
  have hcost := le_cost hsized hneg hlow hhigh
  rw [cost_neg, neg_mul] at hcost
  exact neg_le_neg_iff.mp hcost

theorem average_ge {lots : List α} (hsized : Sized size lots) (hsorted : Descending price lots)
    {small large : K} (hpos : 0 < small) (hle : small ≤ large) (hdepth : large ≤ depth size lots) :
    cost price size large lots / large ≤ cost price size small lots / small := by
  have hneg : Ascending (fun lot => -price lot) lots := hsorted.imp neg_le_neg
  have haverage := average_le hsized hneg hpos hle hdepth
  rw [cost_neg, cost_neg, neg_div, neg_div] at haverage
  exact neg_le_neg_iff.mp haverage

/-! ### Spending a budget -/

/-- What the budget buys from the front. -/
def bought (price size : α → K) (budget : K) : List α → K
  | [] => 0
  | lot :: lots =>
    if budget ≤ size lot * price lot then budget / price lot
    else size lot + bought price size (budget - size lot * price lot) lots

/-- What all lots together cost. -/
def worth (price size : α → K) (lots : List α) : K := (lots.map fun lot => size lot * price lot).sum

omit [LinearOrder K] [IsStrictOrderedRing K] in
theorem worth_cons (lot : α) (lots : List α) :
    worth price size (lot :: lots) = size lot * price lot + worth price size lots := by
  simp [worth]

theorem worth_nonneg {lots : List α} (hsized : Sized size lots)
    (hprice : ∀ lot ∈ lots, 0 < price lot) : 0 ≤ worth price size lots := by
  induction lots with
  | nil => exact le_rfl
  | cons lot lots ih =>
    rw [worth_cons]
    have hlot := mul_pos (hsized lot (List.mem_cons_self ..)) (hprice lot (List.mem_cons_self ..))
    exact add_nonneg hlot.le (ih (fun l hl => hsized l (List.mem_cons_of_mem _ hl))
      fun l hl => hprice l (List.mem_cons_of_mem _ hl))

theorem cost_le_worth {lots : List α} (hsized : Sized size lots)
    (hprice : ∀ lot ∈ lots, 0 < price lot) (quantity : K) :
    cost price size quantity lots ≤ worth price size lots := by
  induction lots generalizing quantity with
  | nil => exact le_rfl
  | cons lot lots ih =>
    have hsized' : Sized size lots := fun l hl => hsized l (List.mem_cons_of_mem _ hl)
    have hprice' : ∀ l ∈ lots, 0 < price l := fun l hl => hprice l (List.mem_cons_of_mem _ hl)
    rw [worth_cons]
    unfold cost
    split
    next hfirst =>
      have hle : quantity * price lot ≤ size lot * price lot :=
        mul_le_mul_of_nonneg_right hfirst (hprice lot (List.mem_cons_self ..)).le
      exact hle.trans (le_add_of_nonneg_right (worth_nonneg hsized' hprice'))
    · exact add_le_add le_rfl (ih hsized' hprice' _)

theorem bought_pos {lots : List α} (hsized : Sized size lots)
    (hprice : ∀ lot ∈ lots, 0 < price lot) {budget : K} (hbudget : 0 < budget)
    (hworth : budget ≤ worth price size lots) : 0 < bought price size budget lots := by
  induction lots generalizing budget with
  | nil => exact absurd hworth hbudget.not_ge
  | cons lot lots ih =>
    rw [worth_cons] at hworth
    unfold bought
    split
    · exact div_pos hbudget (hprice lot (List.mem_cons_self ..))
    next hmore =>
      have hrest := ih (fun l hl => hsized l (List.mem_cons_of_mem _ hl))
        (fun l hl => hprice l (List.mem_cons_of_mem _ hl)) (sub_pos.mpr (not_le.mp hmore))
        (by linarith)
      exact add_pos (hsized lot (List.mem_cons_self ..)) hrest

/-- A quantity costs at least the budget when it is at least what the budget buys. -/
theorem bought_le_iff {lots : List α} (hsized : Sized size lots)
    (hprice : ∀ lot ∈ lots, 0 < price lot) {budget quantity : K} (hbudget : 0 ≤ budget)
    (hworth : budget ≤ worth price size lots) (hlow : 0 ≤ quantity)
    (hhigh : quantity ≤ depth size lots) :
    bought price size budget lots ≤ quantity ↔ budget ≤ cost price size quantity lots := by
  induction lots generalizing budget quantity with
  | nil => exact ⟨fun _ => hworth, fun _ => hlow⟩
  | cons lot lots ih =>
    have hsize : 0 < size lot := hsized lot (List.mem_cons_self ..)
    have hpos : 0 < price lot := hprice lot (List.mem_cons_self ..)
    have hsized' : Sized size lots := fun l hl => hsized l (List.mem_cons_of_mem _ hl)
    have hprice' : ∀ l ∈ lots, 0 < price l := fun l hl => hprice l (List.mem_cons_of_mem _ hl)
    rw [worth_cons] at hworth
    rw [depth_cons] at hhigh
    unfold bought cost
    by_cases hcheap : budget ≤ size lot * price lot
    · rw [if_pos hcheap]
      by_cases hfirst : quantity ≤ size lot
      · rw [if_pos hfirst]
        exact div_le_iff₀ hpos
      · -- the first lot alone is worth the budget
        rw [if_neg hfirst]
        have hrest : 0 * (quantity - size lot) ≤ cost price size (quantity - size lot) lots :=
          le_cost hsized' (fun l hl => (hprice' l hl).le) (by linarith) (by linarith)
        refine ⟨fun _ => by linarith, fun _ => ?_⟩
        exact ((div_le_iff₀ hpos).mpr hcheap).trans (not_le.mp hfirst).le
    · have hleft : 0 < budget - size lot * price lot := sub_pos.mpr (not_le.mp hcheap)
      rw [if_neg hcheap]
      by_cases hfirst : quantity ≤ size lot
      · -- more than the first lot is needed, so both sides fail
        rw [if_pos hfirst]
        have hmore := bought_pos hsized' hprice' hleft (by linarith)
        have hcost : quantity * price lot ≤ size lot * price lot :=
          mul_le_mul_of_nonneg_right hfirst hpos.le
        exact ⟨fun h => absurd h (by linarith), fun h => absurd h (by linarith)⟩
      · rw [if_neg hfirst]
        have hrest := ih hsized' hprice' hleft.le (by linarith)
          (sub_nonneg.mpr (not_le.mp hfirst).le) (by linarith : quantity - size lot ≤ depth size lots)
        rw [← le_sub_iff_add_le', hrest, sub_le_iff_le_add']

end CryptoArbBot.PricedLots
