import CryptoArbBot.Library.SortedMap
import Mathlib.Algebra.BigOperators.Group.List.Basic
import Mathlib.Data.List.Induction
import Mathlib.Order.Defs.LinearOrder

/-!
# Sums for each key

Amounts are added up under their keys in a list that is kept in the order of the
keys. It lists the sum of every key that occurs, and the sums add up to the total.
-/

namespace CryptoArbBot.Tallies
open SortedMap

variable {κ K : Type*} [LinearOrder κ] [AddCommMonoid K] {l : List (κ × K)} {m : κ → Option K}

/-- `m[k] += amount`, where a new key starts from the amount. -/
def add (k : κ) (amount : K) : List (κ × K) → List (κ × K)
  | [] => [(k, amount)]
  | (name, total) :: rest =>
    if k = name then (name, total + amount) :: rest
    else if k < name then (k, amount) :: (name, total) :: rest
    else (name, total) :: add k amount rest

theorem sum_add (k : κ) (amount : K) (l : List (κ × K)) :
    ((add k amount l).map Prod.snd).sum = (l.map Prod.snd).sum + amount := by
  induction l with
  | nil => simp [add]
  | cons entry rest ih =>
    obtain ⟨name, total⟩ := entry
    unfold add
    split
    · rw [List.map_cons, List.sum_cons, List.map_cons, List.sum_cons]
      exact add_right_comm total amount _
    · split
      · rw [List.map_cons, List.sum_cons]
        exact add_comm amount _
      · rw [List.map_cons, List.sum_cons, ih, List.map_cons, List.sum_cons, add_assoc]

/-- The entries as a map from keys to sums. -/
abbrev Sums (l : List (κ × K)) (m : κ → Option K) : Prop :=
  Lists (fun a b => a < b) Prod.fst Prod.snd l m

omit [AddCommMonoid K] in
theorem Sums.cons (h : Sums l m) {k : κ} (hfront : ∀ entry ∈ l, k < entry.1) (total : K) :
    Sums ((k, total) :: l) (Function.update m k (some total)) := by
  have hfirst : partitionPoint (keyBefore (fun a b => a < b) Prod.fst k) l = 0 := by
    cases l with
    | nil => rfl
    | cons entry rest =>
      have hlt := hfront entry (List.mem_cons_self ..)
      simp [partitionPoint, keyBefore, hlt.le]
  have hinsert := h.insertIdx (fun a b => Prod.ext) (k, total) fun entry hentry =>
    (hfront entry hentry).ne'
  rwa [hfirst] at hinsert

theorem Sums.add (h : Sums l m) (k : κ) (amount : K) :
    Sums (add k amount l) (Function.update m k (some ((m k).getD 0 + amount))) := by
  induction l generalizing m with
  | nil =>
    have hnone : m k = none := by
      cases hk : m k with
      | none => rfl
      | some total => cases (h.mem_iff (k, total)).mpr hk
    rw [hnone, Option.getD_none, zero_add]
    exact h.cons (fun entry hentry => by cases hentry) amount
  | cons entry rest ih =>
    obtain ⟨name, total⟩ := entry
    have hname : m name = some total := (h.mem_iff (name, total)).mp (List.mem_cons_self ..)
    have hbehind : ∀ entry ∈ rest, name < entry.1 := (List.pairwise_cons.mp h.ordered).1
    unfold Tallies.add
    split
    next heq =>
      rw [heq, hname]
      exact h.set (fun a b => Prod.ext) (a := (name, total)) (i := 0) rfl rfl
    next hne =>
      split
      next hlt =>
        have hfront : ∀ entry ∈ (name, total) :: rest, k < entry.1 := by
          intro entry hentry
          rcases List.mem_cons.mp hentry with rfl | hrest
          · exact hlt
          · exact hlt.trans (hbehind entry hrest)
        have hnone : m k = none := by
          cases hk : m k with
          | none => rfl
          | some other => exact absurd (hfront _ ((h.mem_iff (k, other)).mpr hk)) (lt_irrefl k)
        rw [hnone, Option.getD_none, zero_add]
        exact h.cons hfront amount
      next hge =>
        -- the rest lists the map without the first name, which is added in front again
        have hlt : name < k := lt_of_le_of_ne (not_lt.mp hge) (Ne.symm hne)
        have hrest := ih (h.eraseIdx (i := 0) rfl)
        rw [Function.update_of_ne hne] at hrest
        have hfront : ∀ entry ∈ Tallies.add k amount rest, name < entry.1 := by
          intro entry hentry
          have hlists := (hrest.mem_iff entry).mp hentry
          rcases eq_or_ne entry.1 k with hk | hk
          · rw [hk]
            exact hlt
          · rw [Function.update_of_ne hk] at hlists
            exact hbehind entry (((h.eraseIdx (i := 0) rfl).mem_iff entry).mpr hlists)
        have hall := hrest.cons hfront total
        rwa [Function.update_comm hne, Function.update_idem, ← hname, Function.update_eq_self] at hall

/-! ### Adding up a list -/

section Tally
variable {E : Type*} (key : E → κ) (amount : E → K)

def tally (events : List E) : List (κ × K) :=
  events.foldl (fun l event => add (key event) (amount event) l) []

/-- What the events of a key add up to, when there are any. -/
def sumOf (events : List E) (k : κ) : Option K :=
  if k ∈ events.map key then some (((events.filter fun event => key event = k).map amount).sum)
  else none

theorem sumOf_append (events : List E) (event : E) :
    sumOf key amount (events ++ [event]) =
      Function.update (sumOf key amount events) (key event)
        (some ((sumOf key amount events (key event)).getD 0 + amount event)) := by
  funext k
  rcases eq_or_ne k (key event) with rfl | hk
  · have hmem : key event ∈ (events ++ [event]).map key :=
      List.mem_map_of_mem (List.mem_append_right _ (List.mem_singleton_self event))
    rw [Function.update_self, sumOf, if_pos hmem, sumOf]
    congr 1
    rw [List.filter_append, List.map_append, List.sum_append]
    split
    next => simp
    next hfresh =>
      have hnone : (events.filter fun e => key e = key event) = [] := by
        refine List.filter_eq_nil_iff.mpr fun e he heq => ?_
        exact hfresh (of_decide_eq_true heq ▸ List.mem_map_of_mem he)
      simp [hnone]
  · have hother : ¬ key event = k := Ne.symm hk
    rw [Function.update_of_ne hk]
    simp [sumOf, hk, hother]

theorem tally_sums (events : List E) : Sums (tally key amount events) (sumOf key amount events) := by
  induction events using List.reverseRecOn with
  | nil => exact Lists.empty
  | append_singleton events event ih =>
    rw [sumOf_append, tally, List.foldl_append]
    exact ih.add (key event) (amount event)

theorem sum_tally (events : List E) :
    ((tally key amount events).map Prod.snd).sum = (events.map amount).sum := by
  induction events using List.reverseRecOn with
  | nil => rfl
  | append_singleton events event ih =>
    rw [tally, List.foldl_append, List.map_append, List.sum_append, ← ih]
    simp [sum_add, tally]

end Tally

end CryptoArbBot.Tallies
