import Mathlib.Algebra.Order.Group.Unbundled.Abs
import Mathlib.Algebra.Order.Group.Unbundled.Int
import Mathlib.Data.Finset.Prod
import Mathlib.Data.Finset.Range
import Mathlib.Data.List.Perm.Subperm
import Mathlib.Logic.Function.Basic

/-!
# A map of the last admission for each key

A gate admits an event unless one with its key was admitted less than a gap before.
While the clock does not run back, events of one key that were admitted are a gap apart.
-/

namespace CryptoArbBot.LastSeen

variable {E K : Type*} (key : E → K) (time : E → ℤ)

def Apart (gap : ℤ) (e e' : E) : Prop := key e = key e' → gap ≤ |time e - time e'|

/-- The map `last` keeps the latest of the events admitted up to `now`. -/
structure Tracks (gap : ℤ) (last : K → Option ℤ) (admitted : List E) (now : ℤ) : Prop where
  past : ∀ e ∈ admitted, time e ≤ now
  latest : ∀ e ∈ admitted, ∃ t, last (key e) = some t ∧ time e ≤ t
  origin : ∀ k t, last k = some t → ∃ e ∈ admitted, key e = k ∧ time e = t
  apart : admitted.Pairwise (Apart key time gap)

variable {key time} {gap : ℤ} {last : K → Option ℤ} {admitted : List E} {now : ℤ}

theorem Apart.symm {e e' : E} (h : Apart key time gap e e') : Apart key time gap e' e := by
  intro hkey
  rw [abs_sub_comm]
  exact h hkey.symm

theorem tracks_nil (now : ℤ) : Tracks key time gap (fun _ => none) [] now where
  past e he := by cases he
  latest e he := by cases he
  origin k t ht := by cases ht
  apart := List.Pairwise.nil

namespace Tracks

theorem later (h : Tracks key time gap last admitted now) {now' : ℤ} (hle : now ≤ now') :
    Tracks key time gap last admitted now' :=
  { h with past := fun e he => (h.past e he).trans hle }

theorem record [DecidableEq K] (h : Tracks key time gap last admitted now) {e : E} (htime : time e = now)
    (hfree : ∀ t, last (key e) = some t → gap ≤ now - t) :
    Tracks key time gap (Function.update last (key e) (some now)) (e :: admitted) now where
  past e' he' := by
    rcases List.mem_cons.mp he' with rfl | hold
    · exact htime.le
    · exact h.past e' hold
  latest e' he' := by
    by_cases hkey : key e' = key e
    · refine ⟨now, by rw [hkey, Function.update_self], ?_⟩
      rcases List.mem_cons.mp he' with rfl | hold
      · exact htime.le
      · exact h.past e' hold
    · rcases List.mem_cons.mp he' with rfl | hold
      · exact absurd rfl hkey
      · rw [Function.update_of_ne hkey]
        exact h.latest e' hold
  origin k t ht := by
    by_cases hk : k = key e
    · rw [hk, Function.update_self] at ht
      exact ⟨e, List.mem_cons_self, hk.symm, htime.trans (Option.some.inj ht)⟩
    · rw [Function.update_of_ne hk] at ht
      obtain ⟨e', he', hsame⟩ := h.origin k t ht
      exact ⟨e', List.mem_cons_of_mem e he', hsame⟩
  apart := by
    rw [List.pairwise_cons]
    refine ⟨?_, h.apart⟩
    intro e' he' hkey
    obtain ⟨t, ht, hle⟩ := h.latest e' he'
    rw [← hkey] at ht
    have hgap := hfree t ht
    rw [htime]
    exact (by omega : gap ≤ now - time e').trans (le_abs_self _)

/-- What keeps an event out was admitted less than the gap before. -/
theorem refused (h : Tracks key time gap last admitted now) {k : K} {t : ℤ} (ht : last k = some t)
    (hnear : now - t < gap) : ∃ e ∈ admitted, key e = k ∧ time e ≤ now ∧ now - time e < gap := by
  obtain ⟨e, he, hkey, rfl⟩ := h.origin k t ht
  exact ⟨e, he, hkey, h.past e he, hnear⟩

theorem apart_of_subperm (h : Tracks key time gap last admitted now) {kept : List E}
    (hsub : kept.Subperm admitted) : kept.Pairwise (Apart key time gap) := by
  obtain ⟨l, hperm, hsublist⟩ := hsub
  exact (hperm.pairwise_iff fun hapart => hapart.symm).mp (h.apart.sublist hsublist)

end Tracks

/-! ### Windows -/

/-- In `n` gaps of time each key has at most `n` events that are a gap apart. -/
theorem length_le_of_apart [DecidableEq K] {events : List E}
    (hapart : events.Pairwise (Apart key time gap)) {keys : Finset K}
    (hkeys : ∀ e ∈ events, key e ∈ keys) {start : ℤ} {n : ℕ}
    (hwindow : ∀ e ∈ events, start ≤ time e ∧ time e < start + n * gap) :
    events.length ≤ keys.card * n := by
  -- an event is told by its key and the gap of the window that it falls into
  let slot : E → K × ℕ := fun e => (key e, ((time e - start) / gap).toNat)
  have hgap : ∀ e ∈ events, 0 < gap := by
    intro e he
    obtain ⟨hfrom, hto⟩ := hwindow e he
    by_contra hneg
    have hprod : (n : ℤ) * gap ≤ 0 :=
      Int.mul_nonpos_of_nonneg_of_nonpos (Int.natCast_nonneg n) (not_lt.mp hneg)
    omega
  have hnodup : (events.map slot).Nodup := by
    refine List.pairwise_map.mpr (hapart.imp_of_mem ?_)
    intro e e' he he' hfar hsame
    obtain ⟨hkey, hslot⟩ := Prod.mk.inj hsame
    have hfrom := (hwindow e he).1
    have hfrom' := (hwindow e' he').1
    have hquot : (time e - start) / gap = (time e' - start) / gap := by
      have hpos := Int.ediv_nonneg (by omega : 0 ≤ time e - start) (hgap e he).le
      have hpos' := Int.ediv_nonneg (by omega : 0 ≤ time e' - start) (hgap e he).le
      omega
    have hnear : |time e - time e'| < gap := by
      have hlow := Int.emod_nonneg (time e - start) (hgap e he).ne'
      have hhigh := Int.emod_lt_of_pos (time e - start) (hgap e he)
      have hlow' := Int.emod_nonneg (time e' - start) (hgap e he).ne'
      have hhigh' := Int.emod_lt_of_pos (time e' - start) (hgap e he)
      have hdiv := Int.mul_ediv_add_emod (time e - start) gap
      have hdiv' := Int.mul_ediv_add_emod (time e' - start) gap
      rw [hquot] at hdiv
      rw [abs_lt]
      omega
    exact absurd (hfar hkey) (not_le.mpr hnear)
  have hsubset : (events.map slot).toFinset ⊆ keys ×ˢ Finset.range n := by
    intro s hs
    obtain ⟨e, he, rfl⟩ := List.mem_map.mp (List.mem_toFinset.mp hs)
    obtain ⟨hfrom, hto⟩ := hwindow e he
    have hslot : (time e - start) / gap < n :=
      Int.ediv_lt_of_lt_mul (hgap e he) (by omega)
    refine Finset.mem_product.mpr ⟨hkeys e he, Finset.mem_range.mpr ?_⟩
    have hpos := Int.ediv_nonneg (by omega : 0 ≤ time e - start) (hgap e he).le
    change ((time e - start) / gap).toNat < n
    omega
  calc events.length = (events.map slot).length := (List.length_map _).symm
    _ = (events.map slot).toFinset.card := (List.toFinset_card_of_nodup hnodup).symm
    _ ≤ (keys ×ˢ Finset.range n).card := Finset.card_le_card hsubset
    _ = keys.card * n := by rw [Finset.card_product, Finset.card_range]

end CryptoArbBot.LastSeen
