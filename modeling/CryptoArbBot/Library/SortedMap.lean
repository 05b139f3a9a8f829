import CryptoArbBot.Library.StdAlgorithms
import Mathlib.Data.List.Nodup
import Mathlib.Order.RelClasses
import Mathlib.Logic.Function.Basic

/-!
# Sorted entry lists as finite maps

A list of entries in strict order of their keys stands for a partial map from
keys to values. Overwriting, erasing and inserting an entry at the partition
point of its key are the updates of that map.
-/

namespace CryptoArbBot.SortedMap

variable {ε κ ν : Type*} (r : κ → κ → Prop) (key : ε → κ) (val : ε → ν)

/-- The list holds exactly the entries of the map, in strict `r` order. -/
structure Lists (l : List ε) (m : κ → Option ν) : Prop where
  ordered : l.Pairwise fun a b => r (key a) (key b)
  mem_iff : ∀ e, e ∈ l ↔ m (key e) = some (val e)

/-- The comparison `lower_bound` makes when it looks for `k`. -/
def keyBefore [DecidableRel r] (k : κ) (e : ε) : Bool := decide (r (key e) k)

variable {r key val}

theorem Lists.empty : Lists r key val [] fun _ => none :=
  ⟨List.Pairwise.nil, by simp⟩

section Order
variable [IsStrictTotalOrder κ r]

theorem Lists.nodup {l : List ε} {m : κ → Option ν} (h : Lists r key val l m) : l.Nodup := by
  refine List.Pairwise.imp ?_ h.ordered
  rintro a b hab rfl
  exact irrefl_of r _ hab

variable [DecidableRel r]

theorem partitioned_of_ordered {l : List ε} (h : l.Pairwise fun a b => r (key a) (key b)) (k : κ) :
    Partitioned (keyBefore r key k) l := by
  refine h.imp ?_
  intro a b hab hb
  simp only [keyBefore, decide_eq_true_eq] at hb ⊢
  exact trans_of r hab hb

theorem absent_of_partitionPoint {l : List ε} (h : l.Pairwise fun a b => r (key a) (key b)) (k : κ)
    (hk : ∀ a, l[partitionPoint (keyBefore r key k) l]? = some a → key a ≠ k) :
    ∀ a ∈ l, key a ≠ k := by
  intro a ha hak
  obtain ⟨i, hi⟩ := List.mem_iff_getElem?.mp ha
  obtain ⟨hil, hia⟩ := List.getElem?_eq_some_iff.mp hi
  have hnot : ¬ i < partitionPoint (keyBefore r key k) l := by
    intro hlt
    have hb := before_of_lt_partitionPoint hlt hi
    simp only [keyBefore, decide_eq_true_eq, hak] at hb
    exact irrefl_of r _ hb
  rcases Nat.eq_or_lt_of_le (Nat.not_lt.mp hnot) with heq | hlt
  · exact hk a (heq ▸ hi) hak
  · -- an entry strictly before `a` but outside the prefix would lie before the key
    have hp := List.getElem?_eq_getElem (hlt.trans hil)
    have hr := List.pairwise_iff_getElem.mp h _ _ (hlt.trans hil) hil hlt
    have hb := not_before_at_partitionPoint hp
    simp only [keyBefore, decide_eq_false_iff_not] at hb
    rw [hia, hak] at hr
    exact hb hr

end Order

theorem insertIdx_partitionPoint (before : ε → Bool) (l : List ε) (e : ε) :
    l.insertIdx (partitionPoint before l) e = l.takeWhile before ++ e :: l.dropWhile before := by
  induction l with
  | nil => rfl
  | cons a l ih =>
    by_cases ha : before a = true
    · have hp : partitionPoint before (a :: l) = partitionPoint before l + 1 := by
        simp [partitionPoint, ha]
      rw [hp, List.insertIdx_succ_cons, ih]
      simp [ha]
    · simp [partitionPoint, ha]

section Update
variable [DecidableEq κ]

theorem Lists.absent {l : List ε} {m : κ → Option ν} (h : Lists r key val l m) {k : κ}
    (hk : ∀ a ∈ l, key a ≠ k) : Lists r key val l (Function.update m k none) := by
  refine ⟨h.ordered, fun e => ?_⟩
  by_cases he : key e = k
  · subst he
    simp only [Function.update_self]
    exact ⟨fun hmem => (hk e hmem rfl).elim, fun hnone => by simp at hnone⟩
  · rw [Function.update_of_ne he]
    exact h.mem_iff e

variable (key val) in
/-- The map of a list of entries: the first entry of a key counts. -/
def ofEntries (xs : List ε) : κ → Option ν :=
  fun k => (xs.find? fun e => decide (key e = k)).map val

variable [IsStrictTotalOrder κ r]

theorem Lists.eraseIdx {l : List ε} {m : κ → Option ν} (h : Lists r key val l m) {i : ℕ} {a : ε}
    (hi : l[i]? = some a) : Lists r key val (l.eraseIdx i) (Function.update m (key a) none) := by
  refine ⟨h.ordered.sublist (List.eraseIdx_sublist ..), fun e => ?_⟩
  rw [List.mem_eraseIdx_iff_getElem?]
  have hinj : ∀ j b, l[j]? = some b → key b = key a → j = i := by
    intro j b hj hb
    obtain ⟨hjl, hjb⟩ := List.getElem?_eq_some_iff.mp hj
    obtain ⟨hil, hia⟩ := List.getElem?_eq_some_iff.mp hi
    rcases Nat.lt_trichotomy j i with hlt | heq | hlt
    · have hr := List.pairwise_iff_getElem.mp h.ordered _ _ hjl hil hlt
      rw [hjb, hia, hb] at hr
      exact (irrefl_of r _ hr).elim
    · exact heq
    · have hr := List.pairwise_iff_getElem.mp h.ordered _ _ hil hjl hlt
      rw [hjb, hia, hb] at hr
      exact (irrefl_of r _ hr).elim
  by_cases he : key e = key a
  · rw [he, Function.update_self]
    constructor
    · intro h
      obtain ⟨j, hne, hj⟩ := h
      exact (hne (hinj j e hj he)).elim
    · intro hnone
      simp at hnone
  · rw [Function.update_of_ne he, ← h.mem_iff, List.mem_iff_getElem?]
    constructor
    · intro h
      obtain ⟨j, _, hj⟩ := h
      exact ⟨j, hj⟩
    · intro h
      obtain ⟨j, hj⟩ := h
      refine ⟨j, fun hji => he ?_, hj⟩
      rw [hji, hi] at hj
      rw [Option.some.inj hj]

variable (hext : ∀ a b : ε, key a = key b → val a = val b → a = b)
include hext

theorem Lists.insertIdx [DecidableRel r] {l : List ε} {m : κ → Option ν}
    (h : Lists r key val l m) (e : ε) (habs : ∀ a ∈ l, key a ≠ key e) :
    Lists r key val (l.insertIdx (partitionPoint (keyBefore r key (key e)) l) e)
      (Function.update m (key e) (some (val e))) := by
  have hfront : ∀ a ∈ l.takeWhile (keyBefore r key (key e)), r (key a) (key e) := by
    intro a ha
    simpa [keyBefore] using List.mem_takeWhile_imp ha
  have hback : ∀ a ∈ l.dropWhile (keyBefore r key (key e)), r (key e) (key a) := by
    intro a ha
    have hal : a ∈ l := (List.dropWhile_suffix _).subset ha
    obtain ⟨i, hi⟩ := List.mem_iff_getElem?.mp ha
    rw [← drop_partitionPoint, List.getElem?_drop] at hi
    have hnot : ¬ r (key a) (key e) := by
      intro hr
      have hlt := (before_iff_lt_partitionPoint (partitioned_of_ordered h.ordered (key e)) hi).mp
        (by simpa [keyBefore] using hr)
      omega
    rcases trichotomous_of r (key a) (key e) with hr | heq | hr
    · exact (hnot hr).elim
    · exact (habs a hal heq).elim
    · exact hr
  have hsplit : (l.takeWhile (keyBefore r key (key e)) ++
      l.dropWhile (keyBefore r key (key e))).Pairwise fun a b => r (key a) (key b) := by
    rw [List.takeWhile_append_dropWhile]
    exact h.ordered
  obtain ⟨h1, h2, h12⟩ := List.pairwise_append.mp hsplit
  constructor
  · rw [insertIdx_partitionPoint, List.pairwise_append, List.pairwise_cons]
    refine ⟨h1, ⟨hback, h2⟩, ?_⟩
    intro a ha b hb
    rcases List.mem_cons.mp hb with rfl | hb
    · exact hfront a ha
    · exact h12 a ha b hb
  · intro b
    rw [List.mem_insertIdx (partitionPoint_le _ _)]
    by_cases hb : key b = key e
    · rw [hb, Function.update_self, Option.some.injEq]
      constructor
      · intro h
        rcases h with rfl | hmem
        · rfl
        · exact (habs b hmem hb).elim
      · intro hv
        exact Or.inl (hext b e hb hv.symm)
    · rw [Function.update_of_ne hb, ← h.mem_iff]
      constructor
      · intro h
        rcases h with rfl | hmem
        · exact (hb rfl).elim
        · exact hmem
      · exact Or.inr

theorem Lists.set {l : List ε} {m : κ → Option ν} (h : Lists r key val l m) {i : ℕ} {a e : ε}
    (hi : l[i]? = some a) (hk : key a = key e) :
    Lists r key val (l.set i e) (Function.update m (key e) (some (val e))) := by
  obtain ⟨hil, hia⟩ := List.getElem?_eq_some_iff.mp hi
  have hil' : i < (l.map key).length := by rwa [List.length_map]
  have hkeys : (l.set i e).map key = l.map key := by
    have hself : (l.map key).set i (l.map key)[i] = l.map key := List.set_getElem_self hil'
    rwa [List.getElem_map, hia, hk, ← List.map_set] at hself
  constructor
  · have hord := List.pairwise_map.mpr h.ordered
    rw [← hkeys] at hord
    exact List.pairwise_map.mp hord
  · intro b
    have herase := (h.eraseIdx hi).mem_iff b
    rw [List.mem_eraseIdx_iff_getElem?] at herase
    have hmem : b ∈ l.set i e ↔ b = e ∨ ∃ j ≠ i, l[j]? = some b := by
      rw [List.mem_iff_getElem?]
      constructor
      · intro h
        obtain ⟨j, hj⟩ := h
        by_cases hji : j = i
        · subst hji
          rw [List.getElem?_set_self hil] at hj
          exact Or.inl (Option.some.inj hj).symm
        · rw [List.getElem?_set_ne (Ne.symm hji)] at hj
          exact Or.inr ⟨j, hji, hj⟩
      · intro h
        rcases h with rfl | ⟨j, hji, hj⟩
        · exact ⟨i, List.getElem?_set_self hil⟩
        · exact ⟨j, by rw [List.getElem?_set_ne (Ne.symm hji)]; exact hj⟩
    rw [hmem, herase, hk]
    by_cases hb : key b = key e
    · rw [hb, Function.update_self, Function.update_self, Option.some.injEq]
      constructor
      · intro h
        rcases h with rfl | hnone
        · rfl
        · simp at hnone
      · intro hv
        exact Or.inl (hext b e hb hv.symm)
    · rw [Function.update_of_ne hb, Function.update_of_ne hb]
      constructor
      · intro h
        rcases h with rfl | hsome
        · exact (hb rfl).elim
        · exact hsome
      · exact Or.inr

theorem Lists.of_perm {l xs : List ε} (hperm : l.Perm xs)
    (hord : l.Pairwise fun a b => r (key a) (key b)) :
    Lists r key val l (ofEntries key val xs) := by
  have hnd : (xs.map key).Nodup := by
    refine (hperm.map key).nodup_iff.mp ?_
    refine List.Pairwise.imp ?_ (List.pairwise_map.mpr hord)
    rintro a b hab rfl
    exact irrefl_of r _ hab
  refine ⟨hord, fun e => ?_⟩
  rw [hperm.mem_iff, ofEntries, Option.map_eq_some_iff]
  constructor
  · intro he
    cases hf : xs.find? fun a => decide (key a = key e) with
    | none => simpa using List.find?_eq_none.mp hf e he
    | some a =>
      have ha : key a = key e := by simpa using List.find?_some hf
      have hae : a = e := List.inj_on_of_nodup_map hnd (List.mem_of_find?_eq_some hf) he ha
      exact ⟨a, rfl, congrArg val hae⟩
  · intro h
    obtain ⟨a, hf, hv⟩ := h
    have ha : key a = key e := by simpa using List.find?_some hf
    rw [← hext a e ha hv]
    exact List.mem_of_find?_eq_some hf

end Update

end CryptoArbBot.SortedMap
