import Mathlib.Data.List.Induction
import Mathlib.Data.List.Nodup
import Mathlib.Order.Lattice

/-!
# Assignments to a map

The entries of a map are kept in the order of their keys; `m[k] = v` replaces the
entry of the key or adds one. The last assignment to a key is the one looked up.
-/

namespace CryptoArbBot.Assignments

variable {κ ν : Type*}

/-! ### Looking up -/

section Lookup
variable [DecidableEq κ] [BEq κ] [LawfulBEq κ]

theorem lookup_cons_if (k k' : κ) (v : ν) (l : List (κ × ν)) :
    ((k, v) :: l).lookup k' = if k' = k then some v else l.lookup k' := by
  rw [List.lookup_cons]
  by_cases hk : k' = k
  · rw [if_pos hk, hk, beq_self_eq_true]
  · rw [if_neg hk, beq_eq_false_iff_ne.mpr hk]

omit [DecidableEq κ] in
theorem mem_of_lookup {l : List (κ × ν)} {k : κ} {v : ν} (h : l.lookup k = some v) : (k, v) ∈ l := by
  obtain ⟨before, after, heq, -⟩ := List.lookup_eq_some_iff.mp h
  rw [heq]
  exact List.mem_append_right _ (List.mem_cons_self ..)

theorem lookup_of_mem {l : List (κ × ν)} (hkeys : (l.map Prod.fst).Nodup) {k : κ} {v : ν}
    (h : (k, v) ∈ l) : l.lookup k = some v := by
  induction l with
  | nil => cases h
  | cons entry rest ih =>
    obtain ⟨name, old⟩ := entry
    rw [List.map_cons, List.nodup_cons] at hkeys
    rw [lookup_cons_if]
    rcases List.mem_cons.mp h with heq | hrest
    · cases heq
      rw [if_pos rfl]
    · have hne : k ≠ name := by
        rintro rfl
        exact hkeys.1 (List.mem_map.mpr ⟨(k, v), hrest, rfl⟩)
      rw [if_neg hne, ih hkeys.2 hrest]

theorem lookup_reverse {l : List (κ × ν)} (hkeys : (l.map Prod.fst).Nodup) (k : κ) :
    l.reverse.lookup k = l.lookup k := by
  have hrev : (l.reverse.map Prod.fst).Nodup := by
    rw [List.map_reverse]
    exact List.nodup_reverse.mpr hkeys
  cases hlookup : l.lookup k with
  | some v => exact lookup_of_mem hrev (List.mem_reverse.mpr (mem_of_lookup hlookup))
  | none =>
    cases hreverse : l.reverse.lookup k with
    | none => rfl
    | some v =>
      rw [lookup_of_mem hkeys (List.mem_reverse.mp (mem_of_lookup hreverse))] at hlookup
      cases hlookup

end Lookup

/-! ### Assigning -/

variable [LinearOrder κ]

/-- `m[k] = v`. -/
def assign (k : κ) (v : ν) : List (κ × ν) → List (κ × ν)
  | [] => [(k, v)]
  | (name, old) :: rest =>
    if k = name then (k, v) :: rest
    else if k < name then (k, v) :: (name, old) :: rest
    else (name, old) :: assign k v rest

def assignAll (entries : List (κ × ν)) (l : List (κ × ν)) : List (κ × ν) :=
  entries.foldl (fun l entry => assign entry.1 entry.2 l) l

theorem assignAll_concat (entries : List (κ × ν)) (entry : κ × ν) (l : List (κ × ν)) :
    assignAll (entries ++ [entry]) l = assign entry.1 entry.2 (assignAll entries l) := by
  rw [assignAll, List.foldl_append]
  rfl

theorem mem_assign {k : κ} {v : ν} {l : List (κ × ν)} {entry : κ × ν}
    (h : entry ∈ assign k v l) : entry = (k, v) ∨ entry ∈ l := by
  induction l with
  | nil => exact .inl (List.mem_singleton.mp h)
  | cons first rest ih =>
    obtain ⟨name, old⟩ := first
    unfold assign at h
    split at h
    · rcases List.mem_cons.mp h with heq | hrest
      · exact .inl heq
      · exact .inr (List.mem_cons_of_mem _ hrest)
    · split at h
      · exact List.mem_cons.mp h
      · rcases List.mem_cons.mp h with heq | hrest
        · exact .inr (heq ▸ List.mem_cons_self ..)
        · exact (ih hrest).imp_right (List.mem_cons_of_mem _)

theorem perm_assign {k : κ} (v : ν) {l : List (κ × ν)} (hnew : k ∉ l.map Prod.fst) :
    (assign k v l).Perm ((k, v) :: l) := by
  induction l with
  | nil => exact .refl _
  | cons first rest ih =>
    obtain ⟨name, old⟩ := first
    rw [List.map_cons, List.mem_cons, not_or] at hnew
    unfold assign
    rw [if_neg hnew.1]
    split
    · exact .refl _
    · exact ((ih hnew.2).cons _).trans (.swap ..)

/-- Entries with different keys are all kept. -/
theorem perm_assignAll {entries : List (κ × ν)} (hkeys : (entries.map Prod.fst).Nodup) :
    (assignAll entries []).Perm entries := by
  induction entries using List.reverseRecOn with
  | nil => exact .refl _
  | append_singleton entries entry ih =>
    rw [List.map_append, List.nodup_append] at hkeys
    obtain ⟨hnodup, -, hapart⟩ := hkeys
    have hold := ih hnodup
    have hnew : entry.1 ∉ (assignAll entries []).map Prod.fst := by
      rw [(hold.map Prod.fst).mem_iff]
      intro hmem
      exact hapart _ hmem _ (List.mem_singleton_self _) rfl
    rw [assignAll_concat]
    exact ((perm_assign entry.2 hnew).trans (hold.cons entry)).trans
      (List.perm_append_singleton entry entries).symm

def Ordered (l : List (κ × ν)) : Prop := l.Pairwise fun a b => a.1 < b.1

theorem Ordered.nodup {l : List (κ × ν)} (h : Ordered l) : (l.map Prod.fst).Nodup :=
  List.pairwise_map.mpr (h.imp fun hlt => hlt.ne)

theorem Ordered.assign {l : List (κ × ν)} (h : Ordered l) (k : κ) (v : ν) :
    Ordered (assign k v l) := by
  induction l with
  | nil => exact List.pairwise_singleton ..
  | cons first rest ih =>
    obtain ⟨name, old⟩ := first
    obtain ⟨hfront, hrest⟩ := List.pairwise_cons.mp h
    unfold Assignments.assign
    split
    next heq =>
      refine List.pairwise_cons.mpr ⟨fun entry hentry => ?_, hrest⟩
      exact heq.trans_lt (hfront entry hentry)
    next hne =>
      split
      next hlt =>
        refine List.pairwise_cons.mpr ⟨fun entry hentry => ?_, h⟩
        rcases List.mem_cons.mp hentry with rfl | hmem
        · exact hlt
        · exact hlt.trans (hfront entry hmem)
      next hge =>
        refine List.pairwise_cons.mpr ⟨fun entry hentry => ?_, ih hrest⟩
        rcases mem_assign hentry with rfl | hmem
        · exact lt_of_le_of_ne (not_lt.mp hge) (Ne.symm hne)
        · exact hfront entry hmem

variable [BEq κ] [LawfulBEq κ]

theorem lookup_assign (k k' : κ) (v : ν) (l : List (κ × ν)) :
    (assign k v l).lookup k' = if k' = k then some v else l.lookup k' := by
  induction l with
  | nil => exact lookup_cons_if k k' v []
  | cons entry rest ih =>
    obtain ⟨name, old⟩ := entry
    unfold assign
    split
    next heq =>
      rw [lookup_cons_if, lookup_cons_if, ← heq]
      split
      · rfl
      · rfl
    next hne =>
      split
      · rw [lookup_cons_if]
      · rw [lookup_cons_if, lookup_cons_if, ih]
        by_cases hname : k' = name
        · rw [if_pos hname, if_pos hname, if_neg fun heq => hne (heq.symm.trans hname)]
        · rw [if_neg hname, if_neg hname]

/-- The last of the entries with the key counts, and the map before when there is none. -/
theorem lookup_assignAll (entries l : List (κ × ν)) (k : κ) :
    (assignAll entries l).lookup k = (entries.reverse.lookup k).or (l.lookup k) := by
  induction entries using List.reverseRecOn with
  | nil => rfl
  | append_singleton entries entry ih =>
    rw [assignAll_concat, lookup_assign, ih, List.reverse_append, List.reverse_singleton,
      List.singleton_append, lookup_cons_if]
    split
    · rfl
    · rfl

end CryptoArbBot.Assignments
