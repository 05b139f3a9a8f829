import Mathlib.Data.List.TakeWhile

/-!
# Query strings

The query of a request target is what stands behind its first question mark; its
fields stand between ampersands and begin with a name and an equals sign.
-/

namespace CryptoArbBot.QueryStrings

def join (fields : List String) : String := "&".intercalate fields

def queryOf (target : String) : String :=
  String.ofList ((target.toList.dropWhile (· ≠ '?')).drop 1)

def fieldsOf (query : String) : List String := (query.toList.splitOn '&').map String.ofList

def named (name field : String) : Bool := (name ++ "=").toList.isPrefixOf field.toList

/-- The query without the fields of that name. -/
def without (name query : String) : String := join ((fieldsOf query).filter fun field => !named name field)

theorem join_cons_cons (first second : String) (rest : List String) :
    join (first :: second :: rest) = first ++ "&" ++ join (second :: rest) :=
  String.intercalate_cons_cons

theorem join_singleton (field : String) : join [field] = field := String.intercalate_singleton

theorem join_concat (last : String) {fields : List String} (hsome : fields ≠ []) :
    join (fields ++ [last]) = join fields ++ "&" ++ last := by
  induction fields with
  | nil => exact absurd rfl hsome
  | cons first rest ih =>
    cases rest with
    | nil => rw [List.singleton_append, join_cons_cons, join_singleton, join_singleton]
    | cons second rest =>
      rw [List.cons_append, List.cons_append, join_cons_cons, ← List.cons_append, ih (by simp),
        join_cons_cons]
      simp only [String.append_assoc]

theorem queryOf_append {path : String} (h : '?' ∉ path.toList) (query : String) :
    queryOf (path ++ "?" ++ query) = query := by
  have hpath : ∀ c ∈ path.toList, decide (c ≠ '?') = true := by
    intro c hc
    simp only [ne_eq, decide_eq_true_eq]
    intro heq
    exact h (heq ▸ hc)
  have hmark : (path ++ "?" ++ query).toList = path.toList ++ '?' :: query.toList := by simp
  unfold queryOf
  rw [hmark, List.dropWhile_append_of_pos hpath, List.dropWhile_cons_of_neg (by simp), List.drop_one,
    List.tail_cons, String.ofList_toList]

theorem queryOf_eq_empty {path : String} (h : '?' ∉ path.toList) : queryOf path = "" := by
  have hnone : path.toList.dropWhile (· ≠ '?') = [] := by
    rw [List.dropWhile_eq_nil_iff]
    intro c hc
    simp only [ne_eq, decide_eq_true_eq]
    intro heq
    exact h (heq ▸ hc)
  rw [queryOf, hnone]
  rfl

theorem fieldsOf_join {fields : List String} (h : ∀ field ∈ fields, '&' ∉ field.toList)
    (hsome : fields ≠ []) : fieldsOf (join fields) = fields := by
  have hlists : ∀ cs ∈ fields.map String.toList, '&' ∉ cs := by
    intro cs hcs
    obtain ⟨field, hfield, rfl⟩ := List.mem_map.mp hcs
    exact h field hfield
  have hjoin : (join fields).toList = ['&'].intercalate (fields.map String.toList) :=
    String.toList_intercalate
  unfold fieldsOf
  rw [hjoin, List.splitOn_intercalate '&' hlists (by simpa using hsome), List.map_map]
  simp

theorem without_join (name : String) {fields : List String} (h : ∀ field ∈ fields, '&' ∉ field.toList)
    (hsome : fields ≠ []) :
    without name (join fields) = join (fields.filter fun field => !named name field) := by
  rw [without, fieldsOf_join h hsome]

/-- Before its first equals sign a field has one name. -/
theorem prefix_mark_iff {xs ys zs : List Char} (hxs : '=' ∉ xs) (hys : '=' ∉ ys) :
    xs ++ ['='] <+: ys ++ '=' :: zs ↔ xs = ys := by
  induction xs generalizing ys with
  | nil =>
    cases ys with
    | nil => simp
    | cons y ys =>
      have hy : ¬ '=' = y := fun heq => hys (heq ▸ List.mem_cons_self)
      simp [hy]
  | cons x xs ih =>
    rw [List.mem_cons, not_or] at hxs
    cases ys with
    | nil => simp [Ne.symm hxs.1]
    | cons y ys =>
      rw [List.mem_cons, not_or] at hys
      simp only [List.cons_append, List.cons_prefix_cons, List.cons.injEq, ih hxs.2 hys.2]

theorem named_eq {name key : String} (hname : '=' ∉ name.toList) (hkey : '=' ∉ key.toList)
    (value : String) : named name (key ++ "=" ++ value) = decide (name = key) := by
  have hfield : (key ++ "=" ++ value).toList = key.toList ++ '=' :: value.toList := by simp
  have hmark : (name ++ "=").toList = name.toList ++ ['='] := by simp
  rw [Bool.eq_iff_iff, decide_eq_true_iff, named, List.isPrefixOf_iff_prefix, hfield, hmark,
    prefix_mark_iff hname hkey, String.toList_inj]

end CryptoArbBot.QueryStrings
