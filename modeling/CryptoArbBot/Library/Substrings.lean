import Mathlib.Data.List.Infix

/-!
# Searching a list for a pattern

`find` gives the first position at which the pattern stands, as `std::string::find`
does. A pattern without a border cannot overlap itself, so behind a list that does not
hold it it is first found where it was put.
-/

namespace CryptoArbBot.Substrings

variable {α : Type*} [DecidableEq α]

def find (pattern : List α) : List α → Option ℕ
  | [] => if pattern = [] then some 0 else none
  | c :: cs => if pattern.isPrefixOf (c :: cs) then some 0 else (find pattern cs).map (· + 1)

/-- No proper part of the pattern both begins and ends it. -/
def Unbordered (pattern : List α) : Prop :=
  ∀ border ∈ pattern.inits, border <:+ pattern → border = [] ∨ border = pattern

instance (pattern : List α) : Decidable (Unbordered pattern) :=
  inferInstanceAs (Decidable (∀ border ∈ pattern.inits, border <:+ pattern → border = [] ∨ border = pattern))

variable {pattern : List α}

omit [DecidableEq α] in
/-- An occurrence that begins in front of an unbordered pattern ends there. -/
theorem Unbordered.prefix_of_prefix_append (h : Unbordered pattern) {front : List α} (hfront : front ≠ [])
    (hstands : pattern <+: front ++ pattern) : pattern <+: front := by
  rcases Nat.le_total pattern.length front.length with hle | hle
  · exact List.prefix_of_prefix_length_le hstands (List.prefix_append front pattern) hle
  · -- Otherwise what reaches over the end of `front` is a border.
    obtain ⟨border, hborder⟩ := List.prefix_of_prefix_length_le (List.prefix_append front pattern) hstands hle
    have hbegins : border <+: pattern := by
      rw [← List.prefix_append_right_inj front, hborder]
      exact hstands
    rcases h border ((List.mem_inits border pattern).mpr hbegins) ⟨front, hborder⟩ with hnil | hwhole
    · rw [hnil, List.append_nil] at hborder
      rw [hborder]
    · rw [hwhole] at hborder
      exact absurd (List.append_left_eq_self.mp hborder) hfront

theorem find_append_iff (h : Unbordered pattern) (hsome : pattern ≠ []) (front : List α) :
    find pattern (front ++ pattern) = some front.length ↔ ¬ pattern <:+: front := by
  induction front with
  | nil =>
    cases pattern with
    | nil => exact absurd rfl hsome
    | cons p ps =>
      have hself : (p :: ps).isPrefixOf (p :: ps) = true := by simp
      simp only [List.nil_append, find, hself, if_true, List.length_nil]
      simp
  | cons c front ih =>
    rw [List.infix_cons_iff, List.cons_append, find]
    split
    next hstands =>
      have hwithin := h.prefix_of_prefix_append (List.cons_ne_nil c front) (List.isPrefixOf_iff_prefix.mp hstands)
      simp [hwithin]
    next hstands =>
      have hother : ¬ pattern <+: c :: front := by
        intro hwithin
        exact hstands (List.isPrefixOf_iff_prefix.mpr (hwithin.trans (List.prefix_append (c :: front) pattern)))
      rw [or_iff_right hother, ← ih]
      simp

end CryptoArbBot.Substrings
