import Mathlib.Data.List.Basic
import Mathlib.Data.Nat.ModEq

/-!
# Circular buffers

Entry `k` of an unbounded log lives in slot `k % n`. `Window` says that a stretch
of the log is in its slots; as long as the stretch is shorter than `n` its slots
are distinct, and both ends move on without touching the entries in between.
-/

namespace CryptoArbBot.Ring

variable {α : Type*}

/-! ### Slots of a stretch shorter than the buffer -/

theorem slot_eq_iff {n k l : ℕ} (hkl : k ≤ l) (hl : l < k + n) : k % n = l % n ↔ k = l := by
  constructor
  · intro h
    have hdvd : n ∣ l - k := (Nat.modEq_iff_dvd' hkl).mp h
    rcases Nat.eq_zero_or_pos (l - k) with hzero | hpos
    · omega
    · have := Nat.le_of_dvd hpos hdvd
      omega
  · intro h
    rw [h]

/-- The slot after the last one is the first one exactly when all are taken. -/
theorem slot_full_iff {n first last : ℕ} (h : first ≤ last) (hlt : last < first + n) :
    (last + 1) % n = first % n ↔ last + 1 = first + n := by
  constructor
  · intro heq
    by_contra hne
    have hsame : first = last + 1 := (slot_eq_iff (by omega) (by omega)).mp heq.symm
    omega
  · intro heq
    rw [heq, Nat.add_mod_right]

theorem slot_distance {n first last : ℕ} (h : first ≤ last) (hlt : last < first + n) :
    (if last % n ≥ first % n then last % n - first % n else n - first % n + last % n) =
      last - first := by
  have hn : 0 < n := by omega
  have hfirst : first % n < n := Nat.mod_lt _ hn
  obtain ⟨d, hd⟩ := Nat.exists_eq_add_of_le h
  have hdn : d < n := by omega
  have hmod : last % n = (first % n + d) % n := by rw [hd, Nat.mod_add_mod]
  rw [hmod, hd, Nat.add_sub_cancel_left]
  by_cases hwrap : first % n + d < n
  · rw [Nat.mod_eq_of_lt hwrap, if_pos (by omega)]
    omega
  · rw [Nat.mod_eq_sub_mod (by omega), Nat.mod_eq_of_lt (by omega), if_neg (by omega)]
    omega

/-! ### The entries in their slots -/

def Window (n : ℕ) (slots log : List α) (first last : ℕ) : Prop :=
  ∀ k, first ≤ k → k < last → slots[k % n]? = log[k]?

variable {n : ℕ} {slots log : List α} {first last : ℕ}

theorem Window.empty : Window n slots log first first := by
  intro k hle hlt
  omega

theorem Window.tail (h : Window n slots log first last) : Window n slots log (first + 1) last := by
  intro k hle hlt
  exact h k (by omega) hlt

theorem Window.set_outside (h : Window n slots log first last) {k : ℕ} (hlast : last ≤ k)
    (hk : k < first + n) (x : α) : Window n (slots.set (k % n) x) log first last := by
  intro j hle hlt
  have hne : k % n ≠ j % n := by
    intro heq
    have hjk : j = k := (slot_eq_iff (by omega) (by omega)).mp heq.symm
    omega
  rw [List.getElem?_set_ne hne]
  exact h j hle hlt

theorem Window.set_before (h : Window n slots log (first + 1) last) (hlast : last ≤ first + n)
    (x : α) : Window n (slots.set (first % n) x) log (first + 1) last := by
  intro j hle hlt
  have hne : first % n ≠ j % n := by
    intro heq
    have hfj : first = j := (slot_eq_iff (by omega) (by omega)).mp heq
    omega
  rw [List.getElem?_set_ne hne]
  exact h j hle hlt

theorem Window.push (h : Window n slots log first log.length) {x : α}
    (hx : slots[log.length % n]? = some x) :
    Window n slots (log ++ [x]) first (log ++ [x]).length := by
  intro k hle hlt
  rw [List.length_append, List.length_singleton] at hlt
  by_cases hk : k < log.length
  · rw [List.getElem?_append_left hk]
    exact h k hle hk
  · have hkl : k = log.length := by omega
    rw [hkl, hx, List.getElem?_concat_length]

end CryptoArbBot.Ring
