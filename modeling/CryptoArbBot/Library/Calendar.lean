import Mathlib.Algebra.Order.Group.Nat
import Mathlib.Order.Basic
import Mathlib.Order.Monotone.Basic
import Mathlib.Tactic.Common

/-!
# The Gregorian calendar

A position in a row of blocks of different lengths is a block and an offset. Days
in years and days in months are both such positions, so every day has a date, and
dates come in the order of their day numbers.
-/

namespace CryptoArbBot.Calendar

/-! ### Positions in a row of blocks -/

/-- The length of the first `i` blocks together. -/
def total (len : ℕ → ℕ) : ℕ → ℕ
  | 0 => 0
  | i + 1 => total len i + len i

def locateFrom (len : ℕ → ℕ) : ℕ → ℕ → ℕ → ℕ × ℕ
  | 0, i, n => (i, n)
  | fuel + 1, i, n => if n < len i then (i, n) else locateFrom len fuel (i + 1) (n - len i)

/-- The block that position `n` falls into, and the offset in it. -/
def locate (len : ℕ → ℕ) (n : ℕ) : ℕ × ℕ := locateFrom len (n + 1) 0 n

section Blocks
variable {len : ℕ → ℕ}

theorem locateFrom_spec (hlen : ∀ i, 0 < len i) {fuel n : ℕ} (hfuel : n < fuel) (i : ℕ) :
    total len (locateFrom len fuel i n).1 + (locateFrom len fuel i n).2 = total len i + n ∧
      (locateFrom len fuel i n).2 < len (locateFrom len fuel i n).1 := by
  induction fuel generalizing i n with
  | zero => omega
  | succ fuel ih =>
    rw [locateFrom]
    by_cases hin : n < len i
    · rw [if_pos hin]
      exact ⟨rfl, hin⟩
    · have hpos := hlen i
      rw [if_neg hin]
      obtain ⟨hsum, hoffset⟩ := ih (n := n - len i) (by omega) (i + 1)
      refine ⟨?_, hoffset⟩
      rw [hsum, total]
      omega

theorem total_locate (hlen : ∀ i, 0 < len i) (n : ℕ) :
    total len (locate len n).1 + (locate len n).2 = n := by
  have hsum := (locateFrom_spec hlen (Nat.lt_succ_self n) 0).1
  rwa [total, Nat.zero_add] at hsum

theorem offset_locate (hlen : ∀ i, 0 < len i) (n : ℕ) : (locate len n).2 < len (locate len n).1 :=
  (locateFrom_spec hlen (Nat.lt_succ_self n) 0).2

theorem total_mono (len : ℕ → ℕ) : Monotone (total len) :=
  monotone_nat_of_le_succ fun _ => Nat.le_add_right _ _

theorem position_lt {i i' r r' : ℕ} (hr : r < len i) (h : i < i') :
    total len i + r < total len i' + r' := by
  have hnext : total len (i + 1) ≤ total len i' := total_mono len h
  rw [total] at hnext
  omega

/-- Positions are in the order of their blocks, and within a block of their offsets. -/
theorem position_lt_iff {i i' r r' : ℕ} (hr : r < len i) (hr' : r' < len i') :
    total len i + r < total len i' + r' ↔ i < i' ∨ i = i' ∧ r < r' := by
  rcases lt_trichotomy i i' with hlt | rfl | hgt
  · have hless : total len i + r < total len i' + r' := position_lt hr hlt
    exact ⟨fun _ => .inl hlt, fun _ => hless⟩
  · rw [Nat.add_lt_add_iff_left]
    omega
  · have hless : total len i' + r' < total len i + r := position_lt hr' hgt
    omega

end Blocks

/-! ### Years and months -/

def isLeap (year : ℕ) : Bool := year % 4 = 0 && (year % 100 ≠ 0 || year % 400 = 0)

def yearLength (year : ℕ) : ℕ := if isLeap year then 366 else 365

/-- Months are counted from zero. -/
def monthLength (year : ℕ) : ℕ → ℕ
  | 1 => if isLeap year then 29 else 28
  | 3 | 5 | 8 | 10 => 30
  | _ => 31

theorem yearLength_ge (year : ℕ) : 365 ≤ yearLength year := by
  unfold yearLength
  split <;> decide

theorem yearLength_pos (year : ℕ) : 0 < yearLength year := (by decide : 0 < 365).trans_le (yearLength_ge year)

theorem monthLength_bounds (year month : ℕ) : 28 ≤ monthLength year month ∧ monthLength year month ≤ 31 := by
  unfold monthLength
  split
  · split <;> decide
  · decide
  · decide
  · decide
  · decide
  · decide

theorem monthLength_pos (year month : ℕ) : 0 < monthLength year month :=
  (by decide : 0 < 28).trans_le (monthLength_bounds year month).1

theorem total_monthLength (year : ℕ) : total (monthLength year) 12 = yearLength year := by
  unfold yearLength
  cases hleap : isLeap year with
  | true => simp [total, monthLength, hleap]
  | false => simp [total, monthLength, hleap]

/-! ### Dates -/

/-- The month and the day are counted from zero. -/
structure Date where
  year : ℕ
  month : ℕ
  day : ℕ
  deriving DecidableEq, Repr

structure Date.Valid (d : Date) : Prop where
  month : d.month < 12
  day : d.day < monthLength d.year d.month

/-- The days from the first day of year 0. -/
def dayNumber (d : Date) : ℕ :=
  total yearLength d.year + (total (monthLength d.year) d.month + d.day)

def dateOf (n : ℕ) : Date :=
  let (year, dayOfYear) := locate yearLength n
  let (month, day) := locate (monthLength year) dayOfYear
  ⟨year, month, day⟩

theorem dayNumber_dateOf (n : ℕ) : dayNumber (dateOf n) = n := by
  have hyear := total_locate yearLength_pos n
  have hmonth := total_locate (monthLength_pos (locate yearLength n).1) (locate yearLength n).2
  unfold dayNumber dateOf
  dsimp only
  omega

theorem dateOf_valid (n : ℕ) : (dateOf n).Valid := by
  have hyear := offset_locate yearLength_pos n
  have hmonth := total_locate (monthLength_pos (locate yearLength n).1) (locate yearLength n).2
  refine ⟨?_, offset_locate (monthLength_pos _) _⟩
  by_contra hbeyond
  have hall : total (monthLength (locate yearLength n).1) 12 ≤ total (monthLength (locate yearLength n).1)
      (dateOf n).month := total_mono _ (not_lt.mp hbeyond)
  rw [total_monthLength] at hall
  unfold dateOf at hall
  dsimp only at hall
  omega

theorem Date.Valid.dayOfYear_lt {d : Date} (h : d.Valid) :
    total (monthLength d.year) d.month + d.day < yearLength d.year := by
  have hnext : total (monthLength d.year) (d.month + 1) ≤ total (monthLength d.year) 12 :=
    total_mono _ h.month
  rw [total_monthLength, total] at hnext
  have hday := h.day
  omega

/-- Days come in the order of their dates. -/
theorem dayNumber_lt_iff {d d' : Date} (h : d.Valid) (h' : d'.Valid) :
    dayNumber d < dayNumber d' ↔
      d.year < d'.year ∨ d.year = d'.year ∧
        (d.month < d'.month ∨ d.month = d'.month ∧ d.day < d'.day) := by
  unfold dayNumber
  rw [position_lt_iff h.dayOfYear_lt h'.dayOfYear_lt]
  refine or_congr_right (and_congr_right fun hyear => ?_)
  have hday' := h'.day
  rw [← hyear] at hday' ⊢
  exact position_lt_iff h.day hday'

theorem mul_year_le (n : ℕ) : 365 * (dateOf n).year ≤ n := by
  have hyears : ∀ i, 365 * i ≤ total yearLength i := by
    intro i
    induction i with
    | zero => exact le_rfl
    | succ i ih =>
      have hone := yearLength_ge i
      rw [total]
      omega
  have hsum := total_locate yearLength_pos n
  have hle := hyears (locate yearLength n).1
  unfold dateOf
  dsimp only
  omega

/-! The first of January 1970 is the day 719528, and 29 February 2024 exists. -/

example : dateOf 719528 = ⟨1970, 0, 0⟩ := by decide +kernel

example : dateOf (719528 + 19782) = ⟨2024, 1, 28⟩ := by decide +kernel

end CryptoArbBot.Calendar
