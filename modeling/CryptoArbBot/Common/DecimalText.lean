import CryptoArbBot.Common.Text
import Mathlib.Algebra.Order.Field.Power
import Mathlib.Tactic.FieldSimp
import Mathlib.Tactic.Linarith
import Mathlib.Tactic.Ring

/-!
# Reading printed numbers back

`stod` of the text that `std::to_string` or `ostream <<` gives. The first keeps
six decimals, the second six significant digits, so each is exact on the numbers
that have no more of them.
-/

namespace CryptoArbBot

/-! ### Digits and a point -/

theorem readDigits_append (front back : List Char) :
    readDigits (front ++ back) = 10 ^ back.length * readDigits front + readDigits back := by
  have hdigits : ∀ cs, readDigits cs = Nat.ofDigitChars 10 cs 0 := fun _ => rfl
  rw [hdigits, hdigits, hdigits, Nat.ofDigitChars_append, Nat.ofDigitChars_eq_ofDigitChars_zero]

theorem readDigits_zeros (k : ℕ) : readDigits (List.replicate k '0') = 0 := by
  have hdigits : readDigits (List.replicate k '0') = Nat.ofDigitChars 10 (List.replicate k '0') 0 := rfl
  rw [hdigits, Nat.ofDigitChars_replicate_zero, mul_zero]

/-- The number that digits with a point behind the whole ones denote. -/
def decimalValue (whole fraction : List Char) : ℚ :=
  readDigits (whole ++ fraction) / 10 ^ fraction.length

def pointed (fraction : List Char) : List Char := if fraction = [] then [] else '.' :: fraction

def AllDigits (cs : List Char) : Prop := ∀ c ∈ cs, c.isDigit = true

theorem decimalValue_zeros (whole fraction : List Char) (k : ℕ) :
    decimalValue whole (fraction ++ List.replicate k '0') = decimalValue whole fraction := by
  unfold decimalValue
  rw [← List.append_assoc, readDigits_append, readDigits_zeros, List.length_append,
    List.length_replicate, pow_add]
  push_cast
  field_simp
  ring

def trimmed (fraction : List Char) : List Char := (fraction.reverse.dropWhile (· = '0')).reverse

theorem trimmed_append (fraction : List Char) :
    ∃ k, fraction = trimmed fraction ++ List.replicate k '0' := by
  refine ⟨(fraction.reverse.takeWhile (· = '0')).length, ?_⟩
  have hzeros : fraction.reverse.takeWhile (· = '0') =
      List.replicate (fraction.reverse.takeWhile (· = '0')).length '0' := by
    refine List.eq_replicate_of_mem ?_
    intro c hc
    simpa using List.mem_takeWhile_imp (p := fun c => decide (c = '0')) hc
  have hsplit := congrArg List.reverse
    (List.takeWhile_append_dropWhile (p := fun c => decide (c = '0')) (l := fraction.reverse))
  rw [List.reverse_append, List.reverse_reverse, hzeros, List.reverse_replicate] at hsplit
  exact hsplit.symm

theorem AllDigits.trimmed {fraction : List Char} (h : AllDigits fraction) :
    AllDigits (trimmed fraction) := by
  intro c hc
  obtain ⟨k, hk⟩ := trimmed_append fraction
  refine h c ?_
  rw [hk]
  exact List.mem_append_left _ hc

theorem decimalValue_trimmed (whole fraction : List Char) :
    decimalValue whole (trimmed fraction) = decimalValue whole fraction := by
  obtain ⟨k, hk⟩ := trimmed_append fraction
  conv_rhs => rw [hk]
  exact (decimalValue_zeros ..).symm

theorem not_point {c : Char} (h : c.isDigit = true) : c ≠ '.' := by
  intro heq
  rw [heq] at h
  exact absurd h (by decide)

theorem toList_stripZeros {text : String} {whole fraction : List Char}
    (htext : text.toList = whole ++ pointed fraction) (hwhole : AllDigits whole)
    (hfraction : AllDigits fraction) :
    (stripZeros text).toList = whole ++ pointed (trimmed fraction) := by
  unfold stripZeros
  dsimp only
  rw [htext]
  have hback : whole.reverse.dropWhile (· = '.') = whole.reverse := by
    refine List.dropWhile_eq_self_iff.mpr ?_
    intro hlt
    simpa using not_point (hwhole _ (List.mem_reverse.mp (List.getElem_mem hlt)))
  by_cases hnone : fraction = []
  · have hpoint : '.' ∉ whole := fun hmem => not_point (hwhole _ hmem) rfl
    simp [pointed, trimmed, hnone, hpoint, htext]
  · have hsplit : (whole ++ pointed fraction).reverse.dropWhile (· = '0') =
        if fraction.reverse.dropWhile (· = '0') = [] then '.' :: whole.reverse
        else fraction.reverse.dropWhile (· = '0') ++ '.' :: whole.reverse := by
      rw [pointed, if_neg hnone, List.reverse_append, List.reverse_cons, List.append_assoc,
        List.dropWhile_append]
      simp [List.isEmpty_iff]
    rw [if_pos (by simp [pointed, hnone]), String.toList_ofList, hsplit]
    by_cases hzeros : fraction.reverse.dropWhile (· = '0') = []
    · rw [if_pos hzeros, List.dropWhile_cons_of_pos (by simp), hback, List.reverse_reverse]
      simp [trimmed, pointed, hzeros]
    · have hkeep : (fraction.reverse.dropWhile (· = '0') ++ '.' :: whole.reverse).dropWhile (· = '.') =
          fraction.reverse.dropWhile (· = '0') ++ '.' :: whole.reverse := by
        cases hdrop : fraction.reverse.dropWhile (· = '0') with
        | nil => exact absurd hdrop hzeros
        | cons c cs =>
          have hmem : c ∈ fraction := by
            refine List.mem_reverse.mp ((List.dropWhile_sublist (· = '0')).mem ?_)
            rw [hdrop]
            exact List.mem_cons_self ..
          rw [List.cons_append, List.dropWhile_cons_of_neg]
          simpa using not_point (hfraction c hmem)
      rw [if_neg hzeros, hkeep, List.reverse_append, List.reverse_cons, List.reverse_reverse,
        List.append_assoc, pointed, trimmed, if_neg (by simpa using hzeros)]
      rfl

/-! ### Fixed decimals -/

theorem abs_roundHalfEven_sub_le {x : ℚ} (h : 0 ≤ x) : |(roundHalfEven x : ℚ) - x| ≤ 1 / 2 := by
  have hfloor : ((⌊x⌋.toNat : ℕ) : ℚ) = (⌊x⌋ : ℚ) := by
    rw [← Int.cast_natCast, Int.toNat_of_nonneg (Int.floor_nonneg.mpr h)]
  have hlow := Int.floor_le x
  have hhigh := Int.lt_floor_add_one x
  unfold roundHalfEven
  dsimp only
  rw [abs_le, hfloor]
  split
  · rw [hfloor]
    exact ⟨by linarith, by linarith⟩
  · split
    · push_cast
      rw [hfloor]
      exact ⟨by linarith, by linarith⟩
    · split
      · rw [hfloor]
        exact ⟨by linarith, by linarith⟩
      · push_cast
        rw [hfloor]
        exact ⟨by linarith, by linarith⟩

theorem roundHalfEven_eq {x : ℚ} (hx : 0 ≤ x) {n : ℕ} (h : |x - n| < 1 / 2) : roundHalfEven x = n := by
  have hround := abs_le.mp (abs_roundHalfEven_sub_le hx)
  have hnear := abs_lt.mp h
  have hlow : (n : ℚ) < roundHalfEven x + 1 := by linarith
  have hhigh : (roundHalfEven x : ℚ) < n + 1 := by linarith
  have hlow' : n < roundHalfEven x + 1 := by exact_mod_cast hlow
  have hhigh' : roundHalfEven x < n + 1 := by exact_mod_cast hhigh
  omega

theorem roundHalfEven_natCast (n : ℕ) : roundHalfEven n = n := by
  refine roundHalfEven_eq (Nat.cast_nonneg n) ?_
  rw [sub_self, abs_zero]
  norm_num

theorem allDigits_repr (n : ℕ) : AllDigits (Nat.repr n).toList := fun _ hc => isDigit_repr hc

theorem repr_ne_nil (n : ℕ) : (Nat.repr n).toList ≠ [] := by
  rw [ne_eq, String.toList_eq_nil_iff]
  exact Nat.repr_ne_empty

theorem allDigits_append {front back : List Char} (hfront : AllDigits front) (hback : AllDigits back) :
    AllDigits (front ++ back) := by
  intro c hc
  rcases List.mem_append.mp hc with h | h
  · exact hfront c h
  · exact hback c h

theorem allDigits_paddedDigits (width n : ℕ) : AllDigits (paddedDigits width n).toList := by
  rw [paddedDigits, String.toList_ofList]
  refine allDigits_append ?_ (allDigits_repr n)
  intro c hc
  rw [(List.mem_replicate.mp hc).2]
  decide

theorem readDigits_paddedDigits (width n : ℕ) : readDigits (paddedDigits width n).toList = n := by
  rw [paddedDigits, String.toList_ofList, readDigits_append, readDigits_zeros, mul_zero, zero_add,
    readDigits_repr]

theorem length_paddedDigits {width n : ℕ} (hwidth : 0 < width) (h : n < 10 ^ width) :
    (paddedDigits width n).toList.length = width := by
  have hlength : (Nat.repr n).toList.length ≤ width := by
    rw [String.length_toList]
    exact (Nat.length_repr_le_iff hwidth).mpr h
  rw [paddedDigits, String.toList_ofList, List.length_append, List.length_replicate]
  omega

/-- The text is made of digits with at most one point and denotes the number. -/
def PlainDecimal (text : String) (value : ℚ) : Prop :=
  ∃ whole fraction, text.toList = whole ++ pointed fraction ∧ whole ≠ [] ∧ AllDigits whole ∧
    AllDigits fraction ∧ decimalValue whole fraction = value

theorem plainDecimal_fixedDigits (decimals : ℕ) (x : ℚ) :
    PlainDecimal (fixedDigits decimals x) (roundHalfEven (x * 10 ^ decimals) / 10 ^ decimals) := by
  unfold fixedDigits
  dsimp only
  generalize roundHalfEven (x * 10 ^ decimals) = n
  split
  next hnone =>
    refine ⟨(Nat.repr (n / 10 ^ decimals)).toList, [], (List.append_nil _).symm, repr_ne_nil _,
      allDigits_repr _, fun _ hc => absurd hc List.not_mem_nil, ?_⟩
    rw [decimalValue, List.append_nil, readDigits_repr, hnone]
    simp
  next hsome =>
    have hlength : (paddedDigits decimals (n % 10 ^ decimals)).toList.length = decimals :=
      length_paddedDigits (Nat.pos_of_ne_zero hsome) (Nat.mod_lt n (Nat.pow_pos (by decide)))
    have hdigits : (paddedDigits decimals (n % 10 ^ decimals)).toList ≠ [] := by
      intro hnil
      rw [hnil] at hlength
      exact hsome hlength.symm
    refine ⟨(Nat.repr (n / 10 ^ decimals)).toList, (paddedDigits decimals (n % 10 ^ decimals)).toList,
      ?_, repr_ne_nil _, allDigits_repr _, allDigits_paddedDigits _ _, ?_⟩
    · rw [String.toList_append, String.toList_append, pointed, if_neg hdigits, List.append_assoc]
      rfl
    · rw [decimalValue, readDigits_append, hlength, readDigits_repr, readDigits_paddedDigits,
        Nat.div_add_mod]

theorem plainDecimal_stripZeros {text : String} {value : ℚ} (h : PlainDecimal text value) :
    PlainDecimal (stripZeros text) value := by
  obtain ⟨whole, fraction, htext, hsome, hwhole, hfraction, hvalue⟩ := h
  exact ⟨whole, trimmed fraction, toList_stripZeros htext hwhole hfraction, hsome, hwhole,
    hfraction.trimmed, (decimalValue_trimmed whole fraction).trans hvalue⟩

/-! ### Reading -/

/-- What may stand behind the digits: nothing, or an exponent with its mark. -/
def Ended (tail : List Char) : Prop := ∀ c ∈ tail.head?, c = 'e'

theorem takeWhile_digits {digits tail : List Char} (hdigits : AllDigits digits)
    (htail : ∀ c ∈ tail.head?, ¬ c.isDigit = true) :
    (digits ++ tail).takeWhile Char.isDigit = digits ∧
      (digits ++ tail).dropWhile Char.isDigit = tail := by
  rw [List.takeWhile_append_of_pos hdigits, List.dropWhile_append_of_pos hdigits]
  cases tail with
  | nil => simp
  | cons c tail =>
    rw [List.takeWhile_cons_of_neg (htail c rfl), List.dropWhile_cons_of_neg (htail c rfl),
      List.append_nil]
    exact ⟨rfl, rfl⟩

theorem Ended.not_digit {tail : List Char} (h : Ended tail) :
    ∀ c ∈ tail.head?, ¬ c.isDigit = true := by
  intro c hc
  rw [h c hc]
  decide

theorem pointed_not_digit (fraction : List Char) {tail : List Char} (h : Ended tail) :
    ∀ c ∈ (pointed fraction ++ tail).head?, ¬ c.isDigit = true := by
  by_cases hnone : fraction = []
  · rw [pointed, if_pos hnone]
    exact h.not_digit
  · rw [pointed, if_neg hnone]
    intro c hc
    rw [show c = '.' by simpa using hc.symm]
    decide

theorem digit_ne {c mark : Char} (hc : c.isDigit = true) (hmark : ¬ mark.isDigit = true) :
    c ≠ mark := by
  intro heq
  rw [heq] at hc
  exact hmark hc

theorem splitPoint_digits {whole fraction tail : List Char} (hwhole : AllDigits whole)
    (hfraction : AllDigits fraction) (htail : Ended tail) :
    splitPoint Char.isDigit (whole ++ (pointed fraction ++ tail)) = (whole, fraction, tail) := by
  have hfirst := takeWhile_digits hwhole (pointed_not_digit fraction htail)
  unfold splitPoint
  rw [hfirst.1, hfirst.2, pointed]
  by_cases hnone : fraction = []
  · -- no point: the mark of the exponent is not one
    rw [if_pos hnone, List.nil_append, hnone]
    cases tail with
    | nil => rfl
    | cons e tail =>
      rw [show e = 'e' from htail e rfl]
      rfl
  · have hback := takeWhile_digits hfraction htail.not_digit
    rw [if_neg hnone, List.cons_append]
    simp only [hback.1, hback.2]

theorem decimalNumber_digits {whole fraction tail : List Char} (hsome : whole ≠ [])
    (hwhole : AllDigits whole) (hfraction : AllDigits fraction) (htail : Ended tail) :
    decimalNumber (whole ++ (pointed fraction ++ tail)) =
      some (decimalValue whole fraction * (10 : ℚ) ^ exponentOf 'e' tail) := by
  unfold decimalNumber
  rw [splitPoint_digits hwhole hfraction htail]
  dsimp only
  rw [if_neg fun h => hsome h.1]
  rfl

theorem digit_toLower {c : Char} (h : c.isDigit = true) : c.toLower = c := by
  have hbounds := Char.isDigit_iff_toNat.mp h
  have hsmall : ¬ 'A'.toNat ≤ c.toNat := by
    have hletter : 'A'.toNat = 65 := rfl
    have hnine : '9'.toNat = 57 := rfl
    omega
  unfold Char.toLower
  rw [dif_neg fun hletter => hsmall hletter.1]

theorem namedNumber_digit {c : Char} (cs : List Char) (h : c.isDigit = true) :
    namedNumber (c :: cs) = none := by
  unfold namedNumber
  rw [List.take_succ_cons, List.map_cons, digit_toLower h]
  split
  next heq => exact absurd (List.cons.inj heq).1 (digit_ne h (by decide))
  next heq => exact absurd (List.cons.inj heq).1 (digit_ne h (by decide))
  next => rfl

/-- The second character is no `x`, so the digits are decimal ones. -/
theorem numeral_digits {whole fraction tail : List Char} (hsome : whole ≠ [])
    (hwhole : AllDigits whole) (htail : Ended tail) :
    numeral (whole ++ (pointed fraction ++ tail)) = decimalNumber (whole ++ (pointed fraction ++ tail)) := by
  have hmark : ∀ c ∈ (pointed fraction ++ tail).head?, c.toLower ≠ 'x' := by
    intro c hc
    by_cases hnone : fraction = []
    · rw [pointed, if_pos hnone] at hc
      rw [htail c hc]
      decide
    · rw [pointed, if_neg hnone] at hc
      rw [show c = '.' by simpa using hc.symm]
      decide
  unfold numeral
  split
  next x rest heq =>
    refine if_neg ?_
    match whole, hsome with
    | [c], _ =>
      have hrest : pointed fraction ++ tail = x :: rest := (List.cons.inj heq).2
      refine hmark x ?_
      rw [hrest]
      rfl
    | c :: d :: digits, _ =>
      have hd := hwhole d (by simp)
      rw [← (List.cons.inj (List.cons.inj heq).2).1, digit_toLower hd]
      exact digit_ne hd (by decide)
  next => rfl

theorem stod_number {text : String} {whole fraction tail : List Char}
    (htext : text.toList = whole ++ (pointed fraction ++ tail)) (hsome : whole ≠ [])
    (hwhole : AllDigits whole) (hfraction : AllDigits fraction) (htail : Ended tail) :
    stod text = inRange false (decimalValue whole fraction * (10 : ℚ) ^ exponentOf 'e' tail) := by
  have hnumeral := @numeral_digits whole fraction tail hsome hwhole htail
  rw [decimalNumber_digits hsome hwhole hfraction htail] at hnumeral
  cases whole with
  | nil => exact absurd rfl hsome
  | cons c whole =>
    have hc := hwhole c (List.mem_cons_self ..)
    have hspace : ¬ isSpace c = true := by
      rw [digit_not_space hc]
      exact Bool.false_ne_true
    rw [List.cons_append] at htext hnumeral
    unfold stod
    rw [htext, List.dropWhile_cons_of_neg hspace]
    dsimp only
    rw [splitSign_digit _ hc]
    dsimp only
    rw [namedNumber_digit _ hc, hnumeral]

theorem PlainDecimal.stod {text : String} {value : ℚ} (h : PlainDecimal text value) :
    stod text = inRange false value := by
  obtain ⟨whole, fraction, htext, hsome, hwhole, hfraction, rfl⟩ := h
  rw [← List.append_nil (pointed fraction)] at htext
  have hread := stod_number htext hsome hwhole hfraction fun c hc => by cases hc
  rw [hread, exponentOf, zpow_zero, mul_one]

theorem PlainDecimal.stod_exponent {text : String} {value : ℚ} (h : PlainDecimal text value) (e : ℤ) :
    CryptoArbBot.stod (text ++ (if e < 0 then "e-" else "e+") ++ paddedDigits 2 e.natAbs) =
      inRange false (value * (10 : ℚ) ^ e) := by
  obtain ⟨whole, fraction, htext, hsome, hwhole, hfraction, rfl⟩ := h
  have hmark : 'e'.toLower = 'e' := rfl
  have hdigits : (paddedDigits 2 e.natAbs).toList.takeWhile Char.isDigit =
      (paddedDigits 2 e.natAbs).toList := List.takeWhile_eq_self_iff.mpr (allDigits_paddedDigits _ _)
  have hread := readDigits_paddedDigits 2 e.natAbs
  by_cases hneg : e < 0
  · rw [if_pos hneg]
    have htail : (text ++ "e-" ++ paddedDigits 2 e.natAbs).toList =
        whole ++ (pointed fraction ++ 'e' :: '-' :: (paddedDigits 2 e.natAbs).toList) := by
      simp [htext]
    have hexponent : exponentOf 'e' ('e' :: '-' :: (paddedDigits 2 e.natAbs).toList) = e := by
      simp only [exponentOf, hmark, if_true, hdigits, hread]
      omega
    rw [stod_number htail hsome hwhole hfraction fun c hc => by cases hc; rfl, hexponent]
  · rw [if_neg hneg]
    have htail : (text ++ "e+" ++ paddedDigits 2 e.natAbs).toList =
        whole ++ (pointed fraction ++ 'e' :: '+' :: (paddedDigits 2 e.natAbs).toList) := by
      simp [htext]
    have hexponent : exponentOf 'e' ('e' :: '+' :: (paddedDigits 2 e.natAbs).toList) = e := by
      simp only [exponentOf, hmark, if_true, hdigits, hread]
      omega
    rw [stod_number htail hsome hwhole hfraction fun c hc => by cases hc; rfl, hexponent]

/-! ### The range -/

theorem inRange_ok {x : ℚ} (h : ¬ OutOfRange x) : inRange false x = .ok x := by
  rw [inRange, if_neg h]
  rfl

theorem eq_of_inRange {x y : ℚ} (h : inRange false x = .ok y) : x = y := by
  unfold inRange at h
  split at h
  · cases h
  · exact Except.ok.inj h

theorem not_outOfRange {x : ℚ} (hlow : 1 / 10 ^ 6 ≤ x) (hhigh : x ≤ 10 ^ 7) : ¬ OutOfRange x := by
  rintro (hlarge | ⟨-, hsmall, -⟩)
  · exact absurd (hlarge.trans hhigh) (by decide +kernel)
  · have hscaled : 1 / 10 ^ 6 * (2 : ℚ) ^ 1076 ≤ x * 2 ^ 1076 :=
      mul_le_mul_of_nonneg_right hlow (pow_nonneg (by norm_num) _)
    exact absurd (hscaled.trans_lt hsmall) (by decide +kernel)

/-! ### Six decimals -/

/-- A double as near to the number as doubles are. -/
def StandsFor (x number : ℚ) : Prop := |x - number| ≤ number / 2 ^ 53

theorem StandsFor.refl {x : ℚ} (h : 0 ≤ x) : StandsFor x x := by
  rw [StandsFor, sub_self, abs_zero]
  positivity

theorem StandsFor.bounds {x number : ℚ} (h : StandsFor x number) :
    number - number / 2 ^ 53 ≤ x ∧ x ≤ number + number / 2 ^ 53 := by
  have habs := abs_le.mp h
  exact ⟨by linarith, by linarith⟩

theorem StandsFor.pos {x number : ℚ} (h : StandsFor x number) (hpos : 0 < number) : 0 < x := by
  have hlow := h.bounds.1
  linarith

theorem signText_of_nonneg {x : ℚ} (h : 0 ≤ x) : signText x = "" := if_neg h.not_gt

/-- Scaling a number to an integer takes what stands for it to the nearest integer. -/
theorem StandsFor.roundHalfEven_mul {x number scale : ℚ} (h : StandsFor x number) (hscale : 0 < scale)
    {n : ℕ} (hn : number * scale = n) (hsize : n < 2 ^ 52) : roundHalfEven (x * scale) = n := by
  have hnumber : 0 ≤ number := by
    have hnonneg : 0 ≤ number * scale := hn ▸ Nat.cast_nonneg n
    exact nonneg_of_mul_nonneg_left hnonneg hscale
  have hx : 0 ≤ x := by
    have hlow := h.bounds.1
    have hpart : number / 2 ^ 53 ≤ number := div_le_self hnumber (by norm_num)
    linarith
  have hcast : (n : ℚ) < 2 ^ 52 := by exact_mod_cast hsize
  refine roundHalfEven_eq (mul_nonneg hx hscale.le) ?_
  calc |x * scale - n| = |x - number| * scale := by
        rw [← hn, ← sub_mul, abs_mul, abs_of_pos hscale]
    _ ≤ number / 2 ^ 53 * scale := mul_le_mul_of_nonneg_right h hscale.le
    _ = n / 2 ^ 53 := by rw [← hn]; ring
    _ < 1 / 2 := by
        rw [div_lt_iff₀ (by norm_num)]
        linarith

theorem stod_toStringDouble {x number : ℚ} (h : StandsFor x number) {n : ℕ}
    (hn : number * 10 ^ 6 = n) (hsize : n < 2 ^ 52) (hx : 0 ≤ x) :
    stod (toStringDouble x) = inRange false number := by
  have hround := h.roundHalfEven_mul (by norm_num) hn hsize
  have hplain := plainDecimal_fixedDigits 6 |x|
  rw [abs_of_nonneg hx, hround, ← hn, mul_div_cancel_right₀ number (by norm_num)] at hplain
  rw [toStringDouble, signText_of_nonneg hx, String.empty_append, abs_of_nonneg hx]
  exact hplain.stod

/-! ### Six significant digits -/

def SixDigits (x : ℚ) : Prop := ∃ (m : ℕ) (k : ℤ), m < 10 ^ 6 ∧ x = m * (10 : ℚ) ^ k

section Significant
variable {x : ℚ}

/-- The number scaled so that six digits stand before the point. -/
def scaled (x : ℚ) : ℚ := x * (10 : ℚ) ^ (5 - Int.log 10 x)

theorem scaled_bounds (h : 0 < x) : 10 ^ 5 ≤ scaled x ∧ scaled x < 10 ^ 6 := by
  have hlow : (10 : ℚ) ^ Int.log 10 x ≤ x := by exact_mod_cast Int.zpow_log_le_self (b := 10) (by norm_num) h
  have hhigh : x < (10 : ℚ) ^ (Int.log 10 x + 1) := by
    exact_mod_cast Int.lt_zpow_succ_log_self (b := 10) (by norm_num) x
  have hscale : (0 : ℚ) < 10 ^ (5 - Int.log 10 x) := by positivity
  unfold scaled
  constructor
  · calc (10 : ℚ) ^ 5 = 10 ^ Int.log 10 x * 10 ^ (5 - Int.log 10 x) := by
          rw [← zpow_add₀ (by norm_num), add_sub_cancel]
          norm_num
      _ ≤ _ := mul_le_mul_of_nonneg_right hlow hscale.le
  · calc x * (10 : ℚ) ^ (5 - Int.log 10 x) < 10 ^ (Int.log 10 x + 1) * 10 ^ (5 - Int.log 10 x) :=
          mul_lt_mul_of_pos_right hhigh hscale
      _ = 10 ^ 6 := by
          rw [← zpow_add₀ (by norm_num), show Int.log 10 x + 1 + (5 - Int.log 10 x) = 6 by ring]
          norm_num

/-- The six digits, after a carry into the next power of ten. -/
def significand (x : ℚ) : ℕ :=
  if roundHalfEven (scaled x) = 10 ^ 6 then 10 ^ 5 else roundHalfEven (scaled x)

def decimalExponent (x : ℚ) : ℤ :=
  if roundHalfEven (scaled x) = 10 ^ 6 then Int.log 10 x + 1 else Int.log 10 x

theorem roundHalfEven_scaled_le (h : 0 < x) : roundHalfEven (scaled x) ≤ 10 ^ 6 := by
  obtain ⟨hlow, hhigh⟩ := scaled_bounds h
  have hround := abs_le.mp (abs_roundHalfEven_sub_le ((by norm_num : (0 : ℚ) ≤ 10 ^ 5).trans hlow))
  have hlt : (roundHalfEven (scaled x) : ℚ) < ((10 ^ 6 + 1 : ℕ) : ℚ) := by
    push_cast
    linarith
  have hlt' : roundHalfEven (scaled x) < 10 ^ 6 + 1 := by exact_mod_cast hlt
  omega

theorem significand_lt (h : 0 < x) : significand x < 10 ^ 6 := by
  have hle := roundHalfEven_scaled_le h
  unfold significand
  split
  · norm_num
  · omega

theorem roundHalfEven_significand (h : 0 < x) :
    roundHalfEven (x * (10 : ℚ) ^ (5 - decimalExponent x)) = significand x := by
  unfold significand decimalExponent
  split
  next hcarry =>
    obtain ⟨hlow, hhigh⟩ := scaled_bounds h
    have hround := abs_le.mp (abs_roundHalfEven_sub_le ((by norm_num : (0 : ℚ) ≤ 10 ^ 5).trans hlow))
    rw [hcarry] at hround
    push_cast at hround
    have htenth : x * (10 : ℚ) ^ (5 - (Int.log 10 x + 1)) = scaled x / 10 := by
      rw [scaled, sub_add_eq_sub_sub, zpow_sub_one₀ (by norm_num)]
      ring
    rw [htenth]
    refine roundHalfEven_eq (by linarith) ?_
    push_cast
    rw [abs_lt]
    exact ⟨by linarith, by linarith⟩
  next => rfl

theorem ostreamDouble_eq (h : 0 < x) :
    ostreamDouble x =
      if -4 ≤ decimalExponent x ∧ decimalExponent x < 6 then
        stripZeros (fixedDigits (5 - decimalExponent x).toNat x)
      else stripZeros (fixedDigits 5 (significand x / 10 ^ 5)) ++
        (if decimalExponent x < 0 then "e-" else "e+") ++ paddedDigits 2 (decimalExponent x).natAbs := by
  unfold ostreamDouble
  rw [if_neg h.ne', signText_of_nonneg h.le, abs_of_pos h]
  simp only [String.empty_append]
  rfl

theorem stod_ostreamDouble (h : 0 < x) :
    stod (ostreamDouble x) = inRange false (significand x * (10 : ℚ) ^ (decimalExponent x - 5)) := by
  rw [ostreamDouble_eq h]
  split
  next hplain =>
    have hpow : (10 : ℚ) ^ (5 - decimalExponent x).toNat = 10 ^ (5 - decimalExponent x) := by
      rw [← zpow_natCast, Int.toNat_of_nonneg (by omega)]
    have hread := (plainDecimal_stripZeros (plainDecimal_fixedDigits (5 - decimalExponent x).toNat x)).stod
    rw [hread, hpow, roundHalfEven_significand h, div_eq_mul_inv, ← zpow_neg, neg_sub]
  next =>
    have hcancel : (significand x : ℚ) / 10 ^ 5 * 10 ^ 5 = significand x :=
      div_mul_cancel₀ _ (by norm_num)
    have hread := (plainDecimal_stripZeros
      (plainDecimal_fixedDigits 5 ((significand x : ℚ) / 10 ^ 5))).stod_exponent (decimalExponent x)
    rw [hread, hcancel, roundHalfEven_natCast, zpow_sub₀ (by norm_num)]
    refine congrArg (inRange false) ?_
    norm_num
    ring

theorem log_eq {e : ℤ} (hlow : (10 : ℚ) ^ e ≤ x) (hhigh : x < (10 : ℚ) ^ (e + 1)) : Int.log 10 x = e := by
  have hpos : 0 < x := (zpow_pos (by norm_num) e).trans_le hlow
  have hge : e ≤ Int.log 10 x := (Int.zpow_le_iff_le_log (by norm_num) hpos).mp (by exact_mod_cast hlow)
  have hlt : Int.log 10 x < e + 1 := (Int.lt_zpow_iff_log_lt (by norm_num) hpos).mp (by exact_mod_cast hhigh)
  omega

theorem scaled_mul (x : ℚ) : scaled x * (10 : ℚ) ^ (Int.log 10 x - 5) = x := by
  rw [scaled, mul_assoc, ← zpow_add₀ (by norm_num), sub_add_sub_cancel', sub_self, zpow_zero, mul_one]

theorem SixDigits.scaled_eq (h : SixDigits x) (hpos : 0 < x) : ∃ n : ℕ, scaled x = n := by
  obtain ⟨m, k, hm, hx⟩ := h
  have hm' : (m : ℚ) < 10 ^ 6 := by exact_mod_cast hm
  have hlow : (10 : ℚ) ^ Int.log 10 x ≤ x := by exact_mod_cast Int.zpow_log_le_self (b := 10) (by norm_num) hpos
  have hhigh : x < (10 : ℚ) ^ (6 + k) := by
    rw [zpow_add₀ (by norm_num), hx]
    exact mul_lt_mul_of_pos_right hm' (by positivity)
  have hexponent : Int.log 10 x < 6 + k :=
    (zpow_lt_zpow_iff_right₀ (by norm_num)).mp (hlow.trans_lt hhigh)
  refine ⟨m * 10 ^ (k + (5 - Int.log 10 x)).toNat, ?_⟩
  push_cast
  rw [← zpow_natCast (10 : ℚ), Int.toNat_of_nonneg (by omega), zpow_add₀ (by norm_num), ← mul_assoc, ← hx,
    scaled]

theorem zpow_shift (e k : ℤ) : (10 : ℚ) ^ (e + k) * 10 ^ (5 - e) = 10 ^ (5 + k) := by
  rw [← zpow_add₀ (by norm_num), show e + k + (5 - e) = 5 + k by ring]

section Scaled
variable {number : ℚ} {e : ℤ} {n : ℕ} (h : StandsFor x number) (hn : number * (10 : ℚ) ^ (5 - e) = n)
include h hn

theorem StandsFor.scaled_within :
    (n : ℚ) - n / 2 ^ 53 ≤ x * 10 ^ (5 - e) ∧ x * 10 ^ (5 - e) ≤ n + n / 2 ^ 53 := by
  have hscale : (0 : ℚ) ≤ 10 ^ (5 - e) := by positivity
  rw [← hn]
  constructor
  · calc _ = (number - number / 2 ^ 53) * (10 : ℚ) ^ (5 - e) := by ring
      _ ≤ _ := mul_le_mul_of_nonneg_right h.bounds.1 hscale
  · calc x * 10 ^ (5 - e) ≤ (number + number / 2 ^ 53) * (10 : ℚ) ^ (5 - e) :=
          mul_le_mul_of_nonneg_right h.bounds.2 hscale
      _ = _ := by ring

theorem StandsFor.log_of_reached (hsize : n < 10 ^ 6) (hreach : (10 : ℚ) ^ e ≤ x) : Int.log 10 x = e := by
  have hscale : (0 : ℚ) < 10 ^ (5 - e) := by positivity
  have hhigh := (h.scaled_within hn).2
  refine log_eq hreach (lt_of_mul_lt_mul_right ?_ hscale.le)
  have hn6 : (n : ℚ) ≤ 10 ^ 6 - 1 := by
    have hle : n + 1 ≤ 10 ^ 6 := hsize
    have hcast : ((n + 1 : ℕ) : ℚ) ≤ ((10 ^ 6 : ℕ) : ℚ) := by exact_mod_cast hle
    push_cast at hcast
    linarith
  rw [zpow_shift e 1]
  norm_num at hhigh ⊢
  linarith

/-- Only what stands for a power of ten can be below it. -/
theorem StandsFor.carry_of_short (hlow : 10 ^ 5 ≤ n) (hshort : x < (10 : ℚ) ^ e) :
    n = 10 ^ 5 ∧ Int.log 10 x = e - 1 := by
  have hscale : (0 : ℚ) < 10 ^ (5 - e) := by positivity
  have hwithin := (h.scaled_within hn).1
  have hbelow : x * 10 ^ (5 - e) < 10 ^ 5 := by
    have hlt := mul_lt_mul_of_pos_right hshort hscale
    have hpow := zpow_shift e 0
    rw [add_zero] at hpow
    rw [hpow] at hlt
    exact_mod_cast hlt
  have hn5 : n = 10 ^ 5 := by
    have hupper : (n : ℚ) < ((10 ^ 5 + 1 : ℕ) : ℚ) := by
      push_cast
      linarith
    have hupper' : n < 10 ^ 5 + 1 := by exact_mod_cast hupper
    omega
  refine ⟨hn5, log_eq ?_ ?_⟩
  · refine le_of_mul_le_mul_right ?_ hscale
    rw [sub_eq_add_neg, zpow_shift e (-1)]
    rw [hn5] at hwithin
    norm_num at hwithin ⊢
    linarith
  · rw [sub_add_cancel]
    exact hshort

end Scaled

/-- What stands for a number of six digits is printed as that number. -/
theorem SixDigits.printed {number : ℚ} (hsix : SixDigits number) (hpos : 0 < number)
    (h : StandsFor x number) :
    significand x * (10 : ℚ) ^ (decimalExponent x - 5) = number := by
  obtain ⟨n, hn⟩ := hsix.scaled_eq hpos
  obtain ⟨hlow, hhigh⟩ := scaled_bounds hpos
  have hback := scaled_mul number
  rw [hn] at hlow hhigh hback
  unfold scaled at hn
  generalize Int.log 10 number = e at hn hback
  have hsize : n < 10 ^ 6 := by exact_mod_cast hhigh
  rcases le_or_gt ((10 : ℚ) ^ e) x with hreach | hshort
  · have hlog := h.log_of_reached hn hsize hreach
    have hround : roundHalfEven (scaled x) = n := by
      rw [scaled, hlog]
      exact h.roundHalfEven_mul (by positivity) hn (by omega)
    rw [significand, decimalExponent, hround, if_neg (by omega), if_neg (by omega), hlog]
    exact hback
  · -- just below a power of ten: the digits carry
    obtain ⟨hn5, hlog⟩ := h.carry_of_short hn (by exact_mod_cast hlow) hshort
    have hround : roundHalfEven (scaled x) = 10 ^ 6 := by
      rw [scaled, hlog]
      refine h.roundHalfEven_mul (by positivity) ?_ (by norm_num)
      rw [show (5 : ℤ) - (e - 1) = 5 - e + 1 by ring, zpow_add_one₀ (by norm_num), ← mul_assoc, hn, hn5]
      norm_num
    rw [significand, decimalExponent, hround, if_pos rfl, if_pos rfl, hlog, sub_add_cancel, ← hn5]
    exact hback

theorem ostreamDouble_exact_iff {number : ℚ} (hpos : 0 < number) (hrange : ¬ OutOfRange number)
    (h : StandsFor x number) : stod (ostreamDouble x) = .ok number ↔ SixDigits number := by
  have hread := stod_ostreamDouble (h.pos hpos)
  constructor
  · intro hexact
    rw [hread] at hexact
    exact ⟨significand x, decimalExponent x - 5, significand_lt (h.pos hpos),
      (eq_of_inRange hexact).symm⟩
  · intro hsix
    rw [hread, hsix.printed hpos h]
    exact inRange_ok hrange

end Significant

end CryptoArbBot
