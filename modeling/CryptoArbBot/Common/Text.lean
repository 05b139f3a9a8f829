import Mathlib.Data.Int.Log
import Mathlib.Data.List.TakeWhile
import Mathlib.Data.Rat.Floor

/-!
# Numbers as text

The texts that `std::to_string(double)` and `ostream << double` give, and the
numbers that `std::stod` reads. Infinities and NaN have no rational counterpart.
Where `stod` returns one, a value stands in for it: for an infinity the power of two
past every double, for NaN zero.
-/

namespace CryptoArbBot

def roundHalfEven (x : ℚ) : ℕ :=
  let n := ⌊x⌋.toNat
  let rest := x - n
  if rest < 1 / 2 then n
  else if rest > 1 / 2 then n + 1
  else if n % 2 = 0 then n
  else n + 1

def paddedDigits (width n : ℕ) : String :=
  let digits := (Nat.repr n).toList
  String.ofList (List.replicate (width - digits.length) '0' ++ digits)

/-- `%.{decimals}f` of a non-negative number. -/
def fixedDigits (decimals : ℕ) (x : ℚ) : String :=
  let n := roundHalfEven (x * 10 ^ decimals)
  let whole := Nat.repr (n / 10 ^ decimals)
  if decimals = 0 then whole
  else whole ++ "." ++ paddedDigits decimals (n % 10 ^ decimals)

def signText (x : ℚ) : String := if x < 0 then "-" else ""

/-- `std::to_string(double)`: six decimals. -/
def toStringDouble (x : ℚ) : String := signText x ++ fixedDigits 6 |x|

def stripZeros (text : String) : String :=
  let cs := text.toList
  if '.' ∈ cs then
    String.ofList (((cs.reverse.dropWhile (· = '0')).dropWhile (· = '.')).reverse)
  else text

/-- `ostream << double` with the default precision: six significant digits,
`%g`. -/
def ostreamDouble (x : ℚ) : String :=
  if x = 0 then "0"
  else
    let e0 := Int.log 10 |x|
    let m0 := roundHalfEven (|x| * (10 : ℚ) ^ (5 - e0))
    -- rounding may reach the next power of ten
    let m := if m0 = 10 ^ 6 then 10 ^ 5 else m0
    let e := if m0 = 10 ^ 6 then e0 + 1 else e0
    if -4 ≤ e ∧ e < 6 then
      signText x ++ stripZeros (fixedDigits (5 - e).toNat |x|)
    else
      signText x ++ stripZeros (fixedDigits 5 (m / 10 ^ 5)) ++
        (if e < 0 then "e-" else "e+") ++ paddedDigits 2 e.natAbs

/-- `std::isspace` in the C locale. -/
def isSpace (c : Char) : Bool := c = ' ' || (9 ≤ c.toNat && c.toNat ≤ 13)

def digitValue (c : Char) : ℕ := c.toNat - '0'.toNat

def readDigits (cs : List Char) : ℕ := cs.foldl (fun n c => 10 * n + digitValue c) 0

def splitSign (cs : List Char) : Bool × List Char :=
  match cs with
  | '-' :: rest => (true, rest)
  | '+' :: rest => (false, rest)
  | _ => (false, cs)

def isHexDigit (c : Char) : Bool := c.isDigit || ('a' ≤ c.toLower && c.toLower ≤ 'f')

def hexDigitValue (c : Char) : ℕ :=
  if c.isDigit then digitValue c else c.toLower.toNat - 'a'.toNat + 10

def readHexDigits (cs : List Char) : ℕ := cs.foldl (fun n c => 16 * n + hexDigitValue c) 0

/-- The digits before a point, the digits behind it and what follows. -/
def splitPoint (isDigit : Char → Bool) (cs : List Char) : List Char × List Char × List Char :=
  match cs.dropWhile isDigit with
  | '.' :: rest => (cs.takeWhile isDigit, rest.takeWhile isDigit, rest.dropWhile isDigit)
  | rest => (cs.takeWhile isDigit, [], rest)

def exponentOf (mark : Char) (cs : List Char) : ℤ :=
  match cs with
  | e :: rest =>
    if e.toLower = mark then
      match rest with
      | '-' :: rest => -(readDigits (rest.takeWhile Char.isDigit) : ℤ)
      | '+' :: rest => readDigits (rest.takeWhile Char.isDigit)
      | _ => readDigits (rest.takeWhile Char.isDigit)
    else 0
  | [] => 0

def decimalNumber (cs : List Char) : Option ℚ :=
  let (whole, fraction, rest) := splitPoint Char.isDigit cs
  if whole = [] ∧ fraction = [] then none
  else some (readDigits (whole ++ fraction) / 10 ^ fraction.length * (10 : ℚ) ^ exponentOf 'e' rest)

def hexNumber (cs : List Char) : Option ℚ :=
  let (whole, fraction, rest) := splitPoint isHexDigit cs
  if whole = [] ∧ fraction = [] then none
  else some (readHexDigits (whole ++ fraction) / 16 ^ fraction.length * (2 : ℚ) ^ exponentOf 'p' rest)

def numeral (cs : List Char) : Option ℚ :=
  match cs with
  -- without a hexadecimal digit behind it, `0x` is read as its `0`
  | '0' :: x :: rest => if x.toLower = 'x' then some ((hexNumber rest).getD 0) else decimalNumber cs
  | _ => decimalNumber cs

def namedNumber (cs : List Char) : Option ℚ :=
  match (cs.take 3).map Char.toLower with
  | ['i', 'n', 'f'] => some (2 ^ 1024)
  | ['n', 'a', 'n'] => some 0
  | _ => none

/-- `strtod` sets `ERANGE`: the number is rounded past the largest double, or it is
below the normal ones and not one of the others. -/
def OutOfRange (x : ℚ) : Prop :=
  2 ^ 1024 - 2 ^ 970 ≤ x ∨ 0 < x ∧ x * 2 ^ 1076 < 2 ^ 54 - 1 ∧ (x * 2 ^ 1074).den ≠ 1

instance : DecidablePred OutOfRange := fun _ => inferInstanceAs (Decidable (_ ∨ _))

/-- A number behind its sign, unless no double is near it. -/
def inRange (negative : Bool) (x : ℚ) : Except String ℚ :=
  if OutOfRange x then .error "stod" else .ok (if negative then -x else x)

/-- `std::stod`: blanks, a sign and a number, decimal or hexadecimal, with a point and
an exponent; what follows the longest such prefix is ignored. -/
def stod (text : String) : Except String ℚ :=
  let cs := text.toList.dropWhile isSpace
  let (negative, cs) := splitSign cs
  match namedNumber cs, numeral cs with
  | some x, _ => .ok (if negative then -x else x)
  | none, some x => inRange negative x
  | none, none => .error "stod"

/-- `std::stoull`: blanks, a sign and digits; a number behind a minus sign is
negated modulo 2^64. -/
def stoull (text : String) : Except String UInt64 :=
  let cs := text.toList.dropWhile isSpace
  let (negative, cs) := splitSign cs
  let digits := cs.takeWhile Char.isDigit
  if digits = [] then .error "stoull"
  else
    let n := readDigits digits
    if n ≥ 2 ^ 64 then .error "stoull"
    else .ok (if negative then 0 - UInt64.ofNat n else UInt64.ofNat n)

/-! ### What the texts are made of -/

theorem isDigit_repr {n : ℕ} {c : Char} (hc : c ∈ (Nat.repr n).toList) : c.isDigit = true := by
  rw [Nat.toList_repr] at hc
  exact Nat.isDigit_of_mem_toDigits (by decide) (by decide) hc

theorem readDigits_repr (n : ℕ) : readDigits (Nat.repr n).toList = n := by
  rw [Nat.toList_repr]
  exact Nat.ofDigitChars_ten_toDigits

theorem digit_not_space {c : Char} (h : c.isDigit = true) : isSpace c = false := by
  have hbounds := Char.isDigit_iff_toNat.mp h
  have hzero : '0'.toNat = 48 := rfl
  have hblank : c ≠ ' ' := by
    rintro rfl
    exact absurd h (by decide)
  simp only [isSpace, hblank, decide_false, Bool.false_or, Bool.and_eq_false_iff, decide_eq_false_iff_not]
  omega

theorem splitSign_digit {c : Char} (cs : List Char) (h : c.isDigit = true) :
    splitSign (c :: cs) = (false, c :: cs) := by
  unfold splitSign
  split
  next heq =>
    rw [(List.cons.inj heq).1] at h
    exact absurd h (by decide)
  next heq =>
    rw [(List.cons.inj heq).1] at h
    exact absurd h (by decide)
  next => rfl

theorem stoull_repr (n : UInt64) : stoull (Nat.repr n.toNat) = .ok n := by
  have hdigits : ∀ c ∈ (Nat.repr n.toNat).toList, c.isDigit = true := fun c hc => isDigit_repr hc
  have hread := readDigits_repr n.toNat
  cases hcs : (Nat.repr n.toNat).toList with
  | nil => exact absurd (String.toList_eq_nil_iff.mp hcs) Nat.repr_ne_empty
  | cons c cs =>
    rw [hcs] at hdigits hread
    have hc := hdigits c (List.mem_cons_self ..)
    have htake : (c :: cs).takeWhile Char.isDigit = c :: cs := List.takeWhile_eq_self_iff.mpr hdigits
    have hspace : ¬ isSpace c = true := by
      rw [digit_not_space hc]
      exact Bool.false_ne_true
    unfold stoull
    rw [hcs, List.dropWhile_cons_of_neg hspace]
    have hsize := n.toNat_lt
    dsimp only
    rw [splitSign_digit cs hc]
    dsimp only
    rw [htake, hread, if_neg (List.cons_ne_nil _ _), if_neg (by omega)]
    simp

/-- The characters of a printed number. -/
def NumberChar (c : Char) : Prop := c.isDigit = true ∨ c ∈ ['-', '+', '.', 'e']

theorem numberChar_repr {n : ℕ} {c : Char} (hc : c ∈ (Nat.repr n).toList) : NumberChar c :=
  .inl (isDigit_repr hc)

theorem numberChar_paddedDigits {width n : ℕ} {c : Char} (hc : c ∈ (paddedDigits width n).toList) :
    NumberChar c := by
  rw [paddedDigits, String.toList_ofList, List.mem_append, List.mem_replicate] at hc
  rcases hc with ⟨_, rfl⟩ | hdigit
  · exact .inl (by decide)
  · exact numberChar_repr hdigit

theorem numberChar_fixedDigits {decimals : ℕ} {x : ℚ} {c : Char}
    (hc : c ∈ (fixedDigits decimals x).toList) : NumberChar c := by
  unfold fixedDigits at hc
  dsimp only at hc
  split at hc
  · exact numberChar_repr hc
  · rw [String.toList_append, String.toList_append, List.mem_append, List.mem_append] at hc
    rcases hc with (hwhole | hpoint) | hrest
    · exact numberChar_repr hwhole
    · rw [show c = '.' by simpa using hpoint]
      exact .inr (by decide)
    · exact numberChar_paddedDigits hrest

theorem mem_stripZeros {text : String} {c : Char} (hc : c ∈ (stripZeros text).toList) :
    c ∈ text.toList := by
  unfold stripZeros at hc
  dsimp only at hc
  split at hc
  · rw [String.toList_ofList, List.mem_reverse] at hc
    exact List.mem_reverse.mp ((List.dropWhile_sublist _).mem ((List.dropWhile_sublist _).mem hc))
  · exact hc

theorem numberChar_signText {x : ℚ} {c : Char} (hc : c ∈ (signText x).toList) : NumberChar c := by
  unfold signText at hc
  split at hc
  · rw [show c = '-' by simpa using hc]
    exact .inr (by decide)
  · simp at hc

theorem numberChar_general {x m : ℚ} {e : ℤ} {c : Char}
    (hc : c ∈ (if -4 ≤ e ∧ e < 6 then signText x ++ stripZeros (fixedDigits (5 - e).toNat |x|)
      else signText x ++ stripZeros (fixedDigits 5 m) ++ (if e < 0 then "e-" else "e+") ++
        paddedDigits 2 e.natAbs).toList) : NumberChar c := by
  split at hc
  · rw [String.toList_append, List.mem_append] at hc
    rcases hc with hsign | hdigits
    · exact numberChar_signText hsign
    · exact numberChar_fixedDigits (mem_stripZeros hdigits)
  · rw [String.toList_append, String.toList_append, String.toList_append, List.mem_append,
      List.mem_append, List.mem_append] at hc
    rcases hc with ((hsign | hdigits) | hmark) | hexponent
    · exact numberChar_signText hsign
    · exact numberChar_fixedDigits (mem_stripZeros hdigits)
    · split at hmark
      · rcases (show c = 'e' ∨ c = '-' by simpa using hmark) with rfl | rfl
        · exact .inr (by decide)
        · exact .inr (by decide)
      · rcases (show c = 'e' ∨ c = '+' by simpa using hmark) with rfl | rfl
        · exact .inr (by decide)
        · exact .inr (by decide)
    · exact numberChar_paddedDigits hexponent

theorem numberChar_ostreamDouble {x : ℚ} {c : Char} (hc : c ∈ (ostreamDouble x).toList) :
    NumberChar c := by
  unfold ostreamDouble at hc
  split at hc
  · rw [show c = '0' by simpa using hc]
    exact .inl (by decide)
  · exact numberChar_general hc

end CryptoArbBot
