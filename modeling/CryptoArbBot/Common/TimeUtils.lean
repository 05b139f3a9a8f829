import CryptoArbBot.Common.DecimalText
import CryptoArbBot.Library.Calendar
import Mathlib.Order.Lattice

/-!
# Times as text (common/time_utils.cpp)

Time points of `system_clock` are integers of nanoseconds from 1970, which the
64 bits of the clock keep below 2^63. `to_iso8601` writes milliseconds;
`from_iso8601` reads them back, and the texts are in the order of the times.
-/

namespace CryptoArbBot

/-- `std::stoi`. -/
def stoi (text : String) : Except String ℤ :=
  let cs := text.toList.dropWhile isSpace
  let (negative, cs) := match cs with
    | '-' :: rest => (true, rest)
    | '+' :: rest => (false, rest)
    | _ => (false, cs)
  let digits := cs.takeWhile Char.isDigit
  if digits = [] then .error "stoi"
  else
    let n : ℤ := if negative then -(readDigits digits : ℤ) else readDigits digits
    if n < -2 ^ 31 ∨ 2 ^ 31 ≤ n then .error "stoi" else .ok n

/-! ### Texts of fixed width -/

theorem append_lt_append_iff {α : Type*} [LT α] {front front' : List α}
    (hlength : front.length = front'.length) (back back' : List α) :
    front ++ back < front' ++ back' ↔ front < front' ∨ front = front' ∧ back < back' := by
  induction front generalizing front' with
  | nil =>
    cases front' with
    | nil => simp
    | cons c front' => cases hlength
  | cons c front ih =>
    cases front' with
    | nil => cases hlength
    | cons c' front' =>
      simp only [List.cons_append, List.cons_lt_cons_iff, ih (Nat.succ.inj hlength), List.cons.injEq]
      tauto

theorem AllDigits.tail {c : Char} {cs : List Char} (h : AllDigits (c :: cs)) : AllDigits cs :=
  fun d hd => h d (List.mem_cons_of_mem _ hd)

theorem readDigits_cons (c : Char) (cs : List Char) :
    readDigits (c :: cs) = 10 ^ cs.length * digitValue c + readDigits cs := by
  have hone : readDigits [c] = digitValue c := by simp [readDigits]
  rw [← List.singleton_append, readDigits_append, hone]

theorem digitValue_lt {c : Char} (h : c.isDigit = true) : digitValue c < 10 := by
  have hbounds := Char.isDigit_iff_toNat.mp h
  have hzero : '0'.toNat = 48 := rfl
  have hnine : '9'.toNat = 57 := rfl
  unfold digitValue
  omega

theorem digitValue_lt_iff {c c' : Char} (h : c.isDigit = true) (h' : c'.isDigit = true) :
    digitValue c < digitValue c' ↔ c < c' := by
  have hbounds := Char.isDigit_iff_toNat.mp h
  have hbounds' := Char.isDigit_iff_toNat.mp h'
  have hzero : '0'.toNat = 48 := rfl
  have hlt : c < c' ↔ c.toNat < c'.toNat := Iff.rfl
  rw [hlt]
  unfold digitValue
  omega

theorem digitValue_injective {c c' : Char} (h : c.isDigit = true) (h' : c'.isDigit = true) :
    digitValue c = digitValue c' ↔ c = c' := by
  have hbounds := Char.isDigit_iff_toNat.mp h
  have hbounds' := Char.isDigit_iff_toNat.mp h'
  have hzero : '0'.toNat = 48 := rfl
  rw [← Char.toNat_inj]
  unfold digitValue
  omega

theorem readDigits_lt {cs : List Char} (h : AllDigits cs) : readDigits cs < 10 ^ cs.length := by
  induction cs with
  | nil => decide
  | cons c cs ih =>
    have hrest := ih h.tail
    have hdigit := digitValue_lt (h c (List.mem_cons_self ..))
    calc readDigits (c :: cs) = 10 ^ cs.length * digitValue c + readDigits cs := readDigits_cons c cs
      _ < 10 ^ cs.length * digitValue c + 10 ^ cs.length := Nat.add_lt_add_left hrest _
      _ = 10 ^ cs.length * (digitValue c + 1) := by ring
      _ ≤ 10 ^ cs.length * 10 := Nat.mul_le_mul_left _ hdigit
      _ = 10 ^ (c :: cs).length := by rw [List.length_cons, pow_succ]

/-- A number in front of a number below the scale decides first. -/
theorem scaled_lt_iff {scale a a' b b' : ℕ} (hb : b < scale) (hb' : b' < scale) :
    scale * a + b < scale * a' + b' ↔ a < a' ∨ a = a' ∧ b < b' := by
  rcases lt_trichotomy a a' with hlt | rfl | hgt
  · have hstep : scale * (a + 1) ≤ scale * a' := Nat.mul_le_mul_left scale hlt
    rw [Nat.mul_succ] at hstep
    omega
  · omega
  · have hstep : scale * (a' + 1) ≤ scale * a := Nat.mul_le_mul_left scale hgt
    rw [Nat.mul_succ] at hstep
    omega

theorem digits_lt_iff {cs cs' : List Char} (h : AllDigits cs) (h' : AllDigits cs')
    (hlength : cs.length = cs'.length) : cs < cs' ↔ readDigits cs < readDigits cs' := by
  induction cs generalizing cs' with
  | nil =>
    cases cs' with
    | nil => simp
    | cons c' cs' => cases hlength
  | cons c cs ih =>
    cases cs' with
    | nil => cases hlength
    | cons c' cs' =>
      have hc := h c (List.mem_cons_self ..)
      have hc' := h' c' (List.mem_cons_self ..)
      have hshort : cs.length = cs'.length := Nat.succ.inj hlength
      have hrest := readDigits_lt h.tail
      have hrest' := readDigits_lt h'.tail
      rw [← hshort] at hrest'
      rw [readDigits_cons, readDigits_cons, ← hshort, scaled_lt_iff hrest hrest', List.cons_lt_cons_iff,
        ih h.tail h'.tail hshort, digitValue_lt_iff hc hc', digitValue_injective hc hc']

/-- Numbers in columns, each of its own width and closed by its own mark. -/
def fixedText : List (ℕ × Char) → List ℕ → List Char
  | (width, mark) :: columns, v :: vs => (paddedDigits width v).toList ++ mark :: fixedText columns vs
  | _, _ => []

def ColumnsFit : List (ℕ × Char) → List ℕ → Prop :=
  List.Forall₂ fun column v => 0 < column.1 ∧ v < 10 ^ column.1

/-- The texts are in the order of the numbers, the leading columns first. -/
theorem fixedText_lt_iff {columns : List (ℕ × Char)} {vs vs' : List ℕ} (h : ColumnsFit columns vs)
    (h' : ColumnsFit columns vs') : fixedText columns vs < fixedText columns vs' ↔ vs < vs' := by
  induction h generalizing vs' with
  | nil =>
    cases h'
    simp
  | cons hv hvs ih =>
    cases h' with
    | cons hv' hvs' =>
      rename_i column v columns vs v' vs'
      obtain ⟨width, mark⟩ := column
      have hdigits := allDigits_paddedDigits width v
      have hdigits' := allDigits_paddedDigits width v'
      have hlength := length_paddedDigits hv.1 hv.2
      have hlength' := length_paddedDigits hv'.1 hv'.2
      have hsame : (paddedDigits width v).toList = (paddedDigits width v').toList ↔ v = v' := by
        refine ⟨fun heq => ?_, fun heq => by rw [heq]⟩
        rw [← readDigits_paddedDigits width v, heq, readDigits_paddedDigits]
      rw [fixedText, fixedText, append_lt_append_iff (hlength.trans hlength'.symm),
        digits_lt_iff hdigits hdigits' (hlength.trans hlength'.symm), readDigits_paddedDigits,
        readDigits_paddedDigits, hsame, List.cons_lt_cons_iff, List.cons_lt_cons_iff, ih hvs']
      simp

namespace TimeUtils
open Calendar

/-! ### Broken-down times -/

/-- The fields of `std::tm` that the format names; `year` is the calendar year. -/
structure Tm where
  year : ℕ := 1900
  mon : ℕ := 0
  mday : ℕ := 0
  hour : ℕ := 0
  min : ℕ := 0
  sec : ℕ := 0
  deriving DecidableEq, Repr

/-- The first of January 1970, counted from the first day of year 0. -/
def epochDay : ℕ := 719528

/-- `gmtime`, for every time that the clock holds. -/
def gmtime (t : ℤ) : Tm :=
  let date := dateOf (t / 86400 + epochDay).toNat
  let seconds := (t % 86400).toNat
  { year := date.year
    mon := date.month
    mday := date.day + 1
    hour := seconds / 3600
    min := seconds / 60 % 60
    sec := seconds % 60 }

def timegm (tm : Tm) : ℤ :=
  ((total yearLength tm.year + (total (monthLength tm.year) tm.mon + tm.mday) : ℕ) - 1 - epochDay : ℤ) *
    86400 + (tm.hour * 3600 + tm.min * 60 + tm.sec : ℕ)

/-! ### `put_time` and `get_time` with `%Y-%m-%dT%H:%M:%S` -/

def putTime (tm : Tm) : String :=
  paddedDigits 4 tm.year ++ "-" ++ paddedDigits 2 (tm.mon + 1) ++ "-" ++ paddedDigits 2 tm.mday ++ "T" ++
    paddedDigits 2 tm.hour ++ ":" ++ paddedDigits 2 tm.min ++ ":" ++ paddedDigits 2 tm.sec

/-- A number of `len` digits between two bounds, or a character. -/
inductive Directive where
  | field (least most len : ℕ) (store : Tm → ℕ → Tm)
  | literal (c : Char)

def isoFormat : List Directive :=
  [.field 0 9999 4 fun tm n => { tm with year := n },
    .literal '-', .field 1 12 2 fun tm n => { tm with mon := n - 1 },
    .literal '-', .field 1 31 2 fun tm n => { tm with mday := n },
    .literal 'T', .field 0 23 2 fun tm n => { tm with hour := n },
    .literal ':', .field 0 59 2 fun tm n => { tm with min := n },
    .literal ':', .field 0 60 2 fun tm n => { tm with sec := n }]

/-- What does not match ends the reading and keeps the fields read so far. A number takes all its
digits, as in libstdc++'s `time_get`; its years of two digits are left out. -/
def getTime : List Directive → List Char → Tm → Tm
  | [], _, tm => tm
  | .field least most len store :: format, cs, tm =>
    let digits := (cs.take len).takeWhile Char.isDigit
    let n := readDigits digits
    if digits.length < len ∨ n < least ∨ n > most then tm
    else getTime format (cs.drop digits.length) (store tm n)
  | .literal c :: format, cs, tm =>
    match cs with
    | c' :: cs => if c' = c then getTime format cs tm else tm
    | [] => tm

/-! ### The functions -/

/-- `setfill('0') << setw(3) << ms`. -/
def setw3 (ms : ℤ) : String :=
  let text := (toString ms).toList
  String.ofList (List.replicate (3 - text.length) '0' ++ text)

def toIso8601 (tp : ℤ) : String :=
  let timeT := tp.tdiv (10 ^ 9)
  let ms := (tp.tdiv (10 ^ 6)).tmod 1000
  putTime (gmtime timeT) ++ "." ++ setw3 ms ++ "Z"

def fromIso8601 (iso : String) : Except String ℤ :=
  let tp := timegm (getTime isoFormat (iso.toList.dropWhile isSpace) {}) * 10 ^ 9
  match iso.toList.dropWhile (· ≠ '.') with
  | _ :: rest => (stoi (String.ofList (rest.take 3))).map fun ms => tp + ms * 10 ^ 6
  | [] => .ok tp

def toMs (tp : ℤ) : UInt64 := UInt64.ofNat (tp.tdiv (10 ^ 6) % 2 ^ 64).toNat

/-- For milliseconds that the clock can hold in nanoseconds. -/
def fromMs (ms : UInt64) : ℤ := ms.toNat * 10 ^ 6

/-! ### Dates and times of day -/

theorem timegm_gmtime {t : ℤ} (h : -(86400 * epochDay) ≤ t) : timegm (gmtime t) = t := by
  have hdays : 0 ≤ t / 86400 + epochDay := by
    unfold epochDay at h ⊢
    omega
  have hdate := dayNumber_dateOf (t / 86400 + epochDay).toNat
  unfold dayNumber at hdate
  unfold timegm gmtime
  dsimp only
  unfold epochDay at hdate hdays ⊢
  omega

/-- What a broken-down time keeps to, so that its text has fixed columns. -/
structure Tm.Proper (tm : Tm) : Prop where
  year : tm.year < 10000
  mon : tm.mon < 12
  mday : 1 ≤ tm.mday ∧ tm.mday ≤ 31
  hour : tm.hour < 24
  min : tm.min < 60
  sec : tm.sec < 60

/-- Time points from 1970 on. -/
def Clocked (tp : ℤ) : Prop := 0 ≤ tp ∧ tp < 2 ^ 63

theorem gmtime_proper {tp : ℤ} (h : Clocked tp) : (gmtime (tp / 10 ^ 9)).Proper := by
  obtain ⟨hlow, hhigh⟩ := h
  have hvalid := dateOf_valid (tp / 10 ^ 9 / 86400 + epochDay).toNat
  have hyear := mul_year_le (tp / 10 ^ 9 / 86400 + epochDay).toNat
  have hdays := (monthLength_bounds (dateOf (tp / 10 ^ 9 / 86400 + epochDay).toNat).year
    (dateOf (tp / 10 ^ 9 / 86400 + epochDay).toNat).month).2
  have hday := hvalid.day
  have hsize : (tp / 10 ^ 9 / 86400 + epochDay).toNat < 365 * 10000 := by
    unfold epochDay
    omega
  unfold gmtime
  refine ⟨?_, hvalid.month, ⟨?_, ?_⟩, ?_, ?_, ?_⟩
  · dsimp only
    omega
  · dsimp only
    omega
  · dsimp only
    omega
  · dsimp only
    omega
  · dsimp only
    omega
  · dsimp only
    omega

/-! ### Reading what was written -/

theorem getTime_field {least most len n : ℕ} {store : Tm → ℕ → Tm} (format : List Directive) (tm : Tm)
    (hlen : 0 < len) (hwidth : n < 10 ^ len) (hleast : least ≤ n) (hmost : n ≤ most) (rest : List Char) :
    getTime (.field least most len store :: format) ((paddedDigits len n).toList ++ rest) tm =
      getTime format rest (store tm n) := by
  have hlength := length_paddedDigits hlen hwidth
  have htake : ((paddedDigits len n).toList ++ rest).take len = (paddedDigits len n).toList :=
    List.take_left' hlength
  have hdigits : (paddedDigits len n).toList.takeWhile Char.isDigit = (paddedDigits len n).toList :=
    List.takeWhile_eq_self_iff.mpr (allDigits_paddedDigits len n)
  rw [getTime, htake, hdigits, readDigits_paddedDigits, if_neg (by omega), List.drop_left]

theorem getTime_literal (c : Char) (format : List Directive) (tm : Tm) (rest : List Char) :
    getTime (.literal c :: format) (c :: rest) tm = getTime format rest tm := by
  simp only [getTime, if_true]

theorem toList_putTime (tm : Tm) (rest : List Char) :
    (putTime tm).toList ++ rest =
      (paddedDigits 4 tm.year).toList ++ '-' :: ((paddedDigits 2 (tm.mon + 1)).toList ++
        '-' :: ((paddedDigits 2 tm.mday).toList ++ 'T' :: ((paddedDigits 2 tm.hour).toList ++
          ':' :: ((paddedDigits 2 tm.min).toList ++ ':' :: ((paddedDigits 2 tm.sec).toList ++ rest))))) := by
  simp [putTime, String.toList_append]

theorem getTime_putTime {tm : Tm} (h : tm.Proper) (rest : List Char) :
    getTime isoFormat ((putTime tm).toList ++ rest) {} = tm := by
  have hyear := h.year
  have hmon := h.mon
  have hmday := h.mday
  have hhour := h.hour
  have hmin := h.min
  have hsec := h.sec
  rw [toList_putTime, isoFormat]
  rw [getTime_field _ _ (by decide) (by omega) (by omega) (by omega), getTime_literal,
    getTime_field _ _ (by decide) (by omega) (by omega) (by omega), getTime_literal,
    getTime_field _ _ (by decide) (by omega) (by omega) (by omega), getTime_literal,
    getTime_field _ _ (by decide) (by omega) (by omega) (by omega), getTime_literal,
    getTime_field _ _ (by decide) (by omega) (by omega) (by omega), getTime_literal,
    getTime_field _ _ (by decide) (by omega) (by omega) (by omega), getTime]
  rfl

/-! ### The text of a time point -/

/-- The milliseconds behind the point. -/
def millis (tp : ℤ) : ℕ := (tp / 10 ^ 6 % 1000).toNat

theorem setw3_eq {tp : ℤ} (h : Clocked tp) :
    setw3 ((tp.tdiv (10 ^ 6)).tmod 1000) = paddedDigits 3 (millis tp) := by
  obtain ⟨hlow, -⟩ := h
  have hms : (tp.tdiv (10 ^ 6)).tmod 1000 = (millis tp : ℤ) := by
    rw [Int.tdiv_eq_ediv_of_nonneg hlow, Int.tmod_eq_emod_of_nonneg (by omega), millis]
    omega
  rw [hms]
  rfl

theorem toList_toIso8601 {tp : ℤ} (h : Clocked tp) :
    (toIso8601 tp).toList = (putTime (gmtime (tp / 10 ^ 9))).toList ++
      '.' :: ((paddedDigits 3 (millis tp)).toList ++ ['Z']) := by
  rw [toIso8601, setw3_eq h, Int.tdiv_eq_ediv_of_nonneg h.1]
  simp [String.toList_append]

theorem stoi_paddedDigits {width n : ℕ} (hwidth : 0 < width) (hsmall : n < 10 ^ width) (hwide : width ≤ 9) :
    stoi (paddedDigits width n) = .ok (n : ℤ) := by
  have hdigits := allDigits_paddedDigits width n
  have hread := readDigits_paddedDigits width n
  have hlength := length_paddedDigits hwidth hsmall
  have hbound : n < 2 ^ 31 :=
    (hsmall.trans_le (Nat.pow_le_pow_right (by decide) hwide)).trans (by decide)
  unfold stoi
  generalize (paddedDigits width n).toList = cs at hdigits hread hlength ⊢
  cases cs with
  | nil =>
    rw [List.length_nil] at hlength
    omega
  | cons c cs =>
    have hc := hdigits c (List.mem_cons_self ..)
    have htake : (c :: cs).takeWhile Char.isDigit = c :: cs := List.takeWhile_eq_self_iff.mpr hdigits
    have hspace : ¬ isSpace c = true := by
      rw [digit_not_space hc]
      exact Bool.false_ne_true
    rw [List.dropWhile_cons_of_neg hspace]
    dsimp only
    split
    next heq => exact absurd (List.cons.inj heq).1 (digit_ne hc (by decide))
    next heq => exact absurd (List.cons.inj heq).1 (digit_ne hc (by decide))
    next =>
      dsimp only
      rw [htake, hread, if_neg (List.cons_ne_nil _ _), if_neg Bool.false_ne_true, if_neg (by omega)]

theorem not_point_putTime (tm : Tm) : ∀ c ∈ (putTime tm).toList, decide (c ≠ '.') = true := by
  intro c hc
  have hdigits : ∀ {width n : ℕ}, c ∈ (paddedDigits width n).toList → c ≠ '.' := fun hmem =>
    digit_ne (allDigits_paddedDigits _ _ c hmem) (by decide)
  have hlist := toList_putTime tm []
  rw [List.append_nil] at hlist
  rw [hlist] at hc
  simp only [List.mem_append, List.mem_cons, List.not_mem_nil, or_false] at hc
  rw [decide_eq_true_eq]
  rcases hc with h | rfl | h | rfl | h | rfl | h | rfl | h | rfl | h
  · exact hdigits h
  · decide
  · exact hdigits h
  · decide
  · exact hdigits h
  · decide
  · exact hdigits h
  · decide
  · exact hdigits h
  · decide
  · exact hdigits h

theorem getTime_toIso8601 {tp : ℤ} (h : Clocked tp) :
    getTime isoFormat ((toIso8601 tp).toList.dropWhile isSpace) {} = gmtime (tp / 10 ^ 9) := by
  have hyear : ∃ c cs, (paddedDigits 4 (gmtime (tp / 10 ^ 9)).year).toList = c :: cs := by
    refine List.exists_cons_of_ne_nil ?_
    rw [← List.length_pos_iff, length_paddedDigits (by decide) (gmtime_proper h).year]
    decide
  obtain ⟨c, cs, hcs⟩ := hyear
  have hc : ¬ isSpace c = true := by
    rw [digit_not_space (allDigits_paddedDigits 4 _ c (hcs ▸ List.mem_cons_self ..))]
    exact Bool.false_ne_true
  have hfront : (toIso8601 tp).toList.dropWhile isSpace = (toIso8601 tp).toList := by
    rw [toList_toIso8601 h, toList_putTime, hcs, List.cons_append, List.dropWhile_cons_of_neg hc]
  rw [hfront, toList_toIso8601 h]
  exact getTime_putTime (gmtime_proper h) _

theorem point_toIso8601 {tp : ℤ} (h : Clocked tp) :
    (toIso8601 tp).toList.dropWhile (· ≠ '.') = '.' :: ((paddedDigits 3 (millis tp)).toList ++ ['Z']) := by
  rw [toList_toIso8601 h, List.dropWhile_append_of_pos (not_point_putTime _),
    List.dropWhile_cons_of_neg (by decide)]

theorem millis_lt (tp : ℤ) : millis tp < 10 ^ 3 := by
  unfold millis
  omega

theorem fromIso8601_toIso8601 {tp : ℤ} (h : Clocked tp) :
    fromIso8601 (toIso8601 tp) = .ok (tp / 10 ^ 6 * 10 ^ 6) := by
  have htake : ((paddedDigits 3 (millis tp)).toList ++ ['Z']).take 3 = (paddedDigits 3 (millis tp)).toList :=
    List.take_left' (length_paddedDigits (by decide) (millis_lt tp))
  have hseconds : timegm (gmtime (tp / 10 ^ 9)) = tp / 10 ^ 9 := by
    have hlow := h.1
    refine timegm_gmtime ?_
    unfold epochDay
    omega
  have hwhole : tp / 10 ^ 9 * 10 ^ 9 + (millis tp : ℤ) * 10 ^ 6 = tp / 10 ^ 6 * 10 ^ 6 := by
    unfold millis
    omega
  rw [fromIso8601, getTime_toIso8601 h, point_toIso8601 h, hseconds]
  dsimp only
  rw [htake, String.ofList_toList, stoi_paddedDigits (by decide) (millis_lt tp) (by decide), Except.map, hwhole]

/-! ### The order of the texts -/

def isoColumns : List (ℕ × Char) := [(4, '-'), (2, '-'), (2, 'T'), (2, ':'), (2, ':'), (2, '.'), (3, 'Z')]

def isoValues (tp : ℤ) : List ℕ :=
  let tm := gmtime (tp / 10 ^ 9)
  [tm.year, tm.mon + 1, tm.mday, tm.hour, tm.min, tm.sec, millis tp]

theorem toIso8601_columns {tp : ℤ} (h : Clocked tp) :
    (toIso8601 tp).toList = fixedText isoColumns (isoValues tp) := by
  rw [toList_toIso8601 h, toList_putTime]
  rfl

theorem isoValues_fit {tp : ℤ} (h : Clocked tp) : ColumnsFit isoColumns (isoValues tp) := by
  have hproper := gmtime_proper h
  have hmon := hproper.mon
  have hmday := hproper.mday
  have hhour := hproper.hour
  have hmin := hproper.min
  have hsec := hproper.sec
  refine .cons ⟨by decide, hproper.year⟩ (.cons ⟨by decide, ?_⟩ (.cons ⟨by decide, ?_⟩ (.cons ⟨by decide, ?_⟩
    (.cons ⟨by decide, ?_⟩ (.cons ⟨by decide, ?_⟩ (.cons ⟨by decide, millis_lt tp⟩ .nil))))))
  · dsimp only
    omega
  · dsimp only
    omega
  · dsimp only
    omega
  · dsimp only
    omega
  · dsimp only
    omega

/-- The day of a time point, from the first day of year 0. -/
def dayOf (tp : ℤ) : ℕ := (tp / 10 ^ 9 / 86400 + epochDay).toNat

def secondOf (tp : ℤ) : ℕ := (tp / 10 ^ 9 % 86400).toNat

theorem millisecond_lt_iff {tp tp' : ℤ} (h : Clocked tp) (h' : Clocked tp') :
    tp / 10 ^ 6 < tp' / 10 ^ 6 ↔ dayOf tp < dayOf tp' ∨ dayOf tp = dayOf tp' ∧
      (secondOf tp < secondOf tp' ∨ secondOf tp = secondOf tp' ∧ millis tp < millis tp') := by
  have hsplit : ∀ {tp : ℤ}, Clocked tp →
      tp / 10 ^ 6 = (1000 * (86400 * dayOf tp + secondOf tp) + millis tp : ℕ) - 86400000 * epochDay := by
    intro tp h
    have hlow := h.1
    unfold dayOf secondOf millis epochDay
    omega
  have hseconds : ∀ tp : ℤ, secondOf tp < 86400 := by
    intro tp
    unfold secondOf
    omega
  have hshift : tp / 10 ^ 6 < tp' / 10 ^ 6 ↔ 1000 * (86400 * dayOf tp + secondOf tp) + millis tp <
      1000 * (86400 * dayOf tp' + secondOf tp') + millis tp' := by
    rw [hsplit h, hsplit h']
    omega
  have hsame : 86400 * dayOf tp + secondOf tp = 86400 * dayOf tp' + secondOf tp' ↔
      dayOf tp = dayOf tp' ∧ secondOf tp = secondOf tp' := by
    have hlt := hseconds tp
    have hlt' := hseconds tp'
    omega
  have hms : ∀ tp : ℤ, millis tp < 1000 := millis_lt
  rw [hshift, scaled_lt_iff (hms tp) (hms tp'), scaled_lt_iff (hseconds tp) (hseconds tp'), hsame]
  tauto

theorem date_eq_iff (n n' : ℕ) : n = n' ↔ (dateOf n).year = (dateOf n').year ∧
    (dateOf n).month = (dateOf n').month ∧ (dateOf n).day = (dateOf n').day := by
  refine ⟨fun heq => by rw [heq]; exact ⟨rfl, rfl, rfl⟩, ?_⟩
  rintro ⟨hyear, hmonth, hday⟩
  rw [← dayNumber_dateOf n, ← dayNumber_dateOf n']
  unfold dayNumber
  rw [hyear, hmonth, hday]

theorem day_lt_iff (n n' : ℕ) : n < n' ↔ (dateOf n).year < (dateOf n').year ∨
    (dateOf n).year = (dateOf n').year ∧ ((dateOf n).month < (dateOf n').month ∨
      (dateOf n).month = (dateOf n').month ∧ (dateOf n).day < (dateOf n').day) := by
  have hdates := dayNumber_lt_iff (dateOf_valid n) (dateOf_valid n')
  rwa [dayNumber_dateOf, dayNumber_dateOf] at hdates

theorem second_lt_iff (s s' : ℕ) : s < s' ↔ s / 3600 < s' / 3600 ∨ s / 3600 = s' / 3600 ∧
    (s / 60 % 60 < s' / 60 % 60 ∨ s / 60 % 60 = s' / 60 % 60 ∧ s % 60 < s' % 60) := by
  omega

theorem second_eq_iff (s s' : ℕ) : s = s' ↔ s / 3600 = s' / 3600 ∧ s / 60 % 60 = s' / 60 % 60 ∧
    s % 60 = s' % 60 := by
  omega

/-- Two comparisons one after the other are one, the second where the first ends. -/
theorem lex_regroup {p q r s t : Prop} : (p ∨ q ∧ r) ∨ (q ∧ s) ∧ t ↔ p ∨ q ∧ (r ∨ s ∧ t) := by
  tauto

theorem isoValues_lt_iff (tp tp' : ℤ) :
    isoValues tp < isoValues tp' ↔ dayOf tp < dayOf tp' ∨ dayOf tp = dayOf tp' ∧
      (secondOf tp < secondOf tp' ∨ secondOf tp = secondOf tp' ∧ millis tp < millis tp') := by
  have hvalues : ∀ tp, isoValues tp = [(dateOf (dayOf tp)).year, (dateOf (dayOf tp)).month + 1,
      (dateOf (dayOf tp)).day + 1, secondOf tp / 3600, secondOf tp / 60 % 60, secondOf tp % 60,
      millis tp] := fun _ => rfl
  rw [hvalues, hvalues, day_lt_iff, date_eq_iff (dayOf tp), second_lt_iff (secondOf tp),
    second_eq_iff (secondOf tp)]
  simp only [List.cons_lt_cons_iff, List.not_lt_nil, Nat.add_lt_add_iff_right, Nat.add_right_cancel_iff,
    and_false, or_false, lex_regroup]

/-- The texts are in the order of the times, to the millisecond. -/
theorem toIso8601_lt_iff {tp tp' : ℤ} (h : Clocked tp) (h' : Clocked tp') :
    toIso8601 tp < toIso8601 tp' ↔ tp / 10 ^ 6 < tp' / 10 ^ 6 := by
  rw [String.lt_iff, toIso8601_columns h, toIso8601_columns h',
    fixedText_lt_iff (isoValues_fit h) (isoValues_fit h'), millisecond_lt_iff h h', isoValues_lt_iff]

theorem toIso8601_eq_iff {tp tp' : ℤ} (h : Clocked tp) (h' : Clocked tp') :
    toIso8601 tp = toIso8601 tp' ↔ tp / 10 ^ 6 = tp' / 10 ^ 6 := by
  constructor
  · intro heq
    have hlow := toIso8601_lt_iff h h'
    have hhigh := toIso8601_lt_iff h' h
    rw [heq] at hlow hhigh
    have hirrefl := String.lt_irrefl (toIso8601 tp')
    have hnot : ¬ tp / 10 ^ 6 < tp' / 10 ^ 6 := fun hlt => hirrefl (hlow.mpr hlt)
    have hnot' : ¬ tp' / 10 ^ 6 < tp / 10 ^ 6 := fun hlt => hirrefl (hhigh.mpr hlt)
    omega
  · intro heq
    have hseconds : tp / 10 ^ 9 = tp' / 10 ^ 9 := by omega
    rw [← String.toList_inj, toIso8601_columns h, toIso8601_columns h', isoValues, isoValues, millis, millis,
      hseconds, heq]

theorem fromMs_toMs {tp : ℤ} (h : Clocked tp) : fromMs (toMs tp) = tp / 10 ^ 6 * 10 ^ 6 := by
  obtain ⟨hlow, hhigh⟩ := h
  have hmod : (tp / 10 ^ 6 % 2 ^ 64).toNat < 2 ^ 64 := by omega
  rw [fromMs, toMs, Int.tdiv_eq_ediv_of_nonneg hlow, UInt64.toNat_ofNat_of_lt' hmod]
  omega

/-- The texts stand for the times they were written from, to the millisecond. -/
theorem iso8601_faithful {tp tp' : ℤ} (h : Clocked tp) (h' : Clocked tp') :
    fromIso8601 (toIso8601 tp) = .ok (fromMs (toMs tp)) ∧
      fromMs (toMs tp) ≤ tp ∧ tp < fromMs (toMs tp) + 10 ^ 6 ∧
      (toIso8601 tp < toIso8601 tp' ↔ toMs tp < toMs tp') ∧
      (toIso8601 tp = toIso8601 tp' ↔ toMs tp = toMs tp') := by
  have hms := fromMs_toMs h
  have hms' := fromMs_toMs h'
  refine ⟨?_, ?_, ?_, ?_, ?_⟩
  · rw [fromIso8601_toIso8601 h, hms]
  · omega
  · omega
  · rw [toIso8601_lt_iff h h', UInt64.lt_iff_toNat_lt]
    unfold fromMs at hms hms'
    omega
  · rw [toIso8601_eq_iff h h', ← UInt64.toNat_inj]
    unfold fromMs at hms hms'
    omega

/-- Around the midnight at which a leap day begins. -/
theorem leapDay_faithful : ∃ tp tp' : ℤ, Clocked tp ∧ Clocked tp' ∧ tp < tp' ∧
    fromIso8601 (toIso8601 tp) = .ok (fromMs (toMs tp)) ∧ toIso8601 tp < toIso8601 tp' := by
  have hlast : Clocked (1709164799999 * 10 ^ 6 + 7) := ⟨by decide, by decide⟩
  have hfirst : Clocked (1709164800000 * 10 ^ 6) := ⟨by decide, by decide⟩
  obtain ⟨hread, -, -, hless, -⟩ := iso8601_faithful hlast hfirst
  exact ⟨_, _, hlast, hfirst, by decide, hread, hless.mpr (by decide)⟩

example : toIso8601 (1709210096007 * 10 ^ 6) = "2024-02-29T12:34:56.007Z" := by decide +kernel

end TimeUtils

end CryptoArbBot
