import Mathlib.Data.Char
import Mathlib.Data.List.Lex
import Mathlib.Tactic.IntervalCases
import Mathlib.Tactic.Ring

/-! Calendar dates and times of day, the fixed-width texts they are written in, and the instants they
denote. -/
namespace Foundation

/-- A decimal digit. -/
def digit (n : Nat) : Char := Char.ofNat (48 + n)

def digitValue (c : Char) : Option Nat := (List.range 10).find? fun n => digit n == c

/-- The lowest decimal digits of a number, in a fixed width. -/
def padded : Nat → Nat → List Char
  | 0, _ => []
  | width + 1, n => digit (n / 10 ^ width) :: padded width (n % 10 ^ width)

/-- The number that some digits write, after the digits before them. -/
def numberFrom (high : Nat) : List Char → Option Nat
  | [] => some high
  | c :: cs => (digitValue c).bind fun n => numberFrom (high * 10 + n) cs

theorem digitValue_digit {n : Nat} (below : n < 10) : digitValue (digit n) = some n := by
  interval_cases n <;> decide

theorem digit_lt_digit {n k : Nat} (below : n < 10) (other : k < 10) : digit n < digit k ↔ n < k := by
  interval_cases n <;> interval_cases k <;> decide

theorem digit_inj {n k : Nat} (below : n < 10) (other : k < 10) : digit n = digit k ↔ n = k := by
  constructor
  · intro same
    have read := digitValue_digit below
    rw [same, digitValue_digit other] at read
    exact (Option.some.inj read).symm
  · exact congrArg digit

@[simp] theorem padded_length (width n : Nat) : (padded width n).length = width := by
  induction width generalizing n with
  | zero => rfl
  | succ width ih => simp [padded, ih]

private theorem first_digit {width n : Nat} (below : n < 10 ^ (width + 1)) : n / 10 ^ width < 10 := by
  rw [Nat.div_lt_iff_lt_mul (by positivity), ← Nat.pow_succ']
  exact below

/-- Numbers of one width are read back. -/
theorem numberFrom_padded {width n : Nat} (high : Nat) (below : n < 10 ^ width) :
    numberFrom high (padded width n) = some (high * 10 ^ width + n) := by
  induction width generalizing high n with
  | zero =>
    rw [pow_zero, Nat.lt_one_iff] at below
    simp [padded, numberFrom, below]
  | succ width ih =>
    have rest : n % 10 ^ width < 10 ^ width := Nat.mod_lt _ (by positivity)
    have whole := Nat.div_add_mod n (10 ^ width)
    rw [padded, numberFrom, digitValue_digit (first_digit below), Option.bind_some, ih _ rest]
    congr 1
    calc (high * 10 + n / 10 ^ width) * 10 ^ width + n % 10 ^ width
        = high * 10 ^ (width + 1) + (10 ^ width * (n / 10 ^ width) + n % 10 ^ width) := by ring
      _ = high * 10 ^ (width + 1) + n := by rw [whole]

/-- Numbers of one width are in the order of their texts. -/
theorem padded_lt_iff {width n k : Nat} (below : n < 10 ^ width) (other : k < 10 ^ width)
    (rest rest' : List Char) :
    padded width n ++ rest < padded width k ++ rest' ↔ n < k ∨ n = k ∧ rest < rest' := by
  induction width generalizing n k with
  | zero =>
    rw [pow_zero, Nat.lt_one_iff] at below other
    simp [padded, below, other]
  | succ width ih =>
    have positive : 0 < 10 ^ width := by positivity
    have wholeN := Nat.div_add_mod n (10 ^ width)
    have wholeK := Nat.div_add_mod k (10 ^ width)
    have restN := Nat.mod_lt n positive
    have restK := Nat.mod_lt k positive
    rw [padded, padded, List.cons_append, List.cons_append, List.cons_lt_cons_iff,
      digit_lt_digit (first_digit below) (first_digit other),
      digit_inj (first_digit below) (first_digit other), ih restN restK]
    -- the first digit is the quotient, so it decides unless the quotients agree
    constructor
    · rintro (less | ⟨same, less | ⟨equal, later⟩⟩)
      · exact .inl (lt_of_not_ge fun ge => absurd (Nat.div_le_div_right ge) (not_le.2 less))
      · exact .inl (by rw [← wholeN, ← wholeK, same]; omega)
      · exact .inr ⟨by rw [← wholeN, ← wholeK, same, equal], later⟩
    · rintro (less | ⟨rfl, later⟩)
      · rcases (Nat.div_le_div_right less.le : n / 10 ^ width ≤ k / 10 ^ width).lt_or_eq with
          lower | same
        · exact .inl lower
        · refine .inr ⟨same, .inl ?_⟩
          rw [same] at wholeN
          omega
      · exact .inr ⟨rfl, .inr ⟨rfl, later⟩⟩

/-! ### The calendar -/

def isLeap (year : Nat) : Bool := year % 4 == 0 && (year % 100 != 0 || year % 400 == 0)

def daysInMonth (year month : Nat) : Nat :=
  if month = 2 then if isLeap year then 29 else 28
  else if month = 4 ∨ month = 6 ∨ month = 9 ∨ month = 11 then 30
  else if month = 0 then 0
  else 31

def daysBeforeYear (year : Nat) : Nat :=
  (year - 1) * 365 + (year - 1) / 4 - (year - 1) / 100 + (year - 1) / 400

def daysBeforeMonth (year : Nat) : Nat → Nat
  | 0 => 0
  | month + 1 => daysBeforeMonth year month + daysInMonth year month

/-- A date and a time of day. -/
structure CivilTime where
  year : Nat
  month : Nat
  day : Nat
  hour : Nat
  minute : Nat
  second : Nat
  microsecond : Nat
deriving DecidableEq, Repr

/-- A date of the calendar and a time that the clock can show. -/
structure CivilTime.Valid (t : CivilTime) : Prop where
  year : 1 ≤ t.year ∧ t.year ≤ 9999
  month : 1 ≤ t.month ∧ t.month ≤ 12
  day : 1 ≤ t.day ∧ t.day ≤ daysInMonth t.year t.month
  hour : t.hour < 24
  minute : t.minute < 60
  second : t.second < 60
  microsecond : t.microsecond < 1000000

instance (t : CivilTime) : Decidable t.Valid :=
  decidable_of_iff ((1 ≤ t.year ∧ t.year ≤ 9999) ∧ (1 ≤ t.month ∧ t.month ≤ 12) ∧
      (1 ≤ t.day ∧ t.day ≤ daysInMonth t.year t.month) ∧ t.hour < 24 ∧ t.minute < 60 ∧
      t.second < 60 ∧ t.microsecond < 1000000)
    ⟨fun ⟨a, b, c, d, e, f, g⟩ => ⟨a, b, c, d, e, f, g⟩,
      fun ⟨a, b, c, d, e, f, g⟩ => ⟨a, b, c, d, e, f, g⟩⟩

namespace CivilTime

variable {t u : CivilTime}

/-- Days up to a date, counted from the first of January of the year one. -/
def ordinal (t : CivilTime) : Nat := daysBeforeYear t.year + daysBeforeMonth t.year t.month + t.day

/-- Seconds up to a time, the fraction cut off. -/
def seconds (t : CivilTime) : Nat :=
  ((t.ordinal * 24 + t.hour) * 60 + t.minute) * 60 + t.second

/-- Microseconds up to a time. -/
def microseconds (t : CivilTime) : Nat := t.seconds * 1000000 + t.microsecond

/-- `YYYY-MM-DDTHH:MM:SS` -/
def secondText (t : CivilTime) : List Char :=
  padded 4 t.year ++ '-' :: (padded 2 t.month ++ '-' :: (padded 2 t.day ++ 'T' ::
    (padded 2 t.hour ++ ':' :: (padded 2 t.minute ++ ':' :: padded 2 t.second))))

private theorem radix_lt_iff {a b k l : Nat} (r : Nat) (below : k < r) (other : l < r) :
    a * r + k < b * r + l ↔ a < b ∨ a = b ∧ k < l := by
  constructor
  · intro less
    rcases lt_trichotomy a b with lower | rfl | higher
    · exact .inl lower
    · exact .inr ⟨rfl, by omega⟩
    · have step := Nat.mul_le_mul_right r (show b + 1 ≤ a from higher)
      rw [Nat.add_mul, one_mul] at step
      omega
  · rintro (lower | ⟨rfl, less⟩)
    · have step := Nat.mul_le_mul_right r (show a + 1 ≤ b from lower)
      rw [Nat.add_mul, one_mul] at step
      omega
    · omega

private theorem daysBeforeMonth_mono {year month later : Nat} (order : month < later) :
    daysBeforeMonth year month + daysInMonth year month ≤ daysBeforeMonth year later := by
  induction later with
  | zero => omega
  | succ later ih =>
    rcases Nat.lt_succ_iff_lt_or_eq.1 order with before | rfl
    · exact (ih before).trans (Nat.le_add_right ..)
    · exact le_rfl

private theorem year_length (year : Nat) :
    daysBeforeMonth year 13 = 365 + if isLeap year then 1 else 0 := by
  cases leap : isLeap year <;> simp [daysBeforeMonth, daysInMonth, leap]

private theorem daysBeforeYear_succ {year : Nat} (started : 1 ≤ year) :
    daysBeforeYear year + daysBeforeMonth year 13 = daysBeforeYear (year + 1) := by
  obtain ⟨n, rfl⟩ : ∃ n, year = n + 1 := ⟨year - 1, by omega⟩
  have four : (n + 1) / 4 = n / 4 + if 4 ∣ n + 1 then 1 else 0 := Nat.succ_div
  have hundred : (n + 1) / 100 = n / 100 + if 100 ∣ n + 1 then 1 else 0 := Nat.succ_div
  have fourHundred : (n + 1) / 400 = n / 400 + if 400 ∣ n + 1 then 1 else 0 := Nat.succ_div
  have fewer : n / 100 ≤ n / 4 := Nat.div_le_div_left (by norm_num) (by norm_num)
  rw [year_length]
  simp only [daysBeforeYear, isLeap, Nat.add_sub_cancel, Bool.and_eq_true, beq_iff_eq,
    Bool.or_eq_true, bne_iff_ne, ← Nat.dvd_iff_mod_eq_zero, ne_eq]
  -- a year that four hundred divides is divided by a hundred, and such a one by four
  by_cases quarter : 4 ∣ n + 1
  · by_cases century : 100 ∣ n + 1
    · by_cases cycle : 400 ∣ n + 1 <;> simp only [quarter, century, cycle, if_true, if_false] at * <;>
        simp only [not_true, or_true, or_false, and_self, and_false, if_true, if_false] <;> omega
    · have cycle : ¬ 400 ∣ n + 1 := fun div => century (Dvd.dvd.trans (by norm_num) div)
      simp only [quarter, century, cycle, if_true, if_false] at *
      simp only [not_false_eq_true, true_or, and_self, if_true]
      omega
  · have century : ¬ 100 ∣ n + 1 := fun div => quarter (Dvd.dvd.trans (by norm_num) div)
    have cycle : ¬ 400 ∣ n + 1 := fun div => quarter (Dvd.dvd.trans (by norm_num) div)
    simp only [quarter, century, cycle, if_false] at *
    simp only [false_and, if_false]
    omega

private theorem daysBeforeYear_mono {year later : Nat} (started : 1 ≤ year) (order : year < later) :
    daysBeforeYear year + daysBeforeMonth year 13 ≤ daysBeforeYear later := by
  induction later with
  | zero => omega
  | succ later ih =>
    rcases Nat.lt_succ_iff_lt_or_eq.1 order with before | rfl
    · have step := daysBeforeYear_succ (show 1 ≤ later by omega)
      have rest := ih before
      omega
    · exact (daysBeforeYear_succ started).le

private theorem day_in_year (valid : t.Valid) :
    daysBeforeMonth t.year t.month + t.day ≤ daysBeforeMonth t.year 13 :=
  (Nat.add_le_add_left valid.day.2 _).trans
    (daysBeforeMonth_mono (show t.month < 13 from Nat.lt_succ_of_le valid.month.2))

/-- Dates are counted in the order of year, month and day. -/
private theorem ordinal_lt_iff (valid : t.Valid) (other : u.Valid) :
    t.ordinal < u.ordinal ↔ t.year < u.year ∨ t.year = u.year ∧
      (t.month < u.month ∨ t.month = u.month ∧ t.day < u.day) := by
  -- one direction suffices: the two dates are ordered one way, the other way, or equal
  have forward {t u : CivilTime} (valid : t.Valid) (other : u.Valid)
      (order : t.year < u.year ∨ t.year = u.year ∧
        (t.month < u.month ∨ t.month = u.month ∧ t.day < u.day)) : t.ordinal < u.ordinal := by
    have positive := other.day.1
    rcases order with years | ⟨year, months | ⟨month, days⟩⟩
    · have step := daysBeforeYear_mono valid.year.1 years
      have inside := day_in_year valid
      simp only [ordinal]
      omega
    · have step : daysBeforeMonth t.year t.month + _ ≤ _ := daysBeforeMonth_mono months
      have inside := valid.day.2
      simp only [ordinal, ← year]
      omega
    · simp only [ordinal, ← year, ← month]
      omega
  refine ⟨fun less => ?_, forward valid other⟩
  by_contra order
  have back : (u.year < t.year ∨ u.year = t.year ∧
      (u.month < t.month ∨ u.month = t.month ∧ u.day < t.day)) ∨
        t.year = u.year ∧ t.month = u.month ∧ t.day = u.day := by omega
  rcases back with later | ⟨year, month, day⟩
  · exact absurd (forward other valid later) (by omega)
  · simp [ordinal, year, month, day] at less

theorem Valid.month_below (valid : t.Valid) : t.month < 10 ^ 2 := by
  have := valid.month.2
  omega

theorem Valid.day_below (valid : t.Valid) : t.day < 10 ^ 2 := by
  have longest : daysInMonth t.year t.month ≤ 31 := by
    simp only [daysInMonth]
    split_ifs <;> omega
  have := valid.day.2
  omega

private theorem cons_same_lt {c : Char} {cs ds : List Char} : c :: cs < c :: ds ↔ cs < ds := by
  simp

/-- Whole seconds are in the order of their texts. -/
theorem secondText_lt_iff (valid : t.Valid) (other : u.Valid) :
    t.secondText < u.secondText ↔ t.seconds < u.seconds := by
  have pair {width n k : Nat} (below : n < 10 ^ width) (small : k < 10 ^ width) :
      padded width n < padded width k ↔ n < k := by
    have order := padded_lt_iff below small [] []
    simpa using order
  -- the text writes the fields from the year down, each in a fixed width
  rw [secondText, secondText,
    padded_lt_iff (Nat.lt_succ_of_le valid.year.2) (Nat.lt_succ_of_le other.year.2), cons_same_lt,
    padded_lt_iff valid.month_below other.month_below, cons_same_lt,
    padded_lt_iff valid.day_below other.day_below, cons_same_lt,
    padded_lt_iff (valid.hour.trans (by norm_num)) (other.hour.trans (by norm_num)), cons_same_lt,
    padded_lt_iff (valid.minute.trans (by norm_num)) (other.minute.trans (by norm_num)), cons_same_lt,
    pair (valid.second.trans (by norm_num)) (other.second.trans (by norm_num)),
    seconds, seconds, radix_lt_iff 60 valid.second other.second,
    radix_lt_iff 60 valid.minute other.minute, radix_lt_iff 24 valid.hour other.hour,
    ordinal_lt_iff valid other]
  have ordinals : t.ordinal = u.ordinal ↔
      t.year = u.year ∧ t.month = u.month ∧ t.day = u.day := by
    constructor
    · intro same
      have less := ordinal_lt_iff valid other
      have more := ordinal_lt_iff other valid
      omega
    · rintro ⟨year, month, day⟩
      simp [ordinal, year, month, day]
  rw [ordinals]
  have := valid.hour
  have := other.hour
  have := valid.minute
  have := other.minute
  omega

/-- Year, month and day of a day that is counted from the first of January 1970. The cycle of 400 years
begins in March, so that the leap day is the last of its year. -/
def civilDate (days : Nat) : Nat × Nat × Nat :=
  let shifted := days + 719468
  let day := shifted % 146097
  let year := (day - day / 1460 + day / 36524 - day / 146096) / 365
  let ofYear := day - (365 * year + year / 4 - year / 100)
  let month := (5 * ofYear + 2) / 153
  let years := year + shifted / 146097 * 400
  (if month < 10 then years else years + 1, if month < 10 then month + 3 else month - 9,
    ofYear - (153 * month + 2) / 5 + 1)

/-- The time that is so many microseconds after the beginning of 1970. -/
def ofEpoch (microseconds : Nat) : CivilTime :=
  let seconds := microseconds / 1000000
  let date := civilDate (seconds / 86400)
  { year := date.1
    month := date.2.1
    day := date.2.2
    hour := seconds / 3600 % 24
    minute := seconds / 60 % 60
    second := seconds % 60
    microsecond := microseconds % 1000000 }

example : [0, 951782399000000, 951868800000001].map ofEpoch = [⟨1970, 1, 1, 0, 0, 0, 0⟩,
    ⟨2000, 2, 28, 23, 59, 59, 0⟩, ⟨2000, 3, 1, 0, 0, 0, 1⟩] := by
  decide

/-! ### Texts -/

/-- The text of a time in UTC; a whole second has no fraction. -/
def utcText (t : CivilTime) : List Char :=
  t.secondText ++ ((if t.microsecond = 0 then [] else '.' :: padded 6 t.microsecond) ++ ['Z'])

end CivilTime

def takeChar (c : Char) : List Char → Option (List Char)
  | d :: text => if d = c then some text else none
  | [] => none

def takeNumber (width : Nat) (text : List Char) : Option (Nat × List Char) :=
  if width ≤ text.length then (numberFrom 0 (text.take width)).map fun n => (n, text.drop width)
  else none

/-- Six digits after a point, or no fraction. -/
def takeFraction : List Char → Option (Nat × List Char)
  | '.' :: text => takeNumber 6 text
  | text => some (0, text)

/-- Hours and minutes of an offset, in minutes. -/
def readOffset (text : List Char) : Option Int := do
  let (hour, text) ← takeNumber 2 text
  let text ← takeChar ':' text
  let (minute, text) ← takeNumber 2 text
  if text = [] ∧ hour < 24 ∧ minute < 60 then some (hour * 60 + minute) else none

/-- The minutes by which a zone is ahead of UTC. -/
def readZone : List Char → Option Int
  | 'Z' :: text => if text = [] then some 0 else none
  | '+' :: text => readOffset text
  | '-' :: text => (readOffset text).map fun minutes => -minutes
  | _ => none

/-- The instant of an RFC 3339 text, in microseconds; the fraction is absent or has six digits. -/
def readInstant (text : List Char) : Option Int := do
  let (year, text) ← takeNumber 4 text
  let text ← takeChar '-' text
  let (month, text) ← takeNumber 2 text
  let text ← takeChar '-' text
  let (day, text) ← takeNumber 2 text
  let text ← takeChar 'T' text
  let (hour, text) ← takeNumber 2 text
  let text ← takeChar ':' text
  let (minute, text) ← takeNumber 2 text
  let text ← takeChar ':' text
  let (second, text) ← takeNumber 2 text
  let (microsecond, text) ← takeFraction text
  let ahead ← readZone text
  let t : CivilTime := ⟨year, month, day, hour, minute, second, microsecond⟩
  -- a zone ahead of UTC has reached the same clock time earlier
  if t.Valid then some (t.microseconds - ahead * 60000000) else none

@[simp] theorem takeChar_self (c : Char) (text : List Char) : takeChar c (c :: text) = some text := by
  simp [takeChar]

theorem takeNumber_padded {width n : Nat} (below : n < 10 ^ width) (text : List Char) :
    takeNumber width (padded width n ++ text) = some (n, text) := by
  have long : width ≤ (padded width n ++ text).length := by simp
  have front : (padded width n ++ text).take width = padded width n :=
    List.take_left' (padded_length width n)
  have back : (padded width n ++ text).drop width = text := List.drop_left' (padded_length width n)
  rw [takeNumber, if_pos long, front, back, numberFrom_padded 0 below]
  simp

namespace CivilTime

variable {t u : CivilTime}

/-- What is written for a time denotes it. -/
theorem readInstant_utcText (valid : t.Valid) : readInstant t.utcText = some (t.microseconds : Int) := by
  have fraction : takeFraction ((if t.microsecond = 0 then [] else '.' :: padded 6 t.microsecond) ++
      ['Z']) = some (t.microsecond, ['Z']) := by
    split
    next none => simp [takeFraction, none]
    next => exact takeNumber_padded valid.microsecond ['Z']
  have year : t.year < 10 ^ 4 := Nat.lt_succ_of_le valid.year.2
  have zone : readZone ['Z'] = some 0 := rfl
  simp only [readInstant, utcText, secondText, List.append_assoc, List.cons_append, Option.bind_eq_bind,
    takeNumber_padded year, takeNumber_padded valid.month_below,
    takeNumber_padded valid.day_below, takeNumber_padded (valid.hour.trans (by norm_num : 24 < 10 ^ 2)),
    takeNumber_padded (valid.minute.trans (by norm_num : 60 < 10 ^ 2)),
    takeNumber_padded (valid.second.trans (by norm_num : 60 < 10 ^ 2)), takeChar_self,
    Option.bind_some, fraction, zone]
  rw [if_pos valid]
  simp

private theorem append_lt_append_iff {xs ys : List Char} (same : xs.length = ys.length)
    (rest rest' : List Char) : xs ++ rest < ys ++ rest' ↔ xs < ys ∨ xs = ys ∧ rest < rest' := by
  induction xs generalizing ys with
  | nil =>
    obtain rfl := List.length_eq_zero_iff.1 same.symm
    simp
  | cons x xs ih =>
    cases ys with
    | nil => cases same
    | cons y ys =>
      simp only [List.cons_append, List.cons_lt_cons_iff, ih (Nat.succ.inj same), List.cons.injEq]
      tauto

theorem secondText_length (t : CivilTime) : t.secondText.length = 19 := by
  simp [secondText]

theorem secondText_inj (valid : t.Valid) (other : u.Valid) :
    t.secondText = u.secondText ↔ t.seconds = u.seconds := by
  have less := secondText_lt_iff valid other
  have more := secondText_lt_iff other valid
  constructor
  · intro same
    rw [same] at less more
    have := mt less.2 (lt_irrefl _)
    have := mt more.2 (lt_irrefl _)
    omega
  · intro same
    rcases lt_trichotomy t.secondText u.secondText with lower | equal | higher
    · exact absurd (less.1 lower) (by omega)
    · exact equal
    · exact absurd (more.1 higher) (by omega)

/-- The order of the texts: within a second, the text without a fraction comes last. -/
theorem utcText_lt_iff (valid : t.Valid) (other : u.Valid) :
    t.utcText < u.utcText ↔ t.seconds < u.seconds ∨ t.seconds = u.seconds ∧ t.microsecond ≠ 0 ∧
      (u.microsecond = 0 ∨ t.microsecond < u.microsecond) := by
  rw [utcText, utcText, append_lt_append_iff (by rw [secondText_length, secondText_length]),
    secondText_lt_iff valid other, secondText_inj valid other]
  refine or_congr_right (and_congr_right fun _ => ?_)
  have point : ∀ text : List Char, '.' :: text < ['Z'] := fun text =>
    List.cons_lt_cons_iff.2 (.inl (by decide))
  by_cases whole : t.microsecond = 0 <;> by_cases entire : u.microsecond = 0
  · simp [whole, entire]
  · simp only [whole, entire, if_true, if_false, List.nil_append, List.cons_append, ne_eq,
      not_true_eq_false, false_and, iff_false]
    exact (point _).asymm
  · simp only [whole, entire, if_true, if_false, List.nil_append, List.cons_append, ne_eq,
      not_false_eq_true, true_and, true_or, iff_true]
    exact point _
  · have order := padded_lt_iff (show t.microsecond < 10 ^ 6 from valid.microsecond)
      (show u.microsecond < 10 ^ 6 from other.microsecond) ['Z'] ['Z']
    simpa only [whole, entire, if_false, List.cons_append, cons_same_lt, ne_eq, not_false_eq_true,
      true_and, false_or, lt_irrefl, and_false, or_false] using order

end CivilTime

end Foundation
