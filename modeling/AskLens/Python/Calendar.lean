import AskLens.Python.Text
import Mathlib.Tactic.IntervalCases

/-!
# Dates, times and instants

The ISO texts of `datetime.date`, `datetime.time` and offset-bearing
`datetime.datetime`, and the arithmetic on instants. A naive wall time or a UTC
instant is a count of microseconds from the start of year one, so the range of
`datetime` is an interval of integers.
-/
namespace AskLens.Python

/-! ## Fixed-width digits -/

def digitChar (n : ℕ) : Char := Char.ofNat (48 + n)

/-- The value of an ASCII digit. Digits of other scripts, which `\d` admits, are
refused by `fromisoformat` with the error of a failed match. -/
def asciiDigit (c : Char) : Option ℕ :=
  if 48 ≤ c.toNat ∧ c.toNat ≤ 57 then some (c.toNat - 48) else none

/-- `n` in `width` decimal digits. -/
def pad : ℕ → ℕ → List Char
  | 0, _ => []
  | width + 1, n => pad width (n / 10) ++ [digitChar (n % 10)]

def readDigits (cs : List Char) : Option ℕ :=
  cs.foldl (fun acc c => acc.bind fun n => (asciiDigit c).map (n * 10 + ·)) (some 0)

theorem asciiDigit_digitChar {n : ℕ} (h : n < 10) : asciiDigit (digitChar n) = some n := by
  interval_cases n <;> rfl

@[simp] theorem pad_length (width n : ℕ) : (pad width n).length = width := by
  induction width generalizing n with
  | zero => rfl
  | succ width ih => simp [pad, ih]

theorem readDigits_append_digit (cs : List Char) (c : Char) :
    readDigits (cs ++ [c]) = (readDigits cs).bind fun n => (asciiDigit c).map (n * 10 + ·) := by
  simp [readDigits, List.foldl_append]

theorem readDigits_pad {width n : ℕ} (h : n < 10 ^ width) : readDigits (pad width n) = some n := by
  induction width generalizing n with
  | zero =>
    obtain rfl : n = 0 := by omega
    rfl
  | succ width ih =>
    have hdiv : n / 10 < 10 ^ width := by
      rw [Nat.div_lt_iff_lt_mul (by omega), ← pow_succ]
      exact h
    have hdigit := asciiDigit_digitChar (Nat.mod_lt n (show 0 < 10 by omega))
    rw [pad, readDigits_append_digit, ih hdiv]
    simp only [Option.bind_some, hdigit, Option.map_some, Option.some.injEq]
    omega

/-! ## Calendar dates -/

def isLeap (year : ℕ) : Bool := year % 4 == 0 && (year % 100 != 0 || year % 400 == 0)

def daysInMonth (year month : ℕ) : ℕ :=
  if month = 2 then (if isLeap year then 29 else 28)
  else if month = 4 ∨ month = 6 ∨ month = 9 ∨ month = 11 then 30
  else 31

def daysBeforeMonth (year month : ℕ) : ℕ :=
  [0, 31, 59, 90, 120, 151, 181, 212, 243, 273, 304, 334].getD (month - 1) 0 +
    (if 2 < month ∧ isLeap year then 1 else 0)

theorem daysInMonth_le (year month : ℕ) : daysInMonth year month ≤ 31 := by
  unfold daysInMonth
  split_ifs <;> omega

structure Date where
  year : ℕ
  month : ℕ
  day : ℕ
  year_range : 1 ≤ year ∧ year ≤ 9999
  month_range : 1 ≤ month ∧ month ≤ 12
  day_range : 1 ≤ day ∧ day ≤ daysInMonth year month
deriving DecidableEq

def Date.of? (year month day : ℕ) : Option Date :=
  if h : (1 ≤ year ∧ year ≤ 9999) ∧ (1 ≤ month ∧ month ≤ 12) ∧
      (1 ≤ day ∧ day ≤ daysInMonth year month) then
    some ⟨year, month, day, h.1, h.2.1, h.2.2⟩
  else none

theorem Date.of?_self (d : Date) : Date.of? d.year d.month d.day = some d :=
  dif_pos ⟨d.year_range, d.month_range, d.day_range⟩

/-- `date.isoformat()`. -/
def Date.isoformat (d : Date) : List Char :=
  pad 4 d.year ++ '-' :: (pad 2 d.month ++ '-' :: pad 2 d.day)

/-- `date.fromisoformat` on `YYYY-MM-DD`. -/
def Date.fromisoformat : List Char → Option Date
  | [y1, y2, y3, y4, '-', m1, m2, '-', d1, d2] => do
    let year ← readDigits [y1, y2, y3, y4]
    let month ← readDigits [m1, m2]
    let day ← readDigits [d1, d2]
    Date.of? year month day
  | _ => none

@[simp] theorem Date.isoformat_length (d : Date) : d.isoformat.length = 10 := by
  simp [Date.isoformat]

theorem Date.fromisoformat_isoformat (d : Date) : Date.fromisoformat d.isoformat = some d := by
  have hyear := readDigits_pad (show d.year < 10 ^ 4 by have := d.year_range; omega)
  have hmonth := readDigits_pad (show d.month < 10 ^ 2 by have := d.month_range; omega)
  have hday : readDigits (pad 2 d.day) = some d.day := by
    apply readDigits_pad
    have h := d.day_range
    have := daysInMonth_le d.year d.month
    omega
  simp only [pad, List.nil_append, List.cons_append] at hyear hmonth hday
  simp only [Date.isoformat, Date.fromisoformat, pad, List.nil_append, List.cons_append, hyear,
    hmonth, hday, Option.bind_eq_bind, Option.bind_some]
  exact Date.of?_self d

/-- The proleptic ordinal; the first day of year one has ordinal one. -/
def ordinal (year month day : ℕ) : ℕ :=
  let y := year - 1
  y * 365 + y / 4 - y / 100 + y / 400 + daysBeforeMonth year month + day

def Date.ordinal (d : Date) : ℕ := Python.ordinal d.year d.month d.day

def ofOrdinal (n : ℕ) : ℕ × ℕ × ℕ :=
  let n := n - 1
  let n400 := n / 146097
  let n := n % 146097
  let n100 := n / 36524
  let n := n % 36524
  let n4 := n / 1461
  let n := n % 1461
  let n1 := n / 365
  let n := n % 365
  let year := n400 * 400 + 1 + n100 * 100 + n4 * 4 + n1
  if n1 = 4 ∨ n100 = 4 then (year - 1, 12, 31)
  else
    let guess := (n + 50) / 32
    let month := if n < daysBeforeMonth year guess then guess - 1 else guess
    (year, month, n - daysBeforeMonth year month + 1)

/-! ## Times of day -/

/-- An offset-free `datetime.time`. -/
structure Time where
  hour : ℕ
  minute : ℕ
  second : ℕ
  microsecond : ℕ
  hour_lt : hour < 24
  minute_lt : minute < 60
  second_lt : second < 60
  microsecond_lt : microsecond < 1000000
deriving DecidableEq

def Time.of? (hour minute second microsecond : ℕ) : Option Time :=
  if h : hour < 24 ∧ minute < 60 ∧ second < 60 ∧ microsecond < 1000000 then
    some ⟨hour, minute, second, microsecond, h.1, h.2.1, h.2.2.1, h.2.2.2⟩
  else none

theorem Time.of?_self (t : Time) : Time.of? t.hour t.minute t.second t.microsecond = some t :=
  dif_pos ⟨t.hour_lt, t.minute_lt, t.second_lt, t.microsecond_lt⟩

def formatFraction (microsecond : ℕ) : List Char :=
  if microsecond = 0 then [] else '.' :: pad 6 microsecond

/-- `time.isoformat()`. -/
def Time.isoformat (t : Time) : List Char :=
  pad 2 t.hour ++ ':' :: (pad 2 t.minute ++ ':' :: (pad 2 t.second ++
    formatFraction t.microsecond))

/-- `(\.\d{1,6})?` as microseconds. -/
def readFraction : List Char → Option ℕ
  | [] => some 0
  | '.' :: ds =>
    if ds ≠ [] ∧ ds.length ≤ 6 then (readDigits ds).map (· * 10 ^ (6 - ds.length)) else none
  | _ => none

/-- `time.fromisoformat` on `HH:MM:SS` with an optional fraction. -/
def Time.fromisoformat : List Char → Option Time
  | h1 :: h2 :: ':' :: m1 :: m2 :: ':' :: s1 :: s2 :: rest => do
    let hour ← readDigits [h1, h2]
    let minute ← readDigits [m1, m2]
    let second ← readDigits [s1, s2]
    let microsecond ← readFraction rest
    Time.of? hour minute second microsecond
  | _ => none

theorem readFraction_formatFraction {n : ℕ} (h : n < 1000000) :
    readFraction (formatFraction n) = some n := by
  unfold formatFraction
  split_ifs with h0
  · simp [readFraction, h0]
  · have hne : pad 6 n ≠ [] := by
      intro hnil
      simpa [hnil] using pad_length 6 n
    have hread := readDigits_pad (show n < 10 ^ 6 by omega)
    simp only [readFraction]
    rw [if_pos ⟨hne, by simp⟩, hread]
    simp

theorem Time.fromisoformat_fraction (t : Time) {fraction : List Char}
    (h : readFraction fraction = some t.microsecond) :
    Time.fromisoformat
      (pad 2 t.hour ++ ':' :: (pad 2 t.minute ++ ':' :: (pad 2 t.second ++ fraction))) = some t := by
  have hhour := readDigits_pad (show t.hour < 10 ^ 2 by have := t.hour_lt; omega)
  have hminute := readDigits_pad (show t.minute < 10 ^ 2 by have := t.minute_lt; omega)
  have hsecond := readDigits_pad (show t.second < 10 ^ 2 by have := t.second_lt; omega)
  simp only [pad, List.nil_append, List.cons_append] at hhour hminute hsecond
  simp only [Time.fromisoformat, pad, List.nil_append, List.cons_append, hhour, hminute, hsecond, h,
    Option.bind_eq_bind, Option.bind_some]
  exact Time.of?_self t

theorem Time.fromisoformat_isoformat (t : Time) : Time.fromisoformat t.isoformat = some t :=
  t.fromisoformat_fraction (readFraction_formatFraction t.microsecond_lt)

/-! ## Offset-bearing datetimes -/

/-- An aware `datetime.datetime` read from a text; the offset is in minutes. -/
structure Datetime where
  date : Date
  time : Time
  offset : ℤ
  offset_lt : offset.natAbs < 1440
deriving DecidableEq

def formatOffset (offset : ℤ) : List Char :=
  (if offset < 0 then '-' else '+') :: (pad 2 (offset.natAbs / 60) ++
    ':' :: pad 2 (offset.natAbs % 60))

/-- `Z` or `[+-]\d{2}:\d{2}`; minutes from sixty on carry over, and `-00:00` is refused. -/
def readOffset : List Char → Option ℤ
  | ['Z'] => some 0
  | [sign, h1, h2, ':', m1, m2] => do
    let hours ← readDigits [h1, h2]
    let minutes ← readDigits [m1, m2]
    let total := hours * 60 + minutes
    if 1440 ≤ total then none
    else if sign = '+' then some total
    else if sign = '-' ∧ total ≠ 0 then some (-total)
    else none
  | _ => none

/-- The characters of the time part, up to the offset. -/
def isClockChar (c : Char) : Bool := (asciiDigit c).isSome || c == ':' || c == '.'

/-- `datetime.isoformat()`. -/
def Datetime.isoformat (d : Datetime) : List Char :=
  d.date.isoformat ++ 'T' :: (d.time.isoformat ++ formatOffset d.offset)

/-- `datetime.fromisoformat` on an RFC 3339 text. -/
def Datetime.fromisoformat (cs : List Char) : Option Datetime :=
  match cs.drop 10 with
  | 'T' :: rest => do
    let date ← Date.fromisoformat (cs.take 10)
    let time ← Time.fromisoformat (rest.takeWhile isClockChar)
    let offset ← readOffset (rest.dropWhile isClockChar)
    if h : offset.natAbs < 1440 then some ⟨date, time, offset, h⟩ else none
  | _ => none

theorem readOffset_formatOffset {offset : ℤ} (h : offset.natAbs < 1440) :
    readOffset (formatOffset offset) = some offset := by
  have hhours := readDigits_pad (show offset.natAbs / 60 < 10 ^ 2 by omega)
  have hminutes := readDigits_pad (show offset.natAbs % 60 < 10 ^ 2 by omega)
  simp only [pad, List.nil_append, List.cons_append] at hhours hminutes
  have htotal : offset.natAbs / 60 * 60 + offset.natAbs % 60 = offset.natAbs := by omega
  simp only [formatOffset, pad, List.nil_append, List.cons_append, readOffset, hhours, hminutes,
    Option.bind_eq_bind, Option.bind_some, htotal, if_neg (show ¬ 1440 ≤ offset.natAbs by omega)]
  by_cases hneg : offset < 0
  · rw [if_pos hneg, if_neg (by decide), if_pos ⟨rfl, by omega⟩, Option.some.injEq]
    omega
  · rw [if_neg hneg, if_pos rfl, Option.some.injEq]
    omega

theorem isClockChar_digitChar {n : ℕ} (h : n < 10) : isClockChar (digitChar n) = true := by
  simp [isClockChar, asciiDigit_digitChar h]

theorem isClockChar_pad {width n : ℕ} : ∀ c ∈ pad width n, isClockChar c = true := by
  induction width generalizing n with
  | zero => simp [pad]
  | succ width ih =>
    intro c hc
    rw [pad, List.mem_append, List.mem_singleton] at hc
    rcases hc with hc | rfl
    · exact ih c hc
    · exact isClockChar_digitChar (Nat.mod_lt n (by omega))

theorem isClockChar_time (t : Time) {fraction : List Char}
    (h : ∀ c ∈ fraction, isClockChar c = true) :
    ∀ c ∈ pad 2 t.hour ++ ':' :: (pad 2 t.minute ++ ':' :: (pad 2 t.second ++ fraction)),
      isClockChar c = true := by
  intro c hc
  simp only [List.mem_append, List.mem_cons] at hc
  rcases hc with hc | rfl | hc | rfl | hc | hc
  · exact isClockChar_pad c hc
  · rfl
  · exact isClockChar_pad c hc
  · rfl
  · exact isClockChar_pad c hc
  · exact h c hc

theorem isClockChar_formatFraction (microsecond : ℕ) :
    ∀ c ∈ formatFraction microsecond, isClockChar c = true := by
  intro c hc
  unfold formatFraction at hc
  split_ifs at hc with h0
  · cases hc
  · rcases List.mem_cons.mp hc with rfl | hc
    · rfl
    · exact isClockChar_pad c hc

theorem formatOffset_head (offset : ℤ) : ∃ c cs, formatOffset offset = c :: cs ∧
    isClockChar c = false := by
  refine ⟨_, _, rfl, ?_⟩
  split_ifs <;> rfl

theorem Datetime.fromisoformat_parts (d : Datetime) {clock offset : List Char}
    (hclock : ∀ c ∈ clock, isClockChar c = true)
    (hhead : ∃ c cs, offset = c :: cs ∧ isClockChar c = false)
    (htime : Time.fromisoformat clock = some d.time) (hoffset : readOffset offset = some d.offset) :
    Datetime.fromisoformat (d.date.isoformat ++ 'T' :: (clock ++ offset)) = some d := by
  obtain ⟨c, cs, hcons, hc⟩ := hhead
  have hlen : d.date.isoformat.length = 10 := d.date.isoformat_length
  have hdrop : (d.date.isoformat ++ 'T' :: (clock ++ offset)).drop 10 = 'T' :: (clock ++ offset) := by
    rw [← hlen, List.drop_left]
  have htake : (d.date.isoformat ++ 'T' :: (clock ++ offset)).take 10 = d.date.isoformat := by
    rw [← hlen, List.take_left]
  have hspan : (clock ++ offset).takeWhile isClockChar = clock := by
    rw [List.takeWhile_append_of_pos hclock, hcons]
    simp [hc]
  have hrest : (clock ++ offset).dropWhile isClockChar = offset := by
    rw [List.dropWhile_append_of_pos hclock, hcons]
    simp [hc]
  simp only [Datetime.fromisoformat, hdrop, htake, hspan, hrest, Date.fromisoformat_isoformat,
    htime, hoffset, Option.bind_eq_bind, Option.bind_some]
  exact dif_pos d.offset_lt

theorem Datetime.fromisoformat_isoformat (d : Datetime) :
    Datetime.fromisoformat d.isoformat = some d :=
  d.fromisoformat_parts
    (isClockChar_time d.time (isClockChar_formatFraction d.time.microsecond))
    (formatOffset_head d.offset) d.time.fromisoformat_isoformat
    (readOffset_formatOffset d.offset_lt)

/-! ## Instants -/

def microsPerDay : ℤ := 86400000000

/-- `datetime.max`, in microseconds from `datetime.min`. -/
def maxMoment : ℤ := 3652059 * microsPerDay - 1

/-- Whether `datetime` can represent a moment. -/
def InRange (moment : ℤ) : Prop := 0 ≤ moment ∧ moment ≤ maxMoment

instance (moment : ℤ) : Decidable (InRange moment) := by
  unfold InRange
  infer_instance

def Time.micros (t : Time) : ℤ :=
  (((t.hour * 60 + t.minute) * 60 + t.second) * 1000000 + t.microsecond : ℕ)

/-- The UTC moment of an aware datetime. Comparisons of aware datetimes compare these. -/
def Datetime.moment (d : Datetime) : ℤ :=
  ((d.date.ordinal : ℤ) - 1) * microsPerDay + d.time.micros - d.offset * 60000000

/-- The ordinal of the calendar day of a wall time. -/
def dayOf (wall : ℤ) : ℕ := (wall / microsPerDay).toNat + 1

/-- A time zone: the offset at a UTC moment, and the offset that an earlier-fold wall time has. -/
structure ZoneInfo where
  key : String
  offsetAt : ℤ → ℤ
  offsetOfWall : ℤ → ℤ

/-- An aware request clock: a wall time and its offset, in microseconds. -/
structure Clock where
  wall : ℤ
  offset : ℤ
  wall_range : InRange wall

end AskLens.Python
