import AskLens.Python.Calendar
import Mathlib.Data.List.Induction
import Mathlib.Data.Nat.Digits.Defs

/-!
# What temporal texts denote

The form of RFC 3339 texts and the numbers at their places, whatever program
reads them. `fromisoformat` reads these numbers and no others.
-/
namespace AskLens.Python

/-! ## Digits -/

/-- `[0-9]*`. -/
def isDigitText (cs : List Char) : Bool := cs.all fun c => (asciiDigit c).isSome

/-- The number that decimal digits write. -/
def positionalValue (cs : List Char) : ℕ := Nat.ofDigits 10 (cs.reverse.map fun c => c.toNat - 48)

theorem positionalValue_append_digit (cs : List Char) (c : Char) :
    positionalValue (cs ++ [c]) = positionalValue cs * 10 + (c.toNat - 48) := by
  simp only [positionalValue, List.reverse_append, List.reverse_singleton, List.singleton_append,
    List.map_cons, Nat.ofDigits_cons]
  omega

theorem readDigits_eq_some_iff {cs : List Char} {n : ℕ} :
    readDigits cs = some n ↔ isDigitText cs = true ∧ positionalValue cs = n := by
  induction cs using List.reverseRecOn generalizing n with
  | nil => simp [readDigits, isDigitText, positionalValue]
  | append_singleton cs c ih =>
    rw [readDigits_append_digit, positionalValue_append_digit]
    have hall : isDigitText (cs ++ [c]) = (isDigitText cs && (asciiDigit c).isSome) := by
      simp [isDigitText]
    rw [hall, Bool.and_eq_true]
    cases hread : readDigits cs with
    | none =>
      have hcs : isDigitText cs ≠ true := by
        intro hdigits
        rw [ih.mpr ⟨hdigits, rfl⟩] at hread
        cases hread
      simp [hcs]
    | some m =>
      obtain ⟨hdigits, hvalue⟩ := ih.mp hread
      unfold asciiDigit
      split_ifs with hc <;> simp [hdigits, hvalue]

/-! ## Dates -/

/-- `[0-9]{4}-[0-9]{2}-[0-9]{2}`. -/
def isDateText (cs : List Char) : Bool :=
  cs.length == 10 && isDigitText (cs.take 4) && cs[4]? == some '-' &&
    isDigitText ((cs.drop 5).take 2) && cs[7]? == some '-' && isDigitText (cs.drop 8)

/-- The year, the month and the day. -/
def dateNumbers (cs : List Char) : ℕ × ℕ × ℕ :=
  (positionalValue (cs.take 4), positionalValue ((cs.drop 5).take 2), positionalValue (cs.drop 8))

theorem Date.of?_eq_some {year month day : ℕ} {d : Date} (h : Date.of? year month day = some d) :
    d.year = year ∧ d.month = month ∧ d.day = day := by
  unfold Date.of? at h
  split_ifs at h
  obtain rfl := Option.some.inj h
  exact ⟨rfl, rfl, rfl⟩

theorem Date.fromisoformat_eq_some {cs : List Char} {d : Date} (h : fromisoformat cs = some d) :
    isDateText cs = true ∧ dateNumbers cs = (d.year, d.month, d.day) := by
  unfold fromisoformat at h
  split at h
  · obtain ⟨year, hyear, h⟩ := Option.bind_eq_some_iff.mp h
    obtain ⟨month, hmonth, h⟩ := Option.bind_eq_some_iff.mp h
    obtain ⟨day, hday, h⟩ := Option.bind_eq_some_iff.mp h
    obtain ⟨hdigits, hyear⟩ := readDigits_eq_some_iff.mp hyear
    obtain ⟨hdigits', hmonth⟩ := readDigits_eq_some_iff.mp hmonth
    obtain ⟨hdigits'', hday⟩ := readDigits_eq_some_iff.mp hday
    obtain ⟨rfl, rfl, rfl⟩ := Date.of?_eq_some h
    simp [isDateText, dateNumbers, *]
  · cases h

/-! ## Times of day -/

/-- `(?:\.[0-9]{1,6})?`. -/
def isFractionText : List Char → Bool
  | [] => true
  | '.' :: ds => ds != [] && decide (ds.length ≤ 6) && isDigitText ds
  | _ => false

def fractionMicros (cs : List Char) : ℕ := positionalValue (cs.drop 1) * 10 ^ (7 - cs.length)

/-- `[0-9]{2}:[0-9]{2}:[0-9]{2}(?:\.[0-9]{1,6})?`. -/
def isTimeText (cs : List Char) : Bool :=
  decide (8 ≤ cs.length) && isDigitText (cs.take 2) && cs[2]? == some ':' &&
    isDigitText ((cs.drop 3).take 2) && cs[5]? == some ':' && isDigitText ((cs.drop 6).take 2) &&
    isFractionText (cs.drop 8)

/-- The hour, the minute, the second and the microsecond. -/
def timeNumbers (cs : List Char) : ℕ × ℕ × ℕ × ℕ :=
  (positionalValue (cs.take 2), positionalValue ((cs.drop 3).take 2), positionalValue ((cs.drop 6).take 2),
    fractionMicros (cs.drop 8))

def clockMicros (cs : List Char) : ℕ :=
  let (hour, minute, second, microsecond) := timeNumbers cs
  ((hour * 60 + minute) * 60 + second) * 1000000 + microsecond

theorem readFraction_eq_some {cs : List Char} {n : ℕ} (h : readFraction cs = some n) :
    isFractionText cs = true ∧ fractionMicros cs = n := by
  unfold readFraction at h
  split at h
  · simpa [isFractionText, fractionMicros, positionalValue] using h
  · split_ifs at h with hlength
    obtain ⟨value, hread, rfl⟩ := Option.map_eq_some_iff.mp h
    obtain ⟨hdigits, rfl⟩ := readDigits_eq_some_iff.mp hread
    simp [isFractionText, fractionMicros, hdigits, hlength.1, hlength.2]
  · cases h

theorem Time.of?_eq_some {hour minute second microsecond : ℕ} {t : Time}
    (h : Time.of? hour minute second microsecond = some t) :
    t.hour = hour ∧ t.minute = minute ∧ t.second = second ∧ t.microsecond = microsecond := by
  unfold Time.of? at h
  split_ifs at h
  obtain rfl := Option.some.inj h
  exact ⟨rfl, rfl, rfl, rfl⟩

theorem Time.fromisoformat_eq_some {cs : List Char} {t : Time} (h : fromisoformat cs = some t) :
    isTimeText cs = true ∧ timeNumbers cs = (t.hour, t.minute, t.second, t.microsecond) := by
  unfold fromisoformat at h
  split at h
  · obtain ⟨hour, hhour, h⟩ := Option.bind_eq_some_iff.mp h
    obtain ⟨minute, hminute, h⟩ := Option.bind_eq_some_iff.mp h
    obtain ⟨second, hsecond, h⟩ := Option.bind_eq_some_iff.mp h
    obtain ⟨microsecond, hmicrosecond, h⟩ := Option.bind_eq_some_iff.mp h
    obtain ⟨hdigits, hhour⟩ := readDigits_eq_some_iff.mp hhour
    obtain ⟨hdigits', hminute⟩ := readDigits_eq_some_iff.mp hminute
    obtain ⟨hdigits'', hsecond⟩ := readDigits_eq_some_iff.mp hsecond
    obtain ⟨hfraction, hmicrosecond⟩ := readFraction_eq_some hmicrosecond
    obtain ⟨rfl, rfl, rfl, rfl⟩ := Time.of?_eq_some h
    simp [isTimeText, timeNumbers, *]
  · cases h

/-! ## Offsets -/

/-- `Z|[+-][0-9]{2}:[0-9]{2}`. -/
def isOffsetText (cs : List Char) : Bool :=
  cs == ['Z'] || (cs.length == 6 && (cs.head? == some '+' || cs.head? == some '-') &&
    isDigitText ((cs.drop 1).take 2) && cs[3]? == some ':' && isDigitText (cs.drop 4))

def offsetMinutes (cs : List Char) : ℤ :=
  let minutes := positionalValue ((cs.drop 1).take 2) * 60 + positionalValue (cs.drop 4)
  if cs.head? = some '-' then -minutes else minutes

theorem readOffset_eq_some {cs : List Char} {offset : ℤ} (h : readOffset cs = some offset) :
    isOffsetText cs = true ∧ offsetMinutes cs = offset := by
  unfold readOffset at h
  split at h
  · simpa [isOffsetText, offsetMinutes, positionalValue] using h
  · obtain ⟨hours, hhours, h⟩ := Option.bind_eq_some_iff.mp h
    obtain ⟨minutes, hminutes, h⟩ := Option.bind_eq_some_iff.mp h
    obtain ⟨hdigits, hhours⟩ := readDigits_eq_some_iff.mp hhours
    obtain ⟨hdigits', hminutes⟩ := readDigits_eq_some_iff.mp hminutes
    dsimp only at h
    split_ifs at h with hlong hplus hminus
    · obtain rfl := Option.some.inj h
      simp [isOffsetText, offsetMinutes, *]
    · obtain rfl := Option.some.inj h
      simp [isOffsetText, offsetMinutes, *]
  · cases h

/-! ## Offset-bearing datetimes -/

/-- The part between the `T` and the offset. -/
def timePart (cs : List Char) : List Char := (cs.drop 11).takeWhile isClockChar

def offsetPart (cs : List Char) : List Char := (cs.drop 11).dropWhile isClockChar

def isDatetimeText (cs : List Char) : Bool :=
  isDateText (cs.take 10) && cs[10]? == some 'T' && isTimeText (timePart cs) &&
    isOffsetText (offsetPart cs)

def statedOffset (cs : List Char) : ℤ := offsetMinutes (offsetPart cs)

/-- The UTC moment that the text denotes, in microseconds from the start of year one. -/
def textMoment (cs : List Char) : ℤ :=
  let (year, month, day) := dateNumbers (cs.take 10)
  ((ordinal year month day : ℤ) - 1) * microsPerDay + clockMicros (timePart cs) -
    statedOffset cs * 60000000

theorem Datetime.fromisoformat_numbers {cs : List Char} {d : Datetime}
    (h : fromisoformat cs = some d) :
    isDatetimeText cs = true ∧
      dateNumbers (cs.take 10) = (d.date.year, d.date.month, d.date.day) ∧
      timeNumbers (timePart cs) = (d.time.hour, d.time.minute, d.time.second, d.time.microsecond) ∧
      statedOffset cs = d.offset := by
  unfold fromisoformat at h
  split at h
  · rename_i rest hrest
    obtain ⟨date, hdate, h⟩ := Option.bind_eq_some_iff.mp h
    obtain ⟨time, htime, h⟩ := Option.bind_eq_some_iff.mp h
    obtain ⟨offset, hoffset, h⟩ := Option.bind_eq_some_iff.mp h
    split_ifs at h
    obtain rfl := Option.some.inj h
    have hT : cs[10]? = some 'T' := by
      rw [← List.head?_drop, hrest]
      rfl
    have hdrop : cs.drop 11 = rest := by
      rw [← List.tail_drop, hrest]
      rfl
    obtain ⟨hdate, hnumbers⟩ := Date.fromisoformat_eq_some hdate
    obtain ⟨htime, hclock⟩ := Time.fromisoformat_eq_some htime
    obtain ⟨hoffset, hminutes⟩ := readOffset_eq_some hoffset
    rw [statedOffset, timePart, offsetPart, hdrop]
    refine ⟨?_, hnumbers, hclock, hminutes⟩
    simp [isDatetimeText, timePart, offsetPart, *]
  · cases h

theorem Datetime.fromisoformat_eq_some {cs : List Char} {d : Datetime}
    (h : fromisoformat cs = some d) :
    isDatetimeText cs = true ∧ statedOffset cs = d.offset ∧ textMoment cs = d.moment := by
  obtain ⟨hform, hdate, htime, hoffset⟩ := fromisoformat_numbers h
  refine ⟨hform, hoffset, ?_⟩
  simp only [textMoment, clockMicros, hdate, htime, hoffset]
  rfl

end AskLens.Python
