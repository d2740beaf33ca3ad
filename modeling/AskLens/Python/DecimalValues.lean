import AskLens.Python.Numbers
import AskLens.Python.Ordinals
import Mathlib.Algebra.Field.Rat
import Mathlib.Tactic.NormNum

/-!
# Values of texts

The number that a decimal text denotes, and that dates, times of day and
instants at one offset are determined by their counts.
-/
namespace AskLens.Python

/-- The sign, the coefficient and the exponent that `Decimal(text)` reads. -/
def decimalParts (unicode : Unicode) (text : String) : Bool × ℕ × ℤ :=
  let cs := ((stripBy isSpace text.toList).filter (· != '_')).map (toAsciiDigit unicode)
  let int := (dropSign cs).takeWhile isAsciiDigit
  let rest := (dropSign cs).dropWhile isAsciiDigit
  let fraction := if rest.head? = some '.' then (rest.drop 1).takeWhile isAsciiDigit else []
  let rest := if rest.head? = some '.' then (rest.drop 1).dropWhile isAsciiDigit else rest
  (cs.head? == some '-', (readDigits (int ++ fraction)).getD 0,
    (readExponent rest).getD 0 - fraction.length)

/-- The number that a finite decimal text denotes. -/
def decimalValue (unicode : Unicode) (text : String) : Option ℚ :=
  if decimalKind unicode text = .finite then
    let (negative, coefficient, exponent) := decimalParts unicode text
    some ((if negative then -1 else 1) * coefficient * (10 : ℚ) ^ exponent)
  else none

/-- A date lies in the month with its index, counted from the start of year one. -/
theorem Date.month_index (d : Date) : ∃ month, d.year = month / 12 + 1 ∧
    d.month = month % 12 + 1 := by
  have hyear := d.year_range
  have hmonth := d.month_range
  exact ⟨12 * (d.year - 1) + (d.month - 1), by omega, by omega⟩

theorem Date.eq_of_ordinal_eq {d e : Date} (h : d.ordinal = e.ordinal) : d = e := by
  obtain ⟨j, hyear, hmonth⟩ := d.month_index
  obtain ⟨k, hyear', hmonth'⟩ := e.month_index
  have hday := d.day_range
  have hday' := e.day_range
  rw [hyear, hmonth] at hday
  rw [hyear', hmonth'] at hday'
  rw [Date.ordinal, Date.ordinal, hyear, hmonth, hyear', hmonth', ordinal_month,
    ordinal_month] at h
  obtain ⟨rfl, hsame⟩ := month_unique h hday.1 hday.2 hday'.1 hday'.2
  cases d
  cases e
  simp_all

theorem Time.micros_lt (t : Time) : 0 ≤ t.micros ∧ t.micros < microsPerDay := by
  have hhour := t.hour_lt
  have hminute := t.minute_lt
  have hsecond := t.second_lt
  have hmicro := t.microsecond_lt
  unfold Time.micros microsPerDay
  omega

theorem Time.eq_of_micros_eq {t u : Time} (h : t.micros = u.micros) : t = u := by
  obtain ⟨hour, minute, second, microsecond, _, _, _, _⟩ := t
  obtain ⟨hour', minute', second', microsecond', _, _, _, _⟩ := u
  simp only [Time.micros, Nat.cast_inj] at h
  obtain rfl : hour = hour' := by omega
  obtain rfl : minute = minute' := by omega
  obtain rfl : second = second' := by omega
  obtain rfl : microsecond = microsecond' := by omega
  rfl

/-- Two datetimes at one offset that are the same instant are the same. -/
theorem Datetime.eq_of_moment_eq {a b : Datetime} (h : a.moment = b.moment)
    (hoffset : a.offset = b.offset) : a = b := by
  have ha := a.time.micros_lt
  have hb := b.time.micros_lt
  unfold Datetime.moment at h
  rw [hoffset] at h
  unfold microsPerDay at h ha hb
  have hordinal : a.date.ordinal = b.date.ordinal := by omega
  have hmicros : a.time.micros = b.time.micros := by omega
  have hdate := Date.eq_of_ordinal_eq hordinal
  have htime := Time.eq_of_micros_eq hmicros
  cases a
  cases b
  simp_all

end AskLens.Python
