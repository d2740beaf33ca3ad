import AskLens.Compiler.RelativeFilters
import AskLens.Python.Ordinals

/-!
# Relative windows

Months are subtracted on the wall clock. Two targets of one wall time are at
least 28 days apart, which is more than offsets of less than a day can make up
for, so a longer window starts strictly earlier.
-/
namespace AskLens.Compiler

open Python Catalog Planning Checks

/-! ## Calendar fields of a wall time -/

def yearOf (wall : ℤ) : ℕ := (ofOrdinal (dayOf wall)).1

def monthOf (wall : ℤ) : ℕ := (ofOrdinal (dayOf wall)).2.1

def dayOfMonth (wall : ℤ) : ℕ := (ofOrdinal (dayOf wall)).2.2

/-- The number of the calendar month; December of year zero has number 12. -/
def monthNumber (wall : ℤ) : ℤ := 12 * yearOf wall + monthOf wall

/-- `target` has the time of day of `wall` in the month `n` months earlier, on the same day or
on the last one that the month has. -/
structure MonthsEarlier (wall n target : ℤ) : Prop where
  inRange : InRange target
  month : monthNumber target = monthNumber wall - n
  day : dayOfMonth target = min (dayOfMonth wall) (daysInMonth (yearOf target) (monthOf target))
  time : target % microsPerDay = wall % microsPerDay

theorem dayOf_pos (wall : ℤ) : 1 ≤ dayOf wall := Nat.le_add_left _ _

/-- The month of a wall time, counted from January of year one, and the day in it. -/
structure LiesIn (wall : ℤ) (month day : ℕ) : Prop where
  day_pos : 1 ≤ day
  day_le : day ≤ monthLength month
  ordinal : dayOf wall = monthStart month + day

theorem exists_liesIn (wall : ℤ) : ∃ month day, LiesIn wall month day := by
  obtain ⟨month, day, -, hpos, hle, heq⟩ := ofOrdinal_spec (dayOf_pos wall)
  exact ⟨month, day, hpos, hle, heq.symm⟩

section

variable {wall n : ℤ} {month day : ℕ}

theorem LiesIn.ofOrdinal (h : LiesIn wall month day) :
    ofOrdinal (dayOf wall) = (month / 12 + 1, month % 12 + 1, day) := by
  rw [h.ordinal]
  exact ofOrdinal_month h.day_pos h.day_le

theorem LiesIn.monthNumber (h : LiesIn wall month day) : monthNumber wall = month + 13 := by
  simp only [Compiler.monthNumber, yearOf, monthOf, h.ofOrdinal]
  omega

theorem liesIn_of_ordinal (hpos : 1 ≤ day) (hle : day ≤ monthLength month)
    (htime : 0 ≤ n ∧ n < microsPerDay) :
    LiesIn (((monthStart month + day : ℕ) - 1 : ℤ) * microsPerDay + n) month day := by
  refine ⟨hpos, hle, ?_⟩
  have hday : (((monthStart month + day : ℕ) - 1 : ℤ) * microsPerDay + n) / microsPerDay =
      (monthStart month + day : ℕ) - 1 := by
    rw [add_comm, Int.add_mul_ediv_right _ _ (by decide), Int.ediv_eq_zero_of_lt htime.1 htime.2,
      zero_add]
  rw [dayOf, hday]
  omega

theorem LiesIn.month_lt (h : LiesIn wall month day) (hwall : InRange wall) : month < 119988 := by
  by_contra hge
  have hstart : monthStart 119988 ≤ monthStart month := by
    rcases Nat.lt_or_eq_of_le (not_lt.mp hge) with hlt | heq
    · exact (Nat.le_add_right _ _).trans (monthStart_add_le hlt)
    · rw [heq]
  have hlast : monthStart 119988 = 3652059 := by decide
  have hordinal := h.ordinal
  have hday := h.day_pos
  have hhigh := hwall.2
  simp only [dayOf, maxMoment, microsPerDay] at hordinal hhigh
  omega

theorem subtractMonths_eq (h : LiesIn wall month day) (hwall : InRange wall) (hn : 1 ≤ n) :
    subtractMonths wall n = if n ≤ month then
      some (((monthStart (month - n.toNat) + min day (monthLength (month - n.toNat)) : ℕ) - 1 : ℤ)
        * microsPerDay + wall % microsPerDay)
      else none := by
  have hlast := h.month_lt hwall
  unfold subtractMonths
  simp only [h.ofOrdinal]
  by_cases hle : n ≤ month
  · have hyear : ((month / 12 + 1 : ℕ) : ℤ) + (((month % 12 + 1 : ℕ) : ℤ) - n - 1) / 12 =
        ((month - n.toNat) / 12 + 1 : ℕ) := by omega
    have hmonth : ((((month % 12 + 1 : ℕ) : ℤ) - n - 1) % 12).toNat + 1 =
        (month - n.toNat) % 12 + 1 := by omega
    rw [hyear, hmonth, if_pos (by omega), if_pos hle, Int.toNat_natCast, ordinal_month]
    rfl
  · rw [if_neg hle, if_neg (by omega)]

theorem subtractMonths_eq_some (h : LiesIn wall month day) (hwall : InRange wall) (hn : 1 ≤ n)
    {target : ℤ} (htarget : subtractMonths wall n = some target) :
    n ≤ month ∧ LiesIn target (month - n.toNat) (min day (monthLength (month - n.toNat))) ∧
      target % microsPerDay = wall % microsPerDay ∧ InRange target := by
  rw [subtractMonths_eq h hwall hn] at htarget
  split_ifs at htarget with hle
  obtain rfl := Option.some.inj htarget
  have htime : 0 ≤ wall % microsPerDay ∧ wall % microsPerDay < microsPerDay :=
    ⟨Int.emod_nonneg _ (by decide), Int.emod_lt_of_pos _ (by decide)⟩
  have hpos : 1 ≤ min day (monthLength (month - n.toNat)) := by
    have := monthLength_ge (month - n.toNat)
    have := h.day_pos
    omega
  have hlies := liesIn_of_ordinal hpos (min_le_right _ _) htime
  refine ⟨hle, hlies, ?_, ?_⟩
  · rw [add_comm, Int.add_mul_emod_self_right, Int.emod_emod]
  · have hearlier : monthStart (month - n.toNat) + min day (monthLength (month - n.toNat)) ≤
        monthStart month := by
      have := monthStart_add_le (show month - n.toNat < month by omega)
      omega
    have hordinal := h.ordinal
    have hday := h.day_pos
    have hhigh := hwall.2
    simp only [dayOf, InRange, maxMoment, microsPerDay] at hordinal hhigh htime ⊢
    omega

/-- Subtracting months fails exactly before year one, and otherwise keeps to the calendar. -/
theorem subtractMonths_spec (hwall : InRange wall) (hn : 1 ≤ n) :
    (subtractMonths wall n = none ↔ monthNumber wall - n ≤ 12) ∧
      ∀ target, subtractMonths wall n = some target → MonthsEarlier wall n target := by
  obtain ⟨month, day, h⟩ := exists_liesIn wall
  constructor
  · rw [subtractMonths_eq h hwall hn, h.monthNumber]
    split_ifs with hle
    · simp only [false_iff]
      omega
    · simp only [true_iff]
      omega
  · intro target htarget
    obtain ⟨hle, hlies, htime, hrange⟩ := subtractMonths_eq_some h hwall hn htarget
    refine ⟨hrange, ?_, ?_, htime⟩
    · rw [hlies.monthNumber, h.monthNumber]
      omega
    · simp only [dayOfMonth, yearOf, monthOf, hlies.ofOrdinal, h.ofOrdinal]
      rfl

/-- The days of two months, each cut off at the end of its month, are at least 28 days apart. -/
theorem monthStart_spacing {j k : ℕ} (h : j < k) (day : ℕ) :
    monthStart j + min day (monthLength j) + 28 ≤ monthStart k + min day (monthLength k) := by
  have hnext := monthStart_add_le h
  have hj := monthLength_ge j
  have hk := monthLength_ge k
  have hle := monthLength_le j
  omega

/-- Wall times with one time of day that lie `days` days apart. -/
theorem wall_spacing {early late : ℤ} {days : ℕ} (hlate : 0 ≤ late)
    (htime : early % microsPerDay = late % microsPerDay)
    (h : dayOf early + days ≤ dayOf late) : early + days * microsPerDay ≤ late := by
  simp only [dayOf, microsPerDay] at h htime ⊢
  omega

end

/-! ## Windows -/

section

variable {zone : ZoneInfo} {now : Clock} {op : FilterOperator} {wall n m start start' stop : ℤ}

theorem subtractMonths_earlier {target : ℤ} (hwall : InRange wall) (hn : 1 ≤ n)
    (htarget : subtractMonths wall n = some target) : target + 28 * microsPerDay ≤ wall := by
  obtain ⟨month, day, h⟩ := exists_liesIn wall
  obtain ⟨hle, hlies, htime, -⟩ := subtractMonths_eq_some h hwall hn htarget
  apply wall_spacing hwall.1 htime
  have hspacing := monthStart_spacing (show month - n.toNat < month by omega) day
  rw [min_eq_left h.day_le] at hspacing
  rw [hlies.ordinal, h.ordinal]
  exact hspacing

/-- Subtracting more months leads at least 28 days further back. -/
theorem subtractMonths_spacing {target target' : ℤ} (hwall : InRange wall) (hn : 1 ≤ n)
    (hnm : n < m) (htarget : subtractMonths wall n = some target)
    (htarget' : subtractMonths wall m = some target') :
    target' + 28 * microsPerDay ≤ target := by
  obtain ⟨month, day, h⟩ := exists_liesIn wall
  obtain ⟨hle, hlies, htime, hrange⟩ := subtractMonths_eq_some h hwall hn htarget
  obtain ⟨hle', hlies', htime', -⟩ := subtractMonths_eq_some h hwall (hn.trans hnm.le) htarget'
  apply wall_spacing hrange.1 (htime'.trans htime.symm)
  rw [hlies'.ordinal, hlies.ordinal]
  exact monthStart_spacing (by omega) day

theorem relativeDatetimeBounds_ok (h : relativeDatetimeBounds op n now zone = .ok (start, stop)) :
    stop = clockMoment now ∧
      ((op = .lastNDays ∧ daysBefore (clockMoment now) n = some start) ∨
        (op = .lastNMonths ∧ monthsBefore zone (clockMoment now) n = some start)) := by
  by_cases hrelative : isRelative op = true
  · have hbounds : relativeDatetimeBounds op n now zone = _ :=
      relativeDatetimeBounds_eq (x := ⟨"", op, .scalar (.int none n)⟩) hrelative rfl
    rw [hbounds] at h
    split_ifs at h with hclock
    cases hstart : windowStart zone (clockMoment now) ⟨"", op, .scalar (.int none n)⟩ with
    | none =>
      rw [hstart] at h
      cases h
    | some s =>
      rw [hstart] at h
      obtain ⟨rfl, rfl⟩ : s = start ∧ clockMoment now = stop := by simpa using h
      refine ⟨rfl, ?_⟩
      have hop : op = .lastNDays ∨ op = .lastNMonths := by simpa [isRelative] using hrelative
      rcases hop with rfl | rfl
      · exact .inl ⟨rfl, hstart⟩
      · exact .inr ⟨rfl, hstart⟩
  · obtain ⟨current, -, h⟩ := bind_eq_ok.mp h
    cases op <;> first | exact absurd rfl hrelative | cases h

theorem start_lt_stop (hzone : ∀ moment, |zone.offsetAt moment| < microsPerDay)
    (hwall : ∀ wall, |zone.offsetOfWall wall| < microsPerDay) (hn : 1 ≤ n)
    (h : relativeDatetimeBounds op n now zone = .ok (start, stop)) : start < stop := by
  obtain ⟨rfl, ⟨-, hdays⟩ | ⟨-, hmonths⟩⟩ := relativeDatetimeBounds_ok h
  · obtain ⟨rfl, -⟩ := daysBefore_eq_some.mp hdays
    have : 0 < n * microsPerDay := Int.mul_pos (by omega) (by decide)
    omega
  · obtain ⟨target, hrenders, htarget, rfl, -⟩ := monthsBefore_eq_some hmonths
    have hearlier := subtractMonths_earlier hrenders hn htarget
    have hlocal := abs_lt.mp (hzone (clockMoment now))
    have hoffset := abs_lt.mp (hwall target)
    simp only [microsPerDay] at hearlier hlocal hoffset
    omega

theorem start_strictAnti (hwall : ∀ wall, |zone.offsetOfWall wall| < microsPerDay) (hn : 1 ≤ n)
    (hnm : n < m) (h : relativeDatetimeBounds op n now zone = .ok (start, stop)) {stop' : ℤ}
    (h' : relativeDatetimeBounds op m now zone = .ok (start', stop')) : start' < start := by
  obtain ⟨-, ⟨hop, hdays⟩ | ⟨hop, hmonths⟩⟩ := relativeDatetimeBounds_ok h
  · obtain ⟨-, ⟨-, hdays'⟩ | ⟨hop', -⟩⟩ := relativeDatetimeBounds_ok h'
    · obtain ⟨rfl, -⟩ := daysBefore_eq_some.mp hdays
      obtain ⟨rfl, -⟩ := daysBefore_eq_some.mp hdays'
      simp only [microsPerDay]
      omega
    · rw [hop] at hop'
      cases hop'
  · obtain ⟨-, ⟨hop', -⟩ | ⟨-, hmonths'⟩⟩ := relativeDatetimeBounds_ok h'
    · rw [hop] at hop'
      cases hop'
    · obtain ⟨target, hrenders, htarget, rfl, -⟩ := monthsBefore_eq_some hmonths
      obtain ⟨target', -, htarget', rfl, -⟩ := monthsBefore_eq_some hmonths'
      have hspacing := subtractMonths_spacing hrenders hn hnm htarget htarget'
      have hoffset := abs_lt.mp (hwall target)
      have hoffset' := abs_lt.mp (hwall target')
      simp only [microsPerDay] at hspacing hoffset hoffset'
      omega

/-- A longer window starts strictly earlier and ends at the same clock value, and months are
subtracted on the calendar. -/
theorem windows_nested_on_calendar (hzone : ∀ moment, |zone.offsetAt moment| < microsPerDay)
    (hwall : ∀ wall, |zone.offsetOfWall wall| < microsPerDay) :
    (∀ op now n m start stop start' stop', 1 ≤ n → n < m →
      relativeDatetimeBounds op n now zone = .ok (start, stop) →
        relativeDatetimeBounds op m now zone = .ok (start', stop') →
          start' < start ∧ start < stop ∧ stop = clockMoment now ∧ stop' = clockMoment now) ∧
    ∀ wall n, InRange wall → 1 ≤ n →
      (subtractMonths wall n = none ↔ monthNumber wall - n ≤ 12) ∧
        ∀ target, subtractMonths wall n = some target → MonthsEarlier wall n target := by
  constructor
  · intro op now n m start stop start' stop' hn hnm h h'
    exact ⟨start_strictAnti hwall hn hnm h h', start_lt_stop hzone hwall hn h,
      (relativeDatetimeBounds_ok h).1, (relativeDatetimeBounds_ok h').1⟩
  · intro wall n hrange hn
    exact subtractMonths_spec hrange hn

/-- Four hours behind UTC, and five from 2023-11-05T06:00:00Z on. -/
def autumn : ZoneInfo where
  key := "America/New_York"
  offsetAt moment := if moment < 63834760800000000 then -14400000000 else -18000000000
  offsetOfWall wall := if wall < 63834746400000000 then -14400000000 else -18000000000

/-- At the new year two months begin on 2023-10-31T23:00:00Z, before one month does on
2023-12-01T00:00:00Z: the hours of the wall clock are kept. -/
theorem autumn_windows_nested :
    relativeDatetimeBounds .lastNMonths 1 Sample.newYear autumn =
        .ok (63836985600000000, 63839664000000000) ∧
      relativeDatetimeBounds .lastNMonths 2 Sample.newYear autumn =
        .ok (63834390000000000, 63839664000000000) ∧
      (63834390000000000 : ℤ) < 63836985600000000 ∧
      clockMoment Sample.newYear = 63839664000000000 ∧
      (subtractMonths 63839664000000000 24277 = none ↔
        monthNumber 63839664000000000 - 24277 ≤ 12) := by
  have hone : relativeDatetimeBounds .lastNMonths 1 Sample.newYear autumn =
      .ok (63836985600000000, 63839664000000000) := by decide +kernel
  have htwo : relativeDatetimeBounds .lastNMonths 2 Sample.newYear autumn =
      .ok (63834390000000000, 63839664000000000) := by decide +kernel
  have hzone : ∀ moment, |autumn.offsetAt moment| < microsPerDay := by
    intro moment
    unfold autumn
    dsimp only
    split_ifs <;> decide
  have hwall : ∀ wall, |autumn.offsetOfWall wall| < microsPerDay := by
    intro wall
    unfold autumn
    dsimp only
    split_ifs <;> decide
  obtain ⟨hnested, hmonths⟩ := windows_nested_on_calendar hzone hwall
  obtain ⟨hstart, -, hstop, -⟩ := hnested _ _ 1 2 _ _ _ _ le_rfl one_lt_two hone htwo
  have hrange : InRange 63839664000000000 := by decide
  exact ⟨hone, htwo, hstart, hstop.symm, (hmonths _ 24277 hrange (by decide)).1⟩

end

end AskLens.Compiler
