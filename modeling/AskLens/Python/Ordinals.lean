import AskLens.Python.Calendar

/-!
# Months and ordinals

Months are counted from January of year one. The days of consecutive months
follow each other without a gap, so an ordinal lies in exactly one month, and
`ofOrdinal` finds it.
-/
namespace AskLens.Python

theorem isLeap_iff {year : ℕ} :
    isLeap year = true ↔ year % 4 = 0 ∧ (year % 100 ≠ 0 ∨ year % 400 = 0) := by
  simp [isLeap]

def daysBeforeYear (year : ℕ) : ℕ :=
  (year - 1) * 365 + (year - 1) / 4 - (year - 1) / 100 + (year - 1) / 400

theorem daysBeforeYear_succ {year : ℕ} (h : 1 ≤ year) :
    daysBeforeYear (year + 1) = daysBeforeYear year + (if isLeap year then 366 else 365) := by
  obtain ⟨y, rfl⟩ : ∃ y, year = y + 1 := ⟨year - 1, by omega⟩
  have hcentury : y / 100 ≤ y := Nat.div_le_self y 100
  simp only [daysBeforeYear, Nat.add_sub_cancel, Nat.succ_div, isLeap_iff]
  by_cases h4 : 4 ∣ y + 1
  · by_cases h100 : 100 ∣ y + 1
    · by_cases h400 : 400 ∣ y + 1
      · rw [if_pos h4, if_pos h100, if_pos h400, if_pos (by omega)]
        omega
      · rw [if_pos h4, if_pos h100, if_neg h400, if_neg (by omega)]
        omega
    · rw [if_pos h4, if_neg h100, if_neg (by omega), if_pos (by omega)]
      omega
  · rw [if_neg h4, if_neg (by omega), if_neg (by omega), if_neg (by omega)]
    omega

theorem daysBeforeMonth_succ {year month : ℕ} (h : 1 ≤ month) (h' : month < 12) :
    daysBeforeMonth year (month + 1) = daysBeforeMonth year month + daysInMonth year month := by
  cases hleap : isLeap year <;> interval_cases month <;>
    simp [daysBeforeMonth, daysInMonth, hleap]

theorem daysBeforeMonth_december (year : ℕ) :
    daysBeforeMonth year 12 + daysInMonth year 12 = if isLeap year then 366 else 365 := by
  cases hleap : isLeap year <;> simp [daysBeforeMonth, daysInMonth, hleap]

theorem daysInMonth_ge (year month : ℕ) : 28 ≤ daysInMonth year month := by
  unfold daysInMonth
  split_ifs <;> omega

/-! ## Months -/

def monthStart (month : ℕ) : ℕ :=
  daysBeforeYear (month / 12 + 1) + daysBeforeMonth (month / 12 + 1) (month % 12 + 1)

def monthLength (month : ℕ) : ℕ := daysInMonth (month / 12 + 1) (month % 12 + 1)

theorem monthLength_le (month : ℕ) : monthLength month ≤ 31 := daysInMonth_le _ _

theorem monthLength_ge (month : ℕ) : 28 ≤ monthLength month := daysInMonth_ge _ _

theorem ordinal_month (month day : ℕ) :
    ordinal (month / 12 + 1) (month % 12 + 1) day = monthStart month + day := rfl

theorem monthStart_succ (month : ℕ) :
    monthStart (month + 1) = monthStart month + monthLength month := by
  unfold monthStart monthLength
  by_cases hlast : month % 12 = 11
  · have hyear : (month + 1) / 12 = month / 12 + 1 := by omega
    have hmonth : (month + 1) % 12 = 0 := by omega
    have hjanuary : daysBeforeMonth (month / 12 + 1 + 1) (0 + 1) = 0 := by
      simp [daysBeforeMonth]
    have hdecember : daysBeforeMonth (month / 12 + 1) (11 + 1) +
        daysInMonth (month / 12 + 1) (11 + 1) = _ := daysBeforeMonth_december _
    have hnext : daysBeforeYear (month / 12 + 1 + 1) = _ := daysBeforeYear_succ (by omega)
    rw [hyear, hmonth, hlast, hjanuary, hnext]
    omega
  · have hyear : (month + 1) / 12 = month / 12 := by omega
    have hmonth : (month + 1) % 12 = month % 12 + 1 := by omega
    have hnext : daysBeforeMonth (month / 12 + 1) (month % 12 + 1 + 1) = _ :=
      daysBeforeMonth_succ (by omega) (by omega)
    rw [hyear, hmonth, hnext]
    omega

theorem monthStart_add_le {j k : ℕ} (h : j < k) :
    monthStart j + monthLength j ≤ monthStart k := by
  induction k with
  | zero => omega
  | succ k ih =>
    rw [monthStart_succ]
    rcases Nat.lt_succ_iff_lt_or_eq.mp h with hlt | rfl
    · have := ih hlt
      omega
    · omega

theorem month_unique {j k c d : ℕ} (h : monthStart j + c = monthStart k + d) (hc : 1 ≤ c)
    (hcj : c ≤ monthLength j) (hd : 1 ≤ d) (hdk : d ≤ monthLength k) : j = k ∧ c = d := by
  rcases Nat.lt_trichotomy j k with hlt | rfl | hgt
  · have := monthStart_add_le hlt
    omega
  · omega
  · have := monthStart_add_le hgt
    omega

/-! ## Ordinals -/

/-- The search for the month of the day `n` of a year, in both kinds of years. -/
theorem month_guess (year : ℕ) : ∀ n < 365,
    let guess := (n + 50) / 32
    let month := if n < daysBeforeMonth year guess then guess - 1 else guess
    1 ≤ month ∧ month ≤ 12 ∧ daysBeforeMonth year month ≤ n ∧
      n < daysBeforeMonth year month + daysInMonth year month := by
  have hcommon : ∀ n < 365, let guess := (n + 50) / 32
      let month := if n < daysBeforeMonth 1 guess then guess - 1 else guess
      1 ≤ month ∧ month ≤ 12 ∧ daysBeforeMonth 1 month ≤ n ∧
        n < daysBeforeMonth 1 month + daysInMonth 1 month := by decide +kernel
  have hleap : ∀ n < 365, let guess := (n + 50) / 32
      let month := if n < daysBeforeMonth 4 guess then guess - 1 else guess
      1 ≤ month ∧ month ≤ 12 ∧ daysBeforeMonth 4 month ≤ n ∧
        n < daysBeforeMonth 4 month + daysInMonth 4 month := by decide +kernel
  have hsame : ∀ y, isLeap year = isLeap y → daysBeforeMonth year = daysBeforeMonth y ∧
      daysInMonth year = daysInMonth y := by
    intro y hy
    constructor <;> funext month
    · simp only [daysBeforeMonth, hy]
    · simp only [daysInMonth, hy]
  cases h : isLeap year with
  | false =>
    obtain ⟨hbefore, hlength⟩ := hsame 1 h
    rw [hbefore, hlength]
    exact hcommon
  | true =>
    obtain ⟨hbefore, hlength⟩ := hsame 4 h
    rw [hbefore, hlength]
    exact hleap

/-- The first day of a year, from the cycles of 400, 100, 4 and 1 years before it. -/
theorem daysBeforeYear_cycles {a b c e : ℕ} (hb : b ≤ 3) (hc : c ≤ 24) (he : e ≤ 3) :
    daysBeforeYear (a * 400 + 1 + b * 100 + c * 4 + e) =
      146097 * a + 36524 * b + 1461 * c + 365 * e := by
  unfold daysBeforeYear
  omega

theorem monthStart_december {year n : ℕ} (hleap : isLeap year = true) (hyear : 1 ≤ year)
    (h : daysBeforeYear (year + 1) = n) :
    ∃ month, (year, 12, 31) = (month / 12 + 1, month % 12 + 1, 31) ∧ 31 ≤ monthLength month ∧
      monthStart month + 31 = n := by
  have hdecember := daysBeforeMonth_december year
  rw [daysBeforeYear_succ hyear, if_pos hleap] at h
  rw [if_pos hleap] at hdecember
  have hindex : (12 * (year - 1) + 11) / 12 + 1 = year := by omega
  have hmonth : (12 * (year - 1) + 11) % 12 + 1 = 12 := by omega
  have hlength : daysInMonth year 12 = 31 := by simp [daysInMonth]
  refine ⟨12 * (year - 1) + 11, ?_, ?_, ?_⟩
  · rw [hindex, hmonth]
  · rw [monthLength, hindex, hmonth, hlength]
  · rw [monthStart, hindex, hmonth]
    omega

theorem ofOrdinal_spec {n : ℕ} (h : 1 ≤ n) :
    ∃ month day, ofOrdinal n = (month / 12 + 1, month % 12 + 1, day) ∧
      1 ≤ day ∧ day ≤ monthLength month ∧ monthStart month + day = n := by
  obtain ⟨m, rfl⟩ : ∃ m, n = m + 1 := ⟨n - 1, by omega⟩
  obtain ⟨a, m1, rfl, hm1⟩ : ∃ a m1, m = 146097 * a + m1 ∧ m1 < 146097 :=
    ⟨m / 146097, m % 146097, by omega, by omega⟩
  obtain ⟨b, m2, rfl, hm2⟩ : ∃ b m2, m1 = 36524 * b + m2 ∧ m2 < 36524 :=
    ⟨m1 / 36524, m1 % 36524, by omega, by omega⟩
  obtain ⟨c, m3, rfl, hm3⟩ : ∃ c m3, m2 = 1461 * c + m3 ∧ m3 < 1461 :=
    ⟨m2 / 1461, m2 % 1461, by omega, by omega⟩
  obtain ⟨e, r, rfl, hr⟩ : ∃ e r, m3 = 365 * e + r ∧ r < 365 :=
    ⟨m3 / 365, m3 % 365, by omega, by omega⟩
  have ha : (146097 * a + (36524 * b + (1461 * c + (365 * e + r))) + 1 - 1) / 146097 = a := by
    omega
  have hrest : (146097 * a + (36524 * b + (1461 * c + (365 * e + r))) + 1 - 1) % 146097 =
      36524 * b + (1461 * c + (365 * e + r)) := by omega
  have hb : (36524 * b + (1461 * c + (365 * e + r))) / 36524 = b := by omega
  have hb' : (36524 * b + (1461 * c + (365 * e + r))) % 36524 = 1461 * c + (365 * e + r) := by
    omega
  have hc : (1461 * c + (365 * e + r)) / 1461 = c := by omega
  have hc' : (1461 * c + (365 * e + r)) % 1461 = 365 * e + r := by omega
  have he : (365 * e + r) / 365 = e := by omega
  have he' : (365 * e + r) % 365 = r := by omega
  simp only [ofOrdinal, ha, hrest, hb, hb', hc, hc', he, he']
  by_cases hlast : e = 4 ∨ b = 4
  · rw [if_pos hlast]
    have hleap : isLeap (a * 400 + 1 + b * 100 + c * 4 + e - 1) = true := by
      rw [isLeap_iff]
      omega
    have hyear : daysBeforeYear (a * 400 + 1 + b * 100 + c * 4 + e - 1 + 1) =
        146097 * a + (36524 * b + (1461 * c + (365 * e + r))) + 1 := by
      by_cases hb4 : b = 4
      · -- the cycle of 400 years is complete, so the other parts are zero
        have hnext : a * 400 + 1 + b * 100 + c * 4 + e - 1 + 1 =
            (a + 1) * 400 + 1 + 0 * 100 + 0 * 4 + 0 := by omega
        rw [hnext, daysBeforeYear_cycles (by omega) (by omega) (by omega)]
        omega
      · have hnext : a * 400 + 1 + b * 100 + c * 4 + e - 1 + 1 =
            a * 400 + 1 + b * 100 + (c + 1) * 4 + 0 := by omega
        rw [hnext, daysBeforeYear_cycles (by omega) (by omega) (by omega)]
        omega
    obtain ⟨month, hmonth, hlength, hstart⟩ := monthStart_december hleap (by omega) hyear
    exact ⟨month, 31, hmonth, by omega, hlength, hstart⟩
  · rw [if_neg hlast]
    have hyear : daysBeforeYear (a * 400 + 1 + b * 100 + c * 4 + e) = _ :=
      daysBeforeYear_cycles (by omega) (by omega) (by omega)
    have hguess := month_guess (a * 400 + 1 + b * 100 + c * 4 + e) r hr
    simp only at hguess
    have hpositive : 1 ≤ a * 400 + 1 + b * 100 + c * 4 + e := by omega
    generalize a * 400 + 1 + b * 100 + c * 4 + e = year at hyear hguess hpositive ⊢
    generalize (if r < daysBeforeMonth year ((r + 50) / 32) then (r + 50) / 32 - 1
      else (r + 50) / 32) = month at hguess ⊢
    obtain ⟨hlow, hhigh, hbefore, hlength⟩ := hguess
    have hindex : (12 * (year - 1) + (month - 1)) / 12 + 1 = year := by omega
    have hmonth : (12 * (year - 1) + (month - 1)) % 12 + 1 = month := by omega
    refine ⟨12 * (year - 1) + (month - 1), r - daysBeforeMonth year month + 1, ?_, by omega, ?_, ?_⟩
    · rw [hindex, hmonth]
    · rw [monthLength, hindex, hmonth]
      omega
    · rw [monthStart, hindex, hmonth]
      omega

theorem ofOrdinal_month {month day : ℕ} (h : 1 ≤ day) (hlength : day ≤ monthLength month) :
    ofOrdinal (monthStart month + day) = (month / 12 + 1, month % 12 + 1, day) := by
  obtain ⟨month', day', hfound, hday', hlength', heq⟩ :=
    ofOrdinal_spec (show 1 ≤ monthStart month + day by omega)
  obtain ⟨rfl, rfl⟩ := month_unique heq hday' hlength' h hlength
  exact hfound

end AskLens.Python
