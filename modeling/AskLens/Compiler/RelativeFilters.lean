import AskLens.Compiler.Totality

/-!
# Failures of relative filters

The guarded block turns the overflows of a window into plan errors. The
conversion of the clock before it and the local days of a date field after it
are not guarded.
-/
namespace AskLens.Compiler

open Python Django Catalog Planning Checks

/-- The computation returns or raises `PlanValidationError`. -/
def OnlyPlanErrors {α : Type} (r : Py α) : Prop :=
  (∃ a, r = .ok a) ∨ ∃ msg, r = .error (planInvalid msg)

/-- `datetime` can represent the moment on the wall clock of the zone. -/
def Renders (zone : ZoneInfo) (moment : ℤ) : Prop := InRange (moment + zone.offsetAt moment)

/-- The first and the last local day of a window of days, if the window is in the supported range. -/
def DaysRender (zone : ZoneInfo) (current amount : ℤ) : Prop :=
  InRange (current - amount * microsPerDay) →
    Renders zone (current - amount * microsPerDay) ∧ Renders zone (current - 1)

/-- The last local day of a window of months, if the window is in the supported range. Its start
was found on the wall clock. -/
def MonthsRender (zone : ZoneInfo) (current amount : ℤ) : Prop :=
  (monthsBefore zone current amount).isSome = true → Renders zone (current - 1)

/-- Nothing that is not guarded overflows. -/
structure UnguardedInRange (zone : ZoneInfo) (now : Clock) (type : FieldType)
    (op : FilterOperator) (amount : ℤ) : Prop where
  clock : InRange (now.wall - now.offset)
  days : type = .date → op = .lastNDays → DaysRender zone (now.wall - now.offset) amount
  months : type = .date → op = .lastNMonths → MonthsRender zone (now.wall - now.offset) amount

section

variable {zone : ZoneInfo} {current amount start : ℤ}

theorem daysBefore_eq_some : daysBefore current amount = some start ↔
    start = current - amount * microsPerDay ∧ InRange start := by
  unfold daysBefore inRange?
  split_ifs with h
  · rw [Option.some.injEq]
    constructor
    · rintro rfl
      exact ⟨rfl, h⟩
    · rintro ⟨rfl, -⟩
      rfl
  · constructor
    · intro hnone
      cases hnone
    · rintro ⟨rfl, hin⟩
      exact absurd hin h

theorem subtractMonths_firstDay {wall : ℤ} (hlow : 0 ≤ wall) (hhigh : wall < microsPerDay)
    (hpositive : 0 < amount) : subtractMonths wall amount = none := by
  have hday : dayOf wall = 1 := by
    have hzero : wall / microsPerDay = 0 := Int.ediv_eq_zero_of_lt hlow hhigh
    simp [dayOf, hzero]
  have hfirst : ofOrdinal 1 = (1, 1, 1) := by decide
  have hyear : ¬ (1 ≤ ((1 : ℕ) : ℤ) + (((1 : ℕ) : ℤ) - amount - 1) / 12 ∧
      ((1 : ℕ) : ℤ) + (((1 : ℕ) : ℤ) - amount - 1) / 12 ≤ 9999) := by omega
  unfold subtractMonths
  simp only [hday, hfirst]
  exact if_neg hyear

theorem monthsBefore_eq_some (h : monthsBefore zone current amount = some start) :
    ∃ target, Renders zone current ∧
      subtractMonths (current + zone.offsetAt current) amount = some target ∧
        start = target - zone.offsetOfWall target ∧ InRange start ∧ Renders zone start := by
  have hin : ∀ {m m' : ℤ}, inRange? m = some m' → m' = m ∧ InRange m := by
    intro m m' hm
    unfold inRange? at hm
    split_ifs at hm with hrange
    exact ⟨(Option.some.inj hm).symm, hrange⟩
  simp only [monthsBefore, Option.bind_eq_bind, Option.bind_eq_some_iff] at h
  obtain ⟨localNow, hlocal, target, htarget, s, hs, rendered, hrendered, h⟩ := h
  obtain ⟨rfl, hcurrent⟩ := hin hlocal
  obtain ⟨rfl, hstart⟩ := hin hs
  obtain rfl := Option.some.inj h
  exact ⟨target, hcurrent, htarget, rfl, hstart, (hin hrendered).2⟩

/-- The window of a positive amount of months does not end at the first moment. -/
theorem current_pos_of_months (hzone : ∀ moment, |zone.offsetAt moment| < microsPerDay)
    (hcurrent : InRange current) (hpositive : 0 < amount)
    (h : monthsBefore zone current amount = some start) : InRange (current - 1) := by
  obtain ⟨target, hrenders, htarget, -⟩ := monthsBefore_eq_some h
  obtain ⟨hlow, hhigh⟩ := hcurrent
  by_contra hout
  have hzero : current = 0 := by
    simp only [InRange, not_and_or, not_le] at hout
    omega
  subst hzero
  have hoffset := (abs_lt.mp (hzone 0)).2
  rw [subtractMonths_firstDay hrenders.1 (by omega) hpositive] at htarget
  cases htarget

theorem daysInRange_of_days_iff (hcurrent : InRange current) (hpositive : 0 < amount) :
    (∀ start, daysBefore current amount = some start → DaysInRange zone current start) ↔
      DaysRender zone current amount := by
  constructor
  · intro h hin
    have hdays := h _ (daysBefore_eq_some.mpr ⟨rfl, hin⟩)
    exact ⟨hdays.first, hdays.lastLocal⟩
  · intro h start hstart
    obtain ⟨rfl, hin⟩ := daysBefore_eq_some.mp hstart
    obtain ⟨hfirst, hlast⟩ := h hin
    have hlow := hin.1
    have hhigh := hcurrent.2
    have hpos : 0 < amount * microsPerDay := Int.mul_pos hpositive (by decide)
    exact ⟨hfirst, ⟨by omega, by omega⟩, hlast⟩

theorem daysInRange_of_months_iff (hzone : ∀ moment, |zone.offsetAt moment| < microsPerDay)
    (hcurrent : InRange current) (hpositive : 0 < amount) :
    (∀ start, monthsBefore zone current amount = some start → DaysInRange zone current start) ↔
      MonthsRender zone current amount := by
  constructor
  · intro h hsome
    obtain ⟨start, hstart⟩ := Option.isSome_iff_exists.mp hsome
    exact (h start hstart).lastLocal
  · intro h start hstart
    obtain ⟨target, -, -, -, -, hrendered⟩ := monthsBefore_eq_some hstart
    have hlast := current_pos_of_months hzone hcurrent hpositive hstart
    exact ⟨hrendered, hlast, h (Option.isSome_iff_exists.mpr ⟨start, hstart⟩)⟩

end

section

variable {zone : ZoneInfo} {now : Clock} {f : FieldSpec} {x : FilterSpec} {cls : PyClass}
  {amount : ℤ} {e : PyException}

theorem buildRelativeQ_error (hrelative : isRelative x.op = true)
    (hvalue : x.value = .scalar (.int cls amount))
    (h : buildRelativeQ f.binding f.type zone now x.op x.value = .error e) :
    e = outOfRange ∨ e = .builtin .overflowError := by
  simp only [hvalue, buildRelativeQ] at h
  rcases bind_eq_error.mp h with hbounds | ⟨bounds, -, hdays⟩
  · rw [relativeDatetimeBounds_eq hrelative hvalue] at hbounds
    split_ifs at hbounds
    · cases hstart : windowStart zone (clockMoment now) x with
      | none =>
        rw [hstart] at hbounds
        exact .inl (Except.error.inj hbounds).symm
      | some start =>
        rw [hstart] at hbounds
        cases hbounds
    · exact .inr (Except.error.inj hbounds).symm
  · split_ifs at hdays
    · rcases bind_eq_error.mp hdays with hdays | ⟨days, -, hdays⟩
      · exact .inr (windowDays_error hdays)
      · cases hdays

/-- A relative filter that fails with a plan error fails at the start of its window. -/
theorem onlyPlanErrors_buildRelativeQ_iff (hrelative : isRelative x.op = true)
    (hvalue : x.value = .scalar (.int cls amount)) :
    OnlyPlanErrors (buildRelativeQ f.binding f.type zone now x.op x.value) ↔
      InRange (clockMoment now) ∧ (f.type = .date → ∀ start,
        windowStart zone (clockMoment now) x = some start →
          DaysInRange zone (clockMoment now) start) := by
  obtain ⟨hstops, hreturns⟩ : (buildRelativeQ f.binding f.type zone now x.op x.value =
      .error outOfRange ↔ _) ∧ _ := buildRelativeQ_spec hrelative hvalue
  have hstarts : startsOutOfRange zone now x = true ↔
      InRange (clockMoment now) ∧ windowStart zone (clockMoment now) x = none := by
    simp [startsOutOfRange, hrelative]
  constructor
  · rintro (hok | ⟨msg, hmsg⟩)
    · exact (hreturns.mp hok).2
    · rcases buildRelativeQ_error hrelative hvalue hmsg with hout | hoverflow
      · rw [hout] at hmsg
        obtain ⟨hclock, hnone⟩ := hstarts.mp (hstops.mp hmsg)
        exact ⟨hclock, fun _ start hstart => by simp [hnone] at hstart⟩
      · cases hoverflow
  · rintro ⟨hclock, hdays⟩
    cases hout : startsOutOfRange zone now x with
    | true => exact .inr ⟨_, hstops.mpr hout⟩
    | false => exact .inl (hreturns.mpr ⟨hout, hclock, hdays⟩)

/-- A relative filter fails only as a plan error exactly when the conversions around the guarded
block stay in the supported range. -/
theorem relative_filter_only_plan_errors_iff
    (hzone : ∀ moment, |zone.offsetAt moment| < microsPerDay)
    (hop : x.op = .lastNDays ∨ x.op = .lastNMonths)
    (hvalue : x.value = .scalar (.int cls amount)) (hpositive : 0 < amount) :
    OnlyPlanErrors (buildFilterQ f zone now x) ↔
      UnguardedInRange zone now f.type x.op amount := by
  have hrelative : isRelative x.op = true := by
    rcases hop with hop | hop <;> simp [isRelative, hop]
  have hbranch : buildFilterQ f zone now x =
      buildRelativeQ f.binding f.type zone now x.op x.value := by
    unfold buildFilterQ
    rcases hop with hop | hop <;> simp only [hop]
  rw [hbranch, onlyPlanErrors_buildRelativeQ_iff hrelative hvalue]
  have hdays : x.op = .lastNDays →
      windowStart zone (clockMoment now) x = daysBefore (clockMoment now) amount := by
    intro hop
    simp only [windowStart, hop, hvalue]
  have hmonths : x.op = .lastNMonths →
      windowStart zone (clockMoment now) x = monthsBefore zone (clockMoment now) amount := by
    intro hop
    simp only [windowStart, hop, hvalue]
  constructor
  · rintro ⟨hclock, hrange⟩
    refine ⟨hclock, fun hdate hop => ?_, fun hdate hop => ?_⟩
    · apply (daysInRange_of_days_iff hclock hpositive).mp
      rw [← hdays hop]
      exact hrange hdate
    · apply (daysInRange_of_months_iff hzone hclock hpositive).mp
      rw [← hmonths hop]
      exact hrange hdate
  · intro h
    refine ⟨h.clock, fun hdate => ?_⟩
    rcases hop with hop | hop
    · rw [hdays hop]
      exact (daysInRange_of_days_iff h.clock hpositive).mpr (h.days hdate hop)
    · rw [hmonths hop]
      exact (daysInRange_of_months_iff hzone h.clock hpositive).mpr (h.months hdate hop)

end

def orderDay : FieldSpec where
  name := "day"
  label := "Day"
  type := .date
  nullable := true
  binding := "day"
  relationDepth := 0
  relationshipEdges := []
  toManyRelationshipEdges := []
  enum := none
  sensitive := false
  llmVisible := true
  resultVisible := true
  filterOnly := false
  requiresPermission := none
  scopeDimension := false

def fiveHoursBehind : ZoneInfo := ⟨"Etc/GMT+5", fun _ => -18000000000, fun _ => -18000000000⟩

def lastDay : FilterSpec := ⟨"day", .lastNDays, .scalar (.int none 1)⟩

theorem lastDay_only_plan_errors_iff :
    OnlyPlanErrors (buildFilterQ orderDay fiveHoursBehind Sample.newYear lastDay) ↔
      UnguardedInRange fiveHoursBehind Sample.newYear orderDay.type lastDay.op 1 :=
  relative_filter_only_plan_errors_iff (fun _ => by simp [fiveHoursBehind, microsPerDay])
    (.inl rfl) rfl (by decide)

/-- 0001-01-02T00:00:00Z. -/
def secondDay : Clock := ⟨microsPerDay, 0, by decide⟩

/-- On the second day of year one the window begins before the wall clock of the zone does. -/
theorem first_local_day_overflows :
    ¬ ∀ (f : FieldSpec) (zone : ZoneInfo) (now : Clock) (x : FilterSpec) (amount : ℤ),
      (∀ moment, |zone.offsetAt moment| < microsPerDay) →
        (∀ wall, |zone.offsetOfWall wall| < microsPerDay) →
          x.op = .lastNDays ∨ x.op = .lastNMonths → x.value = .scalar (.int none amount) →
            0 < amount → f.type = .date ∨ f.type = .datetime →
              OnlyPlanErrors (buildFilterQ f zone now x) := by
  intro h
  have hsmall : ∀ moment : ℤ, |(fun _ => -18000000000 : ℤ → ℤ) moment| < microsPerDay := by
    intro moment
    simp [microsPerDay]
  have hraised : buildFilterQ orderDay fiveHoursBehind secondDay lastDay =
      .error (.builtin .overflowError) := by decide +kernel
  have honly := h orderDay fiveHoursBehind secondDay lastDay 1 hsmall hsmall (.inl rfl) rfl
    (by decide) (.inl rfl)
  rw [hraised] at honly
  rcases honly with ⟨conditions, hconditions⟩ | ⟨msg, hmsg⟩
  · cases hconditions
  · cases hmsg

end AskLens.Compiler
