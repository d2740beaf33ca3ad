import AskLens.Compiler.Conjunction
import AskLens.Compiler.Totality

/-!
# What a filter asks for

The operators of a filter as predicates on one value, stated without the
predicates that the compiler builds. A filter that compiles asks for just this.
-/
namespace AskLens.Compiler

open Python Django Catalog Planning Checks

section

variable {V : Type} (b : Backend V)

/-- The value is present and compares with the operand. -/
def compares (type : FieldType) (lookup : Lookup) (value : FilterValue) (v : Option V) : Bool :=
  match compileFilterValue type value with
  | .ok operand => v.any (b.holds lookup operand)
  | .error _ => false

/-- The value is present and differs from the operand. -/
def differs (type : FieldType) (value : FilterValue) (v : Option V) : Bool :=
  match compileFilterValue type value with
  | .ok operand => v.any fun u => !b.holds .exact operand u
  | .error _ => false

/-- The value is in the window, whose end belongs to it on date fields only. -/
def within (type : FieldType) (window : OrmValue × OrmValue) (v : Option V) : Bool :=
  v.any fun u => b.holds .gte (.one window.1) u &&
    b.holds (if type = .date then .lte else .lt) (.one window.2) u

/-- The window of a `date_range`. -/
def absoluteWindow (type : FieldType) (value : FilterValue) : Py (OrmValue × OrmValue) :=
  match value with
  | .list [startValue, endValue] => do
    let start ← parseTemporalValue type startValue
    let stop ← parseTemporalValue type endValue
    .ok (start, stop)
  | _ => .error (planInvalid "date_range filters require two values.")

/-- The window from `start` until `current`, in local days on date fields. -/
def relativeWindow (type : FieldType) (zone : Python.ZoneInfo) (start current : ℤ) :
    OrmValue × OrmValue :=
  if type = .date then
    (.date (dayOf (start + zone.offsetAt start)),
      .date (dayOf (current - 1 + zone.offsetAt (current - 1))))
  else (.instant start, .instant current)

/-- What a filter asks of the value of its field. -/
def filterMeaning (f : FieldSpec) (zone : Python.ZoneInfo) (now : Clock) (x : FilterSpec)
    (v : Option V) : Bool :=
  match x.op with
  | .eq => compares b f.type .exact x.value v
  | .neq => differs b f.type x.value v
  | .contains => compares b f.type .contains x.value v
  | .icontains => compares b f.type .icontains x.value v
  | .gt => compares b f.type .gt x.value v
  | .gte => compares b f.type .gte x.value v
  | .lt => compares b f.type .lt x.value v
  | .lte => compares b f.type .lte x.value v
  | .in => compares b f.type .in x.value v
  | .isnull => decide (x.value = .scalar (.bool v.isNone))
  | .dateRange =>
    match absoluteWindow f.type x.value with
    | .ok window => within b f.type window v
    | .error _ => false
  | .lastNDays | .lastNMonths =>
    match windowStart zone (clockMoment now) x with
    | some start => within b f.type (relativeWindow f.type zone start (clockMoment now)) v
    | none => false

variable {b} {f : FieldSpec} {zone : Python.ZoneInfo} {now : Clock} {x : FilterSpec}
  {conditions : List Condition} {v : Option V}

theorem windowConditions_hold (path : String) (window : OrmValue × OrmValue) :
    ((windowConditions path f.type window.1 window.2).all fun c => c.holds b v) =
      within b f.type window v := by
  unfold windowConditions within
  cases v with
  | none => simp [Condition.holds]
  | some u => by_cases hdate : f.type = .date <;> simp [Condition.holds, hdate]

theorem buildDateRangeQ_eq {path : String} {type : FieldType} {value : FilterValue}
    (h : buildDateRangeQ path type value = .ok conditions) :
    ∃ window, absoluteWindow type value = .ok window ∧
      conditions = windowConditions path type window.1 window.2 := by
  unfold buildDateRangeQ at h
  split at h
  · obtain ⟨start, hstart, h⟩ := bind_eq_ok.mp h
    obtain ⟨stop, hstop, h⟩ := bind_eq_ok.mp h
    refine ⟨(start, stop), ?_, (Except.ok.inj h).symm⟩
    exact bind_eq_ok.mpr ⟨start, hstart, bind_eq_ok.mpr ⟨stop, hstop, rfl⟩⟩
  · cases h

theorem windowDays_eq {current start : ℤ} {days : ℕ × ℕ}
    (h : windowDays zone (start, current) = .ok days) :
    days = (dayOf (start + zone.offsetAt start),
      dayOf (current - 1 + zone.offsetAt (current - 1))) := by
  have hday : ∀ moment day, localDay zone moment = .ok day →
      day = dayOf (moment + zone.offsetAt moment) := by
    intro moment day hday
    obtain ⟨wall, hwall, hday⟩ := bind_eq_ok.mp hday
    unfold inRangeOr at hwall
    split_ifs at hwall
    obtain rfl := Except.ok.inj hwall
    exact (Except.ok.inj hday).symm
  obtain ⟨first, hfirst, hrest⟩ := bind_eq_ok.mp h
  obtain ⟨last, hlast, hrest⟩ := bind_eq_ok.mp hrest
  obtain ⟨day, hlastDay, hrest⟩ := bind_eq_ok.mp hrest
  have hmoment : last = current - 1 := by
    unfold inRangeOr at hlast
    split_ifs at hlast
    exact (Except.ok.inj hlast).symm
  rw [hmoment] at hlastDay
  rw [← Except.ok.inj hrest, hday _ _ hfirst, hday _ _ hlastDay]

/-- The conditions of a relative filter are those of its window. -/
theorem buildRelativeQ_eq (hrelative : isRelative x.op = true)
    (h : buildRelativeQ f.binding f.type zone now x.op x.value = .ok conditions) :
    ∃ start, windowStart zone (clockMoment now) x = some start ∧
      conditions = windowConditions f.binding f.type
        (relativeWindow f.type zone start (clockMoment now)).1
        (relativeWindow f.type zone start (clockMoment now)).2 := by
  unfold buildRelativeQ at h
  split at h
  · rename_i cls n hvalue
    obtain ⟨bounds, hbounds, hconditions⟩ := bind_eq_ok.mp h
    rw [relativeDatetimeBounds_eq hrelative hvalue] at hbounds
    have hstart : ∃ start, windowStart zone (clockMoment now) x = some start ∧
        bounds = (start, clockMoment now) := by
      split_ifs at hbounds
      cases hwindow : windowStart zone (clockMoment now) x with
      | none =>
        rw [hwindow] at hbounds
        cases hbounds
      | some start =>
        rw [hwindow] at hbounds
        exact ⟨start, rfl, (Except.ok.inj hbounds).symm⟩
    obtain ⟨start, hwindow, rfl⟩ := hstart
    refine ⟨start, hwindow, ?_⟩
    unfold relativeWindow
    by_cases hdate : f.type = .date
    · rw [if_pos hdate] at hconditions ⊢
      obtain ⟨days, hdays, hconditions⟩ := bind_eq_ok.mp hconditions
      rw [← Except.ok.inj hconditions, windowDays_eq hdays]
    · rw [if_neg hdate] at hconditions ⊢
      exact (Except.ok.inj hconditions).symm
  · cases h

theorem parseTemporalValue_ne_bool {w : PyScalar} {parsed : OrmValue}
    (h : parseTemporalValue f.type w = .ok parsed) (d : Bool) :
    w ≠ .bool d ∧ parsed ≠ .scalar (.bool d) := by
  constructor
  · rintro rfl
    have htemporal : isTemporal f.type = true := by
      cases htype : f.type <;> simp_all [parseTemporalValue, isTemporal]
    obtain ⟨e, he, -⟩ := parseTemporalValue_bool htemporal d
    rw [he] at h
    cases h
  · rintro rfl
    unfold parseTemporalValue at h
    split at h
    · obtain ⟨_, -, h⟩ := bind_eq_ok.mp h
      cases Except.ok.inj h
    · obtain ⟨_, -, h⟩ := bind_eq_ok.mp h
      cases Except.ok.inj h
    · obtain ⟨_, -, h⟩ := bind_eq_ok.mp h
      cases Except.ok.inj h
    · cases h

/-- A comparison holds of the values that compare with its operand. -/
theorem lookup_holds {lookup : Lookup} (hlookup : lookup ≠ .isnull) {path : String}
    {operand : Operand} :
    Condition.holds b ⟨path, lookup, operand⟩ v = v.any (b.holds lookup operand) := by
  cases v <;> simp [Condition.holds, hlookup]

theorem isnull_holds {path : String} {operand : Operand}
    (h : compileFilterValue f.type x.value = .ok operand) :
    Condition.holds b ⟨path, .isnull, operand⟩ v =
      decide (x.value = .scalar (.bool v.isNone)) := by
  have hoperand : ∀ d : Bool, operand = .one (.scalar (.bool d)) ↔
      x.value = .scalar (.bool d) := by
    intro d
    cases hvalue : x.value with
    | scalar w =>
      rw [hvalue] at h
      cases htemporal : isTemporal f.type with
      | false =>
        simp only [compileFilterValue, htemporal, Except.ok.injEq] at h
        rw [← h]
        simp
      | true =>
        simp only [compileFilterValue, htemporal] at h
        obtain ⟨parsed, hparsed, h⟩ := bind_eq_ok.mp h
        rw [← Except.ok.inj h]
        have hne := parseTemporalValue_ne_bool hparsed d
        simp [hne.1, hne.2]
    | list ws =>
      rw [hvalue] at h
      have hmany : ∃ parsed, operand = .many parsed := by
        cases htemporal : isTemporal f.type with
        | false =>
          simp only [compileFilterValue, htemporal, Except.ok.injEq] at h
          exact ⟨_, h.symm⟩
        | true =>
          simp only [compileFilterValue, htemporal] at h
          obtain ⟨parsed, -, h⟩ := bind_eq_ok.mp h
          exact ⟨parsed, (Except.ok.inj h).symm⟩
      obtain ⟨parsed, rfl⟩ := hmany
      simp
  cases v <;> simp [Condition.holds, hoperand]

/-- A filter that compiles selects the values that it asks for. -/
theorem conditionsHold_eq_filterMeaning (h : buildFilterQ f zone now x = .ok conditions) :
    conditionsHold b x.op conditions v = filterMeaning b f zone now x v := by
  have hone : ∀ lookup, lookup ≠ .isnull →
      (compileFilterValue f.type x.value >>= fun operand =>
        .ok [⟨f.binding, lookup, operand⟩]) = Except.ok conditions →
      (conditions.all fun c => c.holds b v) = compares b f.type lookup x.value v := by
    intro lookup hlookup h
    obtain ⟨operand, hoperand, h⟩ := bind_eq_ok.mp h
    obtain rfl := Except.ok.inj h
    simp [compares, hoperand, lookup_holds hlookup]
  unfold filterMeaning conditionsHold
  unfold buildFilterQ at h
  cases hop : x.op with
  | eq =>
    rw [hop] at h
    exact hone .exact (by decide) h
  | neq =>
    rw [hop] at h
    obtain ⟨operand, hoperand, h⟩ := bind_eq_ok.mp h
    obtain rfl := Except.ok.inj h
    simp only [differs, hoperand]
    cases v <;> simp [Condition.holds]
  | contains =>
    rw [hop] at h
    exact hone .contains (by decide) h
  | icontains =>
    rw [hop] at h
    exact hone .icontains (by decide) h
  | gt =>
    rw [hop] at h
    exact hone .gt (by decide) h
  | gte =>
    rw [hop] at h
    exact hone .gte (by decide) h
  | lt =>
    rw [hop] at h
    exact hone .lt (by decide) h
  | lte =>
    rw [hop] at h
    exact hone .lte (by decide) h
  | «in» =>
    rw [hop] at h
    exact hone .in (by decide) h
  | isnull =>
    rw [hop] at h
    obtain ⟨operand, hoperand, h⟩ := bind_eq_ok.mp h
    obtain rfl := Except.ok.inj h
    simp [isnull_holds hoperand]
  | dateRange =>
    rw [hop] at h
    obtain ⟨window, hwindow, rfl⟩ := buildDateRangeQ_eq h
    dsimp only
    rw [hwindow]
    exact windowConditions_hold _ window
  | lastNDays =>
    rw [hop] at h
    have hrelative : buildRelativeQ f.binding f.type zone now x.op x.value = .ok conditions := by
      rw [hop]
      exact h
    obtain ⟨start, hstart, rfl⟩ := buildRelativeQ_eq (by rw [hop]; rfl) hrelative
    dsimp only
    rw [hstart]
    exact windowConditions_hold _ _
  | lastNMonths =>
    rw [hop] at h
    have hrelative : buildRelativeQ f.binding f.type zone now x.op x.value = .ok conditions := by
      rw [hop]
      exact h
    obtain ⟨start, hstart, rfl⟩ := buildRelativeQ_eq (by rw [hop]; rfl) hrelative
    dsimp only
    rw [hstart]
    exact windowConditions_hold _ _

end

end AskLens.Compiler
