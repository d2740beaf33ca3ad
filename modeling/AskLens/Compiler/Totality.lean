import AskLens.Compiler.JoinBudget
import AskLens.Compiler.Joins
import AskLens.Compiler.Ties
import AskLens.Planning.Canonical

/-!
# Which accepted plans compile

The validator and the compiler decide about a filter independently. An accepted
filter stops the compiler in three ways: its relative window starts outside the
supported range, which the package reports; it tests a temporal field for null;
or a conversion around the window overflows.
-/
namespace AskLens.Compiler

open Python Django Catalog Planning Checks

/-! ## Windows -/

def clockMoment (now : Clock) : ℤ := now.wall - now.offset

def inRange? (moment : ℤ) : Option ℤ := if InRange moment then some moment else none

/-- The moment `n` days before `current`. -/
def daysBefore (current n : ℤ) : Option ℤ := inRange? (current - n * microsPerDay)

/-- The moment `n` months before `current` on the wall clock of the zone. -/
def monthsBefore (zone : ZoneInfo) (current n : ℤ) : Option ℤ := do
  let localNow ← inRange? (current + zone.offsetAt current)
  let target ← subtractMonths localNow n
  let start ← inRange? (target - zone.offsetOfWall target)
  let _ ← inRange? (start + zone.offsetAt start)
  some start

/-- The start of the window of a relative filter, where `none` is outside the supported range. -/
def windowStart (zone : ZoneInfo) (current : ℤ) (x : FilterSpec) : Option ℤ :=
  match x.op, x.value with
  | .lastNDays, .scalar (.int _ n) => daysBefore current n
  | .lastNMonths, .scalar (.int _ n) => monthsBefore zone current n
  | _, _ => none

def isRelative (op : FilterOperator) : Bool := op == .lastNDays || op == .lastNMonths

/-- The allowed reason to stop: a relative filter that starts too early. -/
def startsOutOfRange (zone : ZoneInfo) (now : Clock) (x : FilterSpec) : Bool :=
  isRelative x.op && decide (InRange (clockMoment now)) &&
    (windowStart zone (clockMoment now) x).isNone

/-- The two local days of a window on a date field can be computed. -/
structure DaysInRange (zone : ZoneInfo) (current start : ℤ) : Prop where
  first : InRange (start + zone.offsetAt start)
  last : InRange (current - 1)
  lastLocal : InRange (current - 1 + zone.offsetAt (current - 1))

/-- Nothing but a start outside the supported range stops the compiler at the filter. -/
structure FilterCompiles (zone : ZoneInfo) (now : Clock) (f : FieldSpec) (x : FilterSpec) :
    Prop where
  isnull : x.op = .isnull → isTemporal f.type = false
  clock : isRelative x.op = true → InRange (clockMoment now)
  days : isRelative x.op = true → f.type = .date →
    ∀ start, windowStart zone (clockMoment now) x = some start →
      DaysInRange zone (clockMoment now) start

theorem inRangeOr_eq (e : PyException) (moment : ℤ) :
    inRangeOr e moment = match inRange? moment with
      | some m => .ok m
      | none => .error e := by
  unfold inRangeOr inRange?
  split_ifs <;> rfl

theorem daysStart_eq {current : ℤ} (h : InRange current) (n : ℤ) :
    daysStart current n = match daysBefore current n with
      | some start => .ok start
      | none => .error outOfRange := by
  unfold daysStart daysBefore
  split_ifs with hn
  · have hout : ¬ InRange (current - n * microsPerDay) := by
      simp only [InRange, maxMoment, maxTimedeltaDays, microsPerDay] at h hn ⊢
      omega
    rw [inRange?, if_neg hout]
  · exact inRangeOr_eq _ _

theorem monthsStart_eq (zone : ZoneInfo) (current n : ℤ) :
    monthsStart zone current n = match monthsBefore zone current n with
      | some start => .ok start
      | none => .error outOfRange := by
  unfold monthsStart monthsBefore resolveLocalWallTime
  simp only [inRangeOr_eq]
  cases inRange? (current + zone.offsetAt current) with
  | none => rfl
  | some localNow =>
    simp only [ok_bind, Option.bind_eq_bind, Option.bind_some]
    cases subtractMonths localNow n with
    | none => rfl
    | some target =>
      simp only [Option.bind_some]
      cases inRange? (target - zone.offsetOfWall target) with
      | none => rfl
      | some start =>
        simp only [ok_bind, Option.bind_some]
        cases inRange? (start + zone.offsetAt start) <;> rfl

theorem relativeDatetimeBounds_eq {zone : ZoneInfo} {now : Clock} {x : FilterSpec}
    (hrelative : isRelative x.op = true) {cls : PyClass} {n : ℤ}
    (hvalue : x.value = .scalar (.int cls n)) :
    relativeDatetimeBounds x.op n now zone =
      if InRange (clockMoment now) then
        match windowStart zone (clockMoment now) x with
        | some start => .ok (start, clockMoment now)
        | none => .error outOfRange
      else .error (.builtin .overflowError) := by
  unfold relativeDatetimeBounds currentMoment inRangeOr
  show (if InRange (clockMoment now) then _ else _) >>= _ = _
  by_cases hclock : InRange (clockMoment now)
  · rw [if_pos hclock, if_pos hclock, ok_bind]
    unfold windowStart
    cases hop : x.op <;> simp only [hop, hvalue, isRelative] at hrelative ⊢
    case lastNDays =>
      show (daysStart (clockMoment now) n >>= fun start => _) = _
      rw [daysStart_eq hclock]
      cases daysBefore (clockMoment now) n <;> rfl
    case lastNMonths =>
      show (monthsStart zone (clockMoment now) n >>= fun start => _) = _
      rw [monthsStart_eq]
      cases monthsBefore zone (clockMoment now) n <;> rfl
    all_goals cases hrelative
  · rw [if_neg hclock, if_neg hclock]
    rfl

/-! ## One filter -/

theorem localDay_ok_iff {zone : ZoneInfo} {moment : ℤ} :
    (∃ day, localDay zone moment = .ok day) ↔ InRange (moment + zone.offsetAt moment) := by
  unfold localDay inRangeOr
  split_ifs with h
  · exact ⟨fun _ => h, fun _ => ⟨_, rfl⟩⟩
  · constructor
    · rintro ⟨day, hday⟩
      cases hday
    · intro hin
      exact absurd hin h

theorem localDay_error {zone : ZoneInfo} {moment : ℤ} {e : PyException}
    (h : localDay zone moment = .error e) : e = .builtin .overflowError := by
  unfold localDay inRangeOr at h
  split_ifs at h
  · cases h
  · exact (Except.error.inj h).symm

theorem windowDays_ok_iff {zone : ZoneInfo} {start current : ℤ} :
    (∃ days, windowDays zone (start, current) = .ok days) ↔ DaysInRange zone current start := by
  unfold windowDays
  constructor
  · rintro ⟨days, h⟩
    obtain ⟨first, hfirst, h⟩ := bind_eq_ok.mp h
    obtain ⟨last, hlast, h⟩ := bind_eq_ok.mp h
    obtain ⟨day, hday, -⟩ := bind_eq_ok.mp h
    unfold inRangeOr at hlast
    split_ifs at hlast with hin
    obtain rfl := Except.ok.inj hlast
    exact ⟨localDay_ok_iff.mp ⟨_, hfirst⟩, hin, localDay_ok_iff.mp ⟨_, hday⟩⟩
  · intro h
    obtain ⟨first, hfirst⟩ := localDay_ok_iff.mpr h.first
    obtain ⟨last, hlast⟩ := localDay_ok_iff.mpr h.lastLocal
    refine ⟨(first, last), ?_⟩
    rw [hfirst, ok_bind, inRangeOr, if_pos h.last, ok_bind, hlast]
    rfl

theorem inRangeOr_error {e e' : PyException} {moment : ℤ}
    (h : inRangeOr e moment = .error e') : e' = e := by
  unfold inRangeOr at h
  split_ifs at h
  exact (Except.error.inj h).symm

theorem windowDays_error {zone : ZoneInfo} {bounds : ℤ × ℤ} {e : PyException}
    (h : windowDays zone bounds = .error e) : e = .builtin .overflowError := by
  rcases bind_eq_error.mp h with h | ⟨_, -, h⟩
  · exact localDay_error h
  · rcases bind_eq_error.mp h with h | ⟨_, -, h⟩
    · exact inRangeOr_error h
    · rcases bind_eq_error.mp h with h | ⟨_, -, h⟩
      · exact localDay_error h
      · cases h

section

variable {env : Environment} {resource : SemanticResource} {limits : PlanLimits}
  {access : Access} {f : FieldSpec} {x : FilterSpec} {zone : ZoneInfo} {now : Clock}

theorem overflow_ne_outOfRange : PyException.builtin .overflowError ≠ outOfRange := by
  intro h
  cases h

/-- The outcomes of a relative filter: allowed to stop, compiled, or an overflow. -/
theorem buildRelativeQ_spec (hrelative : isRelative x.op = true) {cls : PyClass} {n : ℤ}
    (hvalue : x.value = .scalar (.int cls n)) :
    (buildRelativeQ f.binding f.type zone now x.op x.value = .error outOfRange ↔
      startsOutOfRange zone now x = true) ∧
    ((∃ c, buildRelativeQ f.binding f.type zone now x.op x.value = .ok c) ↔
      startsOutOfRange zone now x = false ∧ InRange (clockMoment now) ∧
        (f.type = .date → ∀ start, windowStart zone (clockMoment now) x = some start →
          DaysInRange zone (clockMoment now) start)) := by
  have hstarts : startsOutOfRange zone now x = true ↔
      InRange (clockMoment now) ∧ windowStart zone (clockMoment now) x = none := by
    simp [startsOutOfRange, hrelative]
  rw [← Bool.not_eq_true, hstarts, hvalue]
  simp only [buildRelativeQ]
  rw [relativeDatetimeBounds_eq hrelative hvalue]
  by_cases hclock : InRange (clockMoment now)
  · rw [if_pos hclock]
    cases hstart : windowStart zone (clockMoment now) x with
    | none => simp [hclock]
    | some start =>
      simp only [ok_bind]
      by_cases hdate : f.type = .date
      · simp only [if_pos hdate]
        cases hdays : windowDays zone (start, clockMoment now) with
        | ok days =>
          have hin := windowDays_ok_iff.mp ⟨days, hdays⟩
          simp [hclock, hin]
        | error e =>
          obtain rfl := windowDays_error hdays
          have hout : ¬ DaysInRange zone (clockMoment now) start := by
            intro hin
            obtain ⟨days, hok⟩ := windowDays_ok_iff.mpr hin
            rw [hdays] at hok
            cases hok
          simp [hclock, hout, hdate, overflow_ne_outOfRange]
      · simp [hdate, hclock]
  · rw [if_neg hclock]
    simp [hclock, overflow_ne_outOfRange]

/-- A scalar that has a normal form of a temporal type can be parsed, and so can the form. -/
theorem parseTemporalValue_ok {unicode : Unicode} {v w : PyScalar}
    (htemporal : isTemporal f.type = true) (h : normalizeCanonicalScalar unicode f v = .ok w) :
    (∃ o, parseTemporalValue f.type v = .ok o) ∧ ∃ o, parseTemporalValue f.type w = .ok o := by
  unfold normalizeCanonicalScalar at h
  cases htype : f.type <;> simp only [htype] at h htemporal
  case date =>
    obtain ⟨⟨d, hd⟩, d', hd'⟩ := parseDateString_ok h
    exact ⟨⟨_, bind_eq_ok.mpr ⟨d, hd, rfl⟩⟩, _, bind_eq_ok.mpr ⟨d', hd', rfl⟩⟩
  case datetime =>
    obtain ⟨⟨d, hd⟩, d', hd'⟩ := parseDatetimeString_ok h
    exact ⟨⟨_, bind_eq_ok.mpr ⟨d, hd, rfl⟩⟩, _, bind_eq_ok.mpr ⟨d', hd', rfl⟩⟩
  case time =>
    obtain ⟨⟨t, ht⟩, t', ht'⟩ := parseTimeString_ok h
    exact ⟨⟨_, bind_eq_ok.mpr ⟨t, ht, rfl⟩⟩, _, bind_eq_ok.mpr ⟨t', ht', rfl⟩⟩
  all_goals cases htemporal

/-- A temporal field refuses the operand of a null test as a temporal text. -/
theorem parseTemporalValue_bool (htemporal : isTemporal f.type = true) (b : Bool) :
    ∃ e, parseTemporalValue f.type (.bool b) = .error e ∧ e ≠ outOfRange := by
  cases htype : f.type <;> simp only [htype] at htemporal
  case date => exact ⟨invalidDate, rfl, by decide⟩
  case datetime => exact ⟨invalidDatetime, rfl, by decide⟩
  case time => exact ⟨invalidTime, rfl, by decide⟩
  all_goals cases htemporal

theorem isnull_spec {b : Bool} (hop : x.op = .isnull) (hvalue : x.value = .scalar (.bool b)) :
    buildFilterQ f zone now x ≠ .error outOfRange ∧
      ((∃ c, buildFilterQ f zone now x = .ok c) ↔ isTemporal f.type = false) := by
  have hbuild : buildFilterQ f zone now x = (compileFilterValue f.type (.scalar (.bool b)) >>=
      fun operand => .ok [⟨f.binding, .isnull, operand⟩]) := by
    unfold buildFilterQ
    rw [hop, hvalue]
    rfl
  rw [hbuild]
  cases htemporal : isTemporal f.type with
  | false => simp [compileFilterValue, htemporal]
  | true =>
    obtain ⟨e, he, hne⟩ := parseTemporalValue_bool htemporal b
    simp [compileFilterValue, htemporal, he, hne]

theorem forall₂_mapM_ok {α β γ : Type} {R : α → β → Prop} {g : β → Py γ} {as : List α}
    {bs : List β} (h : List.Forall₂ R as bs) (hg : ∀ a b, R a b → ∃ c, g b = .ok c) :
    ∃ cs, bs.mapM g = .ok cs := by
  induction h with
  | nil => exact ⟨[], rfl⟩
  | cons hab _ ih =>
    obtain ⟨c, hc⟩ := hg _ _ hab
    obtain ⟨cs, hcs⟩ := ih
    refine ⟨c :: cs, ?_⟩
    rw [List.mapM_cons, hc, ok_bind, hcs]
    rfl

theorem compileFilterValue_ok {unicode : Unicode} {read normal : FilterValue}
    (h : Normalizes unicode f read normal) :
    (∃ o, compileFilterValue f.type read = .ok o) ∧
      ∃ o, compileFilterValue f.type normal = .ok o := by
  cases htemporal : isTemporal f.type with
  | false => cases h <;> simp [compileFilterValue, htemporal]
  | true =>
    cases h with
    | scalar h =>
      obtain ⟨⟨o, ho⟩, o', ho'⟩ := parseTemporalValue_ok htemporal h
      simp [compileFilterValue, htemporal, ho, ho']
    | list h =>
      obtain ⟨os, hos⟩ := forall₂_mapM_ok (g := parseTemporalValue f.type) h.flip fun w v hvw =>
        (parseTemporalValue_ok htemporal hvw).1
      obtain ⟨os', hos'⟩ := forall₂_mapM_ok (g := parseTemporalValue f.type) h fun v w hvw =>
        (parseTemporalValue_ok htemporal hvw).2
      simp [compileFilterValue, htemporal, hos, hos']

/-- Every other operator finds a value of the form that it needs. -/
theorem buildFilterQ_of_value (h : AcceptedFilter env resource limits access f x)
    (hrelative : ¬ isRelative x.op = true) (hnull : x.op ≠ .isnull) :
    ∃ c, buildFilterQ f zone now x = .ok c := by
  by_cases hrange : x.op = .dateRange
  · obtain ⟨a, b, hvalue, hbounds⟩ := h.date_range_value hrange
    have hbuild : buildFilterQ f zone now x = buildDateRangeQ f.binding f.type x.value := by
      unfold buildFilterQ
      rw [hrange]
    rw [hbuild, hvalue]
    rcases hbounds with ⟨htype, ⟨d, hd⟩, d', hd'⟩ | ⟨htype, ⟨d, hd⟩, d', hd'⟩
    all_goals simp [buildDateRangeQ, parseTemporalValue, htype, hd, hd']
  · have hkeeps : keepsValue x.op = false := by
      cases hop : x.op <;> simp_all [keepsValue, isRelative]
    obtain ⟨read, normal, hnormal, hvalue⟩ := h.normal_value hkeeps hrange
    obtain ⟨⟨o, ho⟩, o', ho'⟩ := compileFilterValue_ok hnormal
    have hoperand : ∃ operand, compileFilterValue f.type x.value = .ok operand := by
      rcases hvalue with hvalue | hvalue <;> rw [hvalue]
      · exact ⟨o, ho⟩
      · exact ⟨o', ho'⟩
    obtain ⟨operand, hoperand⟩ := hoperand
    unfold buildFilterQ
    rw [hoperand]
    cases hop : x.op <;> simp_all [isRelative, lookupByOperator]

theorem buildFilterQ_spec (h : AcceptedFilter env resource limits access f x) :
    (buildFilterQ f zone now x = .error outOfRange ↔ startsOutOfRange zone now x = true) ∧
      ((∃ c, buildFilterQ f zone now x = .ok c) ↔
        startsOutOfRange zone now x = false ∧ FilterCompiles zone now f x) := by
  by_cases hrelative : isRelative x.op = true
  · have hop : x.op = .lastNDays ∨ x.op = .lastNMonths := by simpa [isRelative] using hrelative
    obtain ⟨cls, n, -, hvalue⟩ := h.relative_value hop
    have hbuild : buildFilterQ f zone now x =
        buildRelativeQ f.binding f.type zone now x.op x.value := by
      unfold buildFilterQ
      rcases hop with hop | hop <;> rw [hop]
    have hnull : x.op ≠ .isnull := by rcases hop with hop | hop <;> rw [hop] <;> decide
    obtain ⟨hstop, hok⟩ := buildRelativeQ_spec hrelative hvalue
    rw [hbuild, hstop, hok]
    refine ⟨Iff.rfl, and_congr_right fun _ => ⟨fun hin => ?_, fun hin => ?_⟩⟩
    · exact ⟨fun hx => absurd hx hnull, fun _ => hin.1, fun _ => hin.2⟩
    · exact ⟨hin.clock hrelative, hin.days hrelative⟩
  · have hstarts : startsOutOfRange zone now x = false := by simp [startsOutOfRange, hrelative]
    have hcompiles : FilterCompiles zone now f x ↔
        (x.op = .isnull → isTemporal f.type = false) :=
      ⟨fun hin => hin.isnull, fun hin => ⟨hin, fun hx => absurd hx hrelative,
        fun hx => absurd hx hrelative⟩⟩
    rw [hstarts, hcompiles]
    by_cases hnull : x.op = .isnull
    · obtain ⟨b, hvalue⟩ := h.isnull_value hnull
      have hspec : buildFilterQ f zone now x ≠ .error outOfRange ∧
          ((∃ c, buildFilterQ f zone now x = .ok c) ↔ isTemporal f.type = false) :=
        isnull_spec hnull hvalue
      rw [hspec.2]
      simp [hspec.1, hnull]
    · have hok : ∃ c, buildFilterQ f zone now x = .ok c :=
        buildFilterQ_of_value h hrelative hnull
      obtain ⟨c, hc⟩ := hok
      simp [hc, hnull]

end

/-! ## The whole plan -/

/-- The filters that the compiler reaches: those before the first allowed stop. -/
def reachedFilters (zone : ZoneInfo) (now : Clock) (filters : List FilterSpec) :
    List FilterSpec :=
  filters.takeWhile fun x => !startsOutOfRange zone now x

def checkedAliases (p : QueryPlan) : List String :=
  match p.intent with
  | .list => (List.range p.select.length).map selectAlias
  | .aggregate => (List.range p.groupBy.length).map groupAlias

def EndsGeneric (graph : ModelGraph) (model : ModelName) (path : String) : Prop :=
  ∃ res, resolveFieldPath graph model path = .ok res ∧ res.field.kind = .genericForeignKey

/-- Nothing but a relative filter that starts too early stops the compiler. -/
structure CompilesWhen (env : Environment) (resource : SemanticResource) (p : QueryPlan)
    (now : Clock) : Prop where
  filters : ∀ x ∈ reachedFilters resource.timezone now p.filters, ∀ f,
    resource.fields.get? x.field = some f → FilterCompiles resource.timezone now f x
  aliases : reachedFilters resource.timezone now p.filters = p.filters →
    ∀ name ∈ checkedAliases p, name ∉ (env.graph resource.model).fields.keys
  metrics : reachedFilters resource.timezone now p.filters = p.filters → p.groupBy ≠ [] →
    ∀ m ∈ p.metrics, ∀ metric, resource.metrics.get? m.metric = some metric →
      ¬ EndsGeneric env.graph resource.model (buildAggregate metric).path

/-- The plan compiles, or stops at a relative filter that starts outside the supported range. -/
def Compiles (env : Environment) (resource : SemanticResource) (p : QueryPlan) (now : Clock) :
    Prop :=
  (∃ q, compilePreparedQuery env resource p now = .ok q) ∨
    (compilePreparedQuery env resource p now = .error outOfRange ∧
      ∃ x ∈ p.filters, startsOutOfRange resource.timezone now x = true)

section

variable {env : Environment} {resource : SemanticResource} {limits : PlanLimits}
  {access : Access} {p : QueryPlan} {now : Clock}

/-- The binding of a registered field resolves: its type rules out a generic foreign key. -/
theorem field_reference (hr : resource.Registered env) {name : String} {f : FieldSpec}
    (hf : resource.fields.get? name = some f) :
    resolveReference env.graph resource.model f.binding = .ok () := by
  obtain ⟨-, res, hres, -, -, -, htype, -⟩ := hr.fields_registered _ (Dict.mem_of_get? hf)
  rw [resolveReference_of_resolve hres, if_neg]
  intro hkind
  have hrelation : getFieldType res.field = "relation" := by rw [getFieldType, hkind]
  rw [hrelation] at htype
  rcases htype.binding with hname | ⟨-, hname | hname⟩
  · cases hf : f.type <;> rw [hf] at hname <;> exact absurd hname (by decide)
  · exact absurd hname (by decide)
  · exact absurd hname (by decide)

theorem identity_reference (hr : resource.Registered env) :
    resolveReference env.graph resource.model resource.rowIdentity = .ok () := by
  obtain ⟨field, hfield, hconcrete, -⟩ := hr.rowIdentity
  rw [resolveReference, joinSteps_concrete hfield hconcrete]

theorem aggregate_resolution (hr : resource.Registered env) {name : String} {m : Metric}
    (hm : resource.metrics.get? name = some m) :
    ∃ res, resolveFieldPath env.graph resource.model (buildAggregate m).path = .ok res := by
  obtain ⟨-, res, bound, hres, hbound, -⟩ := hr.metrics_registered _ (Dict.mem_of_get? hm)
  unfold buildAggregate
  unfold boundResolutions at hbound
  cases hpolicy : m.cardinalityPolicy with
  | countDistinct =>
    cases hkey : m.distinctKey with
    | none => exact ⟨res, hres⟩
    | some key =>
      simp only [hpolicy, hkey] at hbound
      obtain ⟨distinct, hdistinct, -⟩ := bind_eq_ok.mp hbound
      exact ⟨distinct, hdistinct⟩
  | _ => exact ⟨res, hres⟩

theorem aggregate_reference (hr : resource.Registered env) {name : String} {m : Metric}
    (hm : resource.metrics.get? name = some m) :
    (¬ EndsGeneric env.graph resource.model (buildAggregate m).path →
      resolveReference env.graph resource.model (buildAggregate m).path = .ok ()) ∧
    (EndsGeneric env.graph resource.model (buildAggregate m).path →
      resolveReference env.graph resource.model (buildAggregate m).path =
        .error (.builtin .fieldError)) := by
  constructor
  · intro hgeneric
    obtain ⟨res, hres⟩ := aggregate_resolution hr hm
    rw [resolveReference_of_resolve hres, if_neg]
    exact fun hkind => hgeneric ⟨res, hres, hkind⟩
  · rintro ⟨res, hres, hkind⟩
    rw [resolveReference_of_resolve hres, if_pos hkind]

/-- The names of the model are free of the aliases, or the call raises. -/
theorem checkAliases_spec (graph : ModelGraph) (model : ModelName) (aliases : List String) :
    ((∀ name ∈ aliases, name ∉ (graph model).fields.keys) →
      checkAliases graph model aliases = .ok ()) ∧
    (¬ (∀ name ∈ aliases, name ∉ (graph model).fields.keys) →
      checkAliases graph model aliases = .error (.builtin .valueError)) := by
  unfold checkAliases
  constructor
  · intro h
    rw [if_neg]
    simpa using h
  · intro h
    rw [if_pos]
    simpa using h

theorem fieldsAt_ok {names : List String}
    (h : ∀ name ∈ names, ∃ f, resource.fields.get? name = some f) :
    ∃ fields, names.mapM (fieldAt resource) = .ok fields :=
  mapM_ok_iff.mpr fun name hname => (h name hname).imp fun _ hf => fieldAt_ok.mpr hf

theorem fieldBindings_resolve (hr : resource.Registered env) {names : List String}
    {fields : List FieldSpec} (h : names.mapM (fieldAt resource) = .ok fields) :
    ∀ f ∈ fields, resolveReference env.graph resource.model f.binding = .ok () := by
  intro f hf
  obtain ⟨name, -, hname⟩ := exists_of_mem_mapM h hf
  exact field_reference hr (fieldAt_ok.mp hname)

theorem requestedOrdering_ok (hr : resource.Registered env)
    (h : Accepted env resource limits access p) :
    ∃ ordering, requestedOrdering resource p = .ok ordering := by
  apply mapM_ok_iff.mpr
  intro term hterm
  have hfield : ∃ f, resource.fields.get? term.1 = some f := by
    split_ifs at hterm
    · obtain ⟨f, hf, -⟩ := hr.defaultOrder_unrestricted term hterm
      exact ⟨f, hf⟩
    · obtain ⟨o, ho, hpair⟩ := List.mem_filterMap.mp hterm
      obtain ⟨name, hname, rfl⟩ := Option.map_eq_some_iff.mp hpair
      have htarget := h.texts.target_of_field? ho hname
      obtain ⟨⟨f, hf⟩, -⟩ := h.orderBy.field name (List.mem_map.mpr ⟨o, ho, htarget⟩)
      exact ⟨f, hf.1⟩
  obtain ⟨f, hf⟩ := hfield
  exact ⟨(f.binding, term.2), bind_eq_ok.mpr ⟨f, fieldAt_ok.mpr hf, rfl⟩⟩

theorem requestedOrdering_resolve (hr : resource.Registered env) {ordering : List OrderingTerm}
    (h : requestedOrdering resource p = .ok ordering) :
    ∀ term ∈ ordering, resolveReference env.graph resource.model term.1 = .ok () := by
  intro term hterm
  obtain ⟨entry, -, hentry⟩ := exists_of_mem_mapM h hterm
  obtain ⟨f, hf, hbinding⟩ := bind_eq_ok.mp hentry
  obtain rfl := Except.ok.inj hbinding
  exact field_reference hr (fieldAt_ok.mp hf)

theorem buildListOrdering_ok (hr : resource.Registered env)
    (h : Accepted env resource limits access p) :
    ∃ ordering, buildListOrdering resource p = .ok ordering ∧
      ∀ path ∈ ordering.map Prod.fst,
        resolveReference env.graph resource.model path = .ok () := by
  obtain ⟨requested, hrequested⟩ := requestedOrdering_ok hr h
  have hresolve := requestedOrdering_resolve hr hrequested
  refine ⟨_, bind_eq_ok.mpr ⟨requested, hrequested, rfl⟩, fun path hpath => ?_⟩
  obtain ⟨term, hterm, rfl⟩ := List.mem_map.mp hpath
  split_ifs at hterm
  · exact hresolve term hterm
  · rcases List.mem_append.mp hterm with hterm | hterm
    · exact hresolve term hterm
    · obtain rfl := List.mem_singleton.mp hterm
      exact identity_reference hr

theorem compileListQuery_spec (hr : resource.Registered env)
    (h : Accepted env resource limits access p) (calls : List FilterCall) :
    ((∀ name ∈ (List.range p.select.length).map selectAlias,
        name ∉ (env.graph resource.model).fields.keys) →
      ∃ q, compileListQuery env.graph resource p calls = .ok q) ∧
    (¬ (∀ name ∈ (List.range p.select.length).map selectAlias,
        name ∉ (env.graph resource.model).fields.keys) →
      compileListQuery env.graph resource p calls = .error (.builtin .valueError)) := by
  obtain ⟨fields, hfields⟩ := fieldsAt_ok fun name hname =>
    (h.select name hname).imp fun _ hf => hf.1
  have hlength : p.select.length = fields.length := (mapM_eq_ok.mp hfields).length_eq
  have hkeys : (enumerateAliases selectAlias (fields.map fun f => Expression.f f.binding)).keys =
      (List.range p.select.length).map selectAlias := by
    rw [keys_enumerateAliases, List.length_map, hlength]
  have haliases := checkAliases_spec env.graph resource.model
    ((List.range p.select.length).map selectAlias)
  constructor
  · intro hfree
    obtain ⟨ordering, hordering, hresolve⟩ := buildListOrdering_ok hr h
    have hpaths : ((enumerateAliases selectAlias
        (fields.map fun f => Expression.f f.binding)).values.map Expression.path).forM
        (resolveReference env.graph resource.model) = .ok () := by
      rw [values_enumerateAliases, List.map_map]
      apply forM_eq_ok.mpr
      intro path hpath
      obtain ⟨f, hf, rfl⟩ := List.mem_map.mp hpath
      exact fieldBindings_resolve hr hfields f hf
    have horder : (ordering.map Prod.fst).forM (resolveReference env.graph resource.model) =
        .ok () := forM_eq_ok.mpr hresolve
    unfold compileListQuery addExpressions
    simp only [hfields, ok_bind, hkeys, haliases.1 hfree, hpaths, hordering, horder,
      Except.ok.injEq, exists_eq']
  · intro hfree
    unfold compileListQuery addExpressions
    simp only [hfields, ok_bind, hkeys, haliases.2 hfree, error_bind]

theorem aggregate_shape (hintent : p.intent = .aggregate) (h : validatePlanShape p = .ok ()) :
    p.selectNames = [] ∧ p.metrics ≠ [] := by
  unfold validatePlanShape at h
  simp only [hintent, bind_eq_ok, raiseIf_eq_ok] at h
  obtain ⟨_, hselect, hmetrics⟩ := h
  exact ⟨not_not.mp hselect, hmetrics⟩

theorem buildGroupedOrdering_ok (hintent : p.intent = .aggregate)
    (h : Accepted env resource limits access p) :
    ∃ ordering, buildGroupedOrdering
      (publicAliases groupAlias (p.groupBy.map GroupBySpec.field))
      (publicAliases metricAlias (p.metrics.map MetricSpec.metric)) p = .ok ordering := by
  obtain ⟨hselect, -⟩ := aggregate_shape hintent h.shape
  have hterms : ∃ terms, p.orderBy.mapM (groupedTerm
      (publicAliases groupAlias (p.groupBy.map GroupBySpec.field))
      (publicAliases metricAlias (p.metrics.map MetricSpec.metric))) = .ok terms := by
    apply mapM_ok_iff.mpr
    intro o ho
    have hmem : o.target ∈ p.orderBy.map OrderBySpec.target := List.mem_map_of_mem ho
    unfold groupedTerm
    cases htarget : o.target with
    | field name =>
      have htext := (h.texts.orderBy o ho).eq
      rw [htarget, OrderTarget.name] at htext
      rw [htarget, htext] at hmem
      obtain ⟨-, hname⟩ := h.orderBy.field name.shown hmem
      have hgrouped : name.shown ∈ p.groupBy.map GroupBySpec.field := by
        rcases hname with hname | hname
        · rw [QueryPlan.select, hselect] at hname
          cases hname
        · exact hname
      obtain ⟨target, halias⟩ := aliasAt_publicAliases hgrouped
      exact ⟨_, bind_eq_ok.mpr ⟨target, halias, rfl⟩⟩
    | metric name =>
      have htext := (h.texts.orderBy o ho).eq
      rw [htarget, OrderTarget.name] at htext
      rw [htarget, htext] at hmem
      have hname := h.orderBy.metric name.shown hmem
      obtain ⟨target, halias⟩ := aliasAt_publicAliases hname
      exact ⟨_, bind_eq_ok.mpr ⟨target, halias, rfl⟩⟩
  have hgroups : ∃ targets, p.groupBy.mapM (fun g => aliasAt
      (publicAliases groupAlias (p.groupBy.map GroupBySpec.field)) g.field) = .ok targets :=
    mapM_ok_iff.mpr fun g hg => aliasAt_publicAliases (List.mem_map_of_mem hg)
  obtain ⟨terms, hterms⟩ := hterms
  obtain ⟨targets, htargets⟩ := hgroups
  exact ⟨_, bind_eq_ok.mpr ⟨terms, hterms, bind_eq_ok.mpr ⟨targets, htargets, rfl⟩⟩⟩

theorem metricsAt_ok (h : Accepted env resource limits access p) :
    ∃ metrics, p.metrics.mapM (fun m => metricAt resource m.metric) = .ok metrics :=
  mapM_ok_iff.mpr fun m hm =>
    (h.metrics m hm).imp fun _ hmetric => metricAt_ok.mpr hmetric.1

theorem mem_metricsAt {metrics : List Metric}
    (h : p.metrics.mapM (fun m => metricAt resource m.metric) = .ok metrics) {metric : Metric} :
    metric ∈ metrics ↔ ∃ m ∈ p.metrics, resource.metrics.get? m.metric = some metric := by
  constructor
  · intro hmem
    obtain ⟨m, hm, hmetric⟩ := exists_of_mem_mapM h hmem
    exact ⟨m, hm, metricAt_ok.mp hmetric⟩
  · rintro ⟨m, hm, hmetric⟩
    obtain ⟨metric', hmem, hmetric'⟩ := exists_result_of_mapM h hm
    rw [metricAt_ok, hmetric] at hmetric'
    obtain rfl := Option.some.inj hmetric'
    exact hmem

theorem groupPaths_resolve (hr : resource.Registered env) {fields : List FieldSpec}
    (h : p.groupBy.mapM (fun g => fieldAt resource g.field) = .ok fields) :
    (((fields.zip p.groupBy).map fun e =>
      buildDateTruncExpression e.1.binding e.2.dateTrunc e.1.type resource.timezone).map
        Expression.path).forM (resolveReference env.graph resource.model) = .ok () := by
  rw [List.map_map]
  apply forM_eq_ok.mpr
  intro path hpath
  obtain ⟨e, he, rfl⟩ := List.mem_map.mp hpath
  obtain ⟨g, -, hg⟩ := exists_of_mem_mapM h (List.of_mem_zip he).1
  show resolveReference _ _ (Expression.path (buildDateTruncExpression _ _ _ _)) = _
  rw [buildDateTruncExpression_path]
  exact field_reference hr (fieldAt_ok.mp hg)

/-- The aggregates resolve unless a metric ends in a generic foreign key. -/
theorem aggregatePaths_spec (hr : resource.Registered env) {metrics : List Metric}
    (h : p.metrics.mapM (fun m => metricAt resource m.metric) = .ok metrics) :
    ((∀ metric ∈ metrics, ¬ EndsGeneric env.graph resource.model (buildAggregate metric).path) →
      ((metrics.map buildAggregate).map Aggregate.path).forM
        (resolveReference env.graph resource.model) = .ok ()) ∧
    (¬ (∀ metric ∈ metrics,
        ¬ EndsGeneric env.graph resource.model (buildAggregate metric).path) →
      ((metrics.map buildAggregate).map Aggregate.path).forM
        (resolveReference env.graph resource.model) = .error (.builtin .fieldError)) := by
  constructor
  · intro hgeneric
    apply forM_eq_ok.mpr
    intro path hpath
    rw [List.map_map] at hpath
    obtain ⟨metric, hmetric, rfl⟩ := List.mem_map.mp hpath
    obtain ⟨m, -, hm⟩ := (mem_metricsAt h).mp hmetric
    exact (aggregate_reference hr hm).1 (hgeneric metric hmetric)
  · intro hgeneric
    push Not at hgeneric
    obtain ⟨metric, hmetric, hends⟩ := hgeneric
    obtain ⟨m, -, hm⟩ := (mem_metricsAt h).mp hmetric
    cases hforM : ((metrics.map buildAggregate).map Aggregate.path).forM
        (resolveReference env.graph resource.model) with
    | ok u =>
      have hok := forM_eq_ok.mp hforM (buildAggregate metric).path
        (List.mem_map_of_mem (List.mem_map_of_mem hmetric))
      rw [(aggregate_reference hr hm).2 hends] at hok
      cases hok
    | error e =>
      obtain ⟨pre, path, post, -, -, he⟩ := forM_eq_error.mp hforM
      unfold resolveReference at he
      split at he
      · cases he
      · rw [Except.error.inj he]

/-- A computation that stops with a built-in error other than an overflow. -/
theorem stops_spec {c : Prop} {x : Py CompiledQuery} {e : BuiltinError}
    (hx : x = .error (.builtin e)) (he : .builtin e ≠ outOfRange) (hc : ¬ c) :
    (∀ e, x = .error e → e ≠ outOfRange) ∧ ((∃ q, x = .ok q) ↔ c) := by
  rw [hx]
  refine ⟨fun e' he' => ?_, fun hok => ?_, fun h => absurd h hc⟩
  · obtain rfl := Except.error.inj he'
    exact he
  · obtain ⟨q, hq⟩ := hok
    cases hq

/-- What stops an aggregate query: an alias of a group, or a metric on a generic foreign key. -/
theorem compileAggregateQuery_spec (hr : resource.Registered env)
    (hintent : p.intent = .aggregate) (h : Accepted env resource limits access p)
    (calls : List FilterCall) :
    (∀ e, compileAggregateQuery env resource p calls = .error e → e ≠ outOfRange) ∧
    ((∃ q, compileAggregateQuery env resource p calls = .ok q) ↔
      (∀ name ∈ (List.range p.groupBy.length).map groupAlias,
        name ∉ (env.graph resource.model).fields.keys) ∧
      (p.groupBy ≠ [] → ∀ m ∈ p.metrics, ∀ metric,
        resource.metrics.get? m.metric = some metric →
          ¬ EndsGeneric env.graph resource.model (buildAggregate metric).path)) := by
  obtain ⟨fields, hfields⟩ : ∃ fields,
      p.groupBy.mapM (fun g => fieldAt resource g.field) = .ok fields := by
    apply mapM_ok_iff.mpr
    intro g hg
    obtain ⟨f, hf, -⟩ := h.groupBy g hg
    exact ⟨f, fieldAt_ok.mpr hf.1⟩
  obtain ⟨metrics, hmetrics⟩ := metricsAt_ok h
  have hlength : p.groupBy.length = fields.length := (mapM_eq_ok.mp hfields).length_eq
  have hkeys : (enumerateAliases groupAlias ((fields.zip p.groupBy).map fun e =>
      buildDateTruncExpression e.1.binding e.2.dateTrunc e.1.type resource.timezone)).keys =
        (List.range p.groupBy.length).map groupAlias := by
    rw [keys_enumerateAliases, List.length_map, List.length_zip, ← hlength, min_self]
  have haliases := checkAliases_spec env.graph resource.model
    ((List.range p.groupBy.length).map groupAlias)
  obtain ⟨hresolve, hgenericStops⟩ := aggregatePaths_spec hr hmetrics
  unfold compileAggregateQuery addExpressions
  simp only [hfields, hmetrics, ok_bind, hkeys, values_enumerateAliases,
    groupPaths_resolve hr hfields]
  by_cases hempty : p.groupBy = []
  · simp [hempty]
  rw [if_neg hempty]
  by_cases hfree : ∀ name ∈ (List.range p.groupBy.length).map groupAlias,
      name ∉ (env.graph resource.model).fields.keys
  · rw [haliases.1 hfree, ok_bind, ok_bind]
    by_cases hgeneric : ∀ metric ∈ metrics,
        ¬ EndsGeneric env.graph resource.model (buildAggregate metric).path
    · obtain ⟨ordering, hordering⟩ := buildGroupedOrdering_ok hintent h
      rw [hresolve hgeneric, ok_bind, hordering, ok_bind]
      refine ⟨?_, fun _ => ⟨hfree, fun _ m hm metric hmetric => ?_⟩, fun _ => ⟨_, rfl⟩⟩
      · intro e he
        cases he
      · exact hgeneric metric ((mem_metricsAt hmetrics).mpr ⟨m, hm, hmetric⟩)
    · apply stops_spec (e := .fieldError) _ (by decide)
      · rintro ⟨-, hall⟩
        apply hgeneric
        intro metric hmetric
        obtain ⟨m, hm, hmetric'⟩ := (mem_metricsAt hmetrics).mp hmetric
        exact hall hempty m hm metric hmetric'
      · rw [hgenericStops hgeneric]
        rfl
  · apply stops_spec (e := .valueError) _ (by decide)
    · exact fun hall => hfree hall.1
    · rw [haliases.2 hfree]
      rfl

theorem applyFilter_spec (hr : resource.Registered env) {f : FieldSpec} {x : FilterSpec}
    (hf : resource.fields.get? x.field = some f)
    (h : AcceptedFilter env resource limits access f x) (now : Clock) :
    (applyFilter env.graph resource now x = .error outOfRange ↔
      startsOutOfRange resource.timezone now x = true) ∧
    ((∃ calls, applyFilter env.graph resource now x = .ok calls) ↔
      startsOutOfRange resource.timezone now x = false ∧
        FilterCompiles resource.timezone now f x) := by
  have hspec : (buildFilterQ f resource.timezone now x = .error outOfRange ↔ _) ∧ (_ ↔ _) :=
    buildFilterQ_spec h
  have happly : applyFilter env.graph resource now x =
      (buildFilterQ f resource.timezone now x).map (filterCalls x f.binding) := by
    unfold applyFilter
    rw [fieldAt_ok.mpr hf, ok_bind]
    cases buildFilterQ f resource.timezone now x with
    | error e => rfl
    | ok conditions =>
      rw [ok_bind, field_reference hr hf, ok_bind]
      rfl
  rw [happly, ← hspec.1, ← hspec.2]
  cases buildFilterQ f resource.timezone now x <;> simp [Except.map]

theorem compileRest_spec (hr : resource.Registered env)
    (h : Accepted env resource limits access p) (calls : List FilterCall) :
    (∀ e, (match p.intent with
      | .list => compileListQuery env.graph resource p calls
      | .aggregate => compileAggregateQuery env resource p calls) = .error e → e ≠ outOfRange) ∧
    ((∃ q, (match p.intent with
      | .list => compileListQuery env.graph resource p calls
      | .aggregate => compileAggregateQuery env resource p calls) = .ok q) ↔
      (∀ name ∈ checkedAliases p, name ∉ (env.graph resource.model).fields.keys) ∧
      (p.groupBy ≠ [] → ∀ m ∈ p.metrics, ∀ metric,
        resource.metrics.get? m.metric = some metric →
          ¬ EndsGeneric env.graph resource.model (buildAggregate metric).path)) := by
  unfold checkedAliases
  cases hintent : p.intent with
  | list =>
    have hmetrics : p.metrics = [] := by
      have hshape := h.shape
      simp only [validatePlanShape, hintent, bind_eq_ok, raiseIf_eq_ok] at hshape
      obtain ⟨_, -, _, hmetrics, -⟩ := hshape
      exact not_not.mp hmetrics
    have hspec := compileListQuery_spec hr h calls
    by_cases hfree : ∀ name ∈ (List.range p.select.length).map selectAlias,
        name ∉ (env.graph resource.model).fields.keys
    · obtain ⟨q, hq⟩ := hspec.1 hfree
      simp only [hq]
      refine ⟨?_, fun _ => ⟨hfree, fun _ m hm => ?_⟩, fun _ => ⟨q, rfl⟩⟩
      · intro e he
        cases he
      · rw [hmetrics] at hm
        cases hm
    · simp only [hspec.2 hfree]
      refine ⟨?_, ?_, fun hok => absurd hok.1 hfree⟩
      · intro e he
        obtain rfl := Except.error.inj he
        intro hout
        cases hout
      · rintro ⟨q, hq⟩
        cases hq
  | aggregate => exact compileAggregateQuery_spec hr hintent h calls

/-- The filters up to the first allowed stop, with the condition on each of them. -/
def ReachedCompile (resource : SemanticResource) (p : QueryPlan) (now : Clock) : Prop :=
  ∀ x ∈ reachedFilters resource.timezone now p.filters, ∀ f,
    resource.fields.get? x.field = some f → FilterCompiles resource.timezone now f x

theorem reached_ok_iff (hr : resource.Registered env)
    (h : Accepted env resource limits access p) (now : Clock) :
    (∀ x ∈ reachedFilters resource.timezone now p.filters,
      ∃ calls, applyFilter env.graph resource now x = .ok calls) ↔
      ReachedCompile resource p now := by
  refine forall₂_congr fun x hx => ?_
  have hnot : startsOutOfRange resource.timezone now x = false := by
    simpa using List.mem_takeWhile_imp hx
  obtain ⟨f, hf⟩ := h.filters x (List.takeWhile_subset _ hx)
  rw [(applyFilter_spec hr hf.usable.1 hf now).2, hnot]
  constructor
  · rintro ⟨-, hin⟩ g hg
    obtain rfl := Option.some.inj (hf.usable.1.symm.trans hg)
    exact hin
  · intro hin
    exact ⟨rfl, hin f hf.usable.1⟩

theorem applyFilter_stops_iff (hr : resource.Registered env)
    (h : Accepted env resource limits access p) (now : Clock) :
    ∀ x ∈ p.filters, applyFilter env.graph resource now x = .error outOfRange ↔
      startsOutOfRange resource.timezone now x = true := by
  intro x hx
  obtain ⟨f, hf⟩ := h.filters x hx
  exact (applyFilter_spec hr hf.usable.1 hf now).1

/-- A plan with a filter that starts too early stops there when the filters before it compile. -/
theorem compiles_iff_of_stop (hr : resource.Registered env)
    (h : Accepted env resource limits access p) (now : Clock)
    (hstops : ∃ x ∈ p.filters, startsOutOfRange resource.timezone now x = true) :
    Compiles env resource p now ↔ ReachedCompile resource p now := by
  have hstop := applyFilter_stops_iff hr h now
  have hfail : ¬ ∃ r, p.filters.mapM (applyFilter env.graph resource now) = .ok r := by
    rw [mapM_ok_iff]
    intro hall
    obtain ⟨x, hx, hstart⟩ := hstops
    obtain ⟨calls, hcalls⟩ := hall x hx
    rw [(hstop x hx).mpr hstart] at hcalls
    cases hcalls
  have hfilters : ∀ calls, applyFilters env.graph resource now p.filters ≠ .ok calls := by
    intro calls hcalls
    obtain ⟨parts, hparts, -⟩ := bind_eq_ok.mp hcalls
    exact hfail ⟨parts, hparts⟩
  rw [← reached_ok_iff hr h now, reachedFilters, ← mapM_ok_or_stops_iff hstop]
  constructor
  · rintro (⟨q, hq⟩ | ⟨herror, -⟩)
    · obtain ⟨calls, hcalls, -⟩ := bind_eq_ok.mp hq
      exact absurd hcalls (hfilters calls)
    · rcases bind_eq_error.mp herror with hcalls | ⟨calls, hcalls, -⟩
      · rcases bind_eq_error.mp hcalls with hparts | ⟨parts, hparts, -⟩
        · exact .inr hparts
        · exact .inl ⟨parts, hparts⟩
      · exact absurd hcalls (hfilters calls)
  · intro hmapM
    refine .inr ⟨?_, hstops⟩
    rw [compilePreparedQuery, applyFilters, hmapM.resolve_left hfail, error_bind, error_bind]

theorem compiles_iff_of_all (hr : resource.Registered env)
    (h : Accepted env resource limits access p) (now : Clock)
    (hstops : ¬ ∃ x ∈ p.filters, startsOutOfRange resource.timezone now x = true)
    (hall : reachedFilters resource.timezone now p.filters = p.filters) :
    Compiles env resource p now ↔ ReachedCompile resource p now ∧
      (∀ name ∈ checkedAliases p, name ∉ (env.graph resource.model).fields.keys) ∧
      (p.groupBy ≠ [] → ∀ m ∈ p.metrics, ∀ metric,
        resource.metrics.get? m.metric = some metric →
          ¬ EndsGeneric env.graph resource.model (buildAggregate metric).path) := by
  have hfilters : (∃ parts, p.filters.mapM (applyFilter env.graph resource now) = .ok parts) ↔
      ReachedCompile resource p now := by
    rw [mapM_ok_iff, ← reached_ok_iff hr h now, hall]
  constructor
  · rintro (⟨q, hq⟩ | ⟨-, hstart⟩)
    · obtain ⟨calls, hcalls, hrest⟩ := bind_eq_ok.mp hq
      obtain ⟨parts, hparts, -⟩ := bind_eq_ok.mp hcalls
      exact ⟨hfilters.mp ⟨parts, hparts⟩, (compileRest_spec hr h calls).2.mp ⟨q, hrest⟩⟩
    · exact absurd hstart hstops
  · rintro ⟨hreached, hrest⟩
    obtain ⟨parts, hparts⟩ := hfilters.mpr hreached
    obtain ⟨q, hq⟩ := (compileRest_spec hr h parts.flatten).2.mpr hrest
    refine .inl ⟨q, ?_⟩
    rw [compilePreparedQuery, applyFilters, hparts, ok_bind, ok_bind]
    exact hq

theorem compiles_iff (hr : resource.Registered env) (h : Accepted env resource limits access p)
    (now : Clock) : Compiles env resource p now ↔ CompilesWhen env resource p now := by
  by_cases hstops : ∃ x ∈ p.filters, startsOutOfRange resource.timezone now x = true
  · have hpartial : reachedFilters resource.timezone now p.filters ≠ p.filters := by
      intro hall
      obtain ⟨x, hx, hstart⟩ := hstops
      rw [← hall] at hx
      have hnot := List.mem_takeWhile_imp hx
      simp [hstart] at hnot
    rw [compiles_iff_of_stop hr h now hstops]
    constructor
    · intro hreached
      exact ⟨hreached, fun hall => absurd hall hpartial, fun hall => absurd hall hpartial⟩
    · intro hwhen
      exact hwhen.filters
  · have hall : reachedFilters resource.timezone now p.filters = p.filters := by
      rw [reachedFilters, List.takeWhile_eq_self_iff]
      intro x hx
      have hnot : startsOutOfRange resource.timezone now x ≠ true := fun h => hstops ⟨x, hx, h⟩
      simpa using hnot
    rw [compiles_iff_of_all hr h now hstops hall]
    constructor
    · rintro ⟨hreached, haliases, hmetrics⟩
      exact ⟨hreached, fun _ => haliases, fun _ => hmetrics⟩
    · intro hwhen
      exact ⟨hwhen.filters, hwhen.aliases hall, hwhen.metrics hall⟩

/-- A plan compiles to a query when, besides, no relative filter starts outside the range. -/
theorem exists_compiled_iff (hr : resource.Registered env)
    (h : Accepted env resource limits access p) (now : Clock) :
    (∃ q, compilePreparedQuery env resource p now = .ok q) ↔
      CompilesWhen env resource p now ∧
        ∀ x ∈ p.filters, startsOutOfRange resource.timezone now x = false := by
  rw [← compiles_iff hr h now]
  constructor
  · rintro ⟨q, hq⟩
    refine ⟨.inl ⟨q, hq⟩, fun x hx => ?_⟩
    by_contra hstart
    rw [Bool.not_eq_false] at hstart
    obtain ⟨calls, hcalls, -⟩ := bind_eq_ok.mp hq
    obtain ⟨parts, hparts, -⟩ := bind_eq_ok.mp hcalls
    obtain ⟨part, -, hpart⟩ := exists_result_of_mapM hparts hx
    rw [(applyFilter_stops_iff hr h now x hx).mpr hstart] at hpart
    cases hpart
  · rintro ⟨hcompiles, hinside⟩
    rcases hcompiles with hq | ⟨-, x, hx, hstart⟩
    · exact hq
    · rw [hinside x hx] at hstart
      cases hstart

/-- An accepted plan compiles, or stops where it may, exactly when the conditions on its filters,
its aliases and its metrics hold. -/
theorem accepted_compiles_iff {registry : CatalogRegistry env} {raw : RawPlan}
    (haccepted : parseAndValidateQueryPlan registry limits access raw = .ok p)
    (hresource : registry.get p.resource = .ok resource) (now : Clock) :
    Compiles env resource p now ↔ CompilesWhen env resource p now := by
  obtain ⟨r, hr, hregistered, h⟩ := parseAndValidateQueryPlan_ok haccepted
  obtain rfl : r = resource := Except.ok.inj (hr.symm.trans hresource)
  exact compiles_iff hregistered h now

end

def datedOrders : CatalogRegistry Sample.environment :=
  Sample.registryOf (Sample.orderArgs [("day", .config (Sample.fieldConfig "day" "date"))])

def dayIsNull (value : Bool) : QueryPlan :=
  { Sample.listPlan ["day"] with filters? := some [⟨"day", .isnull, .scalar (.bool value)⟩] }

/-- The days of the last week of which none is before December. -/
def recentDays : QueryPlan :=
  { Sample.listPlan ["day"] with
    filters? := some
      [⟨"day", .gte, .scalar (.str none "2023-12-01")⟩,
        ⟨"day", .lastNDays, .scalar (.int none 7)⟩] }

theorem recentDays_compiles_iff :
    ∃ resource, datedOrders.get "orders" = .ok resource ∧
      Compiles Sample.environment resource recentDays Sample.newYear ∧
      CompilesWhen Sample.environment resource recentDays Sample.newYear := by
  have haccepted : Sample.validated datedOrders Sample.limits recentDays = .ok recentDays := by
    decide +kernel
  have hcompiled : (compiledSample datedOrders recentDays).isSome = true := by decide +kernel
  obtain ⟨⟨resource, q⟩, h⟩ := Option.isSome_iff_exists.mp hcompiled
  obtain ⟨hresource, hq⟩ := compiledSample_ok h
  have hcompiles : Compiles Sample.environment resource recentDays Sample.newYear :=
    .inl ⟨q, hq⟩
  exact ⟨resource, hresource, hcompiles,
    (accepted_compiles_iff haccepted hresource _).mp hcompiles⟩

/-- A null test on a date is accepted and never compiles. -/
theorem null_test_on_date_raises :
    ¬ ∀ (env : Environment) (registry : CatalogRegistry env) (limits : PlanLimits)
      (access : Access) (raw : RawPlan) (p : QueryPlan) (resource : SemanticResource)
      (now : Clock), parseAndValidateQueryPlan registry limits access raw = .ok p →
        registry.get p.resource = .ok resource → Compiles env resource p now := by
  intro h
  have haccepted : Sample.validated datedOrders Sample.limits (dayIsNull true) =
      .ok (dayIsNull true) := by decide +kernel
  have hcompiles := h _ _ _ _ _ _ _ Sample.newYear haccepted rfl
  rcases hcompiles with ⟨q, hq⟩ | ⟨herror, -⟩
  · cases hq
  · exact absurd herror (by decide +kernel)

end AskLens.Compiler
