import AskLens.Planning.RoundTrip
import AskLens.Planning.Validation

/-!
# What validation establishes

`Accepted` names the facts about a plan that the validator returns: its members
exist and may be used where they stand, nothing is repeated, the budgets hold
and every filter value is in its canonical form.
-/
namespace AskLens.Planning

open Python Catalog Checks

/-! ## Duplicates -/

theorem rejectDuplicateKeys_ok {α κ : Type} [DecidableEq κ] {label : String} {key : α → Py κ}
    {items : List α} {seen : List κ} {u : Unit}
    (h : rejectDuplicateKeys label key items seen = .ok u) :
    ∃ keys, items.mapM key = .ok keys ∧ keys.Nodup ∧ ∀ k ∈ keys, k ∉ seen := by
  induction items generalizing seen with
  | nil => exact ⟨[], rfl, by simp, by simp⟩
  | cons a rest ih =>
    obtain ⟨k, hk, h⟩ := bind_eq_ok.mp h
    obtain ⟨_, hnew, h⟩ := bind_eq_ok.mp h
    rw [raiseIf_eq_ok] at hnew
    obtain ⟨keys, hkeys, hnodup, hseen⟩ := ih h
    refine ⟨k :: keys, ?_, ?_, ?_⟩
    · rw [List.mapM_cons, hk, ok_bind, hkeys]
      rfl
    · refine List.nodup_cons.mpr ⟨fun hmem => ?_, hnodup⟩
      exact hseen k hmem (by simp)
    · intro j hj
      rcases List.mem_cons.mp hj with rfl | hj
      · exact hnew
      · exact fun hmem => hseen j hj (by simp [hmem])

theorem rejectDuplicateKeys_of_nodup {α κ : Type} [DecidableEq κ] {label : String}
    {key : α → Py κ} {items : List α} {seen keys : List κ} (hkeys : items.mapM key = .ok keys)
    (hnodup : keys.Nodup) (hseen : ∀ k ∈ keys, k ∉ seen) :
    rejectDuplicateKeys label key items seen = .ok () := by
  induction items generalizing seen keys with
  | nil => rfl
  | cons a rest ih =>
    rw [List.mapM_cons, bind_eq_ok] at hkeys
    obtain ⟨k, hk, hkeys⟩ := hkeys
    obtain ⟨ks, hks, hkeys⟩ := bind_eq_ok.mp hkeys
    obtain rfl : k :: ks = keys := by simpa using hkeys
    rw [List.nodup_cons] at hnodup
    rw [rejectDuplicateKeys, hk, ok_bind, raiseIf_neg (hseen k (by simp)), ok_bind]
    refine ih hks hnodup.2 fun j hj => ?_
    rw [List.mem_cons]
    rintro (rfl | hmem)
    · exact hnodup.1 hj
    · exact hseen j (by simp [hj]) hmem

theorem mapM_pure_ok {α β : Type} {f : α → β} {items : List α} {keys : List β}
    (h : items.mapM (fun a => (.ok (f a) : Py β)) = .ok keys) : keys = items.map f := by
  induction items generalizing keys with
  | nil => simpa [eq_comm] using h
  | cons a rest ih =>
    rw [List.mapM_cons, ok_bind, bind_eq_ok] at h
    obtain ⟨ks, hks, h⟩ := h
    obtain rfl : f a :: ks = keys := by simpa using h
    rw [ih hks, List.map_cons]

/-- The lists of a plan that repeat nothing. -/
structure NoDuplicates (env : Environment) (p : QueryPlan) : Prop where
  select : p.selectNames.Nodup
  groupBy : (p.groupBy.map GroupBySpec.fieldName).Nodup
  orderBy : (p.orderBy.map OrderBySpec.target).Nodup
  filters : ∃ keys, p.filters.mapM (filterKey env) = .ok keys ∧ keys.Nodup
  inValues : ∀ f ∈ p.filters, rejectDuplicateInValues env f = .ok ()

theorem validateNoMeaninglessDuplicates_ok {env : Environment} {p : QueryPlan} {u : Unit}
    (h : validateNoMeaninglessDuplicates env p = .ok u) : NoDuplicates env p := by
  simp only [validateNoMeaninglessDuplicates, bind_eq_ok] at h
  obtain ⟨_, hselect, _, hgroupBy, _, horderBy, _, hfilters, hin⟩ := h
  obtain ⟨ks, hks, hselect, -⟩ := rejectDuplicateKeys_ok hselect
  obtain ⟨kg, hkg, hgroupBy, -⟩ := rejectDuplicateKeys_ok hgroupBy
  obtain ⟨ko, hko, horderBy, -⟩ := rejectDuplicateKeys_ok horderBy
  obtain ⟨kf, hkf, hfilters, -⟩ := rejectDuplicateKeys_ok hfilters
  rw [mapM_pure_ok (f := id) hks, List.map_id] at hselect
  rw [mapM_pure_ok hkg] at hgroupBy
  rw [mapM_pure_ok hko] at horderBy
  exact ⟨hselect, hgroupBy, horderBy, ⟨kf, hkf, hfilters⟩, forM_eq_ok.mp hin⟩

/-! ## Members -/

/-- The field under a name, when it may be used there. -/
def UsableField (resource : SemanticResource) (limits : PlanLimits) (access : Access)
    (usage : FieldUsage) (name : String) (f : FieldSpec) : Prop :=
  resource.fields.get? name = some f ∧ checkFieldUsage limits access usage name f = .ok ()

theorem validateFieldUsage_ok {limits : PlanLimits} {access : Access}
    {resource : SemanticResource} {usage : FieldUsage} {name : PyStr} {f : FieldSpec} :
    validateFieldUsage limits access resource usage name = .ok f ↔
      name.IsText ∧ UsableField resource limits access usage name.shown f := by
  unfold validateFieldUsage UsableField
  cases name with
  | surrogates t lone => simp [PyStr.IsText, named?, PyStr.text?]
  | text name =>
    simp only [PyStr.isText_text, true_and, named?_text, PyStr.shown_text]
    cases resource.fields.get? name with
    | none => simp
    | some g =>
      simp only [bind_eq_ok, Except.ok.injEq, Option.some.injEq]
      constructor
      · rintro ⟨⟨⟩, hcheck, rfl⟩
        exact ⟨rfl, hcheck⟩
      · rintro ⟨rfl, hcheck⟩
        exact ⟨⟨⟩, hcheck, rfl⟩

theorem checkFieldUsage_depth {limits : PlanLimits} {access : Access} {usage : FieldUsage}
    {name : PyStr} {f : FieldSpec} {u : Unit}
    (h : checkFieldUsage limits access usage name f = .ok u) :
    f.relationDepth ≤ limits.maxJoins := by
  obtain ⟨_, hdepth, -⟩ := bind_eq_ok.mp h
  rw [raiseIf_eq_ok] at hdepth
  omega

def UsableMetric (resource : SemanticResource) (limits : PlanLimits) (access : Access)
    (name : String) (m : Metric) : Prop :=
  resource.metrics.get? name = some m ∧ validateMetricUsage limits access m = .ok ()

theorem validateMetricUsage_depth {limits : PlanLimits} {access : Access} {m : Metric} {u : Unit}
    (h : validateMetricUsage limits access m = .ok u) : m.relationDepth ≤ limits.maxJoins := by
  obtain ⟨_, hdepth, -⟩ := bind_eq_ok.mp h
  rw [raiseIf_eq_ok] at hdepth
  omega

theorem validateMetrics_ok {limits : PlanLimits} {access : Access} {resource : SemanticResource}
    {specs : List MetricSpec} {seen names : List PyStr}
    (h : validateMetrics limits access resource specs seen = .ok names) :
    (specs.map MetricSpec.metricName).Nodup ∧ (∀ s ∈ specs, s.metricName ∉ seen) ∧
      (∀ s ∈ specs, s.metricName.IsText ∧ ∃ m, UsableMetric resource limits access s.metric m) ∧
      ∀ name, name ∈ names ↔ name ∈ seen ∨ name ∈ specs.map MetricSpec.metricName := by
  induction specs generalizing seen with
  | nil =>
    obtain rfl : seen = names := by simpa [validateMetrics] using h
    simp
  | cons spec rest ih =>
    obtain ⟨_, hnew, h⟩ := bind_eq_ok.mp h
    rw [raiseIf_eq_ok] at hnew
    split at h
    · cases h
    · rename_i m hm
      obtain ⟨_, husage, h⟩ := bind_eq_ok.mp h
      obtain ⟨hnodup, hseen, husable, hnames⟩ := ih h
      refine ⟨?_, ?_, ?_, ?_⟩
      · rw [List.map_cons, List.nodup_cons]
        refine ⟨fun hmem => ?_, hnodup⟩
        obtain ⟨s, hs, heq⟩ := List.mem_map.mp hmem
        exact hseen s hs (by simp [heq])
      · intro s hs
        rcases List.mem_cons.mp hs with rfl | hs
        · exact hnew
        · exact fun hmem => hseen s hs (by simp [hmem])
      · intro s hs
        rcases List.mem_cons.mp hs with rfl | hs
        · obtain ⟨htext, hm⟩ := named?_eq_some.mp hm
          exact ⟨htext, m, hm, husage⟩
        · exact husable s hs
      · intro name
        rw [hnames name, List.map_cons, List.mem_cons, List.mem_cons]
        tauto

/-- A filter of an accepted plan: its field and operator, and the value it was read with. -/
structure AcceptedFilter (env : Environment) (resource : SemanticResource) (limits : PlanLimits)
    (access : Access) (f : FieldSpec) (x : FilterSpec) : Prop where
  usable : UsableField resource limits access .filter x.field f
  operator : x.op ∈ operatorsByFieldType f.type
  canonical : ∃ raw : FilterSpec, raw.WellFormed ∧ raw.fieldName = x.fieldName ∧ raw.op = x.op ∧
    normalizeFilterValue env.unicode f raw = .ok x

structure AcceptedOrder (resource : SemanticResource) (limits : PlanLimits) (access : Access)
    (p : QueryPlan) : Prop where
  field : ∀ name : String, .field name ∈ p.orderBy.map OrderBySpec.target →
    (∃ f, UsableField resource limits access .orderBy name f) ∧
      (name ∈ p.select ∨ name ∈ p.groupBy.map GroupBySpec.field)
  metric : ∀ name : String, .metric name ∈ p.orderBy.map OrderBySpec.target →
    name ∈ p.metrics.map MetricSpec.metric

/-- No name of the plan has a lone surrogate. -/
structure QueryPlan.NamesAreTexts (p : QueryPlan) : Prop where
  select : ∀ name ∈ p.selectNames, name.IsText
  filters : ∀ f ∈ p.filters, f.fieldName.IsText
  groupBy : ∀ g ∈ p.groupBy, g.fieldName.IsText
  metrics : ∀ m ∈ p.metrics, m.metricName.IsText
  orderBy : ∀ o ∈ p.orderBy, o.target.name.IsText

theorem QueryPlan.NamesAreTexts.references {p : QueryPlan} (h : p.NamesAreTexts) :
    ∀ name ∈ planFieldReferences p, name.IsText := by
  intro name hname
  simp only [planFieldReferences, List.mem_append] at hname
  rcases hname with ((hname | hname) | hname) | hname
  · exact h.select name hname
  · obtain ⟨x, hx, rfl⟩ := List.mem_map.mp hname
    exact h.filters x hx
  · obtain ⟨g, hg, rfl⟩ := List.mem_map.mp hname
    exact h.groupBy g hg
  · obtain ⟨o, ho, hname⟩ := List.mem_filterMap.mp hname
    have htext := h.orderBy o ho
    unfold OrderBySpec.fieldName? at hname
    split at hname
    · rename_i n hn
      rw [hn, OrderTarget.name] at htext
      exact Option.some.inj hname ▸ htext
    · cases hname

theorem QueryPlan.NamesAreTexts.target_of_field? {p : QueryPlan} (h : p.NamesAreTexts)
    {o : OrderBySpec} (ho : o ∈ p.orderBy) {name : String} (hname : o.field? = some name) :
    o.target = .field name := by
  have htext := h.orderBy o ho
  unfold OrderBySpec.field? OrderBySpec.fieldName? at hname
  split at hname
  · rename_i n hn
    rw [hn, OrderTarget.name] at htext
    obtain rfl : n.shown = name := by simpa using hname
    rw [hn, ← htext.eq]
  · cases hname

theorem map_shown_references (p : QueryPlan) :
    (planFieldReferences p).map PyStr.shown = p.select ++ p.filters.map FilterSpec.field ++
      p.groupBy.map GroupBySpec.field ++ p.orderBy.filterMap OrderBySpec.field? := by
  simp only [planFieldReferences, List.map_append, List.map_map, List.map_filterMap]
  rfl

theorem map_metric (specs : List MetricSpec) :
    specs.map MetricSpec.metric = (specs.map MetricSpec.metricName).map PyStr.shown := by
  rw [List.map_map]
  rfl

theorem map_groupField (groups : List GroupBySpec) :
    groups.map GroupBySpec.field = (groups.map GroupBySpec.fieldName).map PyStr.shown := by
  rw [List.map_map]
  rfl

theorem nodup_shown {names : List PyStr} (htexts : ∀ name ∈ names, name.IsText)
    (h : names.Nodup) : (names.map PyStr.shown).Nodup := by
  refine h.map_on fun a ha b hb heq => ?_
  rw [(htexts a ha).eq, (htexts b hb).eq, heq]

structure Accepted (env : Environment) (resource : SemanticResource) (limits : PlanLimits)
    (access : Access) (p : QueryPlan) : Prop where
  resource_eq : p.resourceName = resource.name
  texts : p.NamesAreTexts
  limit_set : ∃ n, p.limit? = some n ∧ 1 ≤ n
  shape : validatePlanShape p = .ok ()
  counts : validateCounts p limits = .ok ()
  edges : (collectRelationshipEdges resource p).length ≤ limits.maxRelationshipEdges
  noDuplicates : NoDuplicates env p
  select : ∀ name ∈ p.select, ∃ f, UsableField resource limits access .select name f
  filters : ∀ x ∈ p.filters, ∃ f, AcceptedFilter env resource limits access f x
  groupBy : ∀ g ∈ p.groupBy, ∃ f, UsableField resource limits access .groupBy g.field f ∧
    (g.dateTrunc.isSome = true → f.type.isDate = true)
  metrics : ∀ m ∈ p.metrics, ∃ metric, UsableMetric resource limits access m.metric metric
  metrics_nodup : (p.metrics.map MetricSpec.metric).Nodup
  policy : validateAggregateRelationshipPolicy resource p = .ok ()
  orderBy : AcceptedOrder resource limits access p

section

variable {env : Environment} {resource : SemanticResource} {limits : PlanLimits} {access : Access}
  {p : QueryPlan}

theorem Accepted.resource_name (h : Accepted env resource limits access p) :
    p.resource = resource.name := by
  rw [QueryPlan.resource, h.resource_eq]
  rfl

theorem Accepted.select_nodup (h : Accepted env resource limits access p) : p.select.Nodup :=
  nodup_shown h.texts.select h.noDuplicates.select

theorem Accepted.groupBy_nodup (h : Accepted env resource limits access p) :
    (p.groupBy.map GroupBySpec.field).Nodup := by
  rw [map_groupField]
  refine nodup_shown (fun name hname => ?_) h.noDuplicates.groupBy
  obtain ⟨g, hg, rfl⟩ := List.mem_map.mp hname
  exact h.texts.groupBy g hg

theorem Accepted.limit_pos (h : Accepted env resource limits access p) :
    1 ≤ p.limit := by
  obtain ⟨n, hn, hpos⟩ := h.limit_set
  rw [QueryPlan.limit, hn]
  exact hpos

theorem Accepted.limit_le (h : Accepted env resource limits access p) :
    p.limit ≤ limits.maxRows := by
  obtain ⟨_, -, hcounts⟩ := bind_eq_ok.mp h.counts
  obtain ⟨_, hlimit, -⟩ := bind_eq_ok.mp hcounts
  exact not_lt.mp ((raiseIf_eq_ok _ _ _).mp hlimit)

end

/-! ## Normalization -/

/-- The operators whose value is kept as it was read. -/
def keepsValue : FilterOperator → Bool
  | .isnull | .lastNDays | .lastNMonths => true
  | _ => false

section

variable {unicode : Unicode} {f : FieldSpec} {x y : FilterSpec}

theorem normalizeFilterValue_keeps (h : keepsValue x.op = true) :
    normalizeFilterValue unicode f x = .ok x := by
  unfold normalizeFilterValue
  cases hop : x.op <;> simp_all [keepsValue]

theorem normalizeFilterValue_range (h : x.op = .dateRange) :
    normalizeFilterValue unicode f x =
      normalizeDateRangeFilter f x.value >>= fun value => .ok { x with value := value } := by
  unfold normalizeFilterValue
  rw [h]

theorem normalizeFilterValue_scalars (hkeeps : keepsValue x.op = false)
    (hrange : x.op ≠ .dateRange) :
    normalizeFilterValue unicode f x = normalizedValue unicode f x >>= fun value =>
      if value.pyEq x.value = true then .ok x else .ok { x with value := value } := by
  unfold normalizeFilterValue
  cases hop : x.op <;> simp_all [keepsValue]

theorem normalizeFilterValue_cases (h : normalizeFilterValue unicode f x = .ok y) :
    (keepsValue x.op = true ∧ y = x) ∨
      (x.op = .dateRange ∧ ∃ value, normalizeDateRangeFilter f x.value = .ok value ∧
        y = { x with value := value }) ∨
      (keepsValue x.op = false ∧ x.op ≠ .dateRange ∧
        ∃ value, normalizedValue unicode f x = .ok value ∧
          y = if value.pyEq x.value = true then x else { x with value := value }) := by
  by_cases hkeeps : keepsValue x.op = true
  · rw [normalizeFilterValue_keeps hkeeps] at h
    exact .inl ⟨hkeeps, (Except.ok.inj h).symm⟩
  · rw [Bool.not_eq_true] at hkeeps
    by_cases hrange : x.op = .dateRange
    · rw [normalizeFilterValue_range hrange, bind_eq_ok] at h
      obtain ⟨value, hvalue, h⟩ := h
      exact .inr (.inl ⟨hrange, value, hvalue, (Except.ok.inj h).symm⟩)
    · rw [normalizeFilterValue_scalars hkeeps hrange, bind_eq_ok] at h
      obtain ⟨value, hvalue, h⟩ := h
      refine .inr (.inr ⟨hkeeps, hrange, value, hvalue, ?_⟩)
      split_ifs at h ⊢
      · exact (Except.ok.inj h).symm
      · exact (Except.ok.inj h).symm

theorem normalizeFilterValue_same (h : normalizeFilterValue unicode f x = .ok y) :
    y.fieldName = x.fieldName ∧ y.op = x.op := by
  rcases normalizeFilterValue_cases h with ⟨-, rfl⟩ | ⟨-, value, -, rfl⟩ | ⟨-, -, value, -, rfl⟩
  · exact ⟨rfl, rfl⟩
  · exact ⟨rfl, rfl⟩
  · split_ifs
    · exact ⟨rfl, rfl⟩
    · exact ⟨rfl, rfl⟩

end

theorem normalizeFilter_ok {unicode : Unicode} {resource : SemanticResource} {x y : FilterSpec} :
    normalizeFilter unicode resource x = .ok y ↔
      ∃ f, resource.fields.get? x.field = some f ∧ normalizeFilterValue unicode f x = .ok y := by
  rw [normalizeFilter, bind_eq_ok]
  unfold fieldAt
  cases resource.fields.get? x.field <;> simp

theorem normalizeFilterValues_ok {unicode : Unicode} {resource : SemanticResource}
    {p q : QueryPlan} (h : normalizeFilterValues unicode resource p = .ok q) :
    List.Forall₂ (fun x y => normalizeFilter unicode resource x = .ok y) p.filters q.filters ∧
      q = { p with filters? := q.filters? } := by
  obtain ⟨filters, hfilters, h⟩ := bind_eq_ok.mp h
  have hforall := mapM_eq_ok.mp hfilters
  split_ifs at h with hsame
  · obtain rfl := Except.ok.inj h
    rw [hsame] at hforall
    exact ⟨hforall, rfl⟩
  · obtain rfl := Except.ok.inj h
    exact ⟨hforall, rfl⟩

theorem normalizedValue_count {unicode : Unicode} {f : FieldSpec} {x : FilterSpec}
    {value : FilterValue} (h : normalizedValue unicode f x = .ok value) :
    filterScalarCount { x with value := value } = filterScalarCount x ∧
      inValueCount { x with value := value } = inValueCount x := by
  obtain ⟨field, op, old⟩ := x
  cases old with
  | list items =>
    by_cases hin : op = .in
    · subst hin
      obtain ⟨scalars, hscalars, rfl⟩ : ∃ scalars, items.mapM (normalizeCanonicalScalar unicode f)
          = .ok scalars ∧ FilterValue.list scalars = value := by
        cases hs : items.mapM (normalizeCanonicalScalar unicode f) with
        | error e => simp [normalizedValue, hs, Except.map] at h
        | ok scalars => exact ⟨scalars, rfl, by simpa [normalizedValue, hs, Except.map] using h⟩
      have hlength := (mapM_eq_ok.mp hscalars).length_eq
      simp [filterScalarCount, inValueCount, hlength]
    · cases op <;> simp [normalizedValue] at h hin
  | scalar v =>
    have hscalar : ∃ w, FilterValue.scalar w = value := by
      cases hs : normalizeCanonicalScalar unicode f v with
      | error e => cases op <;> simp [normalizedValue, hs, Except.map] at h
      | ok w => exact ⟨w, by cases op <;> simp [normalizedValue, hs, Except.map] at h <;> exact h⟩
    obtain ⟨w, rfl⟩ := hscalar
    cases op <;> simp [filterScalarCount, inValueCount]

theorem normalizeRange_length {α : Type} {normalize : PyScalar → Py PyScalar}
    {parse : PyScalar → Py α} {ordered : α → α → Bool} {e : PyException} {a b : PyScalar}
    {items : List PyScalar} (h : normalizeRange normalize parse ordered e a b = .ok items) :
    items.length = 2 := by
  simp only [normalizeRange, bind_eq_ok] at h
  obtain ⟨_, -, _, -, _, -, _, -, _, -, h⟩ := h
  obtain rfl := Except.ok.inj h
  rfl

theorem map_list_ok {x : Py (List PyScalar)} {value : FilterValue}
    (h : x.map FilterValue.list = .ok value) : ∃ items, x = .ok items ∧ .list items = value := by
  cases x with
  | error e => simp [Except.map] at h
  | ok items => exact ⟨items, rfl, by simpa [Except.map] using h⟩

theorem normalizeDateRangeFilter_count {f : FieldSpec} {old value : FilterValue}
    (h : normalizeDateRangeFilter f old = .ok value) :
    ∃ items items', old = .list items ∧ value = .list items' ∧ items'.length = items.length := by
  unfold normalizeDateRangeFilter at h
  split at h
  · split at h
    · obtain ⟨items, hitems, rfl⟩ := map_list_ok h
      exact ⟨_, items, rfl, rfl, normalizeRange_length hitems⟩
    · obtain ⟨items, hitems, rfl⟩ := map_list_ok h
      exact ⟨_, items, rfl, rfl, normalizeRange_length hitems⟩
    · cases h
  · cases h

theorem normalizeFilterValue_count {unicode : Unicode} {f : FieldSpec} {x y : FilterSpec}
    (h : normalizeFilterValue unicode f x = .ok y) :
    filterScalarCount y = filterScalarCount x ∧ inValueCount y = inValueCount x := by
  rcases normalizeFilterValue_cases h with ⟨-, rfl⟩ | ⟨hop, value, hvalue, rfl⟩ |
    ⟨-, -, value, hvalue, rfl⟩
  · exact ⟨rfl, rfl⟩
  · obtain ⟨items, items', hold, rfl, hlength⟩ := normalizeDateRangeFilter_count hvalue
    simp [filterScalarCount, inValueCount, hold, hlength, hop]
  · split_ifs
    · exact ⟨rfl, rfl⟩
    · exact normalizedValue_count hvalue

/-! ## The validator -/

/-- The checks that look only at the outline of the filters see no normalization. -/
structure SameOutline (xs ys : List FilterSpec) : Prop where
  length : ys.length = xs.length
  fields : ys.map FilterSpec.fieldName = xs.map FilterSpec.fieldName
  scalars : ys.map filterScalarCount = xs.map filterScalarCount
  inValues : ys.map inValueCount = xs.map inValueCount

theorem sameOutline_normalized {unicode : Unicode} {resource : SemanticResource}
    {xs ys : List FilterSpec}
    (h : List.Forall₂ (fun x y => normalizeFilter unicode resource x = .ok y) xs ys) :
    SameOutline xs ys := by
  refine ⟨h.length_eq.symm, forall₂_map_eq ?_ h, forall₂_map_eq ?_ h, forall₂_map_eq ?_ h⟩
  all_goals
    intro x y hxy
    obtain ⟨f, -, hf⟩ := normalizeFilter_ok.mp hxy
  · exact (normalizeFilterValue_same hf).1
  · exact (normalizeFilterValue_count hf).1
  · exact (normalizeFilterValue_count hf).2

section

variable {p : QueryPlan} {filters? : Option (List FilterSpec)}

theorem planFieldReferences_congr (h : SameOutline p.filters (filters?.getD [])) :
    planFieldReferences { p with filters? := filters? } = planFieldReferences p := by
  show p.selectNames ++ (filters?.getD []).map FilterSpec.fieldName ++ _ ++ _ = _
  rw [h.fields]
  rfl

theorem forM_in_congr {limits : PlanLimits} {xs ys : List FilterSpec} {e : PyException}
    (h : ys.map inValueCount = xs.map inValueCount) :
    ys.forM (fun f => raiseIf (limits.maxInValues < inValueCount f) e) =
      xs.forM (fun f => raiseIf (limits.maxInValues < inValueCount f) e) := by
  induction xs generalizing ys with
  | nil =>
    obtain rfl : ys = [] := by simpa using h
    rfl
  | cons x xs ih =>
    cases ys with
    | nil => simp at h
    | cons y ys =>
      obtain ⟨hhead, htail⟩ : inValueCount y = inValueCount x ∧
        ys.map inValueCount = xs.map inValueCount := by simpa using h
      rw [forM_cons, forM_cons, hhead, ih htail]

theorem validateCounts_congr {limits : PlanLimits}
    (h : SameOutline p.filters (filters?.getD [])) :
    validateCounts { p with filters? := filters? } limits = validateCounts p limits := by
  have hcounts : countLimits { p with filters? := filters? } limits = countLimits p limits := by
    show ((filters?.getD []).length, _, _) :: _ = _
    rw [h.length]
    rfl
  unfold validateCounts
  rw [hcounts]
  show (_ >>= fun _ => _ >>= fun _ => (filters?.getD []).forM _ >>= fun _ =>
    raiseIf (_ < ((filters?.getD []).map filterScalarCount).sum) _) = _
  rw [forM_in_congr h.inValues, h.scalars]
  rfl

theorem collectRelationshipEdges_congr {resource : SemanticResource}
    (h : SameOutline p.filters (filters?.getD [])) :
    collectRelationshipEdges resource { p with filters? := filters? } =
      collectRelationshipEdges resource p := by
  unfold collectRelationshipEdges
  rw [planFieldReferences_congr h]
  rfl

theorem validateAggregateRelationshipPolicy_congr {resource : SemanticResource}
    (h : SameOutline p.filters (filters?.getD [])) :
    validateAggregateRelationshipPolicy resource { p with filters? := filters? } =
      validateAggregateRelationshipPolicy resource p := by
  have hedges : fieldToManyEdges resource { p with filters? := filters? } =
      fieldToManyEdges resource p := by
    unfold fieldToManyEdges
    rw [planFieldReferences_congr h]
  unfold validateAggregateRelationshipPolicy
  rw [hedges]
  rfl

end

theorem validateOrderTerm_ok {limits : PlanLimits} {access : Access}
    {resource : SemanticResource} {keys names : List PyStr} {o : OrderBySpec} {u : Unit}
    (h : validateOrderTerm limits access resource keys names o = .ok u) :
    (∀ name, o.target = .field name → name.IsText ∧
      (∃ f, UsableField resource limits access .orderBy name.shown f) ∧ name ∈ keys) ∧
      ∀ name, o.target = .metric name → name ∈ names := by
  unfold validateOrderTerm at h
  cases htarget : o.target with
  | field name =>
    simp only [htarget] at h
    obtain ⟨f, hf, h⟩ := bind_eq_ok.mp h
    rw [raiseIf_eq_ok, not_not] at h
    refine ⟨fun n hn => ?_, fun n hn => by cases hn⟩
    obtain rfl : name = n := by simpa using hn
    obtain ⟨htext, hf⟩ := validateFieldUsage_ok.mp hf
    exact ⟨htext, ⟨f, hf⟩, h⟩
  | metric name =>
    simp only [htarget] at h
    rw [raiseIf_eq_ok, not_not] at h
    refine ⟨fun n hn => (by cases hn), fun n hn => ?_⟩
    obtain rfl : name = n := by simpa using hn
    exact h

theorem namesAreTexts_of_validPlanFields {resource : SemanticResource} {limits : PlanLimits}
    {access : Access} {p : QueryPlan} {u : Unit}
    (h : validatePlanFields resource limits access p = .ok u) : p.NamesAreTexts := by
  simp only [validatePlanFields, bind_eq_ok] at h
  obtain ⟨_, hselect, _, hfilters, _, hgroupBy, names, hmetrics, _, -, horderBy⟩ := h
  obtain ⟨-, -, hmetrics, hnames⟩ := validateMetrics_ok hmetrics
  refine ⟨?_, ?_, ?_, fun m hm => (hmetrics m hm).1, ?_⟩
  · intro name hname
    obtain ⟨f, hf, -⟩ := bind_eq_ok.mp (forM_eq_ok.mp hselect name hname)
    exact (validateFieldUsage_ok.mp hf).1
  · intro x hx
    obtain ⟨f, hf, -⟩ := bind_eq_ok.mp (forM_eq_ok.mp hfilters x hx)
    exact (validateFieldUsage_ok.mp hf).1
  · intro g hg
    obtain ⟨f, hf, -⟩ := bind_eq_ok.mp (forM_eq_ok.mp hgroupBy g hg)
    exact (validateFieldUsage_ok.mp hf).1
  · intro o ho
    obtain ⟨hfield, hmetric⟩ := validateOrderTerm_ok (forM_eq_ok.mp horderBy o ho)
    cases htarget : o.target with
    | field name => exact (hfield name htarget).1
    | metric name =>
      rcases (hnames name).mp (hmetric name htarget) with hnil | hmem
      · cases hnil
      · obtain ⟨m, hm, rfl⟩ := List.mem_map.mp hmem
        exact (hmetrics m hm).1

theorem validateForResource_ok {env : Environment} {resource : SemanticResource}
    {limits : PlanLimits} {access : Access} {raw p : QueryPlan} (hraw : raw.WellFormed)
    (h : validateForResource env resource limits access raw = .ok p) :
    Accepted env resource limits access p := by
  simp only [validateForResource, validateBeforeNormalization, validatePlanLimits,
    bind_eq_ok] at h
  obtain ⟨_, -, _, ⟨_, hshape, _, ⟨_, hcounts, _, hedges, -⟩, _, -, hmembers⟩, q, hq, _,
    hduplicates, hresult⟩ := h
  obtain rfl := Except.ok.inj hresult
  have htexts := namesAreTexts_of_validPlanFields hmembers
  simp only [validatePlanFields, bind_eq_ok] at hmembers
  obtain ⟨_, hselect, _, hfilters, _, hgroupBy, names, hmetrics, _, hpolicy, horderBy⟩ := hmembers
  obtain ⟨hforall, hsame⟩ := normalizeFilterValues_ok hq
  have houtline : SameOutline (withDefaults resource limits raw).filters (q.filters?.getD []) :=
    sameOutline_normalized hforall
  obtain ⟨hnodup, -, hmetrics, hnames⟩ := validateMetrics_ok hmetrics
  have hterms := forM_eq_ok.mp horderBy
  refine
    { resource_eq := by rw [hsame]; rfl
      texts := ?_
      limit_set := ?_
      shape := by rw [hsame]; exact hshape
      counts := by rw [hsame, validateCounts_congr houtline]; exact hcounts
      edges := ?_
      noDuplicates := validateNoMeaninglessDuplicates_ok hduplicates
      select := ?_, filters := ?_, groupBy := ?_
      metrics := by rw [hsame]; exact fun m hm => (hmetrics m hm).2
      metrics_nodup := ?_
      policy := by rw [hsame, validateAggregateRelationshipPolicy_congr houtline]; exact hpolicy
      orderBy := ⟨?_, ?_⟩ }
  · rw [hsame]
    refine ⟨htexts.select, ?_, htexts.groupBy, htexts.metrics, htexts.orderBy⟩
    intro y hy
    obtain ⟨x, hx, hxy⟩ := forall₂_mem_right hforall hy
    obtain ⟨f, -, hvalue⟩ := normalizeFilter_ok.mp hxy
    rw [(normalizeFilterValue_same hvalue).1]
    exact htexts.filters x hx
  · refine ⟨raw.limit?.getD limits.defaultLimit, by rw [hsame]; rfl, ?_⟩
    cases hlimit : raw.limit? with
    | none =>
      have := limits.defaultLimit_pos
      simp only [Option.getD_none]
      omega
    | some n => exact hraw.limit n hlimit
  · rw [validateEdgeBudget, raiseIf_eq_ok] at hedges
    rw [hsame, collectRelationshipEdges_congr houtline]
    omega
  · rw [hsame]
    intro name hname
    obtain ⟨v, hv, rfl⟩ := List.mem_map.mp hname
    obtain ⟨f, hf, -⟩ := bind_eq_ok.mp (forM_eq_ok.mp hselect v hv)
    exact ⟨f, (validateFieldUsage_ok.mp hf).2⟩
  · intro y hy
    obtain ⟨x, hx, hxy⟩ := forall₂_mem_right hforall hy
    obtain ⟨f, hf, hoperator⟩ := bind_eq_ok.mp (forM_eq_ok.mp hfilters x hx)
    have husable := (validateFieldUsage_ok.mp hf).2
    obtain ⟨g, hg, hvalue⟩ := normalizeFilter_ok.mp hxy
    obtain rfl : f = g := Option.some.inj (husable.1.symm.trans hg)
    obtain ⟨hfield, hop⟩ := normalizeFilterValue_same hvalue
    rw [validateFilterOperator, raiseIf_eq_ok, not_not] at hoperator
    refine ⟨f, ⟨by rw [FilterSpec.field, hfield]; exact husable, by rw [hop]; exact hoperator, x, ?_, hfield.symm,
      hop.symm, hvalue⟩⟩
    exact hraw.filters x hx
  · rw [hsame]
    intro g hg
    obtain ⟨f, hf, htrunc⟩ := bind_eq_ok.mp (forM_eq_ok.mp hgroupBy g hg)
    rw [raiseIf_eq_ok] at htrunc
    exact ⟨f, (validateFieldUsage_ok.mp hf).2, fun hsome => by simpa [hsome] using htrunc⟩
  · rw [hsame, map_metric]
    refine nodup_shown (fun name hname => ?_) hnodup
    obtain ⟨m, hm, rfl⟩ := List.mem_map.mp hname
    exact htexts.metrics m hm
  · rw [hsame]
    intro name hname
    obtain ⟨o, ho, htarget⟩ := List.mem_map.mp hname
    obtain ⟨-, hf, hkeys⟩ := (validateOrderTerm_ok (hterms o ho)).1 name htarget
    refine ⟨hf, (List.mem_append.mp hkeys).imp (fun h => ?_) fun h => ?_⟩
    · exact List.mem_map.mpr ⟨_, h, rfl⟩
    · obtain ⟨g, hg, hname⟩ := List.mem_map.mp h
      exact List.mem_map.mpr ⟨g, hg, congrArg PyStr.shown hname⟩
  · rw [hsame]
    intro name hname
    obtain ⟨o, ho, htarget⟩ := List.mem_map.mp hname
    have hmem := (validateOrderTerm_ok (hterms o ho)).2 name htarget
    rcases (hnames name).mp hmem with hnil | hmem
    · cases hnil
    · obtain ⟨m, hm, hname⟩ := List.mem_map.mp hmem
      exact List.mem_map.mpr ⟨m, hm, congrArg PyStr.shown hname⟩

theorem parseQueryPlan_ok {env : Environment} {raw : RawPlan} {p : QueryPlan}
    (h : parseQueryPlan env raw = .ok p) : p.WellFormed := by
  obtain ⟨payload, -, h⟩ := bind_eq_ok.mp h
  split at h
  · rename_i plan hplan
    obtain rfl := Except.ok.inj h
    exact parseQueryPlanModel_ok hplan
  · cases h

/-- What a caller gets from an accepted payload: the plan and the resource it names. -/
theorem parseAndValidateQueryPlan_ok {env : Environment} {registry : CatalogRegistry env}
    {limits : PlanLimits} {access : Access} {raw : RawPlan} {p : QueryPlan}
    (h : parseAndValidateQueryPlan registry limits access raw = .ok p) :
    ∃ resource, registry.get p.resource = .ok resource ∧ resource.Registered env ∧
      Accepted env resource limits access p := by
  simp only [parseAndValidateQueryPlan, validateQueryPlan, bind_eq_ok] at h
  obtain ⟨_, -, plan, hplan, resource, hresource, h⟩ := h
  have haccepted := validateForResource_ok (parseQueryPlan_ok hplan) h
  refine ⟨resource, ?_, (CatalogRegistry.get_ok hresource).2.2, haccepted⟩
  rw [haccepted.resource_name]
  exact CatalogRegistry.get_name hresource

end AskLens.Planning
