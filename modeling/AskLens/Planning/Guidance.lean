import AskLens.Catalog.Capabilities
import AskLens.Planning.Containment
import AskLens.Planning.Monotone
import AskLens.Python.PlainDecimals
import AskLens.Python.Uuid

/-!
# Guidance and validation

A plan over one visible field is accepted exactly when the guidance for the
field allows its use, as long as the edges of the plan are within the budget.
-/
namespace AskLens.Planning

open Python Catalog Checks

/-! ## The plans that the guidance speaks about -/

def selectPlan (r : SemanticResource) (g : FieldSpec) (filters : List FilterSpec)
    (limit? : Option ℤ) : QueryPlan where
  resourceName := r.name
  intent := .list
  filters? := some filters
  groupBy? := none
  metrics? := none
  selectNames? := some [.text g.name]
  orderBy? := none
  limit? := limit?

def groupPlan (r : SemanticResource) (f : FieldSpec) (trunc : Option DateTrunc) (m : Metric)
    (limit? : Option ℤ) : QueryPlan where
  resourceName := r.name
  intent := .aggregate
  filters? := none
  groupBy? := some [⟨f.name, some trunc⟩]
  metrics? := some [⟨m.name⟩]
  selectNames? := none
  orderBy? := none
  limit? := limit?

/-- The validator accepts the plan for a caller with these permissions. -/
def Accepts {env : Environment} (registry : CatalogRegistry env) (limits : PlanLimits)
    (permissions : List String) (p : QueryPlan) : Prop :=
  ∃ q, validateQueryPlan registry limits (.ofPermissions permissions) p = .ok q

/-- Every limit on a number of plan members is at least one. -/
structure CountLimitsPositive (limits : PlanLimits) : Prop where
  maxMetrics : 1 ≤ limits.maxMetrics
  maxGroupBy : 1 ≤ limits.maxGroupBy
  maxFilters : 1 ≤ limits.maxFilters
  maxSelectedFields : 1 ≤ limits.maxSelectedFields
  maxOrderBy : 1 ≤ limits.maxOrderBy
  maxRelationshipEdges : 1 ≤ limits.maxRelationshipEdges
  maxInValues : 1 ≤ limits.maxInValues
  maxFilterValues : 1 ≤ limits.maxFilterValues

def WithinEdgeBudget (limits : PlanLimits) (edges : List Edge) : Prop :=
  edges.eraseDups.length ≤ limits.maxRelationshipEdges

/-- The limit that the plan asks for, or the default, is within the row limit. -/
def WithinRowLimit (limits : PlanLimits) (limit? : Option ℤ) : Prop :=
  limit?.getD limits.defaultLimit ≤ limits.maxRows

/-- The values of an `in` filter have different keys. -/
def NoRepeatedValues (env : Environment) (x : FilterSpec) : Prop :=
  ∀ items, x.op = .in → x.value = .list items →
    ∃ keys, items.mapM (scalarKey env) = .ok keys ∧ keys.Nodup

/-- An operand of the form that its operator requires, which reads as values of the field's type,
repeats no value and stays within the value limits. -/
structure WellTypedOperand (env : Environment) (limits : PlanLimits) (f : FieldSpec)
    (x : FilterSpec) : Prop where
  form : validateFilterValue x.op x.value = none
  printable : x.Printable
  distinct : NoRepeatedValues env x
  inValues : inValueCount x ≤ limits.maxInValues
  filterValues : filterScalarCount x ≤ limits.maxFilterValues
  reading : ∃ y, normalizeFilterValue env.unicode f x = .ok y ∧ y.Printable ∧
    NoRepeatedValues env y

/-! ## One field -/

theorem checkFieldUsage_visible {limits : PlanLimits} {permissions : List String}
    {usage : FieldUsage} {name : PyStr} {f : FieldSpec}
    (hvisible : f.isCatalogVisible (.ofPermissions permissions) = true)
    (hdepth : f.relationDepth ≤ limits.maxJoins) :
    checkFieldUsage limits (.ofPermissions permissions) usage name f = .ok () ↔
      usage = .filter ∨ f.usableInResults = true := by
  obtain ⟨hpermitted, hsensitive, hshown⟩ := isCatalogVisible_iff.mp hvisible
  have hpermitted : permissionSetAllows permissions f.requiresPermission = true := by
    simpa [Access.ofPermissions] using hpermitted
  have hshown : f.llmVisible = true ∨ (f.sensitive = true ∧
      isSensitiveFieldAllowed f (.ofPermissions permissions) = true) := by
    simpa [Access.ofPermissions] using hshown
  simp only [checkFieldUsage, bind_eq_ok, raiseIf_eq_ok, FieldSpec.usableInResults]
  constructor
  · rintro ⟨_, -, _, hfilterOnly, _, -, _, -, _, -, hresult⟩
    cases usage with
    | filter => exact .inl rfl
    | _ => simp_all [FieldUsage.isResult]
  · intro husage
    refine ⟨(), by omega, (), ?_, (), ?_, (), ?_, (), ?_, ?_⟩
    · rintro ⟨hfilterOnly, hne⟩
      simp_all
    · rintro ⟨hs, hrefused⟩
      simp [hsensitive hs] at hrefused
    · simpa [Access.ofPermissions] using hpermitted
    · rintro ⟨hhidden, hrefused⟩
      simp_all [Access.ofPermissions]
    · rintro ⟨hresult, hhidden⟩
      cases usage <;> simp_all [FieldUsage.isResult]

section

variable {env : Environment} {r : SemanticResource} {limits : PlanLimits}
  {permissions : List String} {f g : FieldSpec} {m : Metric}

/-! ## Acceptance as a sequence of checks -/

theorem accepts_iff {registry : CatalogRegistry env} {p : QueryPlan}
    (hr : registry.get p.resource = .ok r) (hpermitted : r.isCatalogVisible permissions = true) :
    Accepts registry limits permissions p ↔
      validateBeforeNormalization env r limits (.ofPermissions permissions)
          (withDefaults r limits p) = .ok () ∧
        ∃ q, normalizeFilterValues env.unicode r (withDefaults r limits p) = .ok q ∧
          validateNoMeaninglessDuplicates env q = .ok () := by
  have hresource : validateResourcePermission r permissions = .ok () := by
    rw [validateResourcePermission, raiseIf_eq_ok]
    simpa [SemanticResource.isCatalogVisible] using hpermitted
  unfold Accepts validateQueryPlan
  simp only [hr, ok_bind, validateForResource, Access.ofPermissions, hresource, bind_eq_ok]
  constructor
  · rintro ⟨q, _, hbefore, q', hq, _, hduplicates, -⟩
    exact ⟨hbefore, q', hq, hduplicates⟩
  · rintro ⟨hbefore, q, hq, hduplicates⟩
    exact ⟨q, (), hbefore, q, hq, (), hduplicates, rfl⟩

/-- What is left to check of a plan within the budgets: its members, then its filter values. -/
theorem validateBeforeNormalization_iff {access : Access} {p : QueryPlan}
    (hshape : validatePlanShape p = .ok ()) (hcounts : validateCounts p limits = .ok ())
    (hedges : (collectRelationshipEdges r p).length ≤ limits.maxRelationshipEdges)
    (hduplicates : validateNoMeaninglessDuplicates env p = .ok ()) :
    validateBeforeNormalization env r limits access p = .ok () ↔
      validatePlanFields r limits access p = .ok () := by
  have hbudget : validateEdgeBudget r limits p = .ok () := by
    rw [validateEdgeBudget, raiseIf_eq_ok]
    omega
  rw [validateBeforeNormalization, hshape, ok_bind, validatePlanLimits, hcounts, ok_bind, hbudget,
    ok_bind, hduplicates, ok_bind, ok_bind]

theorem normalizeFilterValues_of_no_filters {unicode : Unicode} {p : QueryPlan}
    (h : p.filters = []) : normalizeFilterValues unicode r p = .ok p := by
  simp [normalizeFilterValues, h]

theorem validateCounts_of_le {p : QueryPlan} (hlimits : CountLimitsPositive limits)
    (hselect : p.selectNames.length ≤ 1) (hgroupBy : p.groupBy.length ≤ 1)
    (hmetrics : p.metrics.length ≤ 1) (horderBy : p.orderBy = [])
    (hrows : p.limit ≤ limits.maxRows) (hfilters : p.filters.length ≤ 1)
    (hvalues : ∀ x ∈ p.filters, inValueCount x ≤ limits.maxInValues ∧
      filterScalarCount x ≤ limits.maxFilterValues) :
    validateCounts p limits = .ok () := by
  obtain ⟨h₁, h₂, h₃, h₄, h₅, -, -, h₈⟩ := hlimits
  have hsum : (p.filters.map filterScalarCount).sum ≤ limits.maxFilterValues := by
    rcases hxs : p.filters with _ | ⟨x, _ | ⟨y, xs⟩⟩
    · simp
    · have := (hvalues x (by simp [hxs])).2
      simpa using this
    · simp [hxs] at hfilters
  simp only [validateCounts, bind_eq_ok]
  refine ⟨(), ?_, (), ?_, (), ?_, ?_⟩
  · simp only [countLimits, forM_eq_ok, List.forall_mem_cons, List.not_mem_nil, false_implies,
      implies_true, and_true, validateCount, raiseIf_eq_ok, horderBy, List.length_nil]
    refine ⟨?_, ?_, ?_, ?_, ?_⟩ <;> omega
  · rw [raiseIf_eq_ok]
    omega
  · rw [forM_eq_ok]
    intro x hx
    rw [raiseIf_eq_ok]
    have := (hvalues x hx).1
    omega
  · rw [raiseIf_eq_ok]
    omega

theorem rejectDuplicateKeys_of_length_le_one {α κ : Type} [DecidableEq κ] {label : String}
    {key : α → Py κ} {items : List α} (hlength : items.length ≤ 1)
    (hkey : ∀ a ∈ items, ∃ k, key a = .ok k) :
    rejectDuplicateKeys label key items [] = .ok () := by
  rcases items with _ | ⟨a, _ | ⟨b, items⟩⟩
  · rfl
  · obtain ⟨k, hk⟩ := hkey a (by simp)
    have hkeys : [a].mapM key = .ok [k] := by
      rw [List.mapM_cons, hk]
      rfl
    exact rejectDuplicateKeys_of_nodup hkeys (by simp) (by simp)
  · simp at hlength

theorem rejectDuplicateInValues_of_noRepeatedValues {x : FilterSpec}
    (h : NoRepeatedValues env x) : rejectDuplicateInValues env x = .ok () := by
  unfold rejectDuplicateInValues
  split
  · rename_i items hop hvalue
    obtain ⟨keys, hkeys, hnodup⟩ := h items hop hvalue
    exact rejectDuplicateKeys_of_nodup hkeys hnodup (by simp)
  · rfl

theorem validateNoMeaninglessDuplicates_of_le {p : QueryPlan} (hselect : p.selectNames.length ≤ 1)
    (hgroupBy : p.groupBy.length ≤ 1) (horderBy : p.orderBy = []) (hfilters : p.filters.length ≤ 1)
    (hvalues : ∀ x ∈ p.filters, x.Printable ∧ NoRepeatedValues env x) :
    validateNoMeaninglessDuplicates env p = .ok () := by
  simp only [validateNoMeaninglessDuplicates, bind_eq_ok]
  refine ⟨(), ?_, (), ?_, (), ?_, (), ?_, ?_⟩
  · exact rejectDuplicateKeys_of_length_le_one hselect fun name _ => ⟨name, rfl⟩
  · exact rejectDuplicateKeys_of_length_le_one hgroupBy fun g _ => ⟨g.fieldName, rfl⟩
  · rw [horderBy]
    rfl
  · exact rejectDuplicateKeys_of_length_le_one hfilters fun x hx => filterKey_ok (hvalues x hx).1
  · rw [forM_eq_ok]
    intro x hx
    exact rejectDuplicateInValues_of_noRepeatedValues (hvalues x hx).2

/-! ## Selecting a field -/

theorem collectRelationshipEdges_selectPlan {xs : List FilterSpec} {limit? : Option ℤ}
    (hg : r.fields.get? g.name = some g)
    (hxs : ∀ x ∈ xs, named? r.fields x.fieldName = some f) :
    (collectRelationshipEdges r (selectPlan r g xs limit?)).length ≤
        limits.maxRelationshipEdges ↔
      WithinEdgeBudget limits (g.relationshipEdges ++ xs.flatMap fun _ => f.relationshipEdges) := by
  have hedges : xs.flatMap (fun x =>
      ((named? r.fields x.fieldName).map FieldSpec.relationshipEdges).getD []) =
      xs.flatMap fun _ => f.relationshipEdges :=
    List.flatMap_congr fun x hx => by rw [hxs x hx]; rfl
  simp [collectRelationshipEdges, planFieldReferences, selectPlan, QueryPlan.selectNames,
    QueryPlan.filters, QueryPlan.groupBy, QueryPlan.orderBy, QueryPlan.metrics, hg, List.flatMap_map,
    hedges, WithinEdgeBudget]

theorem validatePlanFields_selectPlan {access : Access} {xs : List FilterSpec}
    {limit? : Option ℤ} (hg : r.fields.get? g.name = some g) :
    validatePlanFields r limits access (selectPlan r g xs limit?) = .ok () ↔
      checkFieldUsage limits access .select g.name g = .ok () ∧
        ∀ x ∈ xs, validateFilter limits access r x = .ok () := by
  simp only [validatePlanFields, selectPlan, QueryPlan.selectNames, QueryPlan.filters,
    QueryPlan.groupBy, QueryPlan.orderBy, QueryPlan.metrics, Option.getD_some, Option.getD_none,
    bind_eq_ok, forM_eq_ok, validateMetrics, validateAggregateRelationshipPolicy,
    List.forall_mem_cons, validateSelect, validateFieldUsage_ok, UsableField]
  simp [hg]

theorem validatePlanShape_selectPlan {xs : List FilterSpec} {limit? : Option ℤ} :
    validatePlanShape (selectPlan r g xs limit?) = .ok () := by
  simp [validatePlanShape, selectPlan, QueryPlan.selectNames, QueryPlan.metrics, QueryPlan.groupBy,
    raiseIf_neg]

theorem withDefaults_selectPlan {xs : List FilterSpec} {limit? : Option ℤ} :
    withDefaults r limits (selectPlan r g xs limit?) =
      selectPlan r g xs (some (limit?.getD limits.defaultLimit)) := rfl

/-- A field within the budgets may be selected exactly when it is usable in results. -/
theorem accepts_selectPlan {registry : CatalogRegistry env} {limit? : Option ℤ}
    (hlimits : CountLimitsPositive limits) (hr : registry.get r.name = .ok r)
    (hpermitted : r.isCatalogVisible permissions = true)
    (hg : g ∈ r.visibleFields (.ofPermissions permissions))
    (hdepth : g.relationDepth ≤ limits.maxJoins)
    (hedges : WithinEdgeBudget limits g.relationshipEdges)
    (hrows : WithinRowLimit limits limit?) :
    Accepts registry limits permissions (selectPlan r g [] limit?) ↔
      g.usableInResults = true := by
  have hregistered := (CatalogRegistry.get_ok hr).2.2
  obtain ⟨hg, hvisible⟩ := hregistered.field_of_visible hg
  have hduplicates : ∀ limit?, validateNoMeaninglessDuplicates env (selectPlan r g [] limit?) =
      .ok () := fun limit? =>
    validateNoMeaninglessDuplicates_of_le (by simp [selectPlan, QueryPlan.selectNames])
      (by simp [selectPlan, QueryPlan.groupBy]) rfl (by simp [selectPlan, QueryPlan.filters])
      (by simp [selectPlan, QueryPlan.filters])
  have hcounts := validateCounts_of_le
    (p := selectPlan r g [] (some (limit?.getD limits.defaultLimit))) hlimits
    (by simp [selectPlan, QueryPlan.selectNames]) (by simp [selectPlan, QueryPlan.groupBy])
    (by simp [selectPlan, QueryPlan.metrics]) rfl hrows (by simp [selectPlan, QueryPlan.filters])
    (by simp [selectPlan, QueryPlan.filters])
  have hbudget : (collectRelationshipEdges r
      (selectPlan r g [] (some (limit?.getD limits.defaultLimit)))).length ≤
      limits.maxRelationshipEdges :=
    (collectRelationshipEdges_selectPlan (f := g) hg (by simp)).mpr (by simpa using hedges)
  rw [accepts_iff (p := selectPlan r g [] limit?) hr hpermitted, withDefaults_selectPlan,
    validateBeforeNormalization_iff validatePlanShape_selectPlan hcounts hbudget (hduplicates _),
    validatePlanFields_selectPlan hg, checkFieldUsage_visible hvisible hdepth,
    normalizeFilterValues_of_no_filters rfl]
  constructor
  · rintro ⟨⟨husage, -⟩, -⟩
    simpa using husage
  · intro husable
    exact ⟨⟨.inr husable, by simp⟩, _, rfl, hduplicates _⟩

/-! ## Filtering by a field -/

theorem validateFilter_iff {access : Access} {x : FilterSpec}
    (hf : named? r.fields x.fieldName = some f)
    (husage : checkFieldUsage limits access .filter x.fieldName f = .ok ()) :
    validateFilter limits access r x = .ok () ↔ x.op ∈ operatorsByFieldType f.type := by
  have hfield : validateFieldUsage limits access r .filter x.fieldName = .ok f :=
    by
    obtain ⟨htext, hf⟩ := named?_eq_some.mp hf
    exact validateFieldUsage_ok.mpr ⟨htext, hf, by rwa [← htext]⟩
  rw [validateFilter, hfield, ok_bind, validateFilterOperator, raiseIf_eq_ok, not_not]

theorem normalizeFilterValues_singleton {unicode : Unicode} {p : QueryPlan} {x y : FilterSpec}
    (hp : p.filters = [x]) (hf : named? r.fields x.fieldName = some f)
    (hy : normalizeFilterValue unicode f x = .ok y) :
    ∃ q, normalizeFilterValues unicode r p = .ok q ∧ q.filters = [y] ∧
      q = { p with filters? := q.filters? } := by
  have hnormal : normalizeFilter unicode r x = .ok y :=
    normalizeFilter_ok.mpr ⟨f, (named?_eq_some.mp hf).2, hy⟩
  have hmap : [x].mapM (normalizeFilter unicode r) = .ok [y] := by
    rw [List.mapM_cons, hnormal]
    rfl
  rw [normalizeFilterValues, hp, hmap, ok_bind]
  split_ifs with hsame
  · exact ⟨p, rfl, by rw [hp, hsame], rfl⟩
  · exact ⟨{ p with filters? := some [y] }, rfl, rfl, rfl⟩

/-- Beside a selectable field, a filter is accepted exactly when its operator is listed. -/
theorem accepts_filter {registry : CatalogRegistry env} {limit? : Option ℤ} {x : FilterSpec}
    (hlimits : CountLimitsPositive limits) (hr : registry.get r.name = .ok r)
    (hpermitted : r.isCatalogVisible permissions = true)
    (hf : f ∈ r.visibleFields (.ofPermissions permissions))
    (hfdepth : f.relationDepth ≤ limits.maxJoins)
    (hg : g ∈ r.visibleFields (.ofPermissions permissions))
    (hgdepth : g.relationDepth ≤ limits.maxJoins) (husable : g.usableInResults = true)
    (hedges : WithinEdgeBudget limits (g.relationshipEdges ++ f.relationshipEdges))
    (hrows : WithinRowLimit limits limit?) (hx : x.fieldName = f.name)
    (htyped : x.op ∈ operatorsByFieldType f.type → WellTypedOperand env limits f x) :
    Accepts registry limits permissions (selectPlan r g [x] limit?) ↔
      x.op ∈ operatorsByFieldType f.type := by
  have hregistered := (CatalogRegistry.get_ok hr).2.2
  obtain ⟨hf, hfvisible⟩ := hregistered.field_of_visible hf
  obtain ⟨hg, hgvisible⟩ := hregistered.field_of_visible hg
  have hf : named? r.fields x.fieldName = some f := by rwa [hx]
  have hfilter := validateFilter_iff hf
    ((checkFieldUsage_visible hfvisible hfdepth).mpr (.inl rfl))
  have hfields : ∀ limit?, validatePlanFields r limits (.ofPermissions permissions)
      (selectPlan r g [x] limit?) = .ok () ↔ x.op ∈ operatorsByFieldType f.type := by
    intro limit?
    rw [validatePlanFields_selectPlan hg, checkFieldUsage_visible hgvisible hgdepth]
    simp [husable, hfilter]
  rw [accepts_iff (p := selectPlan r g [x] limit?) hr hpermitted, withDefaults_selectPlan]
  constructor
  · rintro ⟨hbefore, -⟩
    obtain ⟨_, -, hbefore⟩ := bind_eq_ok.mp hbefore
    obtain ⟨_, -, hbefore⟩ := bind_eq_ok.mp hbefore
    obtain ⟨_, -, hbefore⟩ := bind_eq_ok.mp hbefore
    exact (hfields _).mp hbefore
  · intro hop
    obtain ⟨-, hprintable, hdistinct, hin, hvalues, y, hy, hyprintable, hydistinct⟩ := htyped hop
    have hcounts := validateCounts_of_le
      (p := selectPlan r g [x] (some (limit?.getD limits.defaultLimit))) hlimits
      (by simp [selectPlan, QueryPlan.selectNames]) (by simp [selectPlan, QueryPlan.groupBy])
      (by simp [selectPlan, QueryPlan.metrics]) rfl hrows (by simp [selectPlan, QueryPlan.filters])
      (by simp [selectPlan, QueryPlan.filters, hin, hvalues])
    have hbudget : (collectRelationshipEdges r
        (selectPlan r g [x] (some (limit?.getD limits.defaultLimit)))).length ≤
        limits.maxRelationshipEdges :=
      (collectRelationshipEdges_selectPlan (f := f) hg (by simpa using hf)).mpr
        (by simpa using hedges)
    have hduplicates : validateNoMeaninglessDuplicates env
        (selectPlan r g [x] (some (limit?.getD limits.defaultLimit))) = .ok () :=
      validateNoMeaninglessDuplicates_of_le (by simp [selectPlan, QueryPlan.selectNames])
        (by simp [selectPlan, QueryPlan.groupBy]) rfl (by simp [selectPlan, QueryPlan.filters])
        (by simp [selectPlan, QueryPlan.filters, hprintable, hdistinct])
    refine ⟨?_, ?_⟩
    · rw [validateBeforeNormalization_iff validatePlanShape_selectPlan hcounts hbudget hduplicates]
      exact (hfields _).mpr hop
    · obtain ⟨q, hq, hqfilters, hqsame⟩ := normalizeFilterValues_singleton
        (p := selectPlan r g [x] (some (limit?.getD limits.defaultLimit))) rfl hf hy
      refine ⟨q, hq, ?_⟩
      apply validateNoMeaninglessDuplicates_of_le
      · rw [hqsame]
        simp [selectPlan, QueryPlan.selectNames]
      · rw [hqsame]
        simp [selectPlan, QueryPlan.groupBy]
      · rw [hqsame]
        rfl
      · simp [hqfilters]
      · simp [hqfilters, hyprintable, hydistinct]

/-! ## Grouping by a field -/

theorem validatePlanShape_groupPlan {trunc : Option DateTrunc} {limit? : Option ℤ} :
    validatePlanShape (groupPlan r f trunc m limit?) = .ok () := by
  simp [validatePlanShape, groupPlan, QueryPlan.selectNames, QueryPlan.metrics, raiseIf_neg]

theorem withDefaults_groupPlan {trunc : Option DateTrunc} {limit? : Option ℤ} :
    withDefaults r limits (groupPlan r f trunc m limit?) =
      groupPlan r f trunc m (some (limit?.getD limits.defaultLimit)) := rfl

theorem collectRelationshipEdges_groupPlan {trunc : Option DateTrunc} {limit? : Option ℤ}
    (hf : r.fields.get? f.name = some f) (hm : r.metrics.get? m.name = some m) :
    (collectRelationshipEdges r (groupPlan r f trunc m limit?)).length ≤
        limits.maxRelationshipEdges ↔
      WithinEdgeBudget limits (f.relationshipEdges ++ m.relationshipEdges) := by
  simp [collectRelationshipEdges, planFieldReferences, groupPlan, QueryPlan.selectNames,
    QueryPlan.filters, QueryPlan.groupBy, QueryPlan.orderBy, QueryPlan.metrics, hf, hm,
    WithinEdgeBudget]

theorem validateAggregateRelationshipPolicy_groupPlan {trunc : Option DateTrunc}
    {limit? : Option ℤ} (hf : r.fields.get? f.name = some f)
    (hm : r.metrics.get? m.name = some m) (hflat : f.toManyRelationshipEdges = [])
    (hgrain : m.toManyRelationshipEdges.length ≤ 1) :
    validateAggregateRelationshipPolicy r (groupPlan r f trunc m limit?) = .ok () := by
  have hedges : fieldToManyEdges r (groupPlan r f trunc m limit?) = [] := by
    simp [fieldToManyEdges, planFieldReferences, groupPlan, QueryPlan.selectNames, QueryPlan.filters,
      QueryPlan.groupBy, QueryPlan.orderBy, hf, hflat]
  have hmetrics : (groupPlan r f trunc m limit?).metrics.mapM
      (fun spec => metricAt r spec.metric) = .ok [m] := by
    show [MetricSpec.mk (.text m.name)].mapM (fun spec => metricAt r spec.metric) = .ok [m]
    rw [List.mapM_cons, MetricSpec.metric, PyStr.shown_text, metricAt_ok.mpr hm]
    rfl
  unfold validateAggregateRelationshipPolicy
  show (_ >>= fun registeredMetrics => _) = _
  rw [hmetrics, ok_bind, hedges]
  dsimp only
  rw [raiseIf_neg]
  · rfl
  · rcases htoMany : m.toManyRelationshipEdges with _ | ⟨edge, _ | ⟨edge', rest⟩⟩
    · simp [htoMany]
    · simp [htoMany, List.eraseDups_cons]
    · simp [htoMany] at hgrain

theorem validatePlanFields_groupPlan {access : Access} {trunc : Option DateTrunc}
    {limit? : Option ℤ} (hf : r.fields.get? f.name = some f)
    (hm : r.metrics.get? m.name = some m) (hflat : f.toManyRelationshipEdges = [])
    (hgrain : m.toManyRelationshipEdges.length ≤ 1)
    (husage : validateMetricUsage limits access m = .ok ()) :
    validatePlanFields r limits access (groupPlan r f trunc m limit?) = .ok () ↔
      checkFieldUsage limits access .groupBy f.name f = .ok () ∧
        (trunc.isSome = true → f.type.isDate = true) := by
  have hpolicy : validateAggregateRelationshipPolicy r (groupPlan r f trunc m limit?) = .ok () :=
    validateAggregateRelationshipPolicy_groupPlan hf hm hflat hgrain
  have hmetrics : validateMetrics limits access r (groupPlan r f trunc m limit?).metrics [] =
      .ok [.text m.name] := by
    show validateMetrics limits access r [⟨m.name⟩] [] = _
    simp [validateMetrics, raiseIf_neg, hm, husage]
  have hgroupBy : (groupPlan r f trunc m limit?).groupBy = [⟨f.name, some trunc⟩] := rfl
  simp only [validatePlanFields, bind_eq_ok, forM_eq_ok, hmetrics, hpolicy, hgroupBy,
    List.forall_mem_cons, validateGroupBy, validateFieldUsage_ok, UsableField,
    raiseIf_eq_ok]
  simp [hf, groupPlan, QueryPlan.selectNames, QueryPlan.filters, QueryPlan.orderBy, GroupBySpec.dateTrunc]

/-- With a visible metric within the budgets, a field without a to-many edge may be grouped, or
bucketed by date, exactly when it is usable in results and, for a bucket, a date. -/
theorem accepts_groupPlan {registry : CatalogRegistry env} {trunc : Option DateTrunc}
    {limit? : Option ℤ} (hlimits : CountLimitsPositive limits) (hr : registry.get r.name = .ok r)
    (hpermitted : r.isCatalogVisible permissions = true)
    (hf : f ∈ r.visibleFields (.ofPermissions permissions))
    (hfdepth : f.relationDepth ≤ limits.maxJoins) (hflat : f.toManyRelationshipEdges = [])
    (hm : m ∈ r.visibleMetrics (.ofPermissions permissions))
    (hmdepth : m.relationDepth ≤ limits.maxJoins)
    (hedges : WithinEdgeBudget limits (f.relationshipEdges ++ m.relationshipEdges))
    (hrows : WithinRowLimit limits limit?) :
    Accepts registry limits permissions (groupPlan r f trunc m limit?) ↔
      f.usableInResults = true ∧ (trunc.isSome = true → f.type.isDate = true) := by
  have hregistered := (CatalogRegistry.get_ok hr).2.2
  obtain ⟨hf, hfvisible⟩ := hregistered.field_of_visible hf
  obtain ⟨hm, hmvisible⟩ := hregistered.metric_of_visible hm
  have hgrain := (hregistered.metrics_registered _ (Dict.mem_of_get? hm)).toMany_length
  have husage : validateMetricUsage limits (.ofPermissions permissions) m = .ok () := by
    simp only [validateMetricUsage, bind_eq_ok, raiseIf_eq_ok, Bool.not_eq_false]
    exact ⟨(), by omega, hmvisible⟩
  have hcounts := validateCounts_of_le
    (p := groupPlan r f trunc m (some (limit?.getD limits.defaultLimit))) hlimits
    (by simp [groupPlan, QueryPlan.selectNames]) (by simp [groupPlan, QueryPlan.groupBy])
    (by simp [groupPlan, QueryPlan.metrics]) rfl hrows (by simp [groupPlan, QueryPlan.filters])
    (by simp [groupPlan, QueryPlan.filters])
  have hduplicates : validateNoMeaninglessDuplicates env
      (groupPlan r f trunc m (some (limit?.getD limits.defaultLimit))) = .ok () :=
    validateNoMeaninglessDuplicates_of_le (by simp [groupPlan, QueryPlan.selectNames])
      (by simp [groupPlan, QueryPlan.groupBy]) rfl (by simp [groupPlan, QueryPlan.filters])
      (by simp [groupPlan, QueryPlan.filters])
  have hbudget : (collectRelationshipEdges r
      (groupPlan r f trunc m (some (limit?.getD limits.defaultLimit)))).length ≤
      limits.maxRelationshipEdges :=
    (collectRelationshipEdges_groupPlan hf hm).mpr hedges
  rw [accepts_iff (p := groupPlan r f trunc m limit?) hr hpermitted, withDefaults_groupPlan,
    validateBeforeNormalization_iff validatePlanShape_groupPlan hcounts hbudget hduplicates,
    validatePlanFields_groupPlan hf hm hflat hgrain husage,
    checkFieldUsage_visible hfvisible hfdepth, normalizeFilterValues_of_no_filters rfl]
  constructor
  · rintro ⟨⟨hgroup, htrunc⟩, -⟩
    exact ⟨by simpa using hgroup, htrunc⟩
  · rintro ⟨husable, htrunc⟩
    exact ⟨⟨.inr husable, htrunc⟩, _, rfl, hduplicates⟩

end

/-! ## Operands for every operator -/

/-- A value in the canonical form of the field's type, of which JSON text can be written. -/
structure CanonicalValue (unicode : Unicode) (f : FieldSpec) (v : PyScalar) : Prop where
  reading : normalizeCanonicalScalar unicode f v = .ok v
  same : v.pyEq v = true
  printable : ∀ cls i, v = .int cls i → Python.Printable i

/-- A value of the type in canonical form; those of an enum are registered with the field. -/
def exampleValue : FieldType → PyScalar
  | .string | .enum => .str none "a"
  | .boolean => .bool true
  | .integer => .int none 1
  | .decimal => .str none "1"
  | .float => .float (.ofInt 1)
  | .date => .str none "2024-01-01"
  | .datetime => .str none "2024-01-01T00:00:00+00:00"
  | .time => .str none "00:00:00"
  | .uuid => .str none (formatUuid 0)

theorem exampleValue_canonical {unicode : Unicode} {f : FieldSpec} (htype : f.type ≠ .enum) :
    CanonicalValue unicode f (exampleValue f.type) := by
  have hdigit : Decimal.Digits ['1'] := by simp [Decimal.Digits]
  have hnone : Decimal.Digits [] := by simp [Decimal.Digits]
  have hread : readDigits (['1'] ++ []) = some 1 := rfl
  have hone : decimalKind unicode
      (String.ofList (Decimal.signText false ++ (['1'] ++ Decimal.fractionText []))) = .finite :=
    Decimal.decimalKind_numeral unicode (by decide) hdigit hnone hread (by decide)
  have hone : decimalKind unicode "1" = .finite := hone
  have hzero : readUuid unicode (formatUuid 0) = some 0 := readUuid_formatUuid unicode (by decide)
  have hfloat : normalizeFloat f (exampleValue .float) = .ok (exampleValue .float) := rfl
  have hdate : normalizeDateString (exampleValue .date) = .ok (exampleValue .date) := by
    decide +kernel
  have hdatetime : normalizeDatetimeString (exampleValue .datetime) =
      .ok (exampleValue .datetime) := by
    decide +kernel
  have htime : normalizeTimeString (exampleValue .time) = .ok (exampleValue .time) := by
    decide +kernel
  constructor
  · cases h : f.type with
    | enum => exact absurd h htype
    | float => simpa only [normalizeCanonicalScalar, h] using hfloat
    | date => simpa only [normalizeCanonicalScalar, h] using hdate
    | datetime => simpa only [normalizeCanonicalScalar, h] using hdatetime
    | time => simpa only [normalizeCanonicalScalar, h] using htime
    | decimal => simp [normalizeCanonicalScalar, h, exampleValue, normalizeDecimal, hone]
    | uuid => simp [normalizeCanonicalScalar, h, exampleValue, normalizeUuid, hzero]
    | _ => simp [normalizeCanonicalScalar, h, exampleValue]
  · cases f.type <;> decide +kernel
  · intro cls i hi
    cases h : f.type <;> rw [h] at hi <;> cases hi
    decide

/-- Each registered value of an enum is in canonical form, if JSON text can be written of it. -/
theorem enumValue_canonical {unicode : Unicode} {f : FieldSpec} {d : EnumDefinition}
    {bindingType : String} {v : EnumValue} (hd : d.Validated bindingType) (htype : f.type = .enum)
    (henum : f.enum = some d) (hv : v ∈ d.values)
    (hprintable : ∀ cls i, v.value = .int cls i → Python.Printable i) :
    CanonicalValue unicode f v.value := by
  obtain ⟨key, raw, hraw⟩ := hd
  have hself : d.resolve v.value = some v.value := by
    rw [EnumDefinition.resolve_eq_some_iff (validateEnumMapping_unambiguous hraw), mem_tokenTable]
    exact ⟨v, hv, by simp [EnumValue.tokens], rfl⟩
  refine ⟨by simp [normalizeCanonicalScalar, htype, normalizeEnumScalar, henum, hself], ?_,
    hprintable⟩
  have htyped := ((validateEnumMapping_typed hraw).2 v hv).value
  apply PyScalar.pyEq_refl
  intro x hx
  rw [hx] at htyped
  cases htype : d.type <;> simp [EnumType.Allows, htype] at htyped

/-- Two bounds in order for a field of a date type. -/
def exampleRange : FieldType → List PyScalar
  | .date => [.str none "2024-01-01", .str none "2024-01-02"]
  | _ => [.str none "2024-01-01T00:00:00+00:00", .str none "2024-01-02T00:00:00+00:00"]

/-- Whether a range is in order does not depend on how its disorder is reported. -/
theorem normalizeRange_of_ok {α : Type} {normalize : PyScalar → Py PyScalar}
    {parse : PyScalar → Py α} {ordered : α → α → Bool} {e e' : PyException} {a b : PyScalar}
    {items : List PyScalar} (h : normalizeRange normalize parse ordered e a b = .ok items) :
    normalizeRange normalize parse ordered e' a b = .ok items := by
  simp only [normalizeRange, bind_eq_ok, raiseIf_eq_ok] at h ⊢
  exact h

theorem normalizeDateRangeFilter_exampleRange {f : FieldSpec} (htype : f.type.isDate = true) :
    normalizeDateRangeFilter f (.list (exampleRange f.type)) =
      .ok (.list (exampleRange f.type)) := by
  have hdates : normalizeRange normalizeDateString parseDateString
      (fun a b => decide (a.ordinal ≤ b.ordinal)) invalidDate
      (.str none "2024-01-01") (.str none "2024-01-02") =
      .ok (exampleRange .date) := by
    decide +kernel
  have hdatetimes : normalizeRange normalizeDatetimeString parseDatetimeString
      (fun a b => decide (a.moment < b.moment)) invalidDatetime
      (.str none "2024-01-01T00:00:00+00:00") (.str none "2024-01-02T00:00:00+00:00") =
      .ok (exampleRange .datetime) := by
    decide +kernel
  cases h : f.type with
  | date =>
    simp only [normalizeDateRangeFilter, exampleRange, h]
    rw [normalizeRange_of_ok hdates]
    rfl
  | datetime =>
    simp only [normalizeDateRangeFilter, exampleRange, h]
    rw [normalizeRange_of_ok hdatetimes]
    rfl
  | _ =>
    rw [h] at htype
    cases htype

/-- An operand that the operator takes on a field whose type has the value. -/
def exampleOperand (type : FieldType) (v : PyScalar) : FilterOperator → FilterValue
  | .isnull => .scalar (.bool true)
  | .lastNDays | .lastNMonths => .scalar (.int none 1)
  | .contains | .icontains => .scalar (.str none "a")
  | .in => .list [v]
  | .dateRange => .list (exampleRange type)
  | _ => .scalar v

/-- An operator of a field whose type has a canonical value has a well-typed operand. -/
theorem exampleOperand_wellTyped {env : Environment} {limits : PlanLimits} {f : FieldSpec}
    {name : PyStr} {op : FilterOperator} {v : PyScalar}
    (hlimits : CountLimitsPositive limits) (hrange : 2 ≤ limits.maxFilterValues)
    (hop : op ∈ operatorsByFieldType f.type) (hv : CanonicalValue env.unicode f v) :
    WellTypedOperand env limits f ⟨name, op, exampleOperand f.type v op⟩ := by
  have hprintable : FilterSpec.Printable ⟨name, op, exampleOperand f.type v op⟩ := by
    intro cls i hi
    cases op with
    | isnull | contains | icontains => simp [exampleOperand, FilterValue.scalars] at hi
    | dateRange =>
      cases h : f.type <;> simp [exampleOperand, exampleRange, FilterValue.scalars, h] at hi
    | lastNDays | lastNMonths =>
      obtain ⟨-, rfl⟩ : cls = none ∧ i = 1 := by
        simpa [exampleOperand, FilterValue.scalars] using hi
      decide
    | _ => exact hv.printable cls i (List.mem_singleton.mp hi).symm
  have hdistinct : NoRepeatedValues env ⟨name, op, exampleOperand f.type v op⟩ := by
    rintro items rfl hitems
    have hkeyed : ∃ key, scalarKey env v = .ok key := scalarKey_ok hv.printable
    obtain ⟨key, hkey⟩ := hkeyed
    cases hitems
    exact ⟨[key], by rw [List.mapM_cons, hkey]; rfl, List.nodup_singleton key⟩
  have hkept : normalizeFilterValue env.unicode f ⟨name, op, exampleOperand f.type v op⟩ =
      .ok ⟨name, op, exampleOperand f.type v op⟩ := by
    cases op with
    | isnull | lastNDays | lastNMonths => rfl
    | dateRange =>
      have htype : f.type.isDate = true := by
        cases h : f.type <;> simp_all [operatorsByFieldType, FieldType.isDate]
      rw [normalizeFilterValue_range rfl, exampleOperand,
        normalizeDateRangeFilter_exampleRange htype]
      rfl
    | contains | icontains =>
      have htype : f.type = .string := by
        cases h : f.type <;> simp_all [operatorsByFieldType]
      simp [normalizeFilterValue, normalizedValue, exampleOperand, normalizeCanonicalScalar, htype,
        Except.map, FilterValue.pyEq, PyScalar.pyEq]
    | _ =>
      simp [normalizeFilterValue, normalizedValue, exampleOperand, hv.reading, Except.map,
        FilterValue.pyEq, hv.same]
  have hform : validateFilterValue op (exampleOperand f.type v op) = none := by
    cases op with
    | dateRange => cases f.type <;> rfl
    | _ => rfl
  have hcount : filterScalarCount ⟨name, op, exampleOperand f.type v op⟩ ≤ 2 := by
    cases op with
    | dateRange => cases f.type <;> simp [filterScalarCount, exampleOperand, exampleRange]
    | _ => simp [filterScalarCount, exampleOperand]
  have hin := hlimits.maxInValues
  refine ⟨hform, hprintable, hdistinct, ?_, by omega, _, hkept, hprintable, hdistinct⟩
  cases op <;> simp [inValueCount, exampleOperand, hin]

/-- An operator that fits the type of a registered field has a well-typed operand, unless the
field is an enum of integers too long for JSON text. -/
theorem exists_wellTypedOperand {env : Environment} {limits : PlanLimits} {f : FieldSpec}
    {bindingType : String} (hmatches : f.TypeMatches bindingType)
    (hlimits : CountLimitsPositive limits) (hrange : 2 ≤ limits.maxFilterValues)
    (hprintable : ∀ d, f.enum = some d →
      ∃ v ∈ d.values, ∀ cls i, v.value = .int cls i → Python.Printable i)
    (name : PyStr) {op : FilterOperator} (hop : op ∈ operatorsByFieldType f.type) :
    ∃ value, WellTypedOperand env limits f ⟨name, op, value⟩ := by
  have hvalue : ∃ v, CanonicalValue env.unicode f v := by
    rcases hmatches.enum with ⟨htype, d, henum, hd⟩ | ⟨htype, -⟩
    · obtain ⟨v, hv, hshort⟩ := hprintable d henum
      exact ⟨v.value, enumValue_canonical hd htype henum hv hshort⟩
    · exact ⟨_, exampleValue_canonical htype⟩
  obtain ⟨v, hv⟩ := hvalue
  exact ⟨_, exampleOperand_wellTyped hlimits hrange hop hv⟩

/-! ## The guidance for a field -/

/-- The guidance for a visible field says what the validator accepts. -/
structure GuidanceAgrees {env : Environment} (registry : CatalogRegistry env) (limits : PlanLimits)
    (permissions : List String) (r : SemanticResource) (f : FieldSpec) : Prop where
  selectable : WithinEdgeBudget limits f.relationshipEdges →
    ∀ limit?, WithinRowLimit limits limit? →
      ((buildFieldCapability f.toDict).canSelect = true ↔
        Accepts registry limits permissions (selectPlan r f [] limit?))
  groupable : f.toManyRelationshipEdges = [] →
    ∀ m ∈ r.visibleMetrics (.ofPermissions permissions), m.relationDepth ≤ limits.maxJoins →
      WithinEdgeBudget limits (f.relationshipEdges ++ m.relationshipEdges) →
      ∀ limit?, WithinRowLimit limits limit? →
        ((buildFieldCapability f.toDict).canGroup = true ↔
          Accepts registry limits permissions (groupPlan r f none m limit?)) ∧
        ∀ trunc, (buildFieldCapability f.toDict).canDateBucket = true ↔
          Accepts registry limits permissions (groupPlan r f (some trunc) m limit?)
  filterable : ∀ g ∈ r.visibleFields (.ofPermissions permissions),
    g.relationDepth ≤ limits.maxJoins → (buildFieldCapability g.toDict).canSelect = true →
      WithinEdgeBudget limits (g.relationshipEdges ++ f.relationshipEdges) →
      ∀ limit?, WithinRowLimit limits limit? → ∀ x : FilterSpec, x.fieldName = f.name →
        (x.op ∈ (buildFieldCapability f.toDict).operators →
          WellTypedOperand env limits f x) →
        (x.op ∈ (buildFieldCapability f.toDict).operators ↔
          Accepts registry limits permissions (selectPlan r g [x] limit?))

/-! ## The members of an accepted plan -/

theorem isCatalogVisible_of_checkFieldUsage {limits : PlanLimits} {access : Access}
    {usage : FieldUsage} {name : PyStr} {f : FieldSpec} {u : Unit}
    (h : checkFieldUsage limits access usage name f = .ok u) :
    f.isCatalogVisible access = true := by
  simp only [checkFieldUsage, bind_eq_ok, raiseIf_eq_ok] at h
  obtain ⟨_, -, _, -, _, hsensitive, _, hpermission, _, hhidden, -⟩ := h
  rw [isCatalogVisible_iff]
  refine ⟨.inl (by simpa using hpermission), ?_, ?_⟩
  · intro hs
    simpa [hs] using hsensitive
  · simp only [Bool.or_eq_false_iff, Bool.and_eq_false_iff] at hhidden
    grind

theorem mem_toDict_fields {unicode : Unicode} {r : SemanticResource} {limits : PlanLimits}
    {access : Access} {usage : FieldUsage} {name : String} {f : FieldSpec}
    (hname : ∀ e ∈ r.fields, e.2.name = e.1) (h : UsableField r limits access usage name f) :
    name ∈ (r.toDict unicode access).fields.map FieldCatalogItem.name := by
  have hmem := Dict.mem_of_get? h.1
  refine List.mem_map.mpr ⟨f.toDict, ?_, hname _ hmem⟩
  apply List.mem_map_of_mem
  exact List.mem_filter.mpr
    ⟨List.mem_map_of_mem (f := Prod.snd) hmem, isCatalogVisible_of_checkFieldUsage h.2⟩

theorem mem_toDict_metrics {unicode : Unicode} {r : SemanticResource} {limits : PlanLimits}
    {access : Access} {name : String} {m : Metric} (hname : ∀ e ∈ r.metrics, e.2.name = e.1)
    (h : UsableMetric r limits access name m) :
    name ∈ (r.toDict unicode access).metrics.map MetricCatalogItem.name := by
  have hmem := Dict.mem_of_get? h.1
  refine List.mem_map.mpr ⟨m.toDict unicode, ?_, hname _ hmem⟩
  apply List.mem_map_of_mem
  refine List.mem_filter.mpr ⟨List.mem_map_of_mem (f := Prod.snd) hmem, ?_⟩
  obtain ⟨_, -, hpermission⟩ := bind_eq_ok.mp h.2
  rw [raiseIf_eq_ok, Bool.not_eq_false] at hpermission
  exact hpermission

theorem Accepted.usable_references {env : Environment} {r : SemanticResource}
    {limits : PlanLimits} {access : Access} {p : QueryPlan} (h : Accepted env r limits access p) :
    ∀ name ∈ (planFieldReferences p).map PyStr.shown,
      ∃ usage f, UsableField r limits access usage name f := by
  intro name hname
  simp only [map_shown_references, List.mem_append, List.mem_map, List.mem_filterMap] at hname
  rcases hname with ((hselect | ⟨x, hx, rfl⟩) | ⟨g, hg, rfl⟩) | ⟨o, ho, hfield⟩
  · obtain ⟨f, hf⟩ := h.select name hselect
    exact ⟨_, f, hf⟩
  · obtain ⟨f, hf⟩ := h.filters x hx
    exact ⟨_, f, hf.usable⟩
  · obtain ⟨f, hf, -⟩ := h.groupBy g hg
    exact ⟨_, f, hf⟩
  · have htarget := h.texts.target_of_field? ho hfield
    have hmem : .field name ∈ p.orderBy.map OrderBySpec.target :=
      List.mem_map.mpr ⟨o, ho, htarget⟩
    obtain ⟨f, hf⟩ := (h.orderBy.field name hmem).1
    exact ⟨_, f, hf⟩

/-- The guidance agrees with the validator on every visible field, and an accepted plan refers to
nothing outside the catalog. -/
theorem guidance_agrees {env : Environment} (registry : CatalogRegistry env) {limits : PlanLimits}
    (hlimits : CountLimitsPositive limits) (permissions : List String) :
    (∀ r, registry.get r.name = .ok r → r.isCatalogVisible permissions = true →
      ∀ f ∈ r.visibleFields (.ofPermissions permissions), f.relationDepth ≤ limits.maxJoins →
        GuidanceAgrees registry limits permissions r f) ∧
    ∀ raw p, parseAndValidateQueryPlan registry limits (.ofPermissions permissions) raw = .ok p →
      ∃ item ∈ registry.toDict (.ofPermissions permissions), p.resourceName = .text item.name ∧
        (∀ name ∈ planFieldReferences p,
          name ∈ item.fields.map fun f => PyStr.text f.name) ∧
        ∀ spec ∈ p.metrics, spec.metricName ∈ item.metrics.map fun m => PyStr.text m.name := by
  constructor
  · intro r hr hpermitted f hf hdepth
    refine ⟨fun hedges limit? hrows => ?_, fun hflat m hm hmdepth hedges limit? hrows => ?_,
      fun g hg hgdepth husable hedges limit? hrows x hx htyped => ?_⟩
    · rw [accepts_selectPlan hlimits hr hpermitted hf hdepth hedges hrows,
        buildFieldCapability_canSelect]
    · refine ⟨?_, fun trunc => ?_⟩
      · rw [accepts_groupPlan hlimits hr hpermitted hf hdepth hflat hm hmdepth hedges hrows]
        simp
      · rw [accepts_groupPlan hlimits hr hpermitted hf hdepth hflat hm hmdepth hedges hrows]
        simp
    · rw [buildFieldCapability_canSelect] at husable
      exact (accepts_filter hlimits hr hpermitted hf hdepth hg hgdepth husable hedges hrows hx
        htyped).symm
  · intro raw p h
    simp only [parseAndValidateQueryPlan, validateQueryPlan, bind_eq_ok] at h
    obtain ⟨_, -, plan, hplan, r, hr, h⟩ := h
    have haccepted := validateForResource_ok (parseQueryPlan_ok hplan) h
    obtain ⟨hmem, -, hregistered⟩ := CatalogRegistry.get_ok hr
    obtain ⟨_, hpermitted, -⟩ := bind_eq_ok.mp h
    rw [validateResourcePermission, raiseIf_eq_ok, Bool.not_eq_false] at hpermitted
    refine ⟨r.toDict env.unicode (.ofPermissions permissions), ?_, haccepted.resource_eq,
      fun name hname => ?_, fun spec hspec => ?_⟩
    · apply List.mem_map_of_mem
      exact List.mem_filter.mpr ⟨List.mem_map_of_mem (f := Prod.snd) hmem, hpermitted⟩
    · obtain ⟨usage, f, hf⟩ :=
        haccepted.usable_references name.shown (List.mem_map_of_mem hname)
      obtain ⟨item, hitem, hshown⟩ := List.mem_map.mp
        (mem_toDict_fields (fun e he => (hregistered.fields_registered e he).name_eq) hf)
      exact List.mem_map.mpr
        ⟨item, hitem, by rw [hshown, ← (haccepted.texts.references name hname).eq]⟩
    · obtain ⟨m, hm⟩ := haccepted.metrics spec hspec
      obtain ⟨item, hitem, hshown⟩ := List.mem_map.mp
        (mem_toDict_metrics (fun e he => (hregistered.metrics_registered e he).name_eq) hm)
      exact List.mem_map.mpr
        ⟨item, hitem, by rw [hshown, MetricSpec.metric, ← (haccepted.texts.metrics spec hspec).eq]⟩

/-- Orders with their day, the number that their items lead back to, and a count. -/
def roundTrips : CatalogRegistry Sample.environment :=
  Sample.registryOf
    { Sample.orderArgs
        [("number", .config (Sample.fieldConfig "number" "string")),
          ("day", .config (Sample.fieldConfig "day" "date")),
          ("again", .config (Sample.fieldConfig "items__order__number" "string"))] with
      metrics := Sample.metricOf (Sample.countOf "order_count" "id") }

theorem sample_guidance_agrees :
    (∀ r, roundTrips.get r.name = .ok r → r.isCatalogVisible [] = true →
      ∀ f ∈ r.visibleFields (.ofPermissions []), f.relationDepth ≤ Sample.limits.maxJoins →
        GuidanceAgrees roundTrips Sample.limits [] r f) ∧
    ∀ raw p, parseAndValidateQueryPlan roundTrips Sample.limits (.ofPermissions []) raw = .ok p →
      ∃ item ∈ roundTrips.toDict (.ofPermissions []), p.resourceName = .text item.name ∧
        (∀ name ∈ planFieldReferences p,
          name ∈ item.fields.map fun f => PyStr.text f.name) ∧
        ∀ spec ∈ p.metrics, spec.metricName ∈ item.metrics.map fun m => PyStr.text m.name :=
  guidance_agrees roundTrips (by constructor <;> decide) []

/-- The limits of a project whose plans may cross one edge only. -/
def oneEdge : PlanLimits := { Sample.limits with maxRelationshipEdges := 1 }

/-- A field two edges away is said to be selectable, and no plan may select it. -/
theorem selectable_beyond_edge_budget :
    ∃ r, roundTrips.get r.name = .ok r ∧ r.isCatalogVisible [] = true ∧
      ∃ f ∈ r.visibleFields (.ofPermissions []), CountLimitsPositive oneEdge ∧
        f.relationDepth ≤ oneEdge.maxJoins ∧ WithinRowLimit oneEdge none ∧
        (buildFieldCapability f.toDict).canSelect = true ∧
        ¬ Accepts roundTrips oneEdge [] (selectPlan r f [] none) := by
  have hlimits : CountLimitsPositive oneEdge := by constructor <;> decide
  have hfound : ((roundTrips.get "orders").toOption.any fun r =>
      r.isCatalogVisible [] && (r.visibleFields (.ofPermissions [])).any fun f =>
        decide (f.relationDepth ≤ oneEdge.maxJoins) &&
          (buildFieldCapability f.toDict).canSelect &&
          !(validateQueryPlan roundTrips oneEdge (.ofPermissions [])
            (selectPlan r f [] none)).isOk) = true := by decide +kernel
  cases hr : roundTrips.get "orders" with
  | error e =>
    rw [hr] at hfound
    cases hfound
  | ok r =>
    rw [hr] at hfound
    simp only [Except.toOption, Option.any_some, Bool.and_eq_true, List.any_eq_true,
      decide_eq_true_eq, Bool.not_eq_true'] at hfound
    obtain ⟨hpermitted, f, hf, ⟨hdepth, hselect⟩, hrefused⟩ := hfound
    refine ⟨r, CatalogRegistry.get_name hr, hpermitted, f, hf, hlimits, hdepth, ?_, hselect, ?_⟩
    · show (100 : ℤ) ≤ 1000
      decide
    · rintro ⟨q, hq⟩
      rw [hq] at hrefused
      cases hrefused

end AskLens.Planning
