import AskLens.Planning.Containment
import AskLens.Planning.Unavailable

/-!
# Refusals that are no plan errors

What the validator raises besides plan errors: a built-in exception on a payload
that is not tractable, and the errors of a resource, a field or a metric that is
unknown or not permitted, when every check before it passes.
-/
namespace AskLens.Planning

open Python Catalog Checks

section

variable {env : Environment} {registry : CatalogRegistry env} {resource : SemanticResource}
  {limits : PlanLimits} {access : Access} {plan : QueryPlan}

structure PermittedField (access : Access) (usage : FieldUsage) (field : FieldSpec) : Prop where
  sensitive : field.sensitive = true → isSensitiveFieldAllowed field access = true
  permission : permissionSetAllows access.permissions field.requiresPermission = true
  hidden : field.llmVisible = false →
    (access.hidden || (field.sensitive && isSensitiveFieldAllowed field access)) = true
  result : usage.isResult = true → field.resultVisible = true

/-- The name belongs to no field, or to one that fits the depth and the usage but is not
permitted. -/
def UnavailableField (resource : SemanticResource) (limits : PlanLimits) (access : Access)
    (usage : FieldUsage) (name : PyStr) : Prop :=
  ∀ field, named? resource.fields name = some field →
    field.relationDepth ≤ limits.maxJoins ∧ ¬ (field.filterOnly = true ∧ usage ≠ .filter) ∧
      ¬ PermittedField access usage field

/-- The name belongs to a metric that fits the depth but is not permitted. -/
def DeniedMetric (resource : SemanticResource) (limits : PlanLimits) (access : Access)
    (name : PyStr) : Prop :=
  ∃ metric, named? resource.metrics name = some metric ∧ metric.relationDepth ≤ limits.maxJoins ∧
    permissionSetAllows access.permissions metric.requiresPermission = false

/-- The first member of the plan that does not pass is unknown or not permitted. -/
inductive UnavailableMember (resource : SemanticResource) (limits : PlanLimits) (access : Access)
    (plan : QueryPlan) : Prop where
  | select (first : FirstLeak (validateSelect limits access resource)
      (UnavailableField resource limits access .select) plan.selectNames)
  | filters (select : plan.selectNames.forM (validateSelect limits access resource) = .ok ())
    (first : FirstLeak (validateFilter limits access resource)
      (fun x => UnavailableField resource limits access .filter x.fieldName) plan.filters)
  | groupBy (select : plan.selectNames.forM (validateSelect limits access resource) = .ok ())
    (filters : plan.filters.forM (validateFilter limits access resource) = .ok ())
    (first : FirstLeak (validateGroupBy limits access resource)
      (fun g => UnavailableField resource limits access .groupBy g.fieldName) plan.groupBy)
  | metrics (select : plan.selectNames.forM (validateSelect limits access resource) = .ok ())
    (filters : plan.filters.forM (validateFilter limits access resource) = .ok ())
    (groupBy : plan.groupBy.forM (validateGroupBy limits access resource) = .ok ())
    (first : FirstStoppedMetric resource limits access (DeniedMetric resource limits access)
      plan.metrics [])
  | orderBy (select : plan.selectNames.forM (validateSelect limits access resource) = .ok ())
    (filters : plan.filters.forM (validateFilter limits access resource) = .ok ())
    (groupBy : plan.groupBy.forM (validateGroupBy limits access resource) = .ok ())
    (names : List PyStr)
    (metrics : validateMetrics limits access resource plan.metrics [] = .ok names)
    (policy : validateAggregateRelationshipPolicy resource plan = .ok ())
    (first : FirstLeak (validateOrderTerm limits access resource
        (plan.selectNames ++ plan.groupBy.map GroupBySpec.fieldName) names)
      (fun term => ∃ name, term.target = .field name ∧
        UnavailableField resource limits access .orderBy name) plan.orderBy)

/-- The validator stops at something that is not there for the caller, or a built-in exception
escapes. -/
inductive RefusedOtherwise (registry : CatalogRegistry env) (limits : PlanLimits)
    (access : Access) (raw : RawPlan) : Prop where
  | builtin (h : ¬ Tractable registry limits access raw)
  | resource (plan : QueryPlan)
    (size : validatePlanPayloadSize env limits.maxPlanBytes raw = .ok ())
    (parse : parseQueryPlan env raw = .ok plan)
    (unavailable : ¬ IsAvailable registry access plan.resource)
  | member (plan : QueryPlan) (resource : SemanticResource)
    (size : validatePlanPayloadSize env limits.maxPlanBytes raw = .ok ())
    (parse : parseQueryPlan env raw = .ok plan)
    (found : registry.get plan.resource = .ok resource)
    (passes : PassesLimits env resource limits (withDefaults resource limits plan))
    (unavailable : UnavailableMember resource limits access (withDefaults resource limits plan))

/-! ## Members -/

theorem permittedField_iff {usage : FieldUsage} {field : FieldSpec} :
    PermittedField access usage field ↔
      ¬ ((field.sensitive = true ∧ isSensitiveFieldAllowed field access = false) ∨
        permissionSetAllows access.permissions field.requiresPermission = false ∨
        (field.llmVisible = false ∧
          (access.hidden || (field.sensitive && isSensitiveFieldAllowed field access)) = false) ∨
        (usage.isResult = true ∧ field.resultVisible = false)) := by
  simp only [not_or, not_and, Bool.not_eq_false]
  constructor
  · intro h
    exact ⟨h.sensitive, h.permission, h.hidden, h.result⟩
  · rintro ⟨hsensitive, hpermission, hhidden, hresult⟩
    exact ⟨hsensitive, hpermission, hhidden, hresult⟩

theorem escapes_checkFieldUsage_iff {usage : FieldUsage} {name : PyStr} {field : FieldSpec} :
    Escapes isPlanValidationError (checkFieldUsage limits access usage name field) ↔
      field.relationDepth ≤ limits.maxJoins ∧ ¬ (field.filterOnly = true ∧ usage ≠ .filter) ∧
        ¬ PermittedField access usage field := by
  rw [permittedField_iff, not_not, ← not_lt, checkFieldUsage,
    escapes_caught_bind_iff (by rfl), escapes_caught_bind_iff (by rfl),
    escapes_uncaught_bind_iff (by rfl), escapes_uncaught_bind_iff (by rfl),
    escapes_uncaught_bind_iff (by rfl), escapes_raiseIf_iff]
  apply and_congr_right
  intro _
  apply and_congr_right
  intro _
  exact or_congr_right (or_congr_right (or_congr_right (and_iff_left rfl)))

theorem escapes_fieldUsage_iff {usage : FieldUsage} {name : PyStr} :
    Escapes isPlanValidationError (validateFieldUsage limits access resource usage name) ↔
      UnavailableField resource limits access usage name := by
  unfold validateFieldUsage UnavailableField
  cases hfield : named? resource.fields name with
  | none =>
    simp only [reduceCtorEq, false_implies, implies_true, iff_true]
    exact escapes_error_iff.mpr rfl
  | some field =>
    have hok : ¬ Escapes isPlanValidationError (.ok field : Py FieldSpec) := not_escapes_ok field
    simp only [escapes_bind_iff, escapes_checkFieldUsage_iff, hok, and_false, exists_false,
      or_false, Option.some.injEq, forall_eq']

/-- A check that uses a field escapes at the field, when what it does next raises plan errors. -/
theorem escapes_fieldUsage_bind_iff {usage : FieldUsage} {name : PyStr}
    {f : FieldSpec → Py Unit} (hf : ∀ field, ¬ Escapes isPlanValidationError (f field)) :
    Escapes isPlanValidationError
        (validateFieldUsage limits access resource usage name >>= f) ↔
      UnavailableField resource limits access usage name := by
  rw [escapes_bind_iff, escapes_fieldUsage_iff]
  constructor
  · rintro (h | ⟨field, -, h⟩)
    · exact h
    · exact absurd h (hf field)
  · exact .inl

theorem escapes_select_iff {name : PyStr} :
    Escapes isPlanValidationError (validateSelect limits access resource name) ↔
      UnavailableField resource limits access .select name :=
  escapes_fieldUsage_bind_iff fun _ => not_escapes_ok _

theorem escapes_filter_iff {x : FilterSpec} :
    Escapes isPlanValidationError (validateFilter limits access resource x) ↔
      UnavailableField resource limits access .filter x.fieldName :=
  escapes_fieldUsage_bind_iff fun _ => not_escapes_raiseIf rfl

theorem escapes_groupBy_iff {g : GroupBySpec} :
    Escapes isPlanValidationError (validateGroupBy limits access resource g) ↔
      UnavailableField resource limits access .groupBy g.fieldName :=
  escapes_fieldUsage_bind_iff fun _ => not_escapes_raiseIf rfl

theorem escapes_orderTerm_iff {visible names : List PyStr} {term : OrderBySpec} :
    Escapes isPlanValidationError
        (validateOrderTerm limits access resource visible names term) ↔
      ∃ name, term.target = .field name ∧
        UnavailableField resource limits access .orderBy name := by
  unfold validateOrderTerm
  cases term.target with
  | field name =>
    dsimp only
    rw [escapes_fieldUsage_bind_iff fun _ => not_escapes_raiseIf rfl]
    simp
  | metric name =>
    dsimp only
    simpa using not_escapes_raiseIf rfl

theorem escapes_requestedMetric_iff {name : PyStr} :
    Escapes isPlanValidationError (requestedMetric limits access resource name) ↔
      DeniedMetric resource limits access name := by
  unfold requestedMetric DeniedMetric
  cases named? resource.metrics name with
  | none =>
    simp only [reduceCtorEq, false_and, exists_false, iff_false]
    rw [escapes_error_iff]
    exact Bool.noConfusion
  | some metric =>
    dsimp only
    rw [validateMetricUsage, escapes_caught_bind_iff (by rfl), escapes_raiseIf_iff, not_lt]
    simp only [Option.some.injEq, exists_eq_left']
    apply and_congr_right
    intro _
    exact and_iff_left rfl

theorem escapes_metrics_iff {specs : List MetricSpec} {seen : List PyStr} :
    Escapes isPlanValidationError (validateMetrics limits access resource specs seen) ↔
      FirstStoppedMetric resource limits access (DeniedMetric resource limits access) specs
        seen := by
  induction specs generalizing seen with
  | nil =>
    constructor
    · intro h
      exact absurd h (not_escapes_ok _)
    · rintro ⟨pre, spec, post, names, hnil, -⟩
      simp at hnil
  | cons spec rest ih =>
    rw [validateMetrics_cons, firstStoppedMetric_cons, escapes_caught_bind_iff (by rfl),
      escapes_bind_iff, escapes_requestedMetric_iff]
    simp only [Unique.exists_iff, ih]

theorem escapes_fields_iff :
    Escapes isPlanValidationError (validatePlanFields resource limits access plan) ↔
      UnavailableMember resource limits access plan := by
  simp only [validatePlanFields, escapes_bind_iff, escapes_forM_iff, escapes_select_iff,
    escapes_filter_iff, escapes_groupBy_iff, escapes_metrics_iff, escapes_orderTerm_iff,
    Unique.exists_iff]
  constructor
  · rintro (h | ⟨hselect, h | ⟨hfilters, h | ⟨hgroupBy, h | ⟨names, hmetrics, h | ⟨hpolicy, h⟩⟩⟩⟩⟩)
    · exact .select h
    · exact .filters hselect h
    · exact .groupBy hselect hfilters h
    · exact .metrics hselect hfilters hgroupBy h
    · exact absurd h (not_escapes_policy hmetrics)
    · exact .orderBy hselect hfilters hgroupBy names hmetrics hpolicy h
  · intro h
    cases h with
    | select h => exact .inl h
    | filters hselect h => exact .inr ⟨hselect, .inl h⟩
    | groupBy hselect hfilters h => exact .inr ⟨hselect, .inr ⟨hfilters, .inl h⟩⟩
    | metrics hselect hfilters hgroupBy h =>
      exact .inr ⟨hselect, .inr ⟨hfilters, .inr ⟨hgroupBy, .inl h⟩⟩⟩
    | orderBy hselect hfilters hgroupBy names hmetrics hpolicy h =>
      exact .inr ⟨hselect, .inr ⟨hfilters, .inr ⟨hgroupBy,
        .inr ⟨names, hmetrics, .inr ⟨hpolicy, h⟩⟩⟩⟩⟩

/-! ## Built-in exceptions -/

def isPlanOrBuiltin : PyException → Bool
  | .builtin _ => true
  | e => isPlanValidationError e

theorem not_escapes_planOrBuiltin {α : Type} {x : Py α}
    (h : ¬ Escapes isPlanValidationError x) : ¬ Escapes isPlanOrBuiltin x := by
  intro hescapes
  apply h
  apply hescapes.anti
  intro e he
  cases e with
  | askLens exc => exact he
  | builtin e => rfl

theorem not_escapes_builtin {α : Type} (e : BuiltinError) :
    ¬ Escapes isPlanOrBuiltin (.error (.builtin e) : Py α) := by
  rw [escapes_error_iff]
  exact Bool.noConfusion

theorem not_escapes_planParse {α : Type} (msg : String) :
    ¬ Escapes isPlanOrBuiltin (.error (ErrorClass.planParse.exc msg) : Py α) := by
  rw [escapes_error_iff]
  exact Bool.noConfusion

theorem escapes_iff_of_typed {α : Type} {x : Py α} :
    Escapes isPlanValidationError x ↔ ¬ Contained x ∨ Escapes isPlanOrBuiltin x := by
  cases x with
  | ok a => simp [not_escapes_ok, contained_ok]
  | error e =>
    rw [escapes_error_iff, escapes_error_iff]
    cases e with
    | askLens exc => simp [Contained, isPlanOrBuiltin]
    | builtin e => simp [Contained, isPlanOrBuiltin, isPlanValidationError]

theorem not_escapes_payloadSize (env : Environment) (maxBytes : ℕ) (raw : RawPlan) :
    ¬ Escapes isPlanOrBuiltin (validatePlanPayloadSize env maxBytes raw) := by
  apply not_escapes_bind
  · cases raw with
    | bytes b => exact not_escapes_ok _
    | text t =>
      dsimp only [payloadBytes]
      cases t.encodedLength with
      | none => exact not_escapes_planParse _
      | some n => exact not_escapes_ok n
    | mapping entries =>
      dsimp only [payloadBytes]
      split
      · split
        · exact not_escapes_ok _
        · exact not_escapes_planParse _
      · exact not_escapes_planParse _
      · exact not_escapes_planParse _
      · exact not_escapes_planParse _
      · exact not_escapes_builtin _
  · intro n
    exact not_escapes_raiseIf rfl

theorem not_escapes_planText (t : PyText) : ¬ Escapes isPlanOrBuiltin (parsePlanText env t) := by
  unfold parsePlanText
  split
  · exact not_escapes_ok _
  · exact not_escapes_planParse _
  · exact not_escapes_planParse _
  · exact not_escapes_builtin _

theorem not_escapes_parseQueryPlan (env : Environment) (raw : RawPlan) :
    ¬ Escapes isPlanOrBuiltin (parseQueryPlan env raw) := by
  apply not_escapes_bind
  · cases raw with
    | bytes b =>
      dsimp only [parsePlanPayload]
      cases decodeUtf8 b with
      | none => exact not_escapes_planParse _
      | some t => exact not_escapes_planText t
    | text t => exact not_escapes_planText t
    | mapping entries => exact not_escapes_ok entries
  · intro payload
    cases parseQueryPlanModel env payload with
    | ok plan => exact not_escapes_ok plan
    | error e => exact not_escapes_planParse _

theorem not_escapes_rejectDuplicateKeys {α κ : Type} [DecidableEq κ] {label : String}
    {key : α → Py κ} {items : List α} {seen : List κ}
    (h : ∀ a ∈ items, ¬ Escapes isPlanOrBuiltin (key a)) :
    ¬ Escapes isPlanOrBuiltin (rejectDuplicateKeys label key items seen) := by
  induction items generalizing seen with
  | nil => exact not_escapes_ok _
  | cons a rest ih =>
    apply not_escapes_bind (h a List.mem_cons_self)
    intro k
    apply not_escapes_bind (not_escapes_raiseIf rfl)
    intro _
    apply ih
    intro b hb
    exact h b (List.mem_cons_of_mem _ hb)

theorem not_escapes_jsonValueKey (typeName : String) (value : PyObj) :
    ¬ Escapes isPlanOrBuiltin (jsonValueKey env typeName value) := by
  unfold jsonValueKey
  cases dumps env.interp value with
  | ok text => exact not_escapes_ok _
  | error e => exact not_escapes_builtin e

theorem not_escapes_noDuplicates (env : Environment) (plan : QueryPlan) :
    ¬ Escapes isPlanOrBuiltin (validateNoMeaninglessDuplicates env plan) := by
  have hkey : ∀ x : FilterSpec, ¬ Escapes isPlanOrBuiltin (filterKey env x) := by
    intro x
    have hpair : ∀ key : String × PyText,
        ¬ Escapes isPlanOrBuiltin (.ok (x.fieldName, x.op, key) :
          Py (PyStr × FilterOperator × String × PyText)) :=
      fun _ => not_escapes_ok _
    unfold filterKey
    cases x.value with
    | scalar v => exact not_escapes_bind (not_escapes_jsonValueKey _ _) hpair
    | list items => exact not_escapes_bind (not_escapes_jsonValueKey _ _) hpair
  apply not_escapes_bind (not_escapes_rejectDuplicateKeys fun _ _ => not_escapes_ok _)
  intro _
  apply not_escapes_bind (not_escapes_rejectDuplicateKeys fun _ _ => not_escapes_ok _)
  intro _
  apply not_escapes_bind (not_escapes_rejectDuplicateKeys fun _ _ => not_escapes_ok _)
  intro _
  apply not_escapes_bind (not_escapes_rejectDuplicateKeys fun x _ => hkey x)
  intro _
  apply not_escapes_forM
  intro x _
  unfold rejectDuplicateInValues
  split
  · exact not_escapes_rejectDuplicateKeys fun v _ => not_escapes_jsonValueKey _ _
  · exact not_escapes_ok _

/-! ## The validator -/

theorem escapes_fields_planOrBuiltin_iff :
    Escapes isPlanOrBuiltin (validatePlanFields resource limits access plan) ↔
      UnavailableMember resource limits access plan := by
  rw [← escapes_fields_iff, escapes_iff_of_typed, or_iff_right]
  exact not_not.mpr (contained_fields plan)

theorem escapes_beforeNormalization_iff :
    Escapes isPlanOrBuiltin (validateBeforeNormalization env resource limits access plan) ↔
      PassesLimits env resource limits plan ∧ UnavailableMember resource limits access plan := by
  have hshape := not_escapes_planOrBuiltin (not_escapes_shape plan)
  have hcounts : ¬ Escapes isPlanOrBuiltin (validateCounts plan limits) :=
    not_escapes_planOrBuiltin (not_escapes_counts plan)
  have hedges : ¬ Escapes isPlanOrBuiltin (validateEdgeBudget resource limits plan) :=
    not_escapes_raiseIf rfl
  have hduplicates := not_escapes_noDuplicates env plan
  simp only [validateBeforeNormalization, validatePlanLimits, escapes_bind_iff, bind_eq_ok,
    hshape, hcounts, hedges, hduplicates, escapes_fields_planOrBuiltin_iff, Unique.exists_iff,
    PassesLimits, PassesCounts, false_or, and_false, or_false]
  constructor
  · rintro ⟨hshape, ⟨hcounts, hedges, hfirst⟩, -, hmember⟩
    exact ⟨⟨⟨hshape, hcounts⟩, hedges, hfirst⟩, hmember⟩
  · rintro ⟨⟨⟨hshape, hcounts⟩, hedges, hfirst⟩, hmember⟩
    exact ⟨hshape, ⟨hcounts, hedges, hfirst⟩, hfirst, hmember⟩

theorem escapes_forResource_iff :
    Escapes isPlanOrBuiltin (validateForResource env resource limits access plan) ↔
      permissionSetAllows access.permissions resource.requiresPermission = false ∨
        (PassesLimits env resource limits (withDefaults resource limits plan) ∧
          UnavailableMember resource limits access (withDefaults resource limits plan)) := by
  rw [validateForResource, validateResourcePermission, escapes_uncaught_bind_iff (by rfl)]
  apply or_congr_right
  rw [escapes_bind_iff, escapes_beforeNormalization_iff]
  apply or_iff_left
  rintro ⟨⟨⟩, hbefore, h⟩
  revert h
  apply not_escapes_bind
  · exact not_escapes_planOrBuiltin
      (not_escapes_normalizeFilterValues (validateBeforeNormalization_ok hbefore).2)
  · intro normalized
    apply not_escapes_bind (not_escapes_noDuplicates env normalized)
    intro _
    exact not_escapes_ok _

theorem isAvailable_iff {name : String} :
    IsAvailable registry access name ↔ ∃ resource, registry.get name = .ok resource ∧
      permissionSetAllows access.permissions resource.requiresPermission = true := by
  constructor
  · rintro ⟨normalized, resource, hnormalized, hfound, hallowed⟩
    refine ⟨resource, ?_, hallowed⟩
    rw [CatalogRegistry.get, hnormalized, ok_bind, hfound]
  · rintro ⟨resource, hget, hallowed⟩
    obtain ⟨normalized, hnormalized, h⟩ := bind_eq_ok.mp hget
    refine ⟨normalized, resource, hnormalized, ?_, hallowed⟩
    cases hfound : registry.resources.get? normalized with
    | none => simp [hfound] at h
    | some found => simpa [hfound] using h

theorem escapes_get {name : String} (h : ∀ resource, registry.get name ≠ .ok resource) :
    Escapes isPlanOrBuiltin (registry.get name) := by
  by_cases hslug : HasSlug env name
  · obtain ⟨normalized, hnormalized⟩ := normalizeResourceName_of_hasSlug hslug
    rw [CatalogRegistry.get, hnormalized, ok_bind] at h ⊢
    cases hfound : registry.resources.get? normalized with
    | none => exact escapes_error_iff.mpr rfl
    | some resource => exact absurd (by rw [hfound]) (h resource)
  · obtain ⟨msg, hinvalid⟩ := get_of_not_hasSlug registry hslug
    rw [hinvalid]
    exact escapes_error_iff.mpr rfl

theorem escapes_queryPlan_iff :
    Escapes isPlanOrBuiltin (validateQueryPlan registry limits access plan) ↔
      ¬ IsAvailable registry access plan.resource ∨ ∃ resource,
        registry.get plan.resource = .ok resource ∧
          PassesLimits env resource limits (withDefaults resource limits plan) ∧
            UnavailableMember resource limits access (withDefaults resource limits plan) := by
  rw [validateQueryPlan, isAvailable_iff]
  cases hget : registry.get plan.resource with
  | error e =>
    have hescapes : Escapes isPlanOrBuiltin (registry.get plan.resource) := by
      apply escapes_get
      intro resource h
      rw [hget] at h
      cases h
    rw [hget] at hescapes
    simpa [escapes_error_iff] using hescapes
  | ok resource =>
    rw [ok_bind, escapes_forResource_iff]
    simp

theorem refusedOtherwise_iff {raw : RawPlan} :
    Escapes isPlanValidationError (parseAndValidateQueryPlan registry limits access raw) ↔
      RefusedOtherwise registry limits access raw := by
  have hsize := not_escapes_payloadSize env limits.maxPlanBytes raw
  have hparse := not_escapes_parseQueryPlan env raw
  rw [escapes_iff_of_typed, contained_parse_iff]
  simp only [parseAndValidateQueryPlan, escapes_bind_iff, hsize, hparse, escapes_queryPlan_iff,
    Unique.exists_iff, false_or]
  constructor
  · rintro (h | ⟨hsize, plan, hplan, h | ⟨resource, hget, hpasses, h⟩⟩)
    · exact .builtin h
    · exact .resource plan hsize hplan h
    · exact .member plan resource hsize hplan hget hpasses h
  · intro h
    cases h with
    | builtin h => exact .inl h
    | resource plan hsize hplan h => exact .inr ⟨hsize, plan, hplan, .inl h⟩
    | member plan resource hsize hplan hget hpasses h =>
      exact .inr ⟨hsize, plan, hplan, .inr ⟨resource, hget, hpasses, h⟩⟩

end

end AskLens.Planning
