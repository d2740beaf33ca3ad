import AskLens.Planning.Normalization

/-!
# Plan validation

`parse_and_validate_query_plan`: the payload size, the shape, the budgets, the
duplicates, the members and the filter values, in this order. The first check
that fails decides the error.
-/
namespace AskLens.Planning

open Python Catalog Checks

variable {α β κ : Type}

/-- `PlanLimits`, with the bounds that `get_plan_limits` enforces. -/
structure PlanLimits where
  maxRows : ℕ
  maxJoins : ℕ
  maxMetrics : ℕ
  maxGroupBy : ℕ
  maxPlanBytes : ℕ := 65536
  maxFilters : ℕ := 20
  maxSelectedFields : ℕ := 25
  maxOrderBy : ℕ := 5
  maxRelationshipEdges : ℕ := 8
  maxInValues : ℕ := 100
  maxFilterValues : ℕ := 200
  defaultLimit : ℕ := 100
  maxRows_pos : 0 < maxRows
  maxPlanBytes_pos : 0 < maxPlanBytes
  defaultLimit_pos : 0 < defaultLimit

inductive FieldUsage where
  | filter | select | groupBy | orderBy
deriving DecidableEq, Repr

/-- `RESULT_USAGES`. -/
def FieldUsage.isResult : FieldUsage → Bool
  | .filter => false
  | _ => true

def budgetExceeded (msg : String) : PyException := ErrorClass.budgetExceeded.exc msg

def permissionDenied (msg : String) : PyException := ErrorClass.permissionDenied.exc msg

/-! ## Payload size -/

/-- The number of bytes of the payload, or the exception that counting it raises. -/
def payloadBytes (env : Environment) : RawPlan → Py ℕ
  | .bytes b => .ok b.length
  | .text t =>
    match t.encodedLength with
    | some n => .ok n
    | none => .error (ErrorClass.planParse.exc "QueryPlan text must be valid UTF-8.")
  | .mapping entries =>
    match dumps env.interp (.dict entries) with
    | .ok serialized =>
      match serialized.encodedLength with
      | some n => .ok n
      | none => .error (ErrorClass.planParse.exc "QueryPlan text values must be valid UTF-8.")
    | .error .valueError | .error .typeError | .error .overflowError =>
      .error (ErrorClass.planParse.exc
        "QueryPlan mappings must contain only JSON-serializable values.")
    | .error e => .error (.builtin e)

theorem payloadBytes_mapping_ok {env : Environment} {entries : Entries} {n : ℕ} :
    payloadBytes env (.mapping entries) = .ok n ↔
      ∃ text, dumps env.interp (.dict entries) = .ok text ∧ text.encodedLength = some n := by
  unfold payloadBytes
  dsimp only
  cases dumps env.interp (.dict entries) with
  | error e => cases e <;> simp
  | ok text =>
    cases hlength : text.encodedLength with
    | none => simp [hlength]
    | some length => simp [hlength]

def validatePlanPayloadSize (env : Environment) (maxBytes : ℕ) (raw : RawPlan) : Py Unit := do
  let byteCount ← payloadBytes env raw
  raiseIf (maxBytes < byteCount)
    (budgetExceeded s!"QueryPlan payload exceeds MAX_PLAN_BYTES {maxBytes}.")

/-- The compact JSON text of the mapping is encoded as UTF-8 in at most `maxBytes` bytes. -/
def FitsUtf8 (env : Environment) (maxBytes : ℕ) (entries : Entries) : Prop :=
  ∃ text n, dumps env.interp (.dict entries) = .ok text ∧ text.encodedLength = some n ∧
    n ≤ maxBytes

theorem validatePlanPayloadSize_mapping_ok {env : Environment} {maxBytes : ℕ}
    {entries : Entries} :
    validatePlanPayloadSize env maxBytes (.mapping entries) = .ok () ↔
      FitsUtf8 env maxBytes entries := by
  simp only [validatePlanPayloadSize, bind_eq_ok, raiseIf_eq_ok, payloadBytes_mapping_ok, not_lt]
  constructor
  · rintro ⟨n, ⟨text, htext, hlength⟩, hmax⟩
    exact ⟨text, n, htext, hlength, hmax⟩
  · rintro ⟨text, n, htext, hlength, hmax⟩
    exact ⟨n, ⟨text, htext, hlength⟩, hmax⟩

/-! ## Shape and budgets -/

def validateResourcePermission (resource : SemanticResource) (permissions : List String) :
    Py Unit :=
  let required := pyReprOption resource.requiresPermission
  raiseIf (permissionSetAllows permissions resource.requiresPermission = false)
    (permissionDenied s!"Resource {pyRepr resource.name} requires permission {required}.")

def validatePlanShape (plan : QueryPlan) : Py Unit :=
  match plan.intent with
  | .list => do
    raiseIf (plan.selectNames = []) (planInvalid "List query plans must select at least one field.")
    raiseIf (plan.metrics ≠ []) (planInvalid "List query plans must not request metrics.")
    raiseIf (plan.groupBy ≠ []) (planInvalid "List query plans must not include group_by.")
  | .aggregate => do
    raiseIf (plan.selectNames ≠ []) (planInvalid "Aggregate query plans must not include select.")
    raiseIf (plan.metrics = [])
      (planInvalid "Aggregate query plans must request at least one metric.")

/-- `iter_plan_field_references`. -/
def planFieldReferences (plan : QueryPlan) : List PyStr :=
  plan.selectNames ++ plan.filters.map FilterSpec.fieldName ++
    plan.groupBy.map GroupBySpec.fieldName ++ plan.orderBy.filterMap OrderBySpec.fieldName?

/-- `mapping.get(name)`: no registered name holds a lone surrogate. -/
def named? (entries : Dict β) (name : PyStr) : Option β := name.text?.bind entries.get?

@[simp] theorem named?_text (entries : Dict β) (name : String) :
    named? entries name = entries.get? name := rfl

theorem named?_eq_some {entries : Dict β} {name : PyStr} {b : β} :
    named? entries name = some b ↔ name = .text name.shown ∧ entries.get? name.shown = some b := by
  cases name <;> simp [named?, PyStr.text?]

theorem named?_of_isText {entries : Dict β} {name : PyStr} (h : name.IsText) :
    named? entries name = entries.get? name.shown := by
  rw [h.eq]
  rfl

/-- `collect_relationship_edges`: the edges of the known members, without repetition. -/
def collectRelationshipEdges (resource : SemanticResource) (plan : QueryPlan) : List Edge :=
  ((planFieldReferences plan).flatMap (fun name =>
      ((named? resource.fields name).map FieldSpec.relationshipEdges).getD []) ++
    plan.metrics.flatMap fun spec =>
      ((named? resource.metrics spec.metricName).map Metric.relationshipEdges).getD []).eraseDups

def filterScalarCount (filter : FilterSpec) : ℕ :=
  match filter.value with
  | .list items => items.length
  | .scalar _ => 1

/-- The number of values of an `in` filter. -/
def inValueCount (filter : FilterSpec) : ℕ :=
  match filter.op, filter.value with
  | .in, .list items => items.length
  | _, _ => 0

/-! ## Duplicates -/

/-- `reject_duplicate_keys`, computing each key when it is reached. -/
def rejectDuplicateKeys [DecidableEq κ] (label : String) (key : α → Py κ) :
    List α → List κ → Py Unit
  | [], _ => .ok ()
  | a :: rest, seen => do
    let k ← key a
    raiseIf (k ∈ seen) (planInvalid s!"Duplicate {label} requested.")
    rejectDuplicateKeys label key rest (k :: seen)

/-- `(type(value).__name__, json.dumps(value))`. -/
def jsonValueKey (env : Environment) (typeName : String) (value : PyObj) : Py (String × PyText) :=
  match dumps env.interp value with
  | .ok text => .ok (typeName, text)
  | .error e => .error (.builtin e)

def scalarKey (env : Environment) (v : PyScalar) : Py (String × PyText) :=
  jsonValueKey env v.typeName v.toObj

def filterKey (env : Environment) (filter : FilterSpec) :
    Py (PyStr × FilterOperator × String × PyText) := do
  let key ← match filter.value with
    | .scalar v => scalarKey env v
    | .list items => jsonValueKey env "list" (.list (items.map PyScalar.toObj))
  .ok (filter.fieldName, filter.op, key)

/-- The values of an `in` filter are distinct. -/
def rejectDuplicateInValues (env : Environment) (filter : FilterSpec) : Py Unit :=
  match filter.op, filter.value with
  | .in, .list items => rejectDuplicateKeys "in filter value" (scalarKey env) items []
  | _, _ => .ok ()

def validateNoMeaninglessDuplicates (env : Environment) (plan : QueryPlan) : Py Unit := do
  rejectDuplicateKeys "select field" (fun name => .ok name) plan.selectNames []
  rejectDuplicateKeys "group_by field" (fun g => .ok g.fieldName) plan.groupBy []
  rejectDuplicateKeys "order_by target" (fun o => .ok o.target) plan.orderBy []
  rejectDuplicateKeys "filter" (filterKey env) plan.filters []
  plan.filters.forM (rejectDuplicateInValues env)

/-- The count limits of `validate_plan_limits`, in their order. -/
def countLimits (plan : QueryPlan) (limits : PlanLimits) : List (ℕ × ℕ × String) :=
  [(plan.filters.length, limits.maxFilters, "filters"),
    (plan.selectNames.length, limits.maxSelectedFields, "selected fields"),
    (plan.orderBy.length, limits.maxOrderBy, "order_by terms"),
    (plan.metrics.length, limits.maxMetrics, "metrics"),
    (plan.groupBy.length, limits.maxGroupBy, "group_by fields")]

def validateCount (count : ℕ × ℕ × String) : Py Unit :=
  let maximum := count.2.1
  let label := count.2.2
  raiseIf (maximum < count.1)
    (budgetExceeded s!"QueryPlan requests more than {maximum} {label}.")

/-- The part of `validate_plan_limits` that looks at the plan alone. -/
def validateCounts (plan : QueryPlan) (limits : PlanLimits) : Py Unit := do
  (countLimits plan limits).forM validateCount
  raiseIf ((limits.maxRows : ℤ) < plan.limit)
    (budgetExceeded s!"QueryPlan limit {plan.limit} exceeds MAX_ROWS {limits.maxRows}.")
  plan.filters.forM fun filter =>
    raiseIf (limits.maxInValues < inValueCount filter)
      (budgetExceeded s!"QueryPlan in filter requests more than {limits.maxInValues} values.")
  raiseIf (limits.maxFilterValues < (plan.filters.map filterScalarCount).sum)
    (budgetExceeded
      s!"QueryPlan filters request more than {limits.maxFilterValues} scalar values.")

def validateEdgeBudget (resource : SemanticResource) (limits : PlanLimits) (plan : QueryPlan) :
    Py Unit :=
  raiseIf (limits.maxRelationshipEdges < (collectRelationshipEdges resource plan).length)
    (budgetExceeded
      s!"QueryPlan traverses more than {limits.maxRelationshipEdges} unique relationship edges.")

def validatePlanLimits (env : Environment) (resource : SemanticResource) (limits : PlanLimits)
    (plan : QueryPlan) : Py Unit := do
  validateCounts plan limits
  validateEdgeBudget resource limits plan
  validateNoMeaninglessDuplicates env plan

/-! ## Members -/

def isSensitiveFieldAllowed (field : FieldSpec) (access : Access) : Bool :=
  access.sensitive ||
    (field.requiresPermission.isSome &&
      permissionSetAllows access.permissions field.requiresPermission)

/-- The checks of `validate_field_usage` on a known field. -/
def checkFieldUsage (limits : PlanLimits) (access : Access) (usage : FieldUsage)
    (fieldName : PyStr) (field : FieldSpec) : Py Unit := do
  raiseIf (limits.maxJoins < field.relationDepth)
    (budgetExceeded s!"Field {fieldName.repr} exceeds MAX_JOINS {limits.maxJoins}.")
  raiseIf (field.filterOnly = true ∧ usage ≠ .filter)
    (planInvalid s!"Field {fieldName.repr} can only be used in filters.")
  let sensitiveAllowed := isSensitiveFieldAllowed field access
  raiseIf (field.sensitive = true ∧ sensitiveAllowed = false)
    (permissionDenied
      s!"Field {fieldName.repr} is sensitive and requires explicit permission.")
  let required := pyReprOption field.requiresPermission
  raiseIf (permissionSetAllows access.permissions field.requiresPermission = false)
    (permissionDenied s!"Field {fieldName.repr} requires permission {required}.")
  let hiddenAllowed := access.hidden || (field.sensitive && sensitiveAllowed)
  raiseIf (field.llmVisible = false ∧ hiddenAllowed = false)
    (permissionDenied s!"Field {fieldName.repr} is hidden from plan generation.")
  raiseIf (usage.isResult = true ∧ field.resultVisible = false)
    (permissionDenied s!"Field {fieldName.repr} is not allowed in results.")

def validateFieldUsage (limits : PlanLimits) (access : Access) (resource : SemanticResource)
    (usage : FieldUsage) (fieldName : PyStr) : Py FieldSpec :=
  match named? resource.fields fieldName with
  | none =>
    .error (ErrorClass.unknownField.exc
      s!"Unknown field {fieldName.repr} for resource {pyRepr resource.name}.")
  | some field => do
    checkFieldUsage limits access usage fieldName field
    .ok field

def validateFilterOperator (field : FieldSpec) (filter : FilterSpec) : Py Unit :=
  raiseIf (filter.op ∉ operatorsByFieldType field.type)
    (planInvalid
      s!"Operator {pyRepr (operatorName filter.op)} is not supported for canonical type {pyRepr field.type.name}.")

def validateSelect (limits : PlanLimits) (access : Access) (resource : SemanticResource)
    (fieldName : PyStr) : Py Unit := do
  let _ ← validateFieldUsage limits access resource .select fieldName
  .ok ()

def validateFilter (limits : PlanLimits) (access : Access) (resource : SemanticResource)
    (filter : FilterSpec) : Py Unit := do
  let field ← validateFieldUsage limits access resource .filter filter.fieldName
  validateFilterOperator field filter

def validateGroupBy (limits : PlanLimits) (access : Access) (resource : SemanticResource)
    (groupBy : GroupBySpec) : Py Unit := do
  let field ← validateFieldUsage limits access resource .groupBy groupBy.fieldName
  raiseIf (groupBy.dateTrunc.isSome = true ∧ field.type.isDate = false)
    (planInvalid s!"date_trunc requires a date/datetime field: {groupBy.fieldName.repr}.")

def validateMetricUsage (limits : PlanLimits) (access : Access) (metric : Metric) : Py Unit := do
  raiseIf (limits.maxJoins < metric.relationDepth)
    (planInvalid
      s!"Metric {pyRepr metric.name} exceeds MAX_JOINS ({metric.relationDepth} > {limits.maxJoins}).")
  let required := pyReprOption metric.requiresPermission
  raiseIf (permissionSetAllows access.permissions metric.requiresPermission = false)
    (permissionDenied s!"Metric {pyRepr metric.name} requires permission {required}.")

/-- The loop of `validate_metrics`; `seen` holds the names of the earlier metrics. -/
def validateMetrics (limits : PlanLimits) (access : Access) (resource : SemanticResource) :
    List MetricSpec → List PyStr → Py (List PyStr)
  | [], seen => .ok seen
  | spec :: rest, seen => do
    raiseIf (spec.metricName ∈ seen)
      (planInvalid s!"Duplicate metric requested: {spec.metricName.repr}.")
    match named? resource.metrics spec.metricName with
    | none =>
      .error (ErrorClass.unknownMetric.exc
        s!"Unknown metric {spec.metricName.repr} for resource {pyRepr resource.name}.")
    | some metric =>
      validateMetricUsage limits access metric
      validateMetrics limits access resource rest (spec.metricName :: seen)

/-- `resource.metrics[name]`. -/
def metricAt (resource : SemanticResource) (name : String) : Py Metric :=
  match resource.metrics.get? name with
  | some metric => .ok metric
  | none => .error (.builtin .keyError)

theorem metricAt_ok {resource : SemanticResource} {name : String} {m : Metric} :
    metricAt resource name = .ok m ↔ resource.metrics.get? name = some m := by
  unfold metricAt
  cases resource.metrics.get? name <;> simp

def fieldToManyEdges (resource : SemanticResource) (plan : QueryPlan) : List Edge :=
  ((planFieldReferences plan).flatMap fun name =>
    ((named? resource.fields name).map FieldSpec.toManyRelationshipEdges).getD []).eraseDups

/-- The grain test of one metric against the edges of the fields. -/
def checkMetricGrain (fieldEdges : List Edge) (metric : Metric) : Py Unit := do
  raiseIf (metric.cardinalityPolicy = .toOneOnly)
    (planInvalid s!"Metric {pyRepr metric.name} cannot be combined with a to-many field traversal.")
  raiseIf (¬ (metric.toManyRelationshipEdges ⊆ fieldEdges ∧
      fieldEdges ⊆ metric.toManyRelationshipEdges))
    (planInvalid
      s!"Metric {pyRepr metric.name} does not use the same declared to-many grain as the aggregate fields.")

def validateAggregateRelationshipPolicy (resource : SemanticResource) (plan : QueryPlan) :
    Py Unit :=
  match plan.intent with
  | .list => .ok ()
  | .aggregate => do
    let fieldEdges := fieldToManyEdges resource plan
    let registeredMetrics ← plan.metrics.mapM fun spec => metricAt resource spec.metric
    let metricEdges := registeredMetrics.flatMap Metric.toManyRelationshipEdges
    raiseIf (1 < (fieldEdges ++ metricEdges).eraseDups.length)
      (planInvalid "Aggregate plans cannot combine independent to-many relationship paths.")
    if fieldEdges = [] then .ok () else registeredMetrics.forM (checkMetricGrain fieldEdges)

/-- One turn of the loop of `validate_order_by`. -/
def validateOrderTerm (limits : PlanLimits) (access : Access) (resource : SemanticResource)
    (visibleFieldKeys metricNames : List PyStr) (term : OrderBySpec) : Py Unit :=
  match term.target with
  | .field name => do
    let _ ← validateFieldUsage limits access resource .orderBy name
    raiseIf (name ∉ visibleFieldKeys)
      (planInvalid s!"order_by field {name.repr} must be selected or grouped.")
  | .metric name =>
    raiseIf (name ∉ metricNames)
      (planInvalid s!"order_by metric {name.repr} must be requested in metrics.")

def validatePlanFields (resource : SemanticResource) (limits : PlanLimits) (access : Access)
    (plan : QueryPlan) : Py Unit := do
  plan.selectNames.forM (validateSelect limits access resource)
  plan.filters.forM (validateFilter limits access resource)
  plan.groupBy.forM (validateGroupBy limits access resource)
  let metricNames ← validateMetrics limits access resource plan.metrics []
  validateAggregateRelationshipPolicy resource plan
  plan.orderBy.forM (validateOrderTerm limits access resource
    (plan.selectNames ++ plan.groupBy.map GroupBySpec.fieldName) metricNames)

/-! ## The validator -/

/-- `plan.model_copy` with the registered name and the effective limit. -/
def withDefaults (resource : SemanticResource) (limits : PlanLimits) (plan : QueryPlan) :
    QueryPlan :=
  { plan with
    resourceName := resource.name
    limit? := some (plan.limit?.getD limits.defaultLimit) }

/-- The checks of `_validate_query_plan` before the values are normalized. -/
def validateBeforeNormalization (env : Environment) (resource : SemanticResource)
    (limits : PlanLimits) (access : Access) (plan : QueryPlan) : Py Unit := do
  validatePlanShape plan
  validatePlanLimits env resource limits plan
  validateNoMeaninglessDuplicates env plan
  validatePlanFields resource limits access plan

/-- `_validate_query_plan` on the resource of the plan. -/
def validateForResource (env : Environment) (resource : SemanticResource) (limits : PlanLimits)
    (access : Access) (plan : QueryPlan) : Py QueryPlan := do
  validateResourcePermission resource access.permissions
  let plan := withDefaults resource limits plan
  validateBeforeNormalization env resource limits access plan
  let normalized ← normalizeFilterValues env.unicode resource plan
  validateNoMeaninglessDuplicates env normalized
  .ok normalized

variable {env : Environment}

/-- `_validate_query_plan`: the size of the plan is not its business. -/
def validateQueryPlan (registry : CatalogRegistry env) (limits : PlanLimits) (access : Access)
    (plan : QueryPlan) : Py QueryPlan := do
  let resource ← registry.get plan.resource
  validateForResource env resource limits access plan

def parseAndValidateQueryPlan (registry : CatalogRegistry env) (limits : PlanLimits)
    (access : Access) (raw : RawPlan) : Py QueryPlan := do
  validatePlanPayloadSize env limits.maxPlanBytes raw
  let plan ← parseQueryPlan env raw
  validateQueryPlan registry limits access plan

end AskLens.Planning
