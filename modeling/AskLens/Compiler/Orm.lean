import AskLens.Compiler.Filters
import AskLens.Planning.Validation

/-!
# Plan compilation

`_compile_prepared_query`: a validated plan becomes query set calls under
private aliases, with the columns and the key map of its result.
-/
namespace AskLens.Compiler

open Python Django Catalog Planning Checks

variable {α : Type}

structure ResultColumn where
  key : String
  label : String
  type : FieldType
  nullable : Bool
  enumValues : List PyScalar
  isMetric : Bool
deriving DecidableEq

inductive LimitScope where
  | rows | groups
deriving DecidableEq, Repr

/-- An ordering term: a path or an alias, with nulls always last. -/
abbrev OrderingTerm := String × OrderDirection

/-- `_CompiledQuery`. `values` and `annotations` are the expressions of the `values` and
`annotate` calls; without a grouping the annotations are passed to `aggregate`. -/
structure CompiledQuery where
  calls : List FilterCall
  values : Dict Expression
  annotations : Dict Aggregate
  ordering : List OrderingTerm
  stop : Option ℤ
  columns : List ResultColumn
  keyMap : Dict String
  limit : ℤ
  limitScope : LimitScope
  detectsTruncation : Bool
  /-- Whether `aggregate_expressions` is set. -/
  ungrouped : Bool
deriving DecidableEq

def selectAlias (index : ℕ) : String := "_asklens_select_" ++ toString index

def groupAlias (index : ℕ) : String := "_asklens_group_" ++ toString index

def metricAlias (index : ℕ) : String := "_asklens_metric_" ++ toString index

/-- `{alias(index): item for index, item in enumerate(items)}`. -/
def enumerateAliases (aliasOf : ℕ → String) (items : List α) : Dict α :=
  items.zipIdx.map fun e => (aliasOf e.2, e.1)

theorem enumerateAliases_eq_zip (aliasOf : ℕ → String) (items : List α) :
    enumerateAliases aliasOf items = ((List.range items.length).map aliasOf).zip items := by
  apply List.ext_getElem
  · simp [enumerateAliases]
  · intro i _ _
    simp [enumerateAliases]

theorem keys_enumerateAliases (aliasOf : ℕ → String) (items : List α) :
    (enumerateAliases aliasOf items).keys = (List.range items.length).map aliasOf := by
  rw [enumerateAliases_eq_zip, Dict.keys, List.map_fst_zip (by simp)]

theorem values_enumerateAliases (aliasOf : ℕ → String) (items : List α) :
    (enumerateAliases aliasOf items).values = items := by
  unfold enumerateAliases Dict.values
  rw [List.map_map]
  exact List.zipIdx_map_fst 0 items

def fieldColumn (field : FieldSpec) : ResultColumn where
  key := field.name
  label := field.label
  type := field.type
  nullable := field.nullable
  enumValues := (field.enum.map fun d => d.values.map EnumValue.value).getD []
  isMetric := false

def metricColumn (unicode : Unicode) (metric : Metric) : ResultColumn where
  key := metric.name
  label := metric.displayLabel unicode
  type := metric.resultType
  nullable := metric.op != .count
  enumValues := []
  isMetric := true

def aggregateByOperator : MetricOp → AggregateFunction
  | .count => .count
  | .sum => .sum
  | .avg => .avg
  | .min => .min
  | .max => .max

/-- `build_aggregate`. Registration requires the key of a distinct count. -/
def buildAggregate (metric : Metric) : Aggregate :=
  match metric.cardinalityPolicy with
  | .countDistinct =>
    ⟨aggregateByOperator metric.op, metric.distinctKey.getD metric.binding, true⟩
  | _ => ⟨aggregateByOperator metric.op, metric.binding, false⟩

/-- `values(**expressions)`: the aliases, then the references. An `annotate` after it compares
its aliases with those of `values` only, which they never equal. -/
def addExpressions (graph : ModelGraph) (model : ModelName) (aliases paths : List String) :
    Py Unit := do
  checkAliases graph model aliases
  paths.forM (resolveReference graph model)

/-- The explicit or default part of `build_list_ordering`. -/
def requestedOrdering (resource : SemanticResource) (plan : QueryPlan) :
    Py (List OrderingTerm) :=
  let terms :=
    if plan.orderBy = [] then resource.defaultOrder
    else plan.orderBy.filterMap fun o => o.field?.map fun name => (name, o.direction)
  terms.mapM fun term => do
    let field ← fieldAt resource term.1
    .ok (field.binding, term.2)

def buildListOrdering (resource : SemanticResource) (plan : QueryPlan) :
    Py (List OrderingTerm) := do
  let ordering ← requestedOrdering resource plan
  .ok (if resource.rowIdentity ∈ ordering.map Prod.fst then ordering
    else ordering ++ [(resource.rowIdentity, .asc)])

def compileListQuery (graph : ModelGraph) (resource : SemanticResource) (plan : QueryPlan)
    (calls : List FilterCall) : Py CompiledQuery := do
  let fields ← plan.select.mapM (fieldAt resource)
  let values := enumerateAliases selectAlias (fields.map fun f => Expression.f f.binding)
  addExpressions graph resource.model values.keys (values.values.map Expression.path)
  let ordering ← buildListOrdering resource plan
  (ordering.map Prod.fst).forM (resolveReference graph resource.model)
  .ok
    { calls := calls, values := values, annotations := [], ordering := ordering
      stop := some (plan.limit + 1)
      columns := fields.map fieldColumn
      keyMap := enumerateAliases selectAlias plan.select
      limit := plan.limit, limitScope := .rows, detectsTruncation := true, ungrouped := false }

/-- `field_aliases[name]` or `metric_aliases[name]`. -/
def aliasAt (aliases : Dict String) (name : String) : Py String :=
  match aliases.get? name with
  | some target => .ok target
  | none => .error (.builtin .keyError)

/-- The public names of a numbered list of items, each with its alias; the last one wins. -/
def publicAliases (aliasOf : ℕ → String) (names : List String) : Dict String :=
  Dict.ofEntries (names.zipIdx.map fun e => (e.1, aliasOf e.2))

/-- One term of `order_by` in a grouped query. -/
def groupedTerm (fieldAliases metricAliases : Dict String) (o : OrderBySpec) :
    Py OrderingTerm :=
  match o.target with
  | .field name => do
    let target ← aliasAt fieldAliases name.shown
    .ok (target, o.direction)
  | .metric name => do
    let target ← aliasAt metricAliases name.shown
    .ok (target, o.direction)

/-- The missing group keys; `seen` holds the targets of the earlier terms. -/
def missingGroups : List String → List String → List OrderingTerm
  | [], _ => []
  | target :: rest, seen =>
    if target ∈ seen then missingGroups rest seen
    else (target, .asc) :: missingGroups rest (target :: seen)

def buildGroupedOrdering (fieldAliases metricAliases : Dict String) (plan : QueryPlan) :
    Py (List OrderingTerm) := do
  let ordering ← plan.orderBy.mapM (groupedTerm fieldAliases metricAliases)
  let targets ← plan.groupBy.mapM fun g => aliasAt fieldAliases g.field
  .ok (ordering ++ missingGroups targets (ordering.map Prod.fst))

def compileAggregateQuery (env : Environment) (resource : SemanticResource) (plan : QueryPlan)
    (calls : List FilterCall) : Py CompiledQuery := do
  let groupFields ← plan.groupBy.mapM fun g => fieldAt resource g.field
  let values := enumerateAliases groupAlias ((groupFields.zip plan.groupBy).map fun e =>
    buildDateTruncExpression e.1.binding e.2.dateTrunc e.1.type resource.timezone)
  let metrics ← plan.metrics.mapM fun m => metricAt resource m.metric
  let annotations := enumerateAliases metricAlias (metrics.map buildAggregate)
  let columns := groupFields.map fieldColumn ++ metrics.map (metricColumn env.unicode)
  let keyMap := enumerateAliases groupAlias (plan.groupBy.map GroupBySpec.field) ++
    enumerateAliases metricAlias (plan.metrics.map MetricSpec.metric)
  if plan.groupBy = [] then
    .ok
      { calls := calls, values := [], annotations := annotations, ordering := [], stop := none
        columns := columns, keyMap := keyMap, limit := 1, limitScope := .groups
        detectsTruncation := false, ungrouped := true }
  else
    addExpressions env.graph resource.model values.keys (values.values.map Expression.path)
    (annotations.values.map Aggregate.path).forM (resolveReference env.graph resource.model)
    let ordering ← buildGroupedOrdering
      (publicAliases groupAlias (plan.groupBy.map GroupBySpec.field))
      (publicAliases metricAlias (plan.metrics.map MetricSpec.metric)) plan
    .ok
      { calls := calls, values := values, annotations := annotations, ordering := ordering
        stop := some (plan.limit + 1)
        columns := columns, keyMap := keyMap, limit := plan.limit, limitScope := .groups
        detectsTruncation := true, ungrouped := false }

def compilePreparedQuery (env : Environment) (resource : SemanticResource) (plan : QueryPlan)
    (now : Clock) : Py CompiledQuery := do
  let calls ← applyFilters env.graph resource now plan.filters
  match plan.intent with
  | .list => compileListQuery env.graph resource plan calls
  | .aggregate => compileAggregateQuery env resource plan calls

theorem aliasAt_publicAliases {aliasOf : ℕ → String} {names : List String} {name : String}
    (h : name ∈ names) : ∃ target, aliasAt (publicAliases aliasOf names) name = .ok target := by
  have hsome : ((publicAliases aliasOf names).get? name).isSome := by
    rw [Dict.get?_isSome_iff, publicAliases, Dict.mem_keys_ofEntries, List.map_map]
    show name ∈ names.zipIdx.map Prod.fst
    rw [List.zipIdx_map_fst]
    exact h
  obtain ⟨target, htarget⟩ := Option.isSome_iff_exists.mp hsome
  exact ⟨target, by rw [aliasAt, htarget]⟩

/-! ## What is compiled -/

structure IsListQuery (graph : ModelGraph) (resource : SemanticResource) (p : QueryPlan)
    (fields : List FieldSpec) (q : CompiledQuery) : Prop where
  selected : p.select.mapM (fieldAt resource) = .ok fields
  values : q.values = enumerateAliases selectAlias (fields.map fun f => Expression.f f.binding)
  annotations : q.annotations = []
  ordering : buildListOrdering resource p = .ok q.ordering
  resolved : (q.ordering.map Prod.fst).forM (resolveReference graph resource.model) = .ok ()
  stop : q.stop = some (p.limit + 1)
  columns : q.columns = fields.map fieldColumn
  keyMap : q.keyMap = enumerateAliases selectAlias p.select
  limit : q.limit = p.limit
  limitScope : q.limitScope = .rows
  detectsTruncation : q.detectsTruncation = true

/-- The query of an aggregate plan that groups by these fields and computes these metrics. -/
structure IsAggregateQuery (env : Environment) (resource : SemanticResource) (p : QueryPlan)
    (groupFields : List FieldSpec) (metrics : List Metric) (q : CompiledQuery) : Prop where
  grouped : p.groupBy.mapM (fun g => fieldAt resource g.field) = .ok groupFields
  computed : p.metrics.mapM (fun m => metricAt resource m.metric) = .ok metrics
  values : q.values = enumerateAliases groupAlias ((groupFields.zip p.groupBy).map fun e =>
    buildDateTruncExpression e.1.binding e.2.dateTrunc e.1.type resource.timezone)
  annotations : q.annotations = enumerateAliases metricAlias (metrics.map buildAggregate)
  ordering : p.groupBy ≠ [] →
    buildGroupedOrdering (publicAliases groupAlias (p.groupBy.map GroupBySpec.field))
      (publicAliases metricAlias (p.metrics.map MetricSpec.metric)) p = .ok q.ordering
  stop : q.stop = if p.groupBy = [] then none else some (p.limit + 1)
  columns : q.columns = groupFields.map fieldColumn ++ metrics.map (metricColumn env.unicode)
  keyMap : q.keyMap = enumerateAliases groupAlias (p.groupBy.map GroupBySpec.field) ++
    enumerateAliases metricAlias (p.metrics.map MetricSpec.metric)
  limit : q.limit = if p.groupBy = [] then 1 else p.limit
  limitScope : q.limitScope = .groups
  detectsTruncation : q.detectsTruncation = decide (p.groupBy ≠ [])
  ungrouped : q.ungrouped = decide (p.groupBy = [])

section

variable {env : Environment} {resource : SemanticResource} {p : QueryPlan} {now : Clock}
  {q : CompiledQuery}

theorem isListQuery_of_compiled (hlist : p.intent = .list)
    (h : compilePreparedQuery env resource p now = .ok q) :
    applyFilters env.graph resource now p.filters = .ok q.calls ∧
      ∃ fields, IsListQuery env.graph resource p fields q := by
  obtain ⟨calls, hcalls, h⟩ := bind_eq_ok.mp h
  rw [hlist] at h
  simp only [compileListQuery, bind_eq_ok] at h
  obtain ⟨fields, hfields, _, -, ordering, hordering, _, hresolved, h⟩ := h
  obtain rfl := Except.ok.inj h
  exact ⟨hcalls, fields, hfields, rfl, rfl, hordering, hresolved, rfl, rfl, rfl, rfl, rfl, rfl⟩

/-- An aggregate plan compiles to its aggregate query, under the calls of its filters. -/
theorem isAggregateQuery_of_compiled (haggregate : p.intent = .aggregate)
    (h : compilePreparedQuery env resource p now = .ok q) :
    applyFilters env.graph resource now p.filters = .ok q.calls ∧
      ∃ groupFields metrics, IsAggregateQuery env resource p groupFields metrics q := by
  obtain ⟨calls, hcalls, h⟩ := bind_eq_ok.mp h
  rw [haggregate] at h
  simp only [compileAggregateQuery, bind_eq_ok] at h
  obtain ⟨groupFields, hgroups, metrics, hmetrics, h⟩ := h
  by_cases hempty : p.groupBy = []
  · rw [if_pos hempty] at h
    obtain rfl := Except.ok.inj h
    refine ⟨hcalls, groupFields, metrics, hgroups, hmetrics, ?_, rfl, absurd hempty,
      (if_pos hempty).symm, rfl, rfl, (if_pos hempty).symm, rfl, ?_, ?_⟩
    · rw [hempty, List.zip_nil_right]
      rfl
    · simp [hempty]
    · simp [hempty]
  · rw [if_neg hempty] at h
    simp only [bind_eq_ok] at h
    obtain ⟨_, -, _, -, ordering, hordering, h⟩ := h
    obtain rfl := Except.ok.inj h
    refine ⟨hcalls, groupFields, metrics, hgroups, hmetrics, rfl, rfl, fun _ => hordering,
      (if_neg hempty).symm, rfl, rfl, (if_neg hempty).symm, rfl, ?_, ?_⟩
    · simp [hempty]
    · simp [hempty]

end

end AskLens.Compiler
