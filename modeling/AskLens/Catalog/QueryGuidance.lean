import AskLens.Catalog.ScopeTokens

/-!
# The query guidance of a request

`build_query_guidance` describes the visible catalog for people and for the
language model: what each resource can answer, how its rows are scoped, and a
few example questions.
-/
namespace AskLens.Catalog

open Python

def maxResourceExamples : ℕ := 3

/-- `CapabilityResource` with all its keys. -/
structure ResourceGuidance extends CapabilityResource where
  description : String
  defaultDateField : Option String
  timezone : String
  examples : List String
  guidance : List String
  scopeGuidance : String
  examplesEnabled : Option Bool
  defaultOrder : Option (List (String × OrderDirection))
deriving DecidableEq

/-- `resource["scope"]`. -/
def ResourceGuidance.guidedScope (resource : ResourceGuidance) : GuidedScope :=
  { resource.scope with guidance := resource.scopeGuidance }

structure CapabilitiesSnapshot where
  summary : String
  queryPatterns : List String
  limitations : List String
  resources : List ResourceGuidance
  examples : List String
deriving DecidableEq

def buildMetricCapability (metric : MetricCatalogItem) : CapabilityMetric where
  name := metric.name
  label := metric.label
  resultType := metric.resultType

/-! ## Example questions -/

def filterSingleScopeDimensionFields (tables : CaseTables) (fields : List CapabilityField)
    (scope : CapabilityScope) : List CapabilityField :=
  match scope.level, scope.kind with
  | .single, some kind =>
    fields.filter fun field =>
      !field.scopeDimension.getD false &&
        !isScopeDimensionField tables field.name field.label kind
  | _, _ => fields

/-- `" id" in text`. -/
def mentionsId : List Char → Bool
  | [] => false
  | c :: cs => [' ', 'i', 'd'].isPrefixOf (c :: cs) || mentionsId cs

/-- The first component of `group_field_example_sort_key`. -/
def isIdentifierField (tables : CaseTables) (field : CapabilityField) : Bool :=
  let lowerName := tables.lower field.name
  lowerName == "id" || endsWith lowerName "_id" ||
    mentionsId (tables.lower field.label).toList

/-- The comparison of two `group_field_example_sort_key` tuples. -/
def groupFieldBefore (tables : CaseTables) (a b : CapabilityField) : Bool :=
  let identifierA := isIdentifierField tables a
  let identifierB := isIdentifierField tables b
  if identifierA ≠ identifierB then identifierB
  else if a.relationDepth ≠ b.relationDepth then decide (a.relationDepth < b.relationDepth)
  else decide (a.name ≤ b.name)

/-- `sorted(fields, key=group_field_example_sort_key)`. -/
def sortGroupFields (tables : CaseTables) (fields : List CapabilityField) : List CapabilityField :=
  fields.insertionSort fun a b => groupFieldBefore tables a b = true

def joinLabels (labels : List String) : String :=
  match labels with
  | [] => "exposed fields"
  | [label] => label
  | [first, second] => s!"{first} and {second}"
  | first :: second :: third :: rest =>
    let last := (third :: rest).getLast (List.cons_ne_nil third rest)
    ", ".intercalate (first :: second :: third :: rest).dropLast ++ s!", and {last}"

def buildListExample (resourceLabel : String) (fields : List CapabilityField) : String :=
  s!"List {resourceLabel} with {joinLabels ((fields.take 3).map CapabilityField.label)}"

def buildMetricByFieldExample (metric : CapabilityMetric) (field : CapabilityField) : String :=
  s!"Show {metric.label} by {field.label}"

def buildMetricTrendExample (metric : CapabilityMetric) (field : CapabilityField) : String :=
  s!"Trend {metric.label} by month using {field.label}"

/-- The loop of `dedupe_preserve_order`; `seen` are the values so far. -/
def dedupeFrom : List String → List String → List String
  | _, [] => []
  | seen, value :: rest =>
    if value ∈ seen then dedupeFrom seen rest else value :: dedupeFrom (value :: seen) rest

def dedupePreserveOrder (values : List String) : List String := dedupeFrom [] values

structure ExampleFields where
  selectable : List CapabilityField
  group : List CapabilityField
  date : List CapabilityField

def exampleFields (tables : CaseTables) (fields : List CapabilityField) (scope : CapabilityScope) :
    ExampleFields :=
  let selectable := filterSingleScopeDimensionFields tables
    (fields.filter CapabilityField.canSelect) scope
  { selectable := selectable
    group := sortGroupFields tables (selectable.filter fun field => !field.canDateBucket)
    date := selectable.filter CapabilityField.canDateBucket }

/-- `build_resource_examples`. The resource stands for the keys that it reads of the catalog
item, which the capability repeats. -/
def buildResourceExamples (tables : CaseTables) (resource : CapabilityResource)
    (examplesEnabled : Option Bool) : List String :=
  if examplesEnabled = some false then []
  else if isSingleScopeResource tables resource then []
  else
    let fields := exampleFields tables resource.fields resource.scope
    let list :=
      if fields.selectable = [] then []
      else [buildListExample resource.label fields.selectable]
    let byField :=
      match resource.metrics, fields.group with
      | metric :: _, field :: _ => [buildMetricByFieldExample metric field]
      | _, _ => []
    let trend :=
      match resource.metrics, fields.date with
      | metric :: _, field :: _ => [buildMetricTrendExample metric field]
      | _, _ => []
    (dedupePreserveOrder (list ++ byField ++ trend)).take maxResourceExamples

/-! ## Resources -/

def buildResourceGuidance (resource : ResourceCatalogItem) (fields : List CapabilityField)
    (metrics : List CapabilityMetric) (scope : GuidedScope) : List String :=
  let selectableCount := (fields.filter CapabilityField.canSelect).length
  ["Use resource `" ++ resource.name ++ "` for " ++ resource.label ++ " questions."] ++
    (if selectableCount ≠ 0 then [s!"You can list {selectableCount} exposed fields."] else []) ++
    (if metrics ≠ [] then
      [s!"You can request {metrics.length} registered aggregate metrics."] else []) ++
    (if fields.any CapabilityField.canDateBucket then
      ["You can ask for date trends by day, week, month, quarter, or year."] else []) ++
    [scope.guidance]

def buildResourceCapability (tables : CaseTables) (resource : ResourceCatalogItem)
    (permissions : List String) (requiredPermission : Option String) : ResourceGuidance :=
  let scope := inferCapabilityScope requiredPermission permissions
  let fields := resource.fields.map buildFieldCapability
  let metrics := resource.metrics.map buildMetricCapability
  let capability : CapabilityResource :=
    { name := resource.name
      label := resource.label
      synonyms := resource.synonyms
      fields := fields
      metrics := metrics
      dateFields := fields.filter CapabilityField.canDateBucket
      scope := scope.toCapabilityScope
      scopeResource := if resource.scopeResource = some true then some true else none }
  { capability with
    description := resource.description
    defaultDateField := resource.defaultDateField
    timezone := resource.timezone
    examples := buildResourceExamples tables capability resource.examplesEnabled
    guidance := buildResourceGuidance resource fields metrics scope
    scopeGuidance := scope.guidance
    examplesEnabled := if resource.examplesEnabled = some false then some false else none
    defaultOrder := resource.defaultOrder }

/-! ## The whole guidance -/

def buildSummary (resources : List ResourceGuidance) : String :=
  match resources.length with
  | 0 => "No AskLens resources are queryable for this request."
  | 1 => "You can ask read-only list and aggregate questions over 1 resource."
  | n + 2 =>
    "You can ask read-only list and aggregate questions over " ++ s!"{n + 2} resources."

def buildQueryPatterns (maxRows : ℤ) : List String :=
  ["List records with exposed fields from one visible resource, up to the configured " ++
      s!"{maxRows}-row response limit.",
    "Filter by exposed fields such as status, dates, booleans, or related labels.",
    "Group aggregate metrics by exposed fields.",
    "Trend aggregate metrics by day, week, month, quarter, or year when a date field is exposed.",
    "Order results by selected fields or requested metrics, with configured row limits."]

def buildLimitations (maxRows : ℤ) : List String :=
  ["AskLens only queries resources and fields listed in this capabilities response.",
    "AskLens executes validated read-only Django ORM queries; it does not execute raw SQL.",
    "AskLens cannot create, update, or delete data.",
    "Catalog and capabilities metadata do not include database rows or sample values.",
    s!"List-style answers return at most {maxRows} rows by default; ask with filters, " ++
      "ordering, or a smaller explicit limit to narrow large result sets.",
    "Row-level scope follows each resource's explicit global or current-request " ++
      "scope-provider policy."]

def collectExamples (resources : List ResourceGuidance) : List String :=
  dedupePreserveOrder (resources.flatMap ResourceGuidance.examples)

/-- The last part of `build_query_guidance`. -/
def guidanceOf (maxRows : ℤ) (resources : List ResourceGuidance) : CapabilitiesSnapshot where
  summary := buildSummary resources
  queryPatterns := buildQueryPatterns maxRows
  limitations := buildLimitations maxRows
  resources := resources
  examples := collectExamples resources

/-- `required_permissions.get(name)`, for the permissions of all resources. -/
def CatalogRegistry.requiredPermission {env : Environment} (registry : CatalogRegistry env)
    (name : String) : Option String :=
  (registry.resources.get? name).bind SemanticResource.requiresPermission

/-- `build_query_guidance` for the catalog of a registry. -/
def buildQueryGuidance {env : Environment} (tables : CaseTables) (maxRows : ℤ)
    (registry : CatalogRegistry env) (permissions : List String) : CapabilitiesSnapshot :=
  guidanceOf maxRows ((registry.toDict (.ofPermissions permissions)).map fun resource =>
    buildResourceCapability tables resource permissions
      (registry.requiredPermission resource.name))

end AskLens.Catalog
