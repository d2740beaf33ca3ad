import AskLens.Catalog.Resources
import AskLens.Library.Checks
import AskLens.Python.Slug

/-!
# Registration

`SemanticResource.build` and the checks it makes on the developer's
configuration, in their order. Registered texts hold no lone surrogates.
-/
namespace AskLens.Catalog

open Python Django Checks

/-- What registration reads from outside its arguments. -/
structure Environment where
  unicode : Unicode
  interp : Interpreter
  graph : ModelGraph
  /-- `ZoneInfo(key)`, where `none` is `ZoneInfoNotFoundError` or `ValueError`. -/
  zone? : String → Option ZoneInfo
  /-- `DJANGO_ASKLENS["DEFAULT_SCOPE_MODE"]`. -/
  defaultScopeMode : Option String
  /-- `str(label)` for a label that is not a text. -/
  display : PyObj → String

def invalidResource (msg : String) : PyException := ErrorClass.invalidResource.exc msg

def invalidMetric (msg : String) : PyException := ErrorClass.invalidMetric.exc msg

/-! ## Names and keys -/

def normalizeResourceName (env : Environment) (value : String) : Py String :=
  let normalized := String.ofList (slugName env.unicode value.toList)
  if normalized = "" then .error (invalidResource s!"Invalid resource name {pyRepr value}.")
  else .ok normalized

def validateSemanticFieldKey (key : String) : Py Unit := do
  raiseIf (key = "" ∨ containsDunder key = true)
    (invalidResource "Semantic field keys must be non-empty strings without '__'.")
  raiseIf ("" ∈ splitDot key)
    (invalidResource s!"Semantic field key {pyRepr key} contains an empty dotted segment.")

def defaultFieldLabel (unicode : Unicode) (key : String) : String := titleOf unicode ['.', '_'] key

/-! ## Enum definitions -/

/-- A string or an integer, but no boolean. -/
def token? : PyObj → Option PyScalar
  | .str cls s => some (.str cls s)
  | .int cls i => some (.int cls i)
  | _ => none

def isEmptyText : PyScalar → Bool
  | .str _ s => s == ""
  | _ => false

/-- `EnumValue.to_dict` as the mapping that is validated again. -/
def EnumValue.toObj (v : EnumValue) : PyObj :=
  .dict (((.str none "value", v.value.toObj) ::
    match v.label with
    | some label => [(.str none "label", .str none label)]
    | none => []) ++
    if v.aliases = [] then []
    else [(.str none "aliases", .list (v.aliases.map PyScalar.toObj))])

def EnumDefinition.toObj (d : EnumDefinition) : PyObj :=
  .dict [(.str none "type", .str none d.type.name),
    (.str none "values", .list (d.values.map EnumValue.toObj))]

/-- `validate_enum_scalar` for canonical values. -/
def validateEnumScalar (key : String) (type : EnumType) (value : Option PyObj) : Py PyScalar :=
  match type, value.bind token? with
  | .string, some (.str cls (.text s)) =>
    if s = "" then
      .error (invalidResource
        s!"Enum canonical value for field {pyRepr key} must be a non-empty string.")
    else .ok (.str cls s)
  | .string, _ =>
    .error (invalidResource
      s!"Enum canonical value for field {pyRepr key} must be a non-empty string.")
  | .integer, some (.int cls i) => .ok (.int cls i)
  | .integer, _ =>
    .error (invalidResource s!"Enum canonical value for field {pyRepr key} must be an integer.")

def validateEnumAlias (key : String) (value : PyObj) : Py PyScalar :=
  match token? value with
  | none =>
    .error (invalidResource
      s!"Enum aliases for field {pyRepr key} must be strings or integers.")
  | some token =>
    if isEmptyText token then
      .error (invalidResource s!"Enum aliases for field {pyRepr key} must not be empty.")
    else .ok token

/-- The label of an enum value: absent, or a text that is not blank. -/
def validateEnumLabel (key : String) : Option PyObj → Py (Option String)
  | none => .ok none
  | some .null => .ok none
  | some (.str _ s) =>
    if strip s = "" then
      .error (invalidResource s!"Enum labels for field {pyRepr key} must be non-empty strings.")
    else .ok (some (strip s))
  | some _ =>
    .error (invalidResource s!"Enum labels for field {pyRepr key} must be non-empty strings.")

def validateEnumAliases (key : String) (raw : Option PyObj) : Py (List PyScalar) :=
  match sequence? (raw.getD (.tuple [])) with
  | none =>
    .error (invalidResource s!"Enum aliases for field {pyRepr key} must be a sequence.")
  | some items => items.mapM (validateEnumAlias key)

/-- The state of the loop over the values: the accepted tokens and the values. -/
structure EnumScan where
  accepted : List (PyScalar × PyScalar)
  values : List EnumValue

/-- `accepted_tokens[token_key] = canonical`, unless the token means another value. -/
def acceptToken (key : String) (canonical : PyScalar) (accepted : List (PyScalar × PyScalar))
    (token : PyScalar) : Py (List (PyScalar × PyScalar)) :=
  match accepted.lookup token with
  | none => .ok (accepted ++ [(token, canonical)])
  | some existing =>
    if existing = canonical then .ok accepted
    else .error (invalidResource s!"Ambiguous enum alias for field {pyRepr key}.")

def validateEnumValue (key : String) (type : EnumType) (scan : EnumScan) (raw : PyObj) :
    Py EnumScan :=
  match raw with
  | .dict entries => do
    raiseIf (onlyKeys entries ["value", "label", "aliases"] = false)
      (invalidResource s!"Unknown enum value metadata keys for field {pyRepr key}.")
    let canonical ← validateEnumScalar key type (lookupKey entries "value")
    raiseIf (canonical ∈ scan.values.map EnumValue.value)
      (invalidResource s!"Duplicate canonical enum value for field {pyRepr key}.")
    let label ← validateEnumLabel key (lookupKey entries "label")
    let aliases ← validateEnumAliases key (lookupKey entries "aliases")
    let accepted ← (canonical :: aliases).foldlM (acceptToken key canonical) scan.accepted
    .ok ⟨accepted, scan.values ++ [⟨canonical, label, aliases⟩]⟩
  | _ => .error (invalidResource s!"Enum values for field {pyRepr key} must be mappings.")

def enumType? : Option PyObj → Option EnumType
  | some (.str _ s) =>
    if s = "string" then some .string else if s = "integer" then some .integer else none
  | _ => none

/-- The mapping part of `validate_enum_definition`. -/
def validateEnumMapping (key bindingType : String) (raw : PyObj) : Py EnumDefinition :=
  match raw with
  | .dict entries => do
    raiseIf (onlyKeys entries ["type", "values"] = false)
      (invalidResource s!"Unknown enum metadata keys for field {pyRepr key}.")
    match enumType? (lookupKey entries "type") with
    | none =>
      .error (invalidResource s!"Enum field {pyRepr key} type must be 'string' or 'integer'.")
    | some type =>
      raiseIf (type.name ≠ bindingType) (invalidResource
        s!"Enum underlying type {pyRepr type.name} for field {pyRepr key} does not match its private binding type {pyRepr bindingType}.")
      match (lookupKey entries "values").bind sequence? with
      | some (item :: items) =>
        let scan ← (item :: items).foldlM (validateEnumValue key type) ⟨[], []⟩
        .ok ⟨type, scan.values⟩
      | _ =>
        .error (invalidResource s!"Enum field {pyRepr key} requires a non-empty values sequence.")
  | _ => .error (invalidResource s!"Enum metadata for field {pyRepr key} must be a mapping.")

inductive ConfigValue where
  | obj (o : PyObj)
  | enumDefinition (d : EnumDefinition)

def validateEnumDefinition (key : String) (type : FieldType) (bindingType : String)
    (raw : Option ConfigValue) : Py (Option EnumDefinition) :=
  match type, raw with
  | .enum, none | .enum, some (.obj .null) =>
    .error (invalidResource
      s!"Canonical enum field {pyRepr key} requires explicit enum metadata.")
  | .enum, some (.obj o) => (validateEnumMapping key bindingType o).map some
  | .enum, some (.enumDefinition d) => (validateEnumMapping key bindingType d.toObj).map some
  | _, none | _, some (.obj .null) => .ok none
  | _, some _ =>
    .error (invalidResource
      s!"Enum metadata is only supported for canonical type 'enum': {pyRepr key}.")

/-! ## Fields -/

def validateBindingType (key : String) (type : FieldType) (bindingType : String) : Py Unit :=
  raiseIf (¬ (type.name = bindingType ∨
      (type = .enum ∧ (bindingType = "integer" ∨ bindingType = "string"))))
    (invalidResource
      s!"Canonical type {pyRepr type.name} for field {pyRepr key} does not match its private binding type {pyRepr bindingType}.")

/-- A prebuilt `FieldSpec`: its type name is checked by registration, its edges are computed. -/
structure PrebuiltField where
  name : String
  label : String
  type : String
  nullable : Bool
  binding : String
  enum : Option EnumDefinition
  sensitive : Bool
  llmVisible : Bool
  resultVisible : Bool
  filterOnly : Bool
  requiresPermission : Option String
  scopeDimension : Bool

inductive FieldRegistration where
  | config (entries : Dict ConfigValue)
  | spec (field : PrebuiltField)

/-- The resolved type of a field, with the checks that both kinds of registration share. -/
def validateFieldType (key typeName bindingType : String) (enum : Option ConfigValue) :
    Py (FieldType × Option EnumDefinition) :=
  match FieldType.ofName? typeName with
  | none =>
    .error (invalidResource
      s!"Unsupported canonical type {pyRepr typeName} for field {pyRepr key}.")
  | some type => do
    validateBindingType key type bindingType
    let enum ← validateEnumDefinition key type bindingType enum
    .ok (type, enum)

def rejectNullableMismatch (key : String) (bindingNullable nullable : Bool) : Py Unit :=
  raiseIf (bindingNullable = true ∧ nullable = false)
    (invalidResource s!"Semantic field {pyRepr key} cannot be non-null for its nullable binding.")

/-- `validate_field_spec`, after its binding was resolved. -/
def validateFieldSpec (key : String) (field : PrebuiltField) (resolution : FieldResolution) :
    Py FieldSpec := do
  raiseIf (field.name ≠ key)
    (invalidResource
      s!"FieldSpec name {pyRepr field.name} must match semantic key {pyRepr key}.")
  raiseIf (field.type = "")
    (invalidResource s!"FieldSpec type is required for semantic key {pyRepr key}.")
  let (type, enum) ← validateFieldType key field.type (getFieldType resolution.field)
    (field.enum.map .enumDefinition)
  rejectNullableMismatch key resolution.nullable field.nullable
  .ok
    { name := field.name, label := field.label, type := type, nullable := field.nullable
      binding := field.binding
      relationDepth := resolution.relationDepth
      relationshipEdges := resolution.relationshipEdges
      toManyRelationshipEdges := resolution.toManyRelationshipEdges
      enum := enum, sensitive := field.sensitive, llmVisible := field.llmVisible
      resultVisible := field.resultVisible, filterOnly := field.filterOnly
      requiresPermission := field.requiresPermission, scopeDimension := field.scopeDimension }

def allowedFieldConfigKeys : List String :=
  ["binding", "enum", "filter_only", "label", "llm_visible", "nullable", "requires_permission",
    "result_visible", "sensitive", "scope_dimension", "type"]

def textConfig? (config : Dict ConfigValue) (key : String) : Option String :=
  match config.get? key with
  | some (.obj (.str _ s)) => if s = "" then none else some s
  | _ => none

def getBoolFieldConfig (config : Dict ConfigValue) (key : String) (default : Bool) : Py Bool :=
  match config.get? key with
  | none => .ok default
  | some (.obj (.bool b)) => .ok b
  | some _ => .error (invalidResource s!"Field config key {pyRepr key} must be a boolean.")

/-- The truth value of an object in a condition. -/
def PyObj.truthy : PyObj → Bool
  | .null => false
  | .bool b => b
  | .int _ i => i != 0
  | .float x => !x.numEqInt 0
  | .str _ s => s != ""
  | .list items => !items.isEmpty
  | .tuple items => !items.isEmpty
  | .dict entries => !entries.isEmpty
  | _ => true

/-- `str(field_config.get("label") or default_field_label(key))`. -/
def fieldLabel (env : Environment) (config : Dict ConfigValue) (key : String) : String :=
  match config.get? "label" with
  | some (.obj (.str _ s)) => if s = "" then defaultFieldLabel env.unicode key else s
  | some (.obj o) => if PyObj.truthy o then env.display o else defaultFieldLabel env.unicode key
  | _ => defaultFieldLabel env.unicode key

def permissionConfig (config : Dict ConfigValue) (key : String) : Py (Option String) :=
  match config.get? "requires_permission" with
  | none | some (.obj .null) => .ok none
  | some (.obj (.str _ s)) => .ok (some s)
  | some _ => .error (invalidResource s!"requires_permission for {pyRepr key} must be a string.")

/-- The checks of one mapping in `build_field_specs`. -/
def buildConfiguredField (env : Environment) (model : ModelName) (key : String)
    (config : Dict ConfigValue) : Py FieldSpec := do
  let unknown := config.keys.filter fun k => !allowedFieldConfigKeys.contains k
  raiseIf ("metric" ∈ unknown) (invalidResource
    s!"Field config key 'metric' is no longer supported for {pyRepr key}; define a Metric with a private binding and result_type instead.")
  let unknownKeysDisplay := String.intercalate ", " (unknown.mergeSort (fun a b => a ≤ b))
  raiseIf (unknown ≠ [])
    (invalidResource s!"Unknown field config keys for {pyRepr key}: {unknownKeysDisplay}.")
  match textConfig? config "binding" with
  | none =>
    .error (invalidResource
      s!"Private binding is required for semantic field {pyRepr key}; add binding='field' or binding='relation__field'.")
  | some binding =>
    let resolution ← resolveFieldPath env.graph model binding
    match textConfig? config "type" with
    | none =>
      .error (invalidResource s!"Canonical type is required for semantic field {pyRepr key}.")
    | some typeName =>
      let (type, enum) ← validateFieldType key typeName (getFieldType resolution.field)
        (config.get? "enum")
      match config.get? "nullable" with
      | some (.obj (.bool nullable)) =>
        rejectNullableMismatch key resolution.nullable nullable
        let sensitive ← getBoolFieldConfig config "sensitive" false
        let llmVisible ← getBoolFieldConfig config "llm_visible" (!sensitive)
        let resultVisible ← getBoolFieldConfig config "result_visible" (!sensitive)
        let requiresPermission ← permissionConfig config key
        let filterOnly ← getBoolFieldConfig config "filter_only" false
        let scopeDimension ← getBoolFieldConfig config "scope_dimension" false
        .ok
          { name := key, label := fieldLabel env config key, type := type, nullable := nullable
            binding := binding
            relationDepth := resolution.relationDepth
            relationshipEdges := resolution.relationshipEdges
            toManyRelationshipEdges := resolution.toManyRelationshipEdges
            enum := enum, sensitive := sensitive, llmVisible := llmVisible
            resultVisible := resultVisible, filterOnly := filterOnly
            requiresPermission := requiresPermission, scopeDimension := scopeDimension }
      | _ =>
        .error (invalidResource s!"nullable must be a boolean for semantic field {pyRepr key}.")

/-- One turn of the loop of `build_field_specs`. -/
def buildFieldSpec (env : Environment) (model : ModelName) (entry : String × FieldRegistration) :
    Py (String × FieldSpec) := do
  validateSemanticFieldKey entry.1
  match entry.2 with
  | .spec field =>
    raiseIf (field.binding = "")
      (invalidResource s!"Private binding is required for semantic field {pyRepr entry.1}.")
    let resolution ← resolveFieldPath env.graph model field.binding
    let spec ← validateFieldSpec entry.1 field resolution
    .ok (entry.1, spec)
  | .config config =>
    let spec ← buildConfiguredField env model entry.1 config
    .ok (entry.1, spec)

def buildFieldSpecs (env : Environment) (model : ModelName) (fields : Dict FieldRegistration) :
    Py (Dict FieldSpec) := do
  raiseIf (fields = [])
    (invalidResource
      s!"Resource {(env.graph model).label} must declare at least one allowed field.")
  let specs ← fields.mapM (buildFieldSpec env model)
  .ok (Dict.ofEntries specs)

/-! ## Metrics -/

/-- The arguments of `Metric(..)`. -/
structure MetricArgs where
  name : String
  op : String
  binding : String
  resultType : String
  label : Option String := none
  cardinalityPolicy : String := "to_one_only"
  distinctKey : Option String := none
  requiresPermission : Option String := none

def MetricOp.ofName? (name : String) : Option MetricOp :=
  [("count", MetricOp.count), ("sum", .sum), ("avg", .avg), ("min", .min), ("max", .max)].lookup
    name

def CardinalityPolicy.ofName? (name : String) : Option CardinalityPolicy :=
  [("to_one_only", CardinalityPolicy.toOneOnly), ("count_rows", .countRows),
    ("count_distinct", .countDistinct)].lookup name

def CardinalityPolicy.name : CardinalityPolicy → String
  | .toOneOnly => "to_one_only"
  | .countRows => "count_rows"
  | .countDistinct => "count_distinct"

/-- `Metric.__post_init__`. -/
def Metric.init (args : MetricArgs) : Py Metric :=
  if hname : validSemanticKey args.name = true then
    match MetricOp.ofName? args.op with
    | none =>
      .error (invalidMetric
        s!"Unsupported metric operation {pyRepr args.op} for metric {pyRepr args.name}.")
    | some op =>
      if hbinding : args.binding = "" then
        .error (invalidMetric s!"Metric {pyRepr args.name} requires a private binding.")
      else
        match FieldType.ofName? args.resultType with
        | none =>
          .error (invalidMetric
            s!"Metric {pyRepr args.name} requires a supported canonical result_type.")
        | some resultType =>
          match CardinalityPolicy.ofName? args.cardinalityPolicy with
          | none =>
            .error (invalidMetric
              s!"Unsupported cardinality policy {pyRepr args.cardinalityPolicy} for metric {pyRepr args.name}.")
          | some policy =>
            if hkey : args.distinctKey = some "" then
              .error (invalidMetric
                s!"Metric {pyRepr args.name} distinct_key must be a non-empty string.")
            else
              .ok
                { name := args.name, op := op, binding := args.binding, resultType := resultType
                  label := args.label, cardinalityPolicy := policy
                  distinctKey := args.distinctKey, requiresPermission := args.requiresPermission
                  relationDepth := 0, relationshipEdges := [], toManyRelationshipEdges := []
                  name_valid := hname, binding_ne := hbinding, distinctKey_ne := hkey }
  else
    .error (invalidMetric
      "Metric name must be a non-empty semantic key without '__' or empty dotted segments.")

def validateMetricResultType (metric : Metric) (bindingType : String) : Py Unit :=
  match metric.op with
  | .count =>
    raiseIf (metric.resultType ≠ .integer)
      (invalidMetric s!"Count metric {pyRepr metric.name} must use result_type='integer'.")
  | .sum | .avg => do
    raiseIf (isNumericType bindingType = false)
      (invalidMetric s!"Metric {pyRepr metric.name} requires a numeric private binding.")
    let expectedType := if metric.op = .avg ∧ bindingType = "integer" then "float" else bindingType
    raiseIf (metric.resultType.name ≠ expectedType)
      (invalidMetric
        s!"Metric {pyRepr metric.name} result_type must be {pyRepr expectedType} for its private binding.")
  | .min | .max =>
    raiseIf (metric.resultType.name ≠ bindingType)
      (invalidMetric
        s!"Metric {pyRepr metric.name} result_type must match its private binding type {pyRepr bindingType}.")

def validatePrivateMetricKey (graph : ModelGraph) (metricName : String) (field : DjangoField)
    (label : String) : Py Unit := do
  let msg :=
    s!"Metric {pyRepr metricName} {label} must resolve to a non-null unique concrete field."
  raiseIf (field.kind.isConcrete = false ∨ field.null = true) (invalidMetric msg)
  raiseIf (¬ (field.primaryKey = true ∨ field.unique = true ∨
      graph.hasUniqueConstraint field.model field.name = true)) (invalidMetric msg)

def validateMetricCardinality (graph : ModelGraph) (model : ModelName) (metric : Metric)
    (resolution : FieldResolution) : Py Unit := do
  let toMany := resolution.toManyRelationshipEdges
  raiseIf (metric.op ≠ .count ∧ toMany ≠ [])
    (invalidMetric s!"Numeric metric {pyRepr metric.name} cannot cross a to-many relationship.")
  match metric.cardinalityPolicy with
  | .toOneOnly =>
    raiseIf (metric.distinctKey ≠ none)
      (invalidMetric s!"Metric {pyRepr metric.name} must not define distinct_key.")
    raiseIf (toMany ≠ [])
      (invalidMetric s!"Metric {pyRepr metric.name} cannot cross a to-many relationship.")
  | policy =>
    raiseIf (metric.op ≠ .count)
      (invalidMetric s!"Metric policy {pyRepr policy.name} requires op='count'.")
    raiseIf (toMany.length ≠ 1) (invalidMetric
      s!"Metric {pyRepr metric.name} must cross exactly one to-many relationship for policy {pyRepr policy.name}.")
    match policy, metric.distinctKey with
    | .countDistinct, none =>
      .error (invalidMetric
        s!"count_distinct metric {pyRepr metric.name} requires distinct_key.")
    | .countDistinct, some distinctKey =>
      let distinct ← resolveFieldPath graph model distinctKey
      raiseIf (distinct.toManyRelationshipEdges ≠ toMany) (invalidMetric
        s!"count_distinct metric {pyRepr metric.name} must use a distinct_key at the same declared to-many grain as its binding.")
      validatePrivateMetricKey graph metric.name distinct.field "distinct_key"
    | _, distinctKey =>
      raiseIf (distinctKey ≠ none)
        (invalidMetric s!"count_rows metric {pyRepr metric.name} must not define distinct_key.")
      validatePrivateMetricKey graph metric.name resolution.field "binding"

/-- The resolutions of the binding and, for a distinct count, of its key. -/
def boundResolutions (graph : ModelGraph) (model : ModelName) (metric : Metric)
    (resolution : FieldResolution) : Py (List FieldResolution) :=
  match metric.cardinalityPolicy, metric.distinctKey with
  | .countDistinct, some distinctKey => do
    let distinct ← resolveFieldPath graph model distinctKey
    .ok [resolution, distinct]
  | _, _ => .ok [resolution]

/-- One turn of the loop of `build_metric_specs`, after the duplicate check. -/
def buildMetricSpec (graph : ModelGraph) (model : ModelName) (metric : Metric) : Py Metric := do
  let resolution ← resolveFieldPath graph model metric.binding
  validateMetricResultType metric (getFieldType resolution.field)
  validateMetricCardinality graph model metric resolution
  let bound ← boundResolutions graph model metric resolution
  .ok
    { metric with
      relationDepth := (bound.map FieldResolution.relationDepth).foldl max 0
      relationshipEdges := (bound.flatMap FieldResolution.relationshipEdges).eraseDups
      toManyRelationshipEdges := (bound.flatMap FieldResolution.toManyRelationshipEdges).eraseDups }

def buildMetricSpecs (graph : ModelGraph) (model : ModelName) :
    List Metric → Dict Metric → Py (Dict Metric)
  | [], specs => .ok specs
  | metric :: metrics, specs => do
    raiseIf (metric.name ∈ specs.keys)
      (invalidMetric s!"Duplicate metric name {pyRepr metric.name}.")
    let spec ← buildMetricSpec graph model metric
    buildMetricSpecs graph model metrics (specs ++ [(metric.name, spec)])

/-! ## Resource settings -/

def resolveScopeMode (env : Environment) (scopeMode : Option String) : Py (Option String) := do
  raiseIf (¬ (env.defaultScopeMode = none ∨ env.defaultScopeMode = some "context_scoped"))
    (invalidResource
      "DJANGO_ASKLENS['DEFAULT_SCOPE_MODE'] must be 'context_scoped' or None; global resources must declare scope_mode='global' explicitly.")
  .ok (scopeMode <|> env.defaultScopeMode)

def validateScopePolicy (scopeMode : Option String) (scopeProvider : Bool) : Py ScopeMode :=
  match scopeMode with
  | none =>
    .error (invalidResource "scope_mode is required; choose 'global' or 'context_scoped'.")
  | some mode =>
    if mode = "global" then do
      raiseIf (scopeProvider = true)
        (invalidResource "A global resource must not define scope_provider.")
      .ok .global
    else if mode = "context_scoped" then do
      raiseIf (scopeProvider = false)
        (invalidResource "A context_scoped resource requires scope_provider.")
      .ok .contextScoped
    else .error (invalidResource "scope_mode must be 'global' or 'context_scoped'.")

def validateResourceTimezone (env : Environment) (value : Option String) : Py ZoneInfo :=
  match value with
  | none =>
    .error (invalidResource "timezone is required; provide an explicit IANA timezone name.")
  | some name =>
    match if name = "" then none else env.zone? name with
    | none => .error (invalidResource "timezone must be a valid IANA timezone name.")
    | some zone => .ok zone

/-- The loop of `normalize_default_order`; `seen` holds the fields of the earlier entries. -/
def normalizeDefaultOrder (fields : Dict FieldSpec) :
    List (String × String) → List String → Py (List (String × OrderDirection))
  | [], _ => .ok []
  | (fieldName, direction) :: rest, seen =>
    match fields.get? fieldName with
    | none =>
      .error (invalidResource "default_order must reference registered semantic fields.")
    | some field => do
      raiseIf (field.isUnrestricted = false)
        (invalidResource "default_order must use unrestricted result-visible fields.")
      raiseIf (fieldName ∈ seen)
        (invalidResource s!"Duplicate default_order field {pyRepr fieldName}.")
      match OrderDirection.ofName? direction with
      | none => .error (invalidResource "default_order direction must be 'asc' or 'desc'.")
      | some dir =>
        let order ← normalizeDefaultOrder fields rest (fieldName :: seen)
        .ok ((fieldName, dir) :: order)

def validateRowIdentity (graph : ModelGraph) (model : ModelName) (rowIdentity : Option String) :
    Py String := do
  let identity := rowIdentity.getD (graph model).pk
  let unnamed :=
    invalidResource "row_identity must name one concrete field on the registered model."
  let notUnique :=
    invalidResource "row_identity must have a non-null unconditional unique constraint."
  raiseIf (identity = "" ∨ '.' ∈ identity.toList) unnamed
  match graph.getField? model identity with
  | none => .error unnamed
  | some field =>
    raiseIf (field.kind.isConcrete = false) unnamed
    raiseIf (field.null = true) notUnique
    raiseIf (¬ (field.primaryKey = true ∨ field.unique = true ∨
      graph.hasUniqueConstraint model identity = true)) notUnique
    .ok identity

def validateDefaultDateField (graph : ModelGraph) (model : ModelName) (resourceName : String)
    (fields : Dict FieldSpec) (defaultDateField : Option String) : Py Unit :=
  match defaultDateField with
  | none => .ok ()
  | some name =>
    match fields.get? name with
    | none =>
      .error (ErrorClass.unknownField.exc
        s!"Default date field {pyRepr name} must be included in the allowed fields for resource {pyRepr resourceName}.")
    | some field => do
      let resolution ← resolveFieldPath graph model field.binding
      let bindingType := getFieldType resolution.field
      raiseIf (field.type.isDate = false ∨ ¬ (bindingType = "date" ∨ bindingType = "datetime"))
        (invalidResource
          s!"Default date field {pyRepr name} must be a date or datetime field for resource {pyRepr resourceName}.")

def normalizeSynonyms (synonyms : List String) : List String :=
  (synonyms.map strip).filter (· != "")

/-! ## Resources -/

/-- The arguments of `build`. -/
structure BuildArgs where
  model : ModelName
  fields : Dict FieldRegistration
  name : Option String := none
  label : Option String := none
  description : String := ""
  synonyms : List String := []
  defaultDateField : Option String := none
  timezone : Option String := none
  metrics : List Metric := []
  scopeMode : Option String := none
  scopeProvider : Bool := false
  defaultOrder : List (String × String) := []
  rowIdentity : Option String := none
  requiresPermission : Option String := none
  scopeResource : Bool := false
  examplesEnabled : Bool := true

/-- `value or default` on texts. -/
def textOr (value : Option String) (default : String) : String :=
  match value with
  | some s => if s = "" then default else s
  | none => default

/-- `SemanticResource.build`. `__post_init__` makes the checks of the scope, the time zone, the
default order and the row identity once more, on values that have passed them. -/
def SemanticResource.build (env : Environment) (args : BuildArgs) : Py SemanticResource := do
  let requestedScope ← resolveScopeMode env args.scopeMode
  let scopeMode ← validateScopePolicy requestedScope args.scopeProvider
  let timezone ← validateResourceTimezone env args.timezone
  let label := textOr args.label (env.unicode.title (env.graph args.model).verboseNamePlural)
  let name ← normalizeResourceName env (textOr args.name label)
  let fields ← buildFieldSpecs env args.model args.fields
  validateDefaultDateField env.graph args.model name fields args.defaultDateField
  let metrics ← buildMetricSpecs env.graph args.model args.metrics []
  let defaultOrder ← normalizeDefaultOrder fields args.defaultOrder []
  let rowIdentity ← validateRowIdentity env.graph args.model args.rowIdentity
  .ok
    { model := args.model, name := name, label := label, scopeMode := scopeMode
      scopeProvider := args.scopeProvider, timezone := timezone
      description := args.description, synonyms := normalizeSynonyms args.synonyms
      defaultDateField := args.defaultDateField, fields := fields, metrics := metrics
      defaultOrder := defaultOrder, rowIdentity := rowIdentity
      requiresPermission := args.requiresPermission, scopeResource := args.scopeResource
      examplesEnabled := args.examplesEnabled }

end AskLens.Catalog
