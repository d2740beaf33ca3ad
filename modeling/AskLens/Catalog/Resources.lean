import AskLens.Catalog.Introspection
import AskLens.Python.Scalar
import AskLens.Python.Calendar

/-!
# Semantic resources

The registered members of the catalog, who may see them, and the documents that
the catalog serializes.
-/
namespace AskLens.Catalog

open Python Django

inductive FieldType where
  | boolean | date | datetime | decimal | enum | float | integer | string | time | uuid
deriving DecidableEq, Repr

def FieldType.name : FieldType → String
  | .boolean => "boolean"
  | .date => "date"
  | .datetime => "datetime"
  | .decimal => "decimal"
  | .enum => "enum"
  | .float => "float"
  | .integer => "integer"
  | .string => "string"
  | .time => "time"
  | .uuid => "uuid"

/-- Membership in `SUPPORTED_FIELD_TYPES`. -/
def FieldType.ofName? (name : String) : Option FieldType :=
  [FieldType.boolean, .date, .datetime, .decimal, .enum, .float, .integer, .string, .time,
    .uuid].find? fun t => t.name == name

/-- `DATE_FIELD_TYPES`. -/
def FieldType.isDate : FieldType → Bool
  | .date | .datetime => true
  | _ => false

/-- `NUMERIC_FIELD_TYPES`, on the type labels of bindings. -/
def isNumericType (type : String) : Bool := ["decimal", "float", "integer"].contains type

inductive FilterOperator where
  | eq | neq | contains | icontains | gt | gte | lt | lte | in | isnull
  | dateRange | lastNDays | lastNMonths
deriving DecidableEq, Repr

def operatorsByFieldType : FieldType → List FilterOperator
  | .string => [.eq, .neq, .contains, .icontains, .in, .isnull]
  | .boolean => [.eq, .neq, .in, .isnull]
  | .integer | .decimal | .float => [.eq, .neq, .gt, .gte, .lt, .lte, .in, .isnull]
  | .date | .datetime =>
    [.eq, .neq, .gt, .gte, .lt, .lte, .in, .isnull, .dateRange, .lastNDays, .lastNMonths]
  | .time => [.eq, .neq, .gt, .gte, .lt, .lte, .in, .isnull]
  | .uuid | .enum => [.eq, .neq, .in, .isnull]

inductive MetricOp where
  | count | sum | avg | min | max
deriving DecidableEq, Repr

inductive CardinalityPolicy where
  | toOneOnly | countRows | countDistinct
deriving DecidableEq, Repr

inductive OrderDirection where
  | asc | desc
deriving DecidableEq, Repr

def OrderDirection.name : OrderDirection → String
  | .asc => "asc"
  | .desc => "desc"

def OrderDirection.ofName? (name : String) : Option OrderDirection :=
  if name = "asc" then some .asc else if name = "desc" then some .desc else none

inductive ScopeMode where
  | global | contextScoped
deriving DecidableEq, Repr

/-- A public key: non-empty, without `__` and without an empty dotted segment. -/
def validSemanticKey (key : String) : Bool :=
  key != "" && !containsDunder key && !(splitDot key).contains ""

/-! ## Enums -/

inductive EnumType where
  | string | integer
deriving DecidableEq, Repr

def EnumType.name : EnumType → String
  | .string => "string"
  | .integer => "integer"

structure EnumValue where
  value : PyScalar
  label : Option String
  aliases : List PyScalar
deriving DecidableEq

structure EnumDefinition where
  type : EnumType
  values : List EnumValue
deriving DecidableEq

def EnumValue.tokens (v : EnumValue) : List PyScalar := v.value :: v.aliases

/-- The token table of `normalize_enum_scalar`, keyed by class and value. -/
def EnumDefinition.tokenTable (d : EnumDefinition) : List (PyScalar × PyScalar) :=
  d.values.flatMap fun v => v.tokens.map fun token => (token, v.value)

/-- `lookup[(type(value), value)]`: the last entry of a key counts. -/
def EnumDefinition.resolve (d : EnumDefinition) (value : PyScalar) : Option PyScalar :=
  d.tokenTable.reverse.lookup value

structure EnumValueCatalogItem where
  value : PyScalar
  label : Option String
  aliases : Option (List PyScalar)
deriving DecidableEq

structure EnumCatalogItem where
  type : EnumType
  values : List EnumValueCatalogItem
deriving DecidableEq

def EnumValue.toDict (v : EnumValue) : EnumValueCatalogItem where
  value := v.value
  label := v.label
  aliases := if v.aliases = [] then none else some v.aliases

def EnumDefinition.toDict (d : EnumDefinition) : EnumCatalogItem where
  type := d.type
  values := d.values.map EnumValue.toDict

/-! ## Members -/

/-- `Metric`: its own `__post_init__` has checked the last three fields. -/
structure Metric where
  name : String
  op : MetricOp
  binding : String
  resultType : FieldType
  label : Option String
  cardinalityPolicy : CardinalityPolicy
  distinctKey : Option String
  requiresPermission : Option String
  relationDepth : ℕ
  relationshipEdges : List Edge
  toManyRelationshipEdges : List Edge
  name_valid : validSemanticKey name = true
  binding_ne : binding ≠ ""
  distinctKey_ne : distinctKey ≠ some ""
deriving DecidableEq

structure FieldSpec where
  name : String
  label : String
  type : FieldType
  nullable : Bool
  binding : String
  relationDepth : ℕ
  relationshipEdges : List Edge
  toManyRelationshipEdges : List Edge
  enum : Option EnumDefinition
  sensitive : Bool
  llmVisible : Bool
  resultVisible : Bool
  filterOnly : Bool
  requiresPermission : Option String
  scopeDimension : Bool
deriving DecidableEq

/-- `permission_set_allows`: the exact permission, or a token scoped to it. -/
def permissionSetAllows (permissions : List String) : Option String → Bool
  | none => true
  | some required =>
    permissions.contains required ||
      permissions.any fun permission => endsWith permission (":" ++ required)

/-- The switches and permissions of one request. -/
structure Access where
  sensitive : Bool
  hidden : Bool
  permissions : List String

def Access.ofPermissions (permissions : List String) : Access := ⟨false, false, permissions⟩

def FieldSpec.isCatalogVisible (f : FieldSpec) (access : Access) : Bool :=
  let permitted := permissionSetAllows access.permissions f.requiresPermission
  let permissionAllowed :=
    f.requiresPermission.isNone || permitted || (f.sensitive && access.sensitive)
  let sensitiveAllowed :=
    access.sensitive || (f.sensitive && f.requiresPermission.isSome && permitted)
  let hiddenAllowed := access.hidden || (f.sensitive && sensitiveAllowed)
  if !permissionAllowed then false
  else if f.sensitive && !sensitiveAllowed then false
  else if !f.llmVisible && !hiddenAllowed then false
  else true

def Metric.isCatalogVisible (m : Metric) (permissions : List String) : Bool :=
  permissionSetAllows permissions m.requiresPermission

/-- The tests that `normalize_default_order` makes on a field. -/
def FieldSpec.isUnrestricted (f : FieldSpec) : Bool :=
  !f.sensitive && f.llmVisible && f.resultVisible && !f.filterOnly && f.requiresPermission.isNone

theorem FieldSpec.isCatalogVisible_of_isUnrestricted {f : FieldSpec}
    (h : f.isUnrestricted = true) (access : Access) : f.isCatalogVisible access = true := by
  simp only [FieldSpec.isUnrestricted, Bool.and_eq_true, Bool.not_eq_true'] at h
  obtain ⟨⟨⟨⟨hsensitive, hllm⟩, -⟩, -⟩, hpermission⟩ := h
  simp [FieldSpec.isCatalogVisible, hsensitive, hllm, hpermission]

/-! ## Resources -/

structure SemanticResource where
  model : ModelName
  name : String
  label : String
  scopeMode : ScopeMode
  /-- Whether `scope_provider` is set. -/
  scopeProvider : Bool
  /-- `timezone_info`; the name is its key. -/
  timezone : ZoneInfo
  description : String
  synonyms : List String
  defaultDateField : Option String
  fields : Dict FieldSpec
  metrics : Dict Metric
  defaultOrder : List (String × OrderDirection)
  rowIdentity : String
  requiresPermission : Option String
  scopeResource : Bool
  examplesEnabled : Bool

def SemanticResource.isCatalogVisible (r : SemanticResource) (permissions : List String) : Bool :=
  permissionSetAllows permissions r.requiresPermission

/-! ## Catalog documents

An absent key of a document is `none`. -/

structure FieldCatalogItem where
  name : String
  label : String
  type : FieldType
  nullable : Bool
  relationDepth : ℕ
  enum : Option EnumCatalogItem
  sensitive : Option Bool
  llmVisible : Option Bool
  resultVisible : Option Bool
  filterOnly : Option Bool
  scopeDimension : Option Bool
deriving DecidableEq

structure MetricCatalogItem where
  name : String
  label : String
  resultType : FieldType
deriving DecidableEq

structure ResourceCatalogItem where
  name : String
  label : String
  description : String
  synonyms : List String
  defaultDateField : Option String
  timezone : String
  fields : List FieldCatalogItem
  metrics : List MetricCatalogItem
  scopeResource : Option Bool
  examplesEnabled : Option Bool
  defaultOrder : Option (List (String × OrderDirection))
deriving DecidableEq

/-- `if value: data[key] = present`. -/
def presentIf (c : Bool) (present : Bool) : Option Bool := if c then some present else none

def FieldSpec.toDict (f : FieldSpec) : FieldCatalogItem where
  name := f.name
  label := f.label
  type := f.type
  nullable := f.nullable
  relationDepth := f.relationDepth
  enum := f.enum.map EnumDefinition.toDict
  sensitive := presentIf f.sensitive true
  llmVisible := presentIf (!f.llmVisible) false
  resultVisible := presentIf (!f.resultVisible) false
  filterOnly := presentIf f.filterOnly true
  scopeDimension := presentIf f.scopeDimension true

/-- `name.replace("_", " ").title()`. -/
def titleOf (unicode : Unicode) (separators : List Char) (name : String) : String :=
  unicode.title (String.ofList
    (name.toList.map fun c => if separators.contains c then ' ' else c))

/-- `self.label or self.name.replace("_", " ").title()`. -/
def Metric.displayLabel (unicode : Unicode) (m : Metric) : String :=
  match m.label with
  | some label => if label = "" then titleOf unicode ['_'] m.name else label
  | none => titleOf unicode ['_'] m.name

def Metric.toDict (unicode : Unicode) (m : Metric) : MetricCatalogItem where
  name := m.name
  label := m.displayLabel unicode
  resultType := m.resultType

def SemanticResource.visibleFields (r : SemanticResource) (access : Access) : List FieldSpec :=
  r.fields.values.filter fun f => f.isCatalogVisible access

def SemanticResource.visibleMetrics (r : SemanticResource) (access : Access) : List Metric :=
  r.metrics.values.filter fun m => m.isCatalogVisible access.permissions

def SemanticResource.toDict (unicode : Unicode) (r : SemanticResource) (access : Access) :
    ResourceCatalogItem where
  name := r.name
  label := r.label
  description := r.description
  synonyms := r.synonyms
  defaultDateField := r.defaultDateField
  timezone := r.timezone.key
  fields := (r.visibleFields access).map FieldSpec.toDict
  metrics := (r.visibleMetrics access).map (Metric.toDict unicode)
  scopeResource := presentIf r.scopeResource true
  examplesEnabled := presentIf (!r.examplesEnabled) false
  defaultOrder := if r.defaultOrder = [] then none else some r.defaultOrder

end AskLens.Catalog
