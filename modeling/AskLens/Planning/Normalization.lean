import AskLens.Planning.Schemas
import AskLens.Planning.Temporal
import AskLens.Python.Numbers

/-!
# Canonical filter values

After its operator and type were checked, a filter value is brought to the
canonical form of its field's type.
-/
namespace AskLens.Planning

open Python Catalog Checks

/-- `except PlanValidationError`. -/
def isPlanValidationError : PyException → Bool
  | .askLens ⟨.planValidation, _⟩ | .askLens ⟨.planParse, _⟩ | .askLens ⟨.budgetExceeded, _⟩
  | .askLens ⟨.unknownMetric, _⟩ | .askLens ⟨.unsupportedQuery, _⟩ => true
  | _ => false

def planInvalid (msg : String) : PyException := ErrorClass.planValidation.exc msg

/-- `raise_invalid_filter_value`. -/
def invalidFilterValue (field : FieldSpec) (detail : String) : PyException :=
  planInvalid s!"Filter value for field {pyRepr field.name} {detail}."

/-- The exception for a value whose Python type does not fit the field. -/
def wrongValueType (field : FieldSpec) : PyException :=
  match field.type with
  | .string => invalidFilterValue field "must be a string"
  | .boolean => invalidFilterValue field "must be a boolean"
  | .integer => invalidFilterValue field "must be an integer"
  | .decimal => invalidFilterValue field "must be a decimal string"
  | .float => invalidFilterValue field "must be a JSON number"
  | .date => invalidDate
  | .datetime => invalidDatetime
  | .time => invalidTime
  | .uuid => invalidFilterValue field "must be a valid UUID string"
  | .enum => invalidFilterValue field "must be a registered enum value or alias"

/-- `float(value)` of a JSON number. -/
def toFloat? : PyScalar → Option Binary64
  | .int _ i => some (Binary64.ofInt i)
  | .float x => some x
  | _ => none

/-- The float branch: the value as a finite float. -/
def normalizeFloat (field : FieldSpec) (value : PyScalar) : Py PyScalar :=
  match toFloat? value with
  | none => .error (wrongValueType field)
  | some x =>
    if x.isFinite = true then .ok (.float x)
    else .error (invalidFilterValue field "must be a finite JSON number")

/-- The decimal branch: the text is checked and kept. -/
def normalizeDecimal (unicode : Unicode) (field : FieldSpec) (value : PyScalar) : Py PyScalar :=
  match value with
  | .str _ (.text s) =>
    match decimalKind unicode s with
    | .invalid => .error (invalidFilterValue field "must be a valid decimal string")
    | .special => .error (invalidFilterValue field "must be a finite decimal string")
    | .finite => .ok value
  | .str _ (.surrogates _ _) =>
    .error (invalidFilterValue field "must be a valid decimal string")
  | _ => .error (wrongValueType field)

/-- The UUID branch: the canonical text. -/
def normalizeUuid (unicode : Unicode) (field : FieldSpec) (value : PyScalar) : Py PyScalar :=
  match value with
  | .str _ (.text s) =>
    match readUuid unicode s with
    | some n => .ok (.str none (formatUuid n))
    | none => .error (wrongValueType field)
  | _ => .error (wrongValueType field)

def normalizeEnumScalar (field : FieldSpec) (value : PyScalar) : Py PyScalar :=
  match field.enum with
  | none => .error (invalidFilterValue field "has no trusted enum definition")
  | some definition =>
    match definition.resolve value with
    | some canonical => .ok canonical
    | none => .error (wrongValueType field)

def normalizeCanonicalScalar (unicode : Unicode) (field : FieldSpec) (value : PyScalar) :
    Py PyScalar :=
  match field.type with
  | .string =>
    match value with
    | .str _ _ => .ok value
    | _ => .error (wrongValueType field)
  | .boolean =>
    match value with
    | .bool _ => .ok value
    | _ => .error (wrongValueType field)
  | .integer =>
    match value with
    | .int _ _ => .ok value
    | _ => .error (wrongValueType field)
  | .decimal => normalizeDecimal unicode field value
  | .float => normalizeFloat field value
  | .date => normalizeDateString value
  | .datetime => normalizeDatetimeString value
  | .time => normalizeTimeString value
  | .uuid => normalizeUuid unicode field value
  | .enum => normalizeEnumScalar field value

/-- The bounds of a range in order, for a type with a strict or a weak order. -/
def normalizeRange (normalize : PyScalar → Py PyScalar) (parse : PyScalar → Py α)
    (ordered : α → α → Bool) (disordered : PyException) (startValue endValue : PyScalar) :
    Py (List PyScalar) := do
  let normalizedStart ← normalize startValue
  let normalizedEnd ← normalize endValue
  let start ← parse normalizedStart
  let stop ← parse normalizedEnd
  raiseIf (ordered start stop = false) disordered
  .ok [normalizedStart, normalizedEnd]

def normalizeDateRangeFilter (field : FieldSpec) (value : FilterValue) : Py FilterValue :=
  match value with
  | .list [startValue, endValue] =>
    match field.type with
    | .date =>
      (normalizeRange normalizeDateString parseDateString
        (fun a b => decide (a.ordinal ≤ b.ordinal))
        (invalidFilterValue field "requires an ordered inclusive range") startValue endValue).map
        .list
    | .datetime =>
      (normalizeRange normalizeDatetimeString parseDatetimeString
        (fun a b => decide (a.moment < b.moment))
        (invalidFilterValue field "requires an ordered half-open range") startValue endValue).map
        .list
    | _ => .error (invalidFilterValue field "does not support date_range")
  | _ => .error (planInvalid "date_range filters require two values.")

/-- `a == b` on filter values. -/
def FilterValue.pyEq : FilterValue → FilterValue → Bool
  | .scalar a, .scalar b => a.pyEq b
  | .list as, .list bs => as.length == bs.length && (as.zip bs).all fun e => e.1.pyEq e.2
  | _, _ => false

/-- The canonical value of a filter, operator by operator. -/
def normalizedValue (unicode : Unicode) (field : FieldSpec) (filter : FilterSpec) :
    Py FilterValue :=
  match filter.op, filter.value with
  | .in, .list items => (items.mapM (normalizeCanonicalScalar unicode field)).map .list
  | .in, .scalar _ => .error (planInvalid "in filters require a non-empty list value.")
  | _, .scalar v => (normalizeCanonicalScalar unicode field v).map .scalar
  | _, .list _ => .error (wrongValueType field)

/-- `normalize_filter_value`: a value that equals its canonical form is kept as it is. -/
def normalizeFilterValue (unicode : Unicode) (field : FieldSpec) (filter : FilterSpec) :
    Py FilterSpec :=
  match filter.op with
  | .isnull | .lastNDays | .lastNMonths => .ok filter
  | .dateRange => do
    let value ← normalizeDateRangeFilter field filter.value
    .ok { filter with value := value }
  | _ => do
    let value ← normalizedValue unicode field filter
    if value.pyEq filter.value = true then .ok filter else .ok { filter with value := value }

/-- `resource.fields[name]`. -/
def fieldAt (resource : SemanticResource) (name : String) : Py FieldSpec :=
  match resource.fields.get? name with
  | some field => .ok field
  | none => .error (.builtin .keyError)

theorem fieldAt_ok {resource : SemanticResource} {name : String} {f : FieldSpec} :
    fieldAt resource name = .ok f ↔ resource.fields.get? name = some f := by
  unfold fieldAt
  cases resource.fields.get? name <;> simp

/-- One item of the generator in `normalize_filter_values`. -/
def normalizeFilter (unicode : Unicode) (resource : SemanticResource) (filter : FilterSpec) :
    Py FilterSpec := do
  let field ← fieldAt resource filter.field
  normalizeFilterValue unicode field filter

def normalizeFilterValues (unicode : Unicode) (resource : SemanticResource) (plan : QueryPlan) :
    Py QueryPlan := do
  let filters ← plan.filters.mapM (normalizeFilter unicode resource)
  if filters = plan.filters then .ok plan else .ok { plan with filters? := some filters }

end AskLens.Planning
