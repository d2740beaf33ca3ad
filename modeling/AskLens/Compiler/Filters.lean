import AskLens.Compiler.Dates
import AskLens.Planning.Normalization

/-!
# Filter compilation

Each filter of a plan becomes one `filter` call, or two calls for `neq`.
-/
namespace AskLens.Compiler

open Python Django Catalog Planning Checks

/-- `LOOKUP_BY_OPERATOR`, with the lookup of the predicate that `neq` excludes. -/
def lookupByOperator : FilterOperator → Option Lookup
  | .eq | .neq => some .exact
  | .contains => some .contains
  | .icontains => some .icontains
  | .gt => some .gt
  | .gte => some .gte
  | .lt => some .lt
  | .lte => some .lte
  | .in => some .in
  | .isnull => some .isnull
  | .dateRange | .lastNDays | .lastNMonths => none

def isTemporal : FieldType → Bool
  | .date | .datetime | .time => true
  | _ => false

def compileFilterValue (type : FieldType) (value : FilterValue) : Py Operand :=
  match isTemporal type, value with
  | false, .scalar v => .ok (.one (.scalar v))
  | false, .list vs => .ok (.many (vs.map .scalar))
  | true, .scalar v => do
    let parsed ← parseTemporalValue type v
    .ok (.one parsed)
  | true, .list vs => do
    let parsed ← vs.mapM (parseTemporalValue type)
    .ok (.many parsed)

/-- The two conditions of a window: inclusive for dates, half-open for datetimes. -/
def windowConditions (path : String) (type : FieldType) (start stop : OrmValue) :
    List Condition :=
  [⟨path, .gte, .one start⟩, ⟨path, if type = .date then .lte else .lt, .one stop⟩]

def buildDateRangeQ (path : String) (type : FieldType) (value : FilterValue) :
    Py (List Condition) :=
  match value with
  | .list [startValue, endValue] => do
    let start ← parseTemporalValue type startValue
    let stop ← parseTemporalValue type endValue
    .ok (windowConditions path type start stop)
  | _ => .error (planInvalid "date_range filters require two values.")

def windowDays (zone : ZoneInfo) (bounds : ℤ × ℤ) : Py (ℕ × ℕ) := do
  let localStart ← localDay zone bounds.1
  let last ← inRangeOr (.builtin .overflowError) (bounds.2 - 1)
  let localEnd ← localDay zone last
  .ok (localStart, localEnd)

/-- The relative branch of `build_filter_q`. -/
def buildRelativeQ (path : String) (type : FieldType) (zone : ZoneInfo) (now : Clock)
    (op : FilterOperator) (value : FilterValue) : Py (List Condition) :=
  match value with
  | .scalar (.int _ amount) => do
    let bounds ← relativeDatetimeBounds op amount now zone
    if type = .date then
      let days ← windowDays zone bounds
      .ok (windowConditions path type (.date days.1) (.date days.2))
    else .ok (windowConditions path type (.instant bounds.1) (.instant bounds.2))
  | _ => .error (planInvalid s!"{operatorName op} filters require an integer value.")

/-- `build_filter_q` on the field of the filter. -/
def buildFilterQ (field : FieldSpec) (zone : ZoneInfo) (now : Clock) (filter : FilterSpec) :
    Py (List Condition) :=
  match filter.op with
  | .dateRange => buildDateRangeQ field.binding field.type filter.value
  | .lastNDays | .lastNMonths =>
    buildRelativeQ field.binding field.type zone now filter.op filter.value
  | op => do
    let operand ← compileFilterValue field.type filter.value
    match lookupByOperator op with
    | some lookup => .ok [⟨field.binding, lookup, operand⟩]
    | none => .error (planInvalid s!"Unsupported filter operator {pyRepr (operatorName op)}.")

def filterCalls (filter : FilterSpec) (path : String) (conditions : List Condition) :
    List FilterCall :=
  match filter.op with
  | .neq =>
    .filter [⟨path, .isnull, .one (.scalar (.bool false))⟩] :: conditions.map .exclude
  | _ => [.filter conditions]

/-- `apply_filter`: the calls that it makes, with their paths resolved by the ORM. -/
def applyFilter (graph : ModelGraph) (resource : SemanticResource) (now : Clock)
    (filter : FilterSpec) : Py (List FilterCall) := do
  let field ← fieldAt resource filter.field
  let conditions ← buildFilterQ field resource.timezone now filter
  resolveReference graph resource.model field.binding
  .ok (filterCalls filter field.binding conditions)

def applyFilters (graph : ModelGraph) (resource : SemanticResource) (now : Clock)
    (filters : List FilterSpec) : Py (List FilterCall) := do
  let calls ← filters.mapM (applyFilter graph resource now)
  .ok calls.flatten

end AskLens.Compiler
