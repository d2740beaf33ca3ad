import AskLens.Catalog.Registry

/-!
# Query plan schemas

The strict models of a query plan, as pydantic validates them: members in the
order of their declaration, then unknown members, then the validators that look
at the whole model. Only the first error is reported. A member that the payload
leaves out is `none`, so a dump without unset members returns what was read.
-/
namespace AskLens.Planning

open Python Catalog Checks

variable {α : Type}

inductive Intent where
  | list | aggregate
deriving DecidableEq, Repr

inductive DateTrunc where
  | day | week | month | quarter | year
deriving DecidableEq, Repr

inductive FilterValue where
  | scalar (v : PyScalar)
  | list (items : List PyScalar)
deriving DecidableEq

structure FilterSpec where
  fieldName : PyStr
  op : FilterOperator
  value : FilterValue
deriving DecidableEq

structure GroupBySpec where
  fieldName : PyStr
  dateTrunc? : Option (Option DateTrunc)
deriving DecidableEq

structure MetricSpec where
  metricName : PyStr
deriving DecidableEq

inductive OrderTarget where
  | field (name : PyStr)
  | metric (name : PyStr)
deriving DecidableEq

/-- `otherNull` says that the other target was given as an explicit null. -/
structure OrderBySpec where
  target : OrderTarget
  otherNull : Bool
  direction? : Option OrderDirection
deriving DecidableEq

structure QueryPlan where
  resourceName : PyStr
  intent : Intent
  filters? : Option (List FilterSpec)
  groupBy? : Option (List GroupBySpec)
  metrics? : Option (List MetricSpec)
  selectNames? : Option (List PyStr)
  orderBy? : Option (List OrderBySpec)
  limit? : Option ℤ
deriving DecidableEq

/-! ## The members of a plan

A name is known to the catalog only where it has no lone surrogate, so what is
done with an accepted plan reads its names as ordinary texts.
-/

def FilterSpec.field (f : FilterSpec) : String := f.fieldName.shown

def GroupBySpec.field (g : GroupBySpec) : String := g.fieldName.shown

def MetricSpec.metric (m : MetricSpec) : String := m.metricName.shown

def GroupBySpec.dateTrunc (g : GroupBySpec) : Option DateTrunc := g.dateTrunc?.join

def OrderBySpec.fieldName? (o : OrderBySpec) : Option PyStr :=
  match o.target with
  | .field name => some name
  | .metric _ => none

def OrderBySpec.field? (o : OrderBySpec) : Option String := o.fieldName?.map PyStr.shown

def OrderBySpec.direction (o : OrderBySpec) : OrderDirection := o.direction?.getD .asc

namespace QueryPlan

def resource (p : QueryPlan) : String := p.resourceName.shown

def filters (p : QueryPlan) : List FilterSpec := p.filters?.getD []

def groupBy (p : QueryPlan) : List GroupBySpec := p.groupBy?.getD []

def metrics (p : QueryPlan) : List MetricSpec := p.metrics?.getD []

def selectNames (p : QueryPlan) : List PyStr := p.selectNames?.getD []

def orderBy (p : QueryPlan) : List OrderBySpec := p.orderBy?.getD []

def limit (p : QueryPlan) : ℤ := p.limit?.getD 100

def select (p : QueryPlan) : List String := p.selectNames.map PyStr.shown

end QueryPlan

/-! ## Literals -/

def Intent.name : Intent → String
  | .list => "list"
  | .aggregate => "aggregate"

def DateTrunc.name : DateTrunc → String
  | .day => "day"
  | .week => "week"
  | .month => "month"
  | .quarter => "quarter"
  | .year => "year"

def operatorName : FilterOperator → String
  | .eq => "eq"
  | .neq => "neq"
  | .contains => "contains"
  | .icontains => "icontains"
  | .gt => "gt"
  | .gte => "gte"
  | .lt => "lt"
  | .lte => "lte"
  | .in => "in"
  | .isnull => "isnull"
  | .dateRange => "date_range"
  | .lastNDays => "last_n_days"
  | .lastNMonths => "last_n_months"

def supportedIntents : List Intent := [.list, .aggregate]

def supportedFilterOperators : List FilterOperator :=
  [.eq, .neq, .contains, .icontains, .gt, .gte, .lt, .lte, .in, .isnull, .dateRange, .lastNDays,
    .lastNMonths]

def supportedDateTruncs : List DateTrunc := [.day, .week, .month, .quarter, .year]

def supportedOrderDirections : List OrderDirection := [.asc, .desc]

/-! ## Errors -/

/-- The first error of a `ValidationError`. -/
structure ValidationError where
  loc : List String
  msg : String
deriving DecidableEq

abbrev Parse := Except ValidationError

def fail (msg : String) : Parse α := .error ⟨[], msg⟩

/-- `raise ValueError(msg)` in a validator. -/
def valueError (msg : String) : Parse α := fail s!"Value error, {msg}"

/-- Errors of the part are located under `part`. -/
def under (part : String) : Parse α → Parse α
  | .ok value => .ok value
  | .error e => .error ⟨part :: e.loc, e.msg⟩

@[simp] theorem under_ok (part : String) (value : α) : under part (.ok value) = .ok value := rfl

theorem under_eq_ok {part : String} {x : Parse α} {value : α} :
    under part x = .ok value ↔ x = .ok value := by
  cases x <;> simp [under]

/-- `'a', 'b' or 'c'`. -/
def orList : List String → String
  | [] => ""
  | [a] => pyRepr a
  | [a, b] => pyRepr a ++ " or " ++ pyRepr b
  | a :: rest => pyRepr a ++ ", " ++ orList rest

def formatPydanticError (e : ValidationError) : String :=
  let location := if e.loc = [] then "query_plan" else String.intercalate "." e.loc
  s!"Invalid QueryPlan at {location}: {e.msg}."

/-! ## Scalars and sequences -/

/-- A lone surrogate is valid in a `str`. -/
def parseStr : PyObj → Parse PyStr
  | .str _ s => .ok s
  | .surrogates t => .ok (.ofText t)
  | _ => fail "Input should be a valid string"

def validateNonEmptyString (label : String) (value : PyStr) : Parse PyStr :=
  if value.strip = "" then valueError s!"{label} must not be empty." else .ok value.strip

def parseName (label : String) (v : PyObj) : Parse PyStr := do
  let s ← parseStr v
  validateNonEmptyString label s

/-- A text that is displayed, not looked up. -/
def parseShown (v : PyObj) : Parse String := (parseStr v).map PyStr.shown

def parseShownName (label : String) (v : PyObj) : Parse String :=
  (parseName label v).map PyStr.shown

/-- One of the values of a `Literal`. -/
def parseLiteral (values : List α) (name : α → String) (v : PyObj) : Parse α :=
  let error := fail s!"Input should be {orList (values.map name)}"
  match v with
  | .str _ s =>
    match values.find? fun a => name a == s with
    | some a => .ok a
    | none => error
  | _ => error

def parseItems (item : PyObj → Parse α) : ℕ → List PyObj → Parse (List α)
  | _, [] => .ok []
  | i, v :: rest => do
    let a ← under (toString i) (item v)
    let as ← parseItems item (i + 1) rest
    .ok (a :: as)

def parseTuple (item : PyObj → Parse α) (v : PyObj) : Parse (List α) :=
  match sequence? v with
  | some items => parseItems item 0 items
  | none => fail "Input should be a valid tuple"

def parseOptional (item : PyObj → Parse α) : PyObj → Parse (Option α)
  | .null => .ok none
  | v => (item v).map some

/-- `JsonScalar`; a rejected value is reported by the first member of the union. -/
def parseScalar : PyObj → Parse PyScalar
  | .int _ i => .ok (.int none i)
  | .float x => .ok (.float x)
  | .bool b => .ok (.bool b)
  | v =>
    (under "union[str,int,float,bool]" (under "str" (parseStr v))).map (PyScalar.str none)

/-- `JsonValue`. -/
def parseJsonValue (v : PyObj) : Parse FilterValue :=
  match sequence? v with
  | some items =>
    match items.mapM parseScalar with
    | .ok scalars => .ok (.list scalars)
    | .error _ => (parseScalar v).map .scalar
  | none => (parseScalar v).map .scalar

/-- `StrictInt`. -/
def parseStrictInt : PyObj → Parse ℤ
  | .int _ i => .ok i
  | _ => fail "Input should be a valid integer"

/-! ## Models -/

abbrev Entries := List (PyObj × PyObj)

def modelEntries (model : String) : PyObj → Parse Entries
  | .dict entries => .ok entries
  | _ => fail s!"Input should be a valid dictionary or instance of {model}"

def required (entries : Entries) (key : String) (parse : PyObj → Parse α) : Parse α :=
  under key (match lookupKey entries key with
    | some v => parse v
    | none => fail "Field required")

def optional (entries : Entries) (key : String) (parse : PyObj → Parse α) : Parse (Option α) :=
  match lookupKey entries key with
  | some v => (under key (parse v)).map some
  | none => .ok none

/-- `extra="forbid"`. -/
def forbidExtra (env : Environment) (allowed : List String) : Entries → Parse Unit
  | [] => .ok ()
  | (.str _ s, _) :: rest =>
    if allowed.contains s then forbidExtra env allowed rest
    else under s (fail "Extra inputs are not permitted")
  | (.surrogates _, _) :: _ =>
    fail "Input should be a valid string, unable to parse raw data as a unicode string"
  | (key, _) :: _ => under (env.display key) (fail "Keys should be strings")

/-- `validate_filter_value`: the message of the refused value. -/
def validateFilterValue (op : FilterOperator) (value : FilterValue) : Option String :=
  match op with
  | .isnull =>
    match value with
    | .scalar (.bool _) => none
    | _ => some "isnull filters require a boolean value."
  | .in =>
    match value with
    | .list (_ :: _) => none
    | _ => some "in filters require a non-empty list value."
  | .dateRange =>
    match value with
    | .list [.str _ a, .str _ b] =>
      if a = "" ∨ b = "" then some "date_range filters require two non-empty string values."
      else none
    | .list [_, _] => some "date_range filters require two non-empty string values."
    | _ => some "date_range filters require a two-item list value."
  | .lastNDays | .lastNMonths =>
    match value with
    | .scalar (.int _ n) =>
      if n < 1 then some s!"{operatorName op} filters require a positive integer value." else none
    | _ => some s!"{operatorName op} filters require a positive integer value."
  | .contains | .icontains =>
    match value with
    | .scalar (.str _ s) =>
      if s = "" then some s!"{operatorName op} filters require a non-empty string value."
      else none
    | _ => some s!"{operatorName op} filters require a non-empty string value."
  | .eq | .neq | .gt | .gte | .lt | .lte =>
    match value with
    | .scalar _ => none
    | .list _ => some s!"{operatorName op} filters require a scalar value."

def parseFilterSpec (env : Environment) (v : PyObj) : Parse FilterSpec := do
  let entries ← modelEntries "FilterSpec" v
  let field ← required entries "field" (parseName "filter field")
  let op ← required entries "op" (parseLiteral supportedFilterOperators operatorName)
  let value ← required entries "value" parseJsonValue
  forbidExtra env ["field", "op", "value"] entries
  match validateFilterValue op value with
  | some msg => valueError msg
  | none => .ok ⟨field, op, value⟩

def parseGroupBySpec (env : Environment) (v : PyObj) : Parse GroupBySpec := do
  let entries ← modelEntries "GroupBySpec" v
  let field ← required entries "field" (parseName "group_by field")
  let dateTrunc? ← optional entries "date_trunc"
    (parseOptional (parseLiteral supportedDateTruncs DateTrunc.name))
  forbidExtra env ["field", "date_trunc"] entries
  .ok ⟨field, dateTrunc?⟩

def parseMetricSpec (env : Environment) (v : PyObj) : Parse MetricSpec := do
  let entries ← modelEntries "MetricSpec" v
  let metric ← required entries "metric" (parseName "metric")
  forbidExtra env ["metric"] entries
  .ok ⟨metric⟩

def parseOrderBySpec (env : Environment) (v : PyObj) : Parse OrderBySpec := do
  let entries ← modelEntries "OrderBySpec" v
  let field? ← optional entries "field" (parseOptional (parseName "order_by target"))
  let metric? ← optional entries "metric" (parseOptional (parseName "order_by target"))
  let direction? ← optional entries "direction"
    (parseLiteral supportedOrderDirections OrderDirection.name)
  forbidExtra env ["field", "metric", "direction"] entries
  match field?.join, metric?.join with
  | some field, none => .ok ⟨.field field, metric?.isSome, direction?⟩
  | none, some metric => .ok ⟨.metric metric, field?.isSome, direction?⟩
  | _, _ => valueError "order_by must specify exactly one of field or metric."

/-- `validate_select`: the items are stripped once they are all known to be strings. -/
def parseSelect (v : PyObj) : Parse (List PyStr) := do
  let items ← parseTuple parseStr v
  items.mapM (validateNonEmptyString "select field")

/-- `validate_limit`. -/
def parseLimit (v : PyObj) : Parse ℤ := do
  let limit ← parseStrictInt v
  if limit < 1 then valueError "limit must be at least 1." else .ok limit

/-- `QueryPlan.model_validate`. -/
def parseQueryPlanModel (env : Environment) (entries : Entries) : Parse QueryPlan := do
  let resource ← required entries "resource" (parseName "resource")
  let intent ← required entries "intent" (parseLiteral supportedIntents Intent.name)
  let filters? ← optional entries "filters" (parseTuple (parseFilterSpec env))
  let groupBy? ← optional entries "group_by" (parseTuple (parseGroupBySpec env))
  let metrics? ← optional entries "metrics" (parseTuple (parseMetricSpec env))
  let selectNames? ← optional entries "select" parseSelect
  let orderBy? ← optional entries "order_by" (parseTuple (parseOrderBySpec env))
  let limit? ← optional entries "limit" parseLimit
  forbidExtra env
    ["resource", "intent", "filters", "group_by", "metrics", "select", "order_by", "limit"] entries
  .ok ⟨resource, intent, filters?, groupBy?, metrics?, selectNames?, orderBy?, limit?⟩

/-! ## Payloads -/

/-- An untrusted plan: a text, a byte string or a mapping. -/
inductive RawPlan where
  | text (t : PyText)
  | bytes (b : List UInt8)
  | mapping (entries : Entries)

/-- `json.loads` as `parse_plan_payload` uses it: only `JSONDecodeError` is translated. -/
def parsePlanText (env : Environment) (t : PyText) : Py Entries :=
  match loads env.interp t with
  | .ok (.dict entries) => .ok entries
  | .ok _ => .error (ErrorClass.planParse.exc "QueryPlan JSON payload must be an object.")
  | .error .jsonDecodeError =>
    .error (ErrorClass.planParse.exc "QueryPlan payload must be valid JSON.")
  | .error e => .error (.builtin e)

def parsePlanPayload (env : Environment) : RawPlan → Py Entries
  | .mapping entries => .ok entries
  | .bytes b =>
    match decodeUtf8 b with
    | some t => parsePlanText env t
    | none =>
      .error (ErrorClass.planParse.exc "QueryPlan bytes must contain valid UTF-8 JSON.")
  | .text t => parsePlanText env t

def parseQueryPlan (env : Environment) (raw : RawPlan) : Py QueryPlan := do
  let payload ← parsePlanPayload env raw
  match parseQueryPlanModel env payload with
  | .ok plan => .ok plan
  | .error e => .error (ErrorClass.planParse.exc (formatPydanticError e))

end AskLens.Planning
