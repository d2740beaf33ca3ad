import AskLens.Catalog.Registry
import AskLens.Django.Database
import AskLens.Planning.RoundTrip
import AskLens.Planning.Validation
import Mathlib.Algebra.BigOperators.Group.Multiset.Defs

/-!
# A small shop

A concrete environment with three models, on which the witnesses of the later
modules evaluate: orders with their items and payments, and a database of them.
-/
namespace AskLens.Sample

open Python Django Catalog Planning

def asciiDigitValue (c : Char) : Option (Fin 10) :=
  if h : 48 ≤ c.toNat ∧ c.toNat < 58 then some ⟨c.toNat - 48, by omega⟩ else none

def asciiTables : Unicode where
  nfkd := id
  nfkd_ascii := fun _ _ => rfl
  title := id
  digitValue := asciiDigitValue
  digitValue_ascii := by decide
  digitValue_other := fun _ hc => ascii_forall
    (P := fun c => c.isDigit = false → asciiDigitValue c = none) (by decide +kernel) hc

def column (model name type : String) : DjangoField :=
  ⟨name, model, .column type, false, false, false, none, fun _ => rfl⟩

def primaryKey (model : String) : DjangoField :=
  ⟨"id", model, .column "integer", false, true, true, none, fun _ => rfl⟩

def foreignKey (model name target : String) : DjangoField :=
  ⟨name, model, .foreignKey, false, false, false, some target, fun h => by cases h⟩

/-- The reverse of a foreign key of `model`. -/
def reverseKey (model name : String) : DjangoField :=
  ⟨name, model, .manyToOneRel, true, false, false, some model, fun h => by cases h⟩

def orderModel : DjangoModel where
  label := "shop.Order"
  verboseNamePlural := "orders"
  pk := "id"
  fields :=
    [("id", primaryKey "order"), ("number", column "order" "number" "string"),
      ("amount", column "order" "amount" "integer"), ("day", column "order" "day" "date"),
      ("status", column "order" "status" "string"),
      ("items", reverseKey "item" "items"), ("payments", reverseKey "payment" "payments")]
  uniqueTogether := []
  constraints := []
  names_plain := by decide

def itemModel : DjangoModel where
  label := "shop.Item"
  verboseNamePlural := "items"
  pk := "id"
  fields :=
    [("id", primaryKey "item"), ("name", column "item" "name" "string"),
      ("price", column "item" "price" "integer"),
      ("order", foreignKey "item" "order" "order")]
  uniqueTogether := []
  constraints := []
  names_plain := by decide

def paymentModel : DjangoModel where
  label := "shop.Payment"
  verboseNamePlural := "payments"
  pk := "id"
  fields :=
    [("id", primaryKey "payment"),
      ("order", foreignKey "payment" "order" "order")]
  uniqueTogether := []
  constraints := []
  names_plain := by decide

def shop : ModelGraph := fun name =>
  if name = "item" then itemModel else if name = "payment" then paymentModel else orderModel

theorem shop_fields {P : DjangoField → Prop}
    (h : ∀ m ∈ [itemModel, paymentModel, orderModel], ∀ entry ∈ m.fields, P entry.2)
    {model name : String} {field : DjangoField} (hfield : shop.getField? model name = some field) :
    P field := by
  have hmodel : shop model ∈ [itemModel, paymentModel, orderModel] := by
    unfold shop
    split_ifs <;> simp
  exact h _ hmodel _ (Dict.mem_of_get? hfield)

def utc : ZoneInfo := ⟨"UTC", fun _ => 0, fun _ => 0⟩

def environment : Environment where
  unicode := asciiTables
  interp := ⟨1000, by decide⟩
  graph := shop
  zone? := fun name => if name = "UTC" then some utc else none
  defaultScopeMode := none
  display := fun _ => ""

/-- 2024-01-01T00:00:00Z. -/
def newYear : Clock := ⟨63839664000000000, 0, by decide⟩

def text (s : String) : ConfigValue := .obj (.str none s)

def fieldConfig (binding type : String) : Dict ConfigValue :=
  [("binding", text binding), ("type", text type), ("nullable", .obj (.bool true))]

def orderArgs (fields : Dict FieldRegistration) : BuildArgs where
  model := "order"
  fields := fields
  timezone := some "UTC"
  scopeMode := some "global"

def metricOf (args : MetricArgs) : List Metric :=
  match Metric.init args with
  | .ok metric => [metric]
  | .error _ => []

def countOf (name binding : String) : MetricArgs where
  name := name
  op := "count"
  binding := binding
  resultType := "integer"

/-- The registry with one resource; empty when its registration is refused. -/
def registryOf (args : BuildArgs) : CatalogRegistry environment :=
  match (CatalogRegistry.empty environment).register args with
  | .ok registry => registry
  | .error _ => .empty environment

def limits : PlanLimits where
  maxRows := 1000
  maxJoins := 2
  maxMetrics := 5
  maxGroupBy := 3
  maxRows_pos := by decide
  maxPlanBytes_pos := by decide
  defaultLimit_pos := by decide

def listPlan (select : List String) : QueryPlan where
  resourceName := "orders"
  intent := .list
  filters? := none
  groupBy? := none
  metrics? := none
  selectNames? := some (select.map PyStr.text)
  orderBy? := none
  limit? := some 10

def aggregatePlan (groupBy metrics : List String) : QueryPlan where
  resourceName := "orders"
  intent := .aggregate
  filters? := none
  groupBy? := some (groupBy.map fun name => ⟨name, none⟩)
  metrics? := some (metrics.map fun name => ⟨name⟩)
  selectNames? := none
  orderBy? := none
  limit? := some 10

/-- The outcome of validating the dump of a plan without permissions. -/
def validated (registry : CatalogRegistry environment) (limits : PlanLimits) (p : QueryPlan) :
    Py QueryPlan :=
  parseAndValidateQueryPlan registry limits (.ofPermissions []) (.mapping p.dump)

/-! ## Rows -/

/-- Every lookup holds, and a truncation changes nothing. -/
def backend : Backend ℕ where
  holds := fun _ _ _ => true
  trunc := fun _ _ v => v
  number := id
  sum := Multiset.sum
  avg := fun _ => 0

/-- The backend under which a text equals the number it writes. -/
def textual : Backend ℕ :=
  { backend with
    holds := fun lookup operand v =>
      match lookup, operand with
      | .exact, .one (.scalar (.str _ s)) => s = PyStr.text (toString v)
      | _, _ => true }

/-- Row 0 is an order with the items 1 and 2; every column of a row holds its number. -/
def twoItems : Database Sample.shop "order" ℕ ℕ where
  table := [0]
  stored := fun _ _ => True
  related := fun hop r => if hop.name = "items" ∧ hop.toMany = true ∧ r = 0 then [1, 2] else []
  value := fun _ _ r => some r
  key := id
  toOne := by
    intro hop r h
    simp [h]
  table_stored := fun _ _ => trivial
  related_stored := fun _ _ _ _ _ _ => trivial
  value_some := fun _ _ _ _ _ _ _ _ => rfl
  identifies := fun _ _ _ _ _ _ _ _ _ _ _ h => Option.some.inj h

end AskLens.Sample
