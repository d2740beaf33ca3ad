import AskLens.Library.StrictModels
import AskLens.PublicErrors
import AskLens.Results.Serialization

/-!
# Contract models

The strict models of the catalog, the result and the error document, and the
documents themselves as the objects that are validated.
-/
namespace AskLens.Contracts

open Python Catalog Compiler Execution Results StrictModels
open Planning (textObj)

/-! ## Models -/

def canonicalType : Shape :=
  .literal ["string", "boolean", "integer", "decimal", "float", "date", "datetime", "time", "uuid",
    "enum"]

def anyString : Shape := .anyText

/-- `AskLensErrorCode`. -/
def errorCode : Shape :=
  .literal ["asklens.parse.invalid", "asklens.member.unavailable", "asklens.plan.invalid",
    "asklens.authorization.denied", "asklens.scope.unavailable", "asklens.budget.exceeded",
    "asklens.binding.invalid", "asklens.compile.failed", "asklens.execute.failed",
    "asklens.provider.failed"]

def EnumValueCatalogItem.toObj (v : EnumValueCatalogItem) : PyObj :=
  document
    [("value", some v.value.toObj), ("label", v.label.map textObj),
      ("aliases", v.aliases.map fun aliases => .list (aliases.map PyScalar.toObj))]

def EnumCatalogItem.toObj (d : EnumCatalogItem) : PyObj :=
  document
    [("type", some (textObj d.type.name)),
      ("values", some (.list (d.values.map EnumValueCatalogItem.toObj)))]

def FieldCatalogItem.toObj (f : FieldCatalogItem) : PyObj :=
  document
    [("name", some (textObj f.name)), ("label", some (textObj f.label)),
      ("type", some (textObj f.type.name)), ("nullable", some (.bool f.nullable)),
      ("relation_depth", some (.int none f.relationDepth)),
      ("enum", f.enum.map EnumCatalogItem.toObj), ("sensitive", f.sensitive.map .bool),
      ("llm_visible", f.llmVisible.map .bool), ("result_visible", f.resultVisible.map .bool),
      ("filter_only", f.filterOnly.map .bool), ("scope_dimension", f.scopeDimension.map .bool)]

def MetricCatalogItem.toObj (m : MetricCatalogItem) : PyObj :=
  document
    [("name", some (textObj m.name)), ("label", some (textObj m.label)),
      ("result_type", some (textObj m.resultType.name))]

def defaultOrderObj (term : String × OrderDirection) : PyObj :=
  document [("field", some (textObj term.1)), ("direction", some (textObj term.2.name))]

def ResourceCatalogItem.toObj (r : ResourceCatalogItem) : PyObj :=
  document
    [("name", some (textObj r.name)), ("label", some (textObj r.label)),
      ("description", some (textObj r.description)),
      ("synonyms", some (.list (r.synonyms.map textObj))),
      ("default_date_field", some ((r.defaultDateField.map textObj).getD .null)),
      ("timezone", some (textObj r.timezone)),
      ("fields", some (.list (r.fields.map FieldCatalogItem.toObj))),
      ("metrics", some (.list (r.metrics.map MetricCatalogItem.toObj))),
      ("scope_resource", r.scopeResource.map .bool),
      ("examples_enabled", r.examplesEnabled.map .bool),
      ("default_order", r.defaultOrder.map fun order => .list (order.map defaultOrderObj))]

def SerializedColumn.toObj (c : SerializedColumn) : PyObj :=
  document
    [("key", some (textObj c.key)), ("label", some (textObj c.label)),
      ("type", some (textObj c.type.name)), ("nullable", some (.bool c.nullable))]

end AskLens.Contracts
