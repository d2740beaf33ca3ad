import AskLens.Library.JsonSchema

/-!
# The query plan schema

`query-plan.schema.json`, keyword by keyword, without its annotations.
-/
namespace AskLens.Contracts

open JsonSchema

def dateTruncSchema : Schema :=
  [.enum ["day", "week", "month", "quarter", "year"], .type .string]

def filterOperatorSchema : Schema :=
  [.enum ["eq", "neq", "contains", "icontains", "gt", "gte", "lt", "lte", "in", "isnull",
    "date_range", "last_n_days", "last_n_months"], .type .string]

def intentSchema : Schema := [.enum ["list", "aggregate"], .type .string]

def orderDirectionSchema : Schema := [.enum ["asc", "desc"], .type .string]

def jsonScalarSchema : Schema :=
  [.anyOf [[.type .string], [.type .integer], [.type .number], [.type .boolean]]]

def jsonValueSchema : Schema :=
  [.anyOf [jsonScalarSchema, [.items jsonScalarSchema, .type .array]]]

/-- `{"minLength": 1, "type": "string"}`. -/
def nameSchema : Schema := [.minLength 1, .type .string]

/-- `{"anyOf": [{"type": "string"}, {"type": "null"}]}`. -/
def optionalNameSchema : Schema := [.anyOf [[.type .string], [.type .null]]]

/-! ## Values of an operator -/

def isnullValueSchema : Schema := [.type .boolean]

def inValueSchema : Schema := [.items jsonScalarSchema, .minItems 1, .type .array]

def dateRangeValueSchema : Schema :=
  [.items [.minLength 1, .type .string], .maxItems 2, .minItems 2, .type .array]

def relativeValueSchema : Schema := [.minimum 1, .type .integer]

def containmentValueSchema : Schema := [.minLength 1, .type .string]

/-- The condition on `op` of a clause of `allOf`, and the schema of `value` that it demands. -/
def operatorClause (condition : Keyword) (value : Schema) : Schema :=
  [.ifThen [.properties [("op", [condition])], .required ["op"]] [.properties [("value", value)]]]

def filterSpecSchema : Schema :=
  [.noAdditionalProperties,
    .allOf
      [operatorClause (.const "isnull") isnullValueSchema,
        operatorClause (.const "in") inValueSchema,
        operatorClause (.const "date_range") dateRangeValueSchema,
        operatorClause (.enum ["last_n_days", "last_n_months"]) relativeValueSchema,
        operatorClause (.enum ["contains", "icontains"]) containmentValueSchema,
        operatorClause (.enum ["eq", "neq", "gt", "gte", "lt", "lte"]) jsonScalarSchema],
    .properties
      [("field", nameSchema), ("op", filterOperatorSchema), ("value", jsonValueSchema)],
    .required ["field", "op", "value"], .type .object]

/-! ## Members of a plan -/

def groupBySpecSchema : Schema :=
  [.noAdditionalProperties,
    .properties
      [("date_trunc", [.anyOf [dateTruncSchema, [.type .null]]]), ("field", nameSchema)],
    .required ["field"], .type .object]

def metricSpecSchema : Schema :=
  [.noAdditionalProperties, .properties [("metric", nameSchema)], .required ["metric"],
    .type .object]

def orderBySpecSchema : Schema :=
  [.noAdditionalProperties,
    .oneOf
      [[.properties [("field", nameSchema), ("metric", [.type .null])], .required ["field"]],
        [.properties [("field", [.type .null]), ("metric", nameSchema)], .required ["metric"]]],
    .properties
      [("direction", orderDirectionSchema), ("field", optionalNameSchema),
        ("metric", optionalNameSchema)],
    .type .object]

/-- `query-plan.schema.json`. -/
def queryPlanSchema : Schema :=
  [.noAdditionalProperties,
    .properties
      [("filters", [.items filterSpecSchema, .type .array]),
        ("group_by", [.items groupBySpecSchema, .type .array]), ("intent", intentSchema),
        ("limit", [.minimum 1, .type .integer]),
        ("metrics", [.items metricSpecSchema, .type .array]),
        ("order_by", [.items orderBySpecSchema, .type .array]), ("resource", nameSchema),
        ("select", [.items nameSchema, .type .array])],
    .required ["resource", "intent"], .type .object]

end AskLens.Contracts
