import AskLens.Planning.HelpReferences
import AskLens.Planning.RoundTrip
import AskLens.Planning.Validation
import Mathlib.Data.List.Sort

/-!
# Query help

The suggestions of a provider are checked one by one against the visible
guidance: their references, their wording, and the plan that they carry or that
is built for them.
-/
namespace AskLens.Planning

open Python Catalog Checks

/-! ## Suggestions -/

def maxHelpSuggestions : ℕ := 10

def maxReferenceCount : ℕ := 8

def blockedSuggestionActions : List String :=
  ["create", "delete", "drop", "insert", "mutate", "truncate", "update", "upsert"]

/-- `QueryHelpSuggestion`; the plan is a payload that nobody has looked at. -/
structure QueryHelpSuggestion where
  question : String
  resourceName : String
  fields : List String
  metrics : List String
  dateFields : List String
  plan : Option Entries
  why : String
  names : ∀ text ∈ question :: resourceName :: (fields ++ metrics ++ dateFields), IsName text
  fields_length : fields.length ≤ maxReferenceCount
  metrics_length : metrics.length ≤ maxReferenceCount
  dateFields_length : dateFields.length ≤ maxReferenceCount

theorem isName_strip {s : String} (h : strip s ≠ "") : IsName (strip s) :=
  isName_text.mpr ⟨strip_strip s, h⟩

def NoneBlank (question resourceName : String) (fields metrics dateFields : List String) : Prop :=
  ∀ text ∈ question :: resourceName :: (fields ++ metrics ++ dateFields), strip text ≠ ""

instance (question resourceName : String) (fields metrics dateFields : List String) :
    Decidable (NoneBlank question resourceName fields metrics dateFields) :=
  inferInstanceAs (Decidable (∀ text ∈ _, _))

theorem NoneBlank.names {question resourceName : String} {fields metrics dateFields : List String}
    (h : NoneBlank question resourceName fields metrics dateFields) :
    ∀ text ∈ strip question :: strip resourceName ::
      (fields.map strip ++ metrics.map strip ++ dateFields.map strip), IsName text := by
  intro text htext
  have hmap : strip question :: strip resourceName ::
      (fields.map strip ++ metrics.map strip ++ dateFields.map strip) =
      (question :: resourceName :: (fields ++ metrics ++ dateFields)).map strip := by simp
  rw [hmap] at htext
  obtain ⟨raw, hraw, rfl⟩ := List.mem_map.mp htext
  exact isName_strip (h raw hraw)

/-- `QueryHelpSuggestion(..)`, where a `ValidationError` is a `ValueError`. -/
def QueryHelpSuggestion.init (question resourceName : String)
    (fields metrics dateFields : List String) (plan : Option Entries) (why : String) :
    Py QueryHelpSuggestion :=
  if h : NoneBlank question resourceName fields metrics dateFields ∧
      fields.length ≤ maxReferenceCount ∧ metrics.length ≤ maxReferenceCount ∧
        dateFields.length ≤ maxReferenceCount then
    .ok
      { question := strip question
        resourceName := strip resourceName
        fields := fields.map strip
        metrics := metrics.map strip
        dateFields := dateFields.map strip
        plan := plan
        why := why
        names := h.1.names
        fields_length := by simpa using h.2.1
        metrics_length := by simpa using h.2.2.1
        dateFields_length := by simpa using h.2.2.2 }
  else .error (.builtin .valueError)

structure QueryHelp where
  answer : String
  suggestions : List QueryHelpSuggestion
  notes : List String
  answer_isName : IsName answer
  notes_isName : ∀ note ∈ notes, IsName note
  suggestions_length : suggestions.length ≤ maxHelpSuggestions
  notes_length : notes.length ≤ 5

/-- `QueryHelp(..)` with the answer and the notes of another help. -/
def QueryHelp.withSuggestions (help : QueryHelp) (suggestions : List QueryHelpSuggestion) :
    Py QueryHelp :=
  if h : suggestions.length ≤ maxHelpSuggestions then
    .ok { help with suggestions := suggestions, suggestions_length := h }
  else .error (.builtin .valueError)

/-- `plan.model_dump(mode="json")`: unset members have their defaults. -/
def QueryPlan.modelDump (p : QueryPlan) : Entries :=
  { p with
    filters? := some p.filters
    groupBy? := some (p.groupBy.map fun g => { g with dateTrunc? := some g.dateTrunc })
    metrics? := some p.metrics
    selectNames? := some p.selectNames
    orderBy? := some (p.orderBy.map fun o =>
      { o with otherNull := true, direction? := some o.direction })
    limit? := some p.limit : QueryPlan }.dump

/-! ## Wording -/

/-- `", ".join(sorted(set(names)))`. -/
def displayNames (names : List String) : String :=
  ", ".intercalate (names.eraseDups.insertionSort (· ≤ ·))

/-- A quoted text of at least two characters. -/
def quotedPattern (quote : Char) : Pattern :=
  let inner : Pattern := .char fun c => c != '\'' && c != '"'
  .sequence [.notAfterWord, .char (· == quote), inner, .plus inner, .char (· == quote)]

/-- `\b[a-z0-9]+(?:_[a-z0-9]+)+_(day|week|month|quarter|year)\b`. -/
def bucketAliasPattern : Pattern :=
  let token : Pattern := .plus (.char isTokenChar)
  .sequence [.boundary, token, .plus (.seq (.literal "_") token), .literal "_",
    .anyOf (["day", "week", "month", "quarter", "year"].map .literal), .boundary]

def validateSuggestionQuestionIsSafe (tables : CaseTables) (question : String) : Py Unit := do
  let lowerQuestion := tables.lower question
  let tokens := findTokens lowerQuestion
  raiseIf ("sql" ∈ tokens) (planInvalid "QueryHelp suggestions must not mention SQL.")
  raiseIf ((Pattern.alt (quotedPattern '\'') (quotedPattern '"')).search tables.isWord question =
      true)
    (planInvalid "QueryHelp suggestions must not include literal sample values.")
  raiseIf (bucketAliasPattern.search tables.isWord lowerQuestion = true)
    (planInvalid "QueryHelp suggestions must not mention generated date-bucket aliases.")
  let blocked := blockedSuggestionActions.filter tokens.contains
  raiseIf (blocked ≠ [])
    (planInvalid
      s!"QueryHelp suggestions must be read-only; blocked: {displayNames blocked}.")

/-- A word of the question, the space after it, and one of the given words. -/
def scopePattern (parts : List Pattern) (word : String) : Pattern :=
  .sequence (.boundary :: parts ++ [.literal word, .boundary])

def questionImpliesMultiScope (tables : CaseTables) (question scopeKind : String) : Bool :=
  let kind := tables.lower (humanizeScopeKind scopeKind)
  let plural := tables.lower (pluralizeScopeKind scopeKind)
  let lowerQuestion := tables.lower question
  let all : Pattern := .optional (.seq (.literal "all") .spaces)
  let group : List Pattern :=
    [.literal "group", .optional (.alt (.literal "ed") (.literal "ing")), .spaces, .literal "by",
      .spaces]
  let patterns : List Pattern :=
    [scopePattern [.literal "across", .spaces, all] plural,
      scopePattern [.literal "compare", .spaces, all] plural,
      scopePattern [.literal "between", .spaces] plural,
      scopePattern [.literal "by", .spaces] kind, scopePattern [.literal "by", .spaces] plural,
      scopePattern [.literal "per", .spaces] kind, scopePattern [.literal "per", .spaces] plural,
      scopePattern group kind, scopePattern group plural,
      scopePattern [.literal "across", .spaces, all] "scopes",
      .sequence [.boundary, .literal "cross", .optional (.char fun c => c == '-' || isSpace c),
        .literal "scope", .boundary]]
  patterns.any fun pattern => pattern.search tables.isWord lowerQuestion

/-- `{field["name"]: field for field in fields}.get(name)`. -/
def fieldNamed (resource : CapabilityResource) (name : String) : Option CapabilityField :=
  resource.fields.reverse.find? fun f => f.name == name

def validateSuggestionRespectsScope (tables : CaseTables) (suggestion : QueryHelpSuggestion)
    (resource : CapabilityResource) : Py Unit :=
  match resource.scope.level, resource.scope.kind with
  | .single, some scopeKind => do
    let humanized := humanizeScopeKind scopeKind
    let named := pyRepr suggestion.resourceName
    raiseIf (isSingleScopeResource tables resource = true)
      (planInvalid (s!"QueryHelp suggestion for resource {named} targets the single visible " ++
        s!"{humanized}. Suggest questions over in-scope operational resources instead."))
    let blockedFields := suggestion.fields.filter fun name =>
      match fieldNamed resource name with
      | some f =>
        f.scopeDimension.getD false || isScopeDimensionField tables name f.label scopeKind
      | none => isScopeDimensionField tables name name scopeKind
    let blockedDisplay := ", ".intercalate (blockedFields.insertionSort (· ≤ ·))
    raiseIf (blockedFields ≠ [])
      (planInvalid (s!"QueryHelp suggestion for resource {named} references {humanized} scope " ++
        s!"fields for a single visible {humanized}: {blockedDisplay}."))
    raiseIf (questionImpliesMultiScope tables suggestion.question scopeKind = true)
      (planInvalid (s!"QueryHelp suggestion for resource {named} implies access across " ++
        s!"{pluralizeScopeKind scopeKind}, but this request is scoped to a single visible " ++
        s!"{humanized}."))
  | _, _ => .ok ()

/-! ## References -/

def validateReferences (references allowed : List String) (label resourceName : String) :
    Py Unit :=
  let unknown := references.filter fun reference => !allowed.contains reference
  raiseIf (unknown ≠ [])
    (planInvalid (s!"QueryHelp suggestion for resource {pyRepr resourceName} referenced " ++
      s!"unknown {label}s: {displayNames unknown}."))

def normalizeSuggestionReferences (casefold : String → String) (suggestion : QueryHelpSuggestion)
    (resource : CapabilityResource) : Py QueryHelpSuggestion :=
  QueryHelpSuggestion.init suggestion.question resource.name
    (canonicalizeReferences casefold suggestion.fields (resource.fields.map fieldNames))
    (canonicalizeReferences casefold suggestion.metrics (resource.metrics.map metricNames))
    (canonicalizeReferences casefold suggestion.dateFields (resource.dateFields.map fieldNames))
    suggestion.plan suggestion.why

/-! ## Plans -/

def planLimit : ℕ := 50

def fieldEntry (name : String) : PyObj × PyObj := (textObj "field", textObj name)

def buildAggregateSuggestionPlan (suggestion : QueryHelpSuggestion)
    (resource : CapabilityResource) (metrics : List String) : Entries :=
  let groupBy : List PyObj :=
    match suggestion.dateFields with
    | dateField :: _ => [.dict [fieldEntry dateField, (textObj "date_trunc", textObj "month")]]
    | [] =>
      ((suggestion.fields.take 2).filter fun name =>
        ((fieldNamed resource name).map CapabilityField.canGroup).getD false).map fun name =>
          .dict [fieldEntry name]
  let orderBy : PyObj :=
    match suggestion.dateFields, metrics with
    | dateField :: _, _ => .dict [fieldEntry dateField, (textObj "direction", textObj "asc")]
    | [], metric :: _ =>
      .dict [(textObj "metric", textObj metric), (textObj "direction", textObj "desc")]
    | [], [] => .dict []
  [(textObj "resource", textObj resource.name), (textObj "intent", textObj "aggregate"),
    (textObj "filters", .list []), (textObj "group_by", .list groupBy),
    (textObj "metrics", .list (metrics.map fun name => .dict [(textObj "metric", textObj name)])),
    (textObj "select", .list []), (textObj "order_by", .list [orderBy]),
    (textObj "limit", .int none planLimit)]

def buildListSuggestionPlan (suggestion : QueryHelpSuggestion) (resource : CapabilityResource) :
    Py Entries :=
  let referenced := suggestion.fields.filter fun name =>
    ((fieldNamed resource name).map CapabilityField.canSelect).getD false
  let selectable :=
    ((resource.fields.filter CapabilityField.canSelect).map CapabilityField.name).take 3
  let select := if referenced = [] then selectable else referenced
  if select = [] then
    .error (planInvalid (s!"QueryHelp suggestion for resource {pyRepr suggestion.resourceName} " ++
      "does not reference selectable fields or metrics."))
  else
    .ok [(textObj "resource", textObj resource.name), (textObj "intent", textObj "list"),
      (textObj "filters", .list []), (textObj "group_by", .list []),
      (textObj "metrics", .list []), (textObj "select", .list ((select.take 8).map textObj)),
      (textObj "order_by", .list []), (textObj "limit", .int none planLimit)]

def buildSuggestionPlanPayload (suggestion : QueryHelpSuggestion)
    (resource : CapabilityResource) : Py Entries :=
  let known := resource.metrics.map CapabilityMetric.name
  match suggestion.metrics.filter known.contains with
  | [] => buildListSuggestionPlan suggestion resource
  | metrics => .ok (buildAggregateSuggestionPlan suggestion resource metrics)

def validatePlanUsesCapabilities (plan : QueryPlan) (resource : CapabilityResource) : Py Unit := do
  let usedFields := plan.select ++ plan.filters.map FilterSpec.field ++
    plan.groupBy.map GroupBySpec.field ++ plan.orderBy.filterMap OrderBySpec.field?
  validateReferences usedFields (resource.fields.map CapabilityField.name) "plan field"
    resource.name
  let dateBucketFields :=
    (plan.groupBy.filter fun g => g.dateTrunc.isSome).map GroupBySpec.field
  validateReferences dateBucketFields (resource.dateFields.map CapabilityField.name)
    "plan date field" resource.name
  validateReferences (plan.metrics.map MetricSpec.metric)
    (resource.metrics.map CapabilityMetric.name) "plan metric" resource.name

/-- What the validation of query help depends on. -/
structure HelpContext (env : Environment) where
  tables : CaseTables
  registry : CatalogRegistry env
  limits : PlanLimits
  permissions : List String
  requirePlans : Bool

variable {env : Environment}

/-- The plan payload to validate; `none` when the suggestion needs no plan. -/
def suggestionPlan (requirePlan : Bool) (suggestion : QueryHelpSuggestion)
    (resource : CapabilityResource) : Py (Option Entries) :=
  match suggestion.plan with
  | some plan => .ok (some plan)
  | none =>
    if requirePlan then (buildSuggestionPlanPayload suggestion resource).map some else .ok none

/-- `validate_suggestion_plan` on a plan payload. -/
def validatePlanPayload (context : HelpContext env) (suggestion : QueryHelpSuggestion)
    (resource : CapabilityResource) (rawPlan : Entries) : Py QueryHelpSuggestion := do
  let validatedPlan ← parseAndValidateQueryPlan context.registry context.limits
    (.ofPermissions context.permissions) (.mapping rawPlan)
  raiseIf (validatedPlan.resource ≠ resource.name)
    (planInvalid (s!"QueryHelp suggestion for resource {pyRepr suggestion.resourceName} " ++
      s!"included a plan for resource {pyRepr validatedPlan.resource}."))
  validatePlanUsesCapabilities validatedPlan resource
  .ok { suggestion with plan := some validatedPlan.modelDump }

def validateSuggestionPlan (context : HelpContext env) (suggestion : QueryHelpSuggestion)
    (resource : CapabilityResource) : Py QueryHelpSuggestion := do
  match ← suggestionPlan context.requirePlans suggestion resource with
  | none => .ok suggestion
  | some rawPlan => validatePlanPayload context suggestion resource rawPlan

/-- The checks of a canonicalized suggestion before its plan. -/
def validateSuggestionReferences (tables : CaseTables) (suggestion : QueryHelpSuggestion)
    (resource : CapabilityResource) : Py Unit := do
  validateSuggestionQuestionIsSafe tables suggestion.question
  validateSuggestionRespectsScope tables suggestion resource
  validateReferences suggestion.fields (resource.fields.map CapabilityField.name) "field"
    suggestion.resourceName
  validateReferences suggestion.metrics (resource.metrics.map CapabilityMetric.name) "metric"
    suggestion.resourceName
  validateReferences suggestion.dateFields (resource.dateFields.map CapabilityField.name)
    "date field" suggestion.resourceName

def validateQueryHelpSuggestion (context : HelpContext env)
    (resourceIndex : Dict CapabilityResource) (suggestion : QueryHelpSuggestion) :
    Py QueryHelpSuggestion :=
  match resourceIndex.get? (context.tables.casefold suggestion.resourceName) with
  | none =>
    .error (planInvalid (s!"QueryHelp suggestion referenced unknown capabilities resource " ++
      s!"{pyRepr suggestion.resourceName}."))
  | some resource => do
    let normalized ← normalizeSuggestionReferences context.tables.casefold suggestion resource
    validateSuggestionReferences context.tables normalized resource
    validateSuggestionPlan context normalized resource

/-- `str(exc)`. -/
def exceptionText : PyException → String
  | .askLens exc => exc.diagnosticMessage
  | .builtin _ => ""

def validateQueryHelp (context : HelpContext env) (resources : List CapabilityResource)
    (help : QueryHelp) : Py QueryHelp := do
  let resourceIndex := indexResourceReferences context.tables.casefold resources
  let (validSuggestions, errors) ← collectValid isPlanValidationError
    (validateQueryHelpSuggestion context resourceIndex) help.suggestions
  if validSuggestions ≠ [] ∨ help.suggestions = [] then help.withSuggestions validSuggestions
  else
    let errorSummary := "; ".intercalate ((errors.take 3).map exceptionText)
    .error (planInvalid
      (if errorSummary = "" then "QueryHelp suggestions were invalid." else errorSummary))

end AskLens.Planning
