import AskLens.Catalog.QueryGuidance
import AskLens.Planning.Help

/-!
# Deterministic help

The help that is built without a provider, from the example questions of the
guidance. It answers when there is no provider and when the provider has failed,
so nothing may fail here once more.
-/
namespace AskLens.Planning

open Python Catalog Checks

/-- A suggestion after `model_copy`, whose updates are not validated. -/
structure HelpSuggestion where
  question : String
  resourceName : String
  fields : List String
  metrics : List String
  dateFields : List String
  plan : Option Entries
  why : String

structure HelpContent where
  answer : String
  suggestions : List HelpSuggestion
  notes : List String

def QueryHelpSuggestion.copy (s : QueryHelpSuggestion) : HelpSuggestion where
  question := s.question
  resourceName := s.resourceName
  fields := s.fields
  metrics := s.metrics
  dateFields := s.dateFields
  plan := s.plan
  why := s.why

def QueryHelp.content (help : QueryHelp) : HelpContent where
  answer := help.answer
  suggestions := help.suggestions.map QueryHelpSuggestion.copy
  notes := help.notes

/-! ## The number of suggestions -/

def defaultHelpSuggestions : ℕ := 5

def clampSuggestionCount (count : ℕ) : ℕ := max 1 (min count maxHelpSuggestions)

/-- `(?P<count>\d{1,2})` and the rest of the pattern; two digits are tried first. -/
def countThen (unicode : Unicode) (isWord : Char → Bool) (rest : Pattern) :
    Pattern.Position → Option ℕ
  | (_, []) => none
  | (_, c :: cs) =>
    match unicode.digitValue c with
    | none => none
    | some tens =>
      let one := if (rest.ends isWord (some c, cs)).isEmpty then none else some tens.val
      match cs with
      | [] => one
      | d :: ds =>
        match unicode.digitValue d with
        | none => one
        | some ones =>
          if (rest.ends isWord (some d, ds)).isEmpty then one else some (10 * tens.val + ones.val)

/-- The group `count` of the first match from a position on. -/
def countFrom (unicode : Unicode) (isWord : Char → Bool) (before rest : Pattern) :
    Option Char → List Char → Option ℕ
  | previous, [] =>
    (before.ends isWord (previous, [])).findSome? (countThen unicode isWord rest)
  | previous, c :: cs =>
    match (before.ends isWord (previous, c :: cs)).findSome? (countThen unicode isWord rest) with
    | some count => some count
    | none => countFrom unicode isWord before rest (some c) cs

/-- `count_patterns`: what stands before the count, and what stands after it. -/
def countPatterns : List (Pattern × Pattern) :=
  let verb : Pattern := .anyOf (["give", "show", "list", "suggest", "return"].map .literal)
  let noun : Pattern := .anyOf
    (["example", "examples", "question", "questions", "suggestion", "suggestions"].map .literal)
  [(.sequence [.boundary, verb, .spaces, .literal "me", .spaces], .boundary),
    (.sequence [.boundary, verb, .spaces], .boundary),
    (.boundary, .sequence [.spaces, noun, .boundary])]

def requestedSuggestionCount (unicode : Unicode) (tables : CaseTables) (question : String) : ℕ :=
  let count? := countPatterns.findSome? fun pattern =>
    countFrom unicode tables.isWord pattern.1 pattern.2 none (tables.lower question).toList
  match count? with
  | some count => clampSuggestionCount count
  | none => defaultHelpSuggestions

def limitQueryHelpSuggestions (help : QueryHelp) (suggestionCount : ℕ) : Py QueryHelp :=
  if help.suggestions.length ≤ suggestionCount then .ok help
  else help.withSuggestions (help.suggestions.take suggestionCount)

/-! ## Plans for references

The builders of `Help`, on a suggestion that may be a copy. -/

/-- `group_by` of an aggregate suggestion plan. -/
def HelpSuggestion.groupBy (suggestion : HelpSuggestion) (resource : CapabilityResource) :
    List PyObj :=
  match suggestion.dateFields with
  | dateField :: _ => [.dict [fieldEntry dateField, (textObj "date_trunc", textObj "month")]]
  | [] =>
    ((suggestion.fields.take 2).filter fun name =>
      ((fieldNamed resource name).map CapabilityField.canGroup).getD false).map fun name =>
        .dict [fieldEntry name]

/-- The term of `order_by` of an aggregate suggestion plan. -/
def HelpSuggestion.orderBy (suggestion : HelpSuggestion) (metrics : List String) : PyObj :=
  match suggestion.dateFields, metrics with
  | dateField :: _, _ => .dict [fieldEntry dateField, (textObj "direction", textObj "asc")]
  | [], metric :: _ =>
    .dict [(textObj "metric", textObj metric), (textObj "direction", textObj "desc")]
  | [], [] => .dict []

/-- `build_aggregate_suggestion_plan`. -/
def HelpSuggestion.aggregatePlan (suggestion : HelpSuggestion) (resource : CapabilityResource)
    (metrics : List String) : Entries :=
  [(textObj "resource", textObj resource.name), (textObj "intent", textObj "aggregate"),
    (textObj "filters", .list []), (textObj "group_by", .list (suggestion.groupBy resource)),
    (textObj "metrics", .list (metrics.map fun name => .dict [(textObj "metric", textObj name)])),
    (textObj "select", .list []), (textObj "order_by", .list [suggestion.orderBy metrics]),
    (textObj "limit", .int none planLimit)]

/-- `build_list_suggestion_plan`. -/
def HelpSuggestion.listPlan (suggestion : HelpSuggestion) (resource : CapabilityResource) :
    Py Entries :=
  let referenced := suggestion.fields.filter fun name =>
    ((fieldNamed resource name).map CapabilityField.canSelect).getD false
  let selectable :=
    ((resource.fields.filter CapabilityField.canSelect).map CapabilityField.name).take 3
  let select := if referenced = [] then selectable else referenced
  if select = [] then
    .error (planInvalid (s!"QueryHelp suggestion for resource {pyRepr suggestion.resourceName} " ++
      "does not reference selectable fields or metrics."))
  else
    .ok [(textObj "resource", textObj resource.name), (textObj "intent", textObj "list"),
      (textObj "filters", .list []), (textObj "group_by", .list []),
      (textObj "metrics", .list []), (textObj "select", .list ((select.take 8).map textObj)),
      (textObj "order_by", .list []), (textObj "limit", .int none planLimit)]

/-- `build_suggestion_plan_payload`. -/
def HelpSuggestion.planPayload (suggestion : HelpSuggestion) (resource : CapabilityResource) :
    Py Entries :=
  match suggestion.metrics.filter (resource.metrics.map CapabilityMetric.name).contains with
  | [] => suggestion.listPlan resource
  | metrics => .ok (suggestion.aggregatePlan resource metrics)

theorem planPayload_copy (suggestion : QueryHelpSuggestion) (resource : CapabilityResource) :
    suggestion.copy.planPayload resource = buildSuggestionPlanPayload suggestion resource := rfl

variable {env : Environment}

/-- `validate_suggestion_plan` on a suggestion without a plan that needs one. -/
def HelpSuggestion.withPlan (context : HelpContext env) (suggestion : HelpSuggestion)
    (resource : CapabilityResource) : Py HelpSuggestion := do
  let rawPlan ← suggestion.planPayload resource
  let validatedPlan ← parseAndValidateQueryPlan context.registry context.limits
    (.ofPermissions context.permissions) (.mapping rawPlan)
  raiseIf (validatedPlan.resource ≠ resource.name)
    (planInvalid (s!"QueryHelp suggestion for resource {pyRepr suggestion.resourceName} " ++
      s!"included a plan for resource {pyRepr validatedPlan.resource}."))
  validatePlanUsesCapabilities validatedPlan resource
  .ok { suggestion with plan := some validatedPlan.modelDump }

/-! ## Suggestions from examples -/

def enrichDeterministicSuggestionReferences (tables : CaseTables) (suggestion : HelpSuggestion)
    (resource : ResourceGuidance) : HelpSuggestion :=
  let fields := exampleFields tables resource.fields resource.scope
  if fields.selectable ≠ [] ∧
      suggestion.question = buildListExample resource.label fields.selectable then
    { suggestion with fields := (fields.selectable.take 3).map CapabilityField.name }
  else
    let byField : Option HelpSuggestion :=
      match resource.metrics, fields.group with
      | metric :: _, field :: _ =>
        if suggestion.question = buildMetricByFieldExample metric field then
          some { suggestion with fields := [field.name], metrics := [metric.name] }
        else none
      | _, _ => none
    match byField with
    | some enriched => enriched
    | none =>
      match resource.metrics, fields.date with
      | metric :: _, field :: _ =>
        if suggestion.question = buildMetricTrendExample metric field then
          { suggestion with metrics := [metric.name], dateFields := [field.name] }
        else suggestion
      | _, _ => suggestion

def deterministicWhy : String := "Generated from registered AskLens capabilities metadata."

def buildDeterministicSuggestionFromExample (context : HelpContext env)
    (resource : ResourceGuidance) (question : String) : Py HelpSuggestion := do
  let suggestion ←
    QueryHelpSuggestion.init question resource.name [] [] [] none deterministicWhy
  let enriched := enrichDeterministicSuggestionReferences context.tables suggestion.copy resource
  if enriched.fields = [] ∧ enriched.metrics = [] ∧ enriched.dateFields = [] then .ok enriched
  else
    match enriched.withPlan context resource.toCapabilityResource with
    | .ok validated => .ok { enriched with plan := validated.plan }
    | .error (.askLens _) => .ok enriched
    | .error e => .error e

def suggestExamples (build : String → Py HelpSuggestion) (desiredCount : ℕ) :
    List String → List HelpSuggestion → Py (List HelpSuggestion)
  | [], suggestions => .ok suggestions
  | text :: rest, suggestions => do
    let suggestion ← build text
    if desiredCount ≤ (suggestions ++ [suggestion]).length then .ok (suggestions ++ [suggestion])
    else suggestExamples build desiredCount rest (suggestions ++ [suggestion])

def suggestResources (build : ResourceGuidance → String → Py HelpSuggestion) (desiredCount : ℕ) :
    List ResourceGuidance → List HelpSuggestion → Py (List HelpSuggestion)
  | [], suggestions => .ok suggestions
  | resource :: rest, suggestions => do
    let suggestions ← suggestExamples (build resource) desiredCount resource.examples suggestions
    if desiredCount ≤ suggestions.length then .ok suggestions
    else suggestResources build desiredCount rest suggestions

def deterministicNotes : List String :=
  ["Suggestions are based only on resources and fields visible to this request.",
    "AskLens will still validate every generated query plan before execution.",
    "For broad list questions, add filters, ordering, or an explicit limit to narrow large " ++
      "result sets."]

/-- `QueryHelp(..)` with these suggestions, where a `ValidationError` is a `ValueError`. -/
def HelpContent.init (answer : String) (suggestions : List HelpSuggestion) (notes : List String) :
    Py HelpContent :=
  if strip answer ≠ "" ∧ suggestions.length ≤ maxHelpSuggestions ∧ notes.length ≤ 5 ∧
      ∀ note ∈ notes, strip note ≠ "" then
    .ok { answer := strip answer, suggestions := suggestions, notes := notes.map strip }
  else .error (.builtin .valueError)

/-- `build_deterministic_query_help`, as the request orchestration calls it. -/
def buildDeterministicQueryHelp (context : HelpContext env) (capabilities : CapabilitiesSnapshot)
    (question : String) : Py HelpContent := do
  let desiredCount := requestedSuggestionCount env.unicode context.tables question
  let suggestions ← suggestResources (buildDeterministicSuggestionFromExample context)
    desiredCount capabilities.resources []
  let answer :=
    if capabilities.summary = "" then "AskLens query guidance is available."
    else capabilities.summary
  HelpContent.init answer suggestions deterministicNotes

end AskLens.Planning
