import AskLens.Planning.Help
import AskLens.Planning.Presentation

/-!
# Provider responses

What a provider sends back is parsed like a plan that a client sends: strict
models, from a text or a mapping, with one error at a time. Only the redundant
`select` of an aggregate plan is dropped before.
-/
namespace AskLens.Planning

open Python Catalog Checks

/-! ## Help -/

/-- `tuple[.., ...]` with a greatest length. -/
def parseBoundedTuple {α : Type} (maxLength : ℕ) (item : PyObj → Parse α) (v : PyObj) :
    Parse (List α) :=
  match sequence? v with
  | none => fail "Input should be a valid tuple"
  | some items =>
    if maxLength < items.length then
      fail (s!"Tuple should have at most {maxLength} items after validation, not " ++
        toString items.length)
    else parseItems item 0 items

/-- A tuple of texts, stripped once they are all known to be strings. -/
def parseNames (maxLength : ℕ) (label : String) (v : PyObj) : Parse (List String) := do
  let items ← parseBoundedTuple maxLength parseStr v
  let names ← items.mapM (validateNonEmptyString label)
  .ok (names.map PyStr.shown)

/-- The entries of a `dict[str, Any]`. -/
def parseStrKeys (env : Environment) : Entries → Parse Entries
  | [] => .ok []
  | (key, v) :: rest => do
    let name ← under (env.display key) (under "[key]" (parseStr key))
    let entries ← parseStrKeys env rest
    .ok ((nameObj name, v) :: entries)

/-- `dict[str, Any]`. -/
def parseStrDict (env : Environment) : PyObj → Parse Entries
  | .dict entries => parseStrKeys env entries
  | _ => fail "Input should be a valid dictionary"

/-- A value that is validated as `parse` says and is built as `init` says. -/
def built {α : Type} : Py α → Parse α
  | .ok value => .ok value
  | .error _ => fail "Value error"

/-- `QueryHelpSuggestion.model_validate`. -/
def parseQueryHelpSuggestion (env : Environment) (v : PyObj) : Parse QueryHelpSuggestion := do
  let entries ← modelEntries "QueryHelpSuggestion" v
  let question ← required entries "question" (parseShownName "suggested question")
  let resourceName ← required entries "resource_name" (parseShownName "resource name")
  let fields? ← optional entries "fields" (parseNames maxReferenceCount "catalog reference")
  let metrics? ← optional entries "metrics" (parseNames maxReferenceCount "catalog reference")
  let dateFields? ←
    optional entries "date_fields" (parseNames maxReferenceCount "catalog reference")
  let plan? ← optional entries "plan" (parseOptional (parseStrDict env))
  let why? ← optional entries "why" parseShown
  forbidExtra env ["question", "resource_name", "fields", "metrics", "date_fields", "plan", "why"]
    entries
  -- every member has passed its own check, so the model is built
  built (QueryHelpSuggestion.init question resourceName (fields?.getD []) (metrics?.getD [])
    (dateFields?.getD []) plan?.join (why?.getD ""))

/-- `QueryHelp` of validated members. -/
def QueryHelp.init (answer : String) (suggestions : List QueryHelpSuggestion)
    (notes : List String) : Py QueryHelp :=
  if h : IsName answer ∧ (∀ note ∈ notes, IsName note) ∧
      suggestions.length ≤ maxHelpSuggestions ∧ notes.length ≤ 5 then
    .ok ⟨answer, suggestions, notes, h.1, h.2.1, h.2.2.1, h.2.2.2⟩
  else .error (.builtin .valueError)

/-- `QueryHelp.model_validate`. -/
def parseQueryHelpModel (env : Environment) (v : PyObj) : Parse QueryHelp := do
  let entries ← modelEntries "QueryHelp" v
  let answer ← required entries "answer" (parseShownName "help answer")
  let suggestions? ← optional entries "suggestions"
    (parseBoundedTuple maxHelpSuggestions (parseQueryHelpSuggestion env))
  let notes? ← optional entries "notes" (parseNames 5 "help note")
  forbidExtra env ["answer", "suggestions", "notes"] entries
  built (QueryHelp.init answer (suggestions?.getD []) (notes?.getD []))

/-- A provider's payload under the name of its own model; a `ValidationError` becomes a
`PlanValidationError`. -/
def parseProviderModel {α : Type} (env : Environment) (model : String)
    (parse : PyObj → Parse α) (normalize : Entries → Entries) (raw : RawPlan) : Py α := do
  let payload ← parsePlanPayload env raw
  match parse (.dict (normalize payload)) with
  | .ok value => .ok value
  | .error e => .error (planInvalid ((formatPydanticError e).replace "QueryPlan" model))

def parseQueryHelp (env : Environment) (raw : RawPlan) : Py QueryHelp :=
  parseProviderModel env "QueryHelp" (parseQueryHelpModel env) id raw

/-! ## Compact plans -/

def isKey (key : String) : PyObj → Bool
  | .str _ s => s == key
  | _ => false

/-- `entries[key] = value` for a key that is there. -/
def replaceKey (entries : Entries) (key : String) (value : PyObj) : Entries :=
  entries.map fun entry => if isKey key entry.1 then (entry.1, value) else entry

/-- `entries.pop(key, None)`. -/
def popKey (entries : Entries) (key : String) : Entries :=
  entries.filter fun entry => !isKey key entry.1

/-- The text of a `str` object. -/
def strText? : PyObj → Option PyText
  | .str _ s => some (PyText.ofString s)
  | .surrogates t => some t
  | _ => none

/-- The text under `field` of an item of `group_by`. -/
def groupField? : PyObj → Option PyText
  | .dict entries => (lookupKey entries "field").bind strText?
  | _ => none

def isGroupByDuplicateSelect (select groupBy : Option PyObj) : Bool :=
  match select with
  | some (.list []) => true
  | some (.list items) =>
    match groupBy with
    | some (.list groups) =>
      let groupFields := groups.filterMap groupField?
      items.all fun item => (strText? item).any groupFields.contains
    | _ => false
  | _ => false

def normalizeCompactQueryPlan (plan : Entries) : Entries :=
  if (lookupKey plan "intent").any (isKey "aggregate") = false ∨ lookupKey plan "select" = none then
    plan
  else if isGroupByDuplicateSelect (lookupKey plan "select") (lookupKey plan "group_by") = true then
    popKey plan "select"
  else plan

def normalizeProviderResponsePayload (payload : Entries) : Entries :=
  match lookupKey payload "query_plan" with
  | some (.dict queryPlan) =>
    replaceKey payload "query_plan" (.dict (normalizeCompactQueryPlan queryPlan))
  | _ => payload

/-! ## Unified responses -/

/-- `AskLensProviderResponse`, after `validate_response_branch`. -/
inductive AskLensProviderResponse where
  | query (queryPlan : Entries) (presentation : Option PresentationSpec)
  | capabilities (queryHelp : QueryHelp)

inductive ResponseType where
  | query | capabilities
deriving DecidableEq, Repr

def ResponseType.name : ResponseType → String
  | .query => "query"
  | .capabilities => "capabilities"

def validateResponseBranch (responseType : ResponseType) (queryPlan : Option Entries)
    (presentation : Option PresentationSpec) (queryHelp : Option QueryHelp) :
    Parse AskLensProviderResponse :=
  match responseType, queryPlan, presentation, queryHelp with
  | .query, none, _, _ => valueError "response_type='query' requires query_plan."
  | .query, some _, _, some _ => valueError "response_type='query' must not include query_help."
  | .query, some plan, presentation, none => .ok (.query plan presentation)
  | .capabilities, _, _, none => valueError "response_type='capabilities' requires query_help."
  | .capabilities, some _, _, some _ =>
    valueError "response_type='capabilities' must not include query_plan."
  | .capabilities, none, some _, some _ =>
    valueError "response_type='capabilities' must not include presentation."
  | .capabilities, none, none, some help => .ok (.capabilities help)

/-- `AskLensProviderResponse.model_validate`. -/
def parseProviderResponseModel (env : Environment) (v : PyObj) : Parse AskLensProviderResponse := do
  let entries ← modelEntries "AskLensProviderResponse" v
  let responseType ← required entries "response_type"
    (parseLiteral [.query, .capabilities] ResponseType.name)
  let queryPlan? ← optional entries "query_plan" (parseOptional (parseStrDict env))
  let presentation? ←
    optional entries "presentation" (parseOptional (parsePresentationSpec env))
  let queryHelp? ← optional entries "query_help" (parseOptional (parseQueryHelpModel env))
  forbidExtra env ["response_type", "query_plan", "presentation", "query_help"] entries
  validateResponseBranch responseType queryPlan?.join presentation?.join queryHelp?.join

def parseAskLensProviderResponse (env : Environment) (raw : RawPlan) : Py AskLensProviderResponse :=
  parseProviderModel env "AskLensProviderResponse" (parseProviderResponseModel env)
    normalizeProviderResponsePayload raw

end AskLens.Planning
