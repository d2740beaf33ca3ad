import AskLens.Execution.Requests
import AskLens.Planning.DeterministicHelp
import AskLens.Planning.Intents
import AskLens.Planning.Optimization

/-!
# Planning with a provider

A provider is any function from what it is told to what it sends back. Whatever
that is, it is parsed strictly and validated under the permissions of the
request before anything else looks at it.
-/
namespace AskLens.Querying

open Python Catalog Checks AskLens.Planning Execution

/-- What a provider is told besides fixed instructions and schemas. The metadata is written with
`stable_json_dumps`. -/
inductive ProviderRequest where
  | unified (question : String) (capabilities : PromptCapabilities) (suggestionCount : ℕ)
  | help (question : String) (capabilities : CapabilitiesSnapshot) (suggestionCount : ℕ)
  | intent (question : String) (capabilities : CapabilitiesSnapshot)
  | plan (question : String) (catalog : List ResourceCatalogItem)
deriving DecidableEq

/-- The settings, the registry and the provider of a deployment. -/
structure PlanningService (env : Environment) where
  tables : CaseTables
  registry : CatalogRegistry env
  limits : PlanLimits
  /-- `PROMPT_RESOURCE_SHORTLIST_LIMIT`. -/
  shortlistLimit : ℤ
  /-- `LLM_BACKEND` is not `dummy`. -/
  live : Bool
  /-- `get_llm_provider().complete_json`. -/
  provider : ProviderRequest → Planning RawPlan
  parseConfidence : PyObj → Parse Binary64

/-- A planning computation raises fresh errors. -/
def raising {α : Type} : Py α → Planning α
  | .ok value => .ok value
  | .error (.askLens exc) => .error (.askLens (exc.cls.errorType.raised none))
  | .error (.builtin _) => .error .exception

namespace PlanningService

variable {env : Environment} (service : PlanningService env)

/-- `build_query_guidance`. -/
def guidance (permissions : List String) : CapabilitiesSnapshot :=
  buildQueryGuidance service.tables service.limits.maxRows service.registry permissions

/-- `requested_suggestion_count`. -/
def suggestionCount (question : String) : ℕ :=
  requestedSuggestionCount env.unicode service.tables question

def helpContext (permissions : List String) : HelpContext env where
  tables := service.tables
  registry := service.registry
  limits := service.limits
  permissions := permissions
  requirePlans := true

/-- `parse_and_validate_query_plan` under the permissions of the request. -/
def validate (permissions : List String) (raw : RawPlan) : Py QueryPlan :=
  parseAndValidateQueryPlan service.registry service.limits (.ofPermissions permissions) raw

/-! ## Help and queries in one call -/

/-- `AskLensProviderResult`. -/
inductive ProviderResult where
  | query (plan : QueryPlan) (presentation : Option PresentationSpec)
  | capabilities (help : QueryHelp)

/-- The prompt of `plan_asklens_response`. -/
def unifiedRequest (question : String) (capabilities : CapabilitiesSnapshot) : ProviderRequest :=
  .unified question
    (buildProviderPromptCapabilities service.tables question capabilities
      (isCapabilitiesFallbackQuestion service.tables question) service.shortlistLimit)
    (service.suggestionCount question)

/-- The validated help of a provider, with as many suggestions as were asked for. -/
def acceptHelp (question : String) (capabilities : CapabilitiesSnapshot)
    (permissions : List String) (help : QueryHelp) : Py QueryHelp := do
  let help ← validateQueryHelp (service.helpContext permissions)
    (capabilities.resources.map ResourceGuidance.toCapabilityResource) help
  limitQueryHelpSuggestions help (service.suggestionCount question)

/-- What `plan_asklens_response` makes of a payload. -/
def readProviderResponse (question : String) (capabilities : CapabilitiesSnapshot)
    (permissions : List String) (payload : RawPlan) : Py ProviderResult := do
  match ← parseAskLensProviderResponse env payload with
  | .query queryPlan presentation => do
    let plan ← service.validate permissions (.mapping queryPlan)
    .ok (.query plan presentation)
  | .capabilities help => do
    let help ← service.acceptHelp question capabilities permissions help
    .ok (.capabilities help)

def planAskLensResponse (question : String) (capabilities : CapabilitiesSnapshot)
    (permissions : List String) : Planning ProviderResult := do
  let payload ← service.provider (service.unifiedRequest question capabilities)
  raising (service.readProviderResponse question capabilities permissions payload)

def buildQueryHelp (question : String) (capabilities : CapabilitiesSnapshot)
    (permissions : List String) : Planning QueryHelp := do
  let payload ←
    service.provider (.help question capabilities (service.suggestionCount question))
  let help ← raising (parseQueryHelp env payload)
  raising (service.acceptHelp question capabilities permissions help)

/-! ## Plans -/

/-- `PlannerProviderResponse.model_validate`. -/
def parsePlannerResponseModel (env : Environment) (v : PyObj) :
    Parse (QueryPlan × Option PresentationSpec) := do
  let entries ← modelEntries "PlannerProviderResponse" v
  let plan ← required entries "query_plan" fun v => do
    let members ← modelEntries "QueryPlan" v
    parseQueryPlanModel env members
  let presentation? ←
    optional entries "presentation" (parseOptional (parsePresentationSpec env))
  forbidExtra env ["query_plan", "presentation"] entries
  .ok (plan, presentation?.join)

def parsePlannerProviderResponse (env : Environment) (raw : RawPlan) :
    Py (QueryPlan × Option PresentationSpec) :=
  parseProviderModel env "PlannerProviderResponse" (parsePlannerResponseModel env) id raw

/-- `validate_query_plan` under the permissions of the request: the dump of a parsed plan is
bounded before `_validate_query_plan` looks at the plan. -/
def validateQueryPlan (permissions : List String) (plan : QueryPlan) : Py QueryPlan := do
  validatePlanPayloadSize env service.limits.maxPlanBytes (.mapping plan.dump)
  AskLens.Planning.validateQueryPlan service.registry service.limits (.ofPermissions permissions)
    plan

def planQuestion (question : String) (permissions : List String) :
    Planning (QueryPlan × Option PresentationSpec) := do
  let catalog := service.registry.toDict (.ofPermissions permissions)
  let payload ← service.provider (.plan question catalog)
  let response ← raising (parsePlannerProviderResponse env payload)
  let plan ← raising (service.validateQueryPlan permissions response.1)
  .ok (plan, response.2)

/-! ## Intents -/

/-- The `source` of an `IntentRoutingResult`. -/
inductive RoutingSource where
  | semanticProvider | fallback | default
deriving DecidableEq, Repr

def planQuestionIntent (question : String) (capabilities : CapabilitiesSnapshot) :
    Planning QuestionIntent := do
  let payload ← service.provider (.intent question capabilities)
  raising (parseQuestionIntent env service.parseConfidence payload)

/-- `route_question_intent`; `asks` says that a provider is given or configured. -/
def routeQuestionIntent (asks : Bool) (question : String) (capabilities : CapabilitiesSnapshot) :
    Planning (QuestionIntent × RoutingSource) :=
  if isCapabilitiesFallbackQuestion service.tables question = true then
    .ok (capabilitiesIntent (confidenceOf 7), .fallback)
  else if asks = true then
    match service.planQuestionIntent question capabilities with
    -- the wording is known here not to be that of a fallback question
    | .error (.askLens _) => .ok (queryIntent (confidenceOf 5), .default)
    | .error .exception => .error .exception
    | .ok intent => do
      let validated ← raising (validateQuestionIntent intent capabilities)
      .ok (validated, .semanticProvider)
  else .ok (queryIntent (confidenceOf 10), .default)

end PlanningService

end AskLens.Querying
