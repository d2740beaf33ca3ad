import AskLens.Catalog.QueryGuidance
import AskLens.Planning.ProviderResponses

/-!
# Question intents

A question either asks for data or asks what can be asked. Obvious wording is
recognized locally; a provider may classify the rest, and its choice of
resources is checked against the guidance that the caller may see.
-/
namespace AskLens.Planning

open Python Catalog Checks

/-! ## Wording -/

/-- `tokens & words`. -/
def anyToken (tokens words : List String) : Bool := words.any tokens.contains

def fallbackCapabilityHints : List String :=
  ["available", "capabilities", "capability", "help", "queryable"]

def fallbackCapabilityTargets : List String :=
  ["ask", "data", "entities", "entity", "fields", "field", "metrics", "metric", "queries", "query",
    "resources", "resource"]

def exampleWords : List String :=
  ["example", "examples", "sample", "samples", "suggestion", "suggestions"]

def queryWords : List String := ["queries", "query", "questions", "question"]

/-- The conditions of `is_capabilities_fallback_question`, in their order. -/
def asksForCapabilities (tokens : List String) : Bool :=
  let has := tokens.contains
  let any := anyToken tokens
  tokens.all (· == "help") || tokens.all (· == "capabilities") ||
    (any fallbackCapabilityHints && any fallbackCapabilityTargets) ||
    (has "what" && has "can" && any ["ask", "query", "queries"]) ||
    (has "queries" && has "run" && any ["can", "could"]) ||
    (has "questions" && has "ask" && any ["can", "could"]) ||
    (any exampleWords && any ("ask" :: queryWords)) ||
    (any ["show", "give", "list", "suggest", "return"] && any (exampleWords ++ queryWords) &&
      (any ["can", "could"] || any ["example", "examples", "sample", "samples"])) ||
    (any ["which", "what"] && any ["fields", "metrics", "resources", "entities"] &&
      any ["ask", "query", "queries", "available"])

def isCapabilitiesFallbackQuestion (tables : CaseTables) (question : String) : Bool :=
  let tokens := findTokens (tables.lower question)
  !tokens.isEmpty && asksForCapabilities tokens

/-! ## Intents -/

inductive QuestionIntentType where
  | query | capabilities
deriving DecidableEq, Repr

def QuestionIntentType.name : QuestionIntentType → String
  | .query => "query"
  | .capabilities => "capabilities"

inductive CapabilitySection where
  | resources | fields | metrics | dateFields | examples | limitations
deriving DecidableEq, Repr

def CapabilitySection.name : CapabilitySection → String
  | .resources => "resources"
  | .fields => "fields"
  | .metrics => "metrics"
  | .dateFields => "date_fields"
  | .examples => "examples"
  | .limitations => "limitations"

def defaultCapabilitySections : List CapabilitySection :=
  [.resources, .fields, .metrics, .dateFields, .examples, .limitations]

structure QuestionIntent where
  intent : QuestionIntentType
  resourceNames : List PyStr
  sections : List CapabilitySection
  confidence : Binary64
deriving DecidableEq

/-- `1`, `0.7` and `0.5`. -/
def confidenceOf (tenths : ℕ) : Binary64 := Binary64.ofDecimal false tenths (-1)

def queryIntent (confidence : Binary64) : QuestionIntent :=
  ⟨.query, [], defaultCapabilitySections, confidence⟩

/-- `capabilities_intent`, as its callers use it. -/
def capabilitiesIntent (confidence : Binary64) : QuestionIntent :=
  ⟨.capabilities, [], defaultCapabilitySections, confidence⟩

/-- `QuestionIntent.model_validate`; `parseConfidence` is pydantic's number between 0 and 1. -/
def parseQuestionIntentModel (env : Environment) (parseConfidence : PyObj → Parse Binary64)
    (v : PyObj) : Parse QuestionIntent := do
  let entries ← modelEntries "QuestionIntent" v
  let intent ← required entries "intent"
    (parseLiteral [.query, .capabilities] QuestionIntentType.name)
  let resourceNames? ← optional entries "resource_names" fun v => do
    let items ← parseTuple parseStr v
    items.mapM (validateNonEmptyString "resource name")
  let sections? ← optional entries "sections"
    (parseTuple (parseLiteral defaultCapabilitySections CapabilitySection.name))
  let confidence? ← optional entries "confidence" parseConfidence
  forbidExtra env ["intent", "resource_names", "sections", "confidence"] entries
  .ok
    { intent := intent
      resourceNames := resourceNames?.getD []
      sections := sections?.getD defaultCapabilitySections
      confidence := confidence?.getD (confidenceOf 10) }

def parseQuestionIntent (env : Environment) (parseConfidence : PyObj → Parse Binary64)
    (raw : RawPlan) : Py QuestionIntent :=
  parseProviderModel env "QuestionIntent" (parseQuestionIntentModel env parseConfidence) id raw

def validateQuestionIntent (intent : QuestionIntent) (capabilities : CapabilitiesSnapshot) :
    Py QuestionIntent :=
  let visible := capabilities.resources.map fun r => PyStr.text r.name
  let unknown := intent.resourceNames.filter fun name => !visible.contains name
  if unknown = [] then .ok intent
  else
    .error (planInvalid ("QuestionIntent referenced unknown capabilities resources: " ++
      displayNames (unknown.map PyStr.shown) ++ "."))

def buildFilteredSummary (resources : List ResourceGuidance) : String :=
  match resources.length with
  | 0 => "No matching AskLens resources are queryable for this request."
  | 1 => "This capabilities answer is scoped to 1 queryable resource."
  | count => s!"This capabilities answer is scoped to {count} queryable resources."

def filterCapabilitiesForIntent (capabilities : CapabilitiesSnapshot) (intent : QuestionIntent) :
    CapabilitiesSnapshot :=
  if intent.resourceNames = [] then capabilities
  else
    let resources := capabilities.resources.filter fun r => intent.resourceNames.contains (.text r.name)
    { capabilities with
      summary := buildFilteredSummary resources
      resources := resources
      examples := resources.flatMap fun r => r.examples }

end AskLens.Planning
