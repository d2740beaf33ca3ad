import AskLens.Querying.Providers
import AskLens.Results.Presentation

/-!
# The query service

`execute_asklens_query_request` with all of its stages: the planning that its
settings select, the facade, the presentation, the fallback, and the payload of
every answer.
-/
namespace AskLens.Querying

open Python Catalog Checks Compiler AskLens.Planning Execution Results

variable {R Q V D : Type} {env : Environment}

/-! ## Answers -/

/-- `QueryResult.to_dict`: the serialized rows and what is known about them. -/
structure ResultDocument (D : Type) where
  rows : D
  durationMs : ℕ
  limit : ℤ
  limitScope : LimitScope
  truncated : Bool

structure QueryPayload (R D : Type) where
  question : String
  plan : Entries
  result : ResultDocument D
  runId : Option R
  presentation : Option NormalizedPresentation
  debug : Option Entries

/-- The `source` of help. -/
inductive HelpSource where
  | semanticProvider | deterministic | deterministicFallback
deriving DecidableEq, Repr

/-- The payload of `_build_capabilities_payload`, less the machine capabilities and the fixed
explanation. The error is left out when it is empty. -/
structure CapabilitiesPayload where
  question : String
  intent : QuestionIntent
  source : PlanningService.RoutingSource
  catalog : List ResourceCatalogItem
  helpSource : HelpSource
  help : HelpContent
  helpError : String

/-- `AskLensQueryResponse`. -/
inductive ServiceResponse (R D : Type) where
  | query (payload : QueryPayload R D)
  | capabilities (payload : CapabilitiesPayload)
  | error (question : String) (run : Option R) (payload : PublicErrorDocument)

def safeProviderFallbackMessage (code : AskLensErrorCode) : String :=
  let reason :=
    if code = .providerFailed then "Provider request failed."
    else "Provider output failed AskLens validation."
  reason ++ " Returned deterministic AskLens help instead."

/-! ## Requests -/

/-- The arguments of `execute_asklens_query_request`, with what is read from the request. -/
structure ServiceRequest where
  question : String
  debug : Bool
  isStaff : Bool
  includePresentation : Bool
  providedPlan : Option RawPlan
  providedPresentation : Option Entries
  /-- The two readings of `get_request_permissions`, `none` where it raises. -/
  permissions : Option (List String)
  executionPermissions : Option (List String)

def parsePresentation (env : Environment) (provided : Option Entries) :
    Planning (Option PresentationSpec) :=
  match provided with
  | none => .ok none
  | some entries =>
    match parsePresentationSpec env (.dict entries) with
    | .ok spec => .ok (some spec)
    | .error _ => .error (.askLens (ErrorType.planParseError.raised (some "/presentation")))

inductive PlannedResponse where
  | capabilities (payload : CapabilitiesPayload)
  | plan (plan : UntrustedPlan) (presentation : Option PresentationSpec)

namespace PlanningService

variable (service : PlanningService env)

/-- `_build_capabilities_payload`. -/
def capabilitiesPayload (question : String) (intent : QuestionIntent) (source : RoutingSource)
    (permissions : List String) (help : HelpContent) (helpSource : HelpSource)
    (helpError : String) : CapabilitiesPayload where
  question := question
  intent := intent
  source := source
  catalog := service.registry.toDict (.ofPermissions permissions)
  helpSource := helpSource
  help := help
  helpError := helpError

/-- `build_deterministic_query_help`. -/
def deterministicHelp (question : String) (capabilities : CapabilitiesSnapshot)
    (permissions : List String) : Planning HelpContent :=
  raising (buildDeterministicQueryHelp (service.helpContext permissions) capabilities question)

/-- `_get_query_help_for_capabilities`. -/
def queryHelpForCapabilities (question : String) (capabilities : CapabilitiesSnapshot)
    (permissions : List String) : Planning (HelpContent × HelpSource × String) :=
  if service.live = false then do
    let help ← service.deterministicHelp question capabilities permissions
    .ok (help, .deterministic, "")
  else
    match service.buildQueryHelp question capabilities permissions with
    | .ok help => .ok (help.content, .semanticProvider, "")
    | .error (.askLens exc) => do
      let help ← service.deterministicHelp question capabilities permissions
      .ok (help, .deterministicFallback, safeProviderFallbackMessage exc.code)
    | .error .exception => .error .exception

/-- The branch of a configured provider. -/
def planLive (question : String) (permissions : List String)
    (presentation : Option PresentationSpec) : Planning PlannedResponse := do
  let capabilities := service.guidance permissions
  match ← service.planAskLensResponse question capabilities permissions with
  | .capabilities help =>
    .ok (.capabilities (service.capabilitiesPayload question (capabilitiesIntent (confidenceOf 10))
      .semanticProvider permissions help.content .semanticProvider ""))
  | .query plan hint => .ok (.plan (.model plan) (presentation <|> hint))

/-- The branch without one, where the question is routed locally. -/
def planRouted (question : String) (permissions : List String)
    (presentation : Option PresentationSpec) : Planning PlannedResponse := do
  let routed ← service.routeQuestionIntent service.live question (service.guidance permissions)
  match routed.1.intent with
  | .capabilities => do
    let capabilities := filterCapabilitiesForIntent (service.guidance permissions) routed.1
    let help ← service.queryHelpForCapabilities question capabilities permissions
    .ok (.capabilities (service.capabilitiesPayload question routed.1 routed.2 permissions help.1
      help.2.1 help.2.2))
  | .query => do
    let response ← service.planQuestion question permissions
    .ok (.plan (.model response.1) (presentation <|> response.2))

/-- The stages before `execute_plan`. -/
def plan (request : ServiceRequest) (permissions : List String) : Planning PlannedResponse := do
  let presentation ← parsePresentation env request.providedPresentation
  match request.providedPlan with
  | some payload => .ok (.plan (.raw payload) presentation)
  | none =>
    if service.live = true then service.planLive request.question permissions presentation
    else service.planRouted request.question permissions presentation

def shouldReturnCapabilitiesFallback (request : ServiceRequest) : Bool :=
  request.providedPlan.isNone && service.live &&
    isCapabilitiesFallbackQuestion service.tables request.question

/-- The answer to a failed request that asks for help. -/
def fallbackPayload (question : String) (permissions : List String) (exc : RaisedError) :
    Planning CapabilitiesPayload := do
  let help ← service.deterministicHelp question (service.guidance permissions) permissions
  .ok (service.capabilitiesPayload question (capabilitiesIntent (confidenceOf 5)) .fallback
    permissions help .deterministicFallback (safeProviderFallbackMessage exc.code))

variable (s : Surroundings R Q V D)

/-- The payload of a facade result; the display functions only serve diagnostics. -/
def respond (env : Environment) (request : ServiceRequest) (presentation : Option PresentationSpec)
    (r : FacadeResult R V) : Except (Raised R) (ServiceResponse R D) :=
  match r.toDict s with
  | .error e => .error e
  | .ok document =>
    match buildPresentationPayload (fun _ => "") env.display presentation r.result.columns
        request.includePresentation with
    | .error _ => .error .exception
    | .ok shown =>
      let plan := r.validatedPlan.modelDump
      .ok (.query
        { question := request.question
          plan := plan
          result :=
            { rows := document
              durationMs := r.durationMs
              limit := r.result.limit
              limitScope := r.result.limitScope
              truncated := r.result.truncated }
          runId := r.auditRecord
          presentation := shown
          debug := if request.debug = true then some plan else none })

/-- The body of the `try` statement. -/
def attempt (request : ServiceRequest) :
    Except (Raised R) (ServiceResponse R D) × List Effect :=
  match request.permissions with
  | none => (.error (.askLens (ErrorType.authorizationDeniedError.raised none)), [])
  | some permissions =>
    match service.plan request permissions with
    | .error e => (.error e.toRaised, [])
    | .ok (.capabilities payload) => (.ok (.capabilities payload), [])
    | .ok (.plan plan presentation) =>
      match executePlan s service.registry service.limits true request.question
          (request.executionPermissions.map .ofPermissions) plan with
      | (.error e, effects) => (.error e, effects)
      | (.ok result, effects) => (respond s env request presentation result, effects)

/-- The part of the handler that answers with an error. -/
def reject (question : String) (exc : RaisedError) (record : Option R)
    (auditAttempted observabilityAttempted : Bool) : ServiceResponse R D × List Effect :=
  let audit := if auditAttempted then (record, []) else auditExternalRejection s question exc
  let observed :=
    if observabilityAttempted then [] else s.observe [rejectedPlan exc.code s.requestMs]
  (.error question audit.1 exc.payload, audit.2 ++ observed)

/-- The error of the handler, with the marks that the facade may have left on it. -/
def rejectRaised (question : String) (exc : RaisedError) :
    Raised R → ServiceResponse R D × List Effect
  | .publicAskLens marked =>
    reject s question exc marked.auditRecord marked.auditAttempted marked.observabilityAttempted
  | _ => reject s question exc none false false

/-- `except AskLensError as exc`. -/
def handle (request : ServiceRequest) (e : Raised R) :
    Except (Raised R) (ServiceResponse R D) × List Effect :=
  match e.error? with
  | none => (.error e, [])
  | some exc =>
    let rejected := rejectRaised s request.question exc e
    match request.permissions with
    | none => (.ok rejected.1, rejected.2)
    | some permissions =>
      if exc.code ≠ .authorizationDenied ∧
          service.shouldReturnCapabilitiesFallback request = true then
        match service.fallbackPayload request.question permissions exc with
        | .error failure => (.error failure.toRaised, [])
        | .ok payload => (.ok (.capabilities payload), [])
      else (.ok rejected.1, rejected.2)

/-- `execute_asklens_query_request` after `_enforce_debug_permission`. -/
def answer (request : ServiceRequest) : Except (Raised R) (ServiceResponse R D) × List Effect :=
  match service.attempt s request with
  | (.ok response, effects) => (.ok response, effects)
  | (.error e, effects) =>
    let handled := service.handle s request e
    (handled.1, effects ++ handled.2)

/-- `execute_asklens_query_request`. A debug request of someone else ends with Django's own
`PermissionDenied`, before anything is read. -/
def execute (request : ServiceRequest) : Except (Raised R) (ServiceResponse R D) × List Effect :=
  if request.debug = true ∧ request.isStaff = false then (.error .exception, [])
  else service.answer s request

end PlanningService

end AskLens.Querying
