import AskLens.Execution.Facade

/-!
# Query requests

`execute_asklens_query_request`: a request is planned, executed by the facade and
answered, and every failure is audited and observed where the facade has not
done so before.
-/
namespace AskLens.Execution

open Python Catalog Planning Compiler Observability

variable {R Q V D : Type} {env : Environment}

/-- What planning raises: its errors are the package's own and fresh, so no public ones. -/
inductive PlanningFailure where
  | askLens (exc : RaisedError)
  | exception
deriving DecidableEq

def PlanningFailure.toRaised : PlanningFailure → Raised R
  | .askLens exc => .askLens exc
  | .exception => .exception

abbrev Planning (α : Type) := Except PlanningFailure α

/-- What a planning stage decides to answer with. -/
inductive Planned where
  | capabilities
  | plan (plan : UntrustedPlan)

/-- A request with the outcomes of the planning stages it may go through. -/
structure QueryRequest where
  question : String
  providedPlan : Option RawPlan
  /-- The two readings of `get_request_permissions`, `none` where it raises. -/
  permissions : Option Access
  executionPermissions : Option Access
  parsePresentation : Planning Unit
  /-- `_should_use_unified_provider_response()`. -/
  live : Bool
  buildQueryGuidance : Planning Unit
  planAskLensResponse : Planning Planned
  /-- `route_question_intent`: whether it asks for capabilities. -/
  routeQuestionIntent : Planning Bool
  /-- `_get_query_help_for_capabilities`. -/
  queryHelp : Planning Unit
  buildCapabilitiesPayload : Planning Unit
  planQuestion : Planning UntrustedPlan
  /-- `is_capabilities_fallback_question(question)`. -/
  fallbackQuestion : Bool
  /-- The guidance, the help and the payload of the deterministic fallback. -/
  buildFallback : Planning Unit
  /-- `normalize_presentation`. -/
  normalizePresentation : Planning Unit

/-- The stages before `execute_plan`. -/
def QueryRequest.plan (request : QueryRequest) : Planning Planned := do
  request.parsePresentation
  match request.providedPlan with
  | some payload => .ok (.plan (.raw payload))
  | none =>
    if request.live then do
      request.buildQueryGuidance
      match ← request.planAskLensResponse with
      | .capabilities => do
        request.buildCapabilitiesPayload
        .ok .capabilities
      | .plan plan => .ok (.plan plan)
    else do
      if ← request.routeQuestionIntent then do
        request.buildQueryGuidance
        request.queryHelp
        request.buildCapabilitiesPayload
        .ok .capabilities
      else do
        .ok (.plan (← request.planQuestion))

/-- `AskLensQueryResponse`; `D` is the serialized result. -/
inductive QueryResponse (R D : Type) where
  | query (run : Option R) (plan : QueryPlan) (document : D)
  | capabilities
  | error (run : Option R) (payload : PublicErrorDocument)

variable (s : Surroundings R Q V D)

/-- `_build_presentation_payload`: an `AskLensError` falls back to a table. -/
def QueryRequest.buildPresentationPayload (request : QueryRequest) : Except (Raised R) Unit :=
  match request.normalizePresentation with
  | .ok _ | .error (.askLens _) => .ok ()
  | .error .exception => .error .exception

/-- The success payload of a facade result. -/
def QueryRequest.respond (request : QueryRequest) (r : FacadeResult R V) :
    Except (Raised R) (QueryResponse R D) :=
  match r.toDict s with
  | .error e => .error e
  | .ok document =>
    match request.buildPresentationPayload with
    | .error e => .error e
    | .ok _ => .ok (.query r.auditRecord r.validatedPlan document)

/-- The rest of the `try` body after `execute_plan`. -/
def QueryRequest.answer (request : QueryRequest) :
    Except (Raised R) (FacadeResult R V) × List Effect →
      Except (Raised R) (QueryResponse R D) × List Effect
  | (.error e, effects) => (.error e, effects)
  | (.ok result, effects) => (request.respond s result, effects)

/-- The body of the `try` statement. -/
def QueryRequest.attempt (registry : CatalogRegistry env) (limits : PlanLimits)
    (request : QueryRequest) : Except (Raised R) (QueryResponse R D) × List Effect :=
  match request.permissions with
  | none => (.error (.askLens (ErrorType.authorizationDeniedError.raised none)), [])
  | some _ =>
    match request.plan with
    | .error e => (.error e.toRaised, [])
    | .ok .capabilities => (.ok .capabilities, [])
    | .ok (.plan plan) =>
      request.answer s (executePlan s registry limits true request.question
        request.executionPermissions plan)

def auditExternalRejection (question : String) (exc : RaisedError) : Option R × List Effect :=
  match s.auditPolicy with
  | none => (none, [])
  | some policy =>
    emitAuditEvent policy s.auditSink
      (buildAuditEvent policy s.clock s.principalId question none none (some exc))

/-- The part of the handler that answers with an error. -/
def rejectRequest (question : String) (exc : RaisedError) (record : Option R)
    (auditAttempted observabilityAttempted : Bool) : QueryResponse R D × List Effect :=
  let audit := if auditAttempted then (record, []) else auditExternalRejection s question exc
  let observed :=
    if observabilityAttempted then [] else s.observe [rejectedPlan exc.code s.requestMs]
  (.error audit.1 exc.payload, audit.2 ++ observed)

/-- Whether the handler answers with deterministic help instead of the error. -/
def QueryRequest.fallsBack (request : QueryRequest) (exc : RaisedError) : Bool :=
  request.permissions.isSome && exc.code ≠ .authorizationDenied &&
    request.providedPlan.isNone && request.live && request.fallbackQuestion

/-- `except AskLensError as exc`. -/
def QueryRequest.handle (request : QueryRequest) (e : Raised R) :
    Except (Raised R) (QueryResponse R D) × List Effect :=
  match e.error? with
  | none => (.error e, [])
  | some exc =>
    if request.fallsBack exc then
      match request.buildFallback with
      | .error failure => (.error failure.toRaised, [])
      | .ok _ => (.ok .capabilities, [])
    else
      let rejected :=
        match e with
        | .publicAskLens marked =>
          rejectRequest s request.question exc marked.auditRecord marked.auditAttempted
            marked.observabilityAttempted
        | _ => rejectRequest s request.question exc none false false
      (.ok rejected.1, rejected.2)

def executeAskLensQueryRequest (registry : CatalogRegistry env) (limits : PlanLimits)
    (request : QueryRequest) : Except (Raised R) (QueryResponse R D) × List Effect :=
  match request.attempt s registry limits with
  | (.ok response, effects) => (.ok response, effects)
  | (.error e, effects) =>
    let handled := request.handle s e
    (handled.1, effects ++ handled.2)

end AskLens.Execution
