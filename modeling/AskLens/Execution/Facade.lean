import AskLens.Execution.Audit
import AskLens.Execution.Runner
import AskLens.Planning.RoundTrip

/-!
# The execution facade

`execute_plan` validates an untrusted plan again, runs it, audits the outcome
and emits the observations, and raises only public errors. What a host callback,
Django or the database may do at each stage is a field of the surroundings.
-/
namespace AskLens.Execution

open Python Catalog Planning Compiler Observability

variable {R Q V D : Type} {env : Environment}

/-- One request's surroundings: `R` are audit records, `Q` querysets, `V` cells, `D` documents. -/
structure Surroundings (R Q V D : Type) where
  clock : Clock
  clockAware : Bool
  principalId : Option String
  /-- `_resolve_audit_policy_and_sink`, where `none` is its `BindingInvalidError`. -/
  auditPolicy : Option AuditPolicy
  /-- The record that the audit sink returns; `none` also where it raises. -/
  auditSink : AuditEvent → Option R
  /-- Whether the observation sink raises on an event; `none` without a sink. -/
  observabilitySink : Option (ObservabilityEvent → Bool)
  emitting : Bool
  connections : Connections String
  register : String → Registration
  scope : SemanticResource → Except (Raised R) Q
  compile : SemanticResource → QueryPlan → Q → Except (Raised R) CompiledQuery
  evaluate : CompiledQuery → Except (Raised R) (List (Dict V))
  serialize : List ResultColumn → List (Dict V) → Except (Raised R) D
  contextMs : ℕ
  planningMs : ℕ
  executionMs : ℕ
  queryMs : ℕ
  requestMs : ℕ

inductive UntrustedPlan where
  | raw (payload : RawPlan)
  | model (plan : QueryPlan)

/-- The payload that `_validate_untrusted_plan` parses. -/
def UntrustedPlan.payload : UntrustedPlan → RawPlan
  | .raw payload => payload
  | .model plan => .mapping plan.dump

structure ExecutionContext where
  access : Access
  policy : AuditPolicy

/-- A `QueryResult` with its duration. -/
structure TimedResult (V : Type) where
  result : QueryResult V
  durationMs : ℕ

/-- What the facade returns: the result with its private plan and audit record. -/
structure FacadeResult (R V : Type) extends TimedResult V where
  validatedPlan : QueryPlan
  auditRecord : Option R

/-! ## Observations -/

def acceptedPlan (plan : QueryPlan) (ms : ℕ) : EventFields :=
  ⟨.planAccepted, .accepted, some plan.resource, some plan.intent, none, ms, none, none⟩

def rejectedPlan (code : AskLensErrorCode) (ms : ℕ) : EventFields :=
  ⟨.planRejected, .rejected, none, none, some code, ms, none, none⟩

def failedExecution (plan : QueryPlan) (code : AskLensErrorCode) (ms : ℕ) : EventFields :=
  ⟨.executionFailed, .failed, some plan.resource, some plan.intent, some code, ms, none, none⟩

def succeededExecution (plan : QueryPlan) (result : QueryResult V) (ms : ℕ) : EventFields :=
  ⟨.executionSucceeded, .succeeded, some plan.resource, some plan.intent, none, ms,
    some result.rowCount, some result.truncated⟩

variable (s : Surroundings R Q V D)

/-- `_append_observability_event` for each event, then `_emit_observability_events`. -/
def Surroundings.observe (events : List EventFields) : List Effect :=
  (emitObservabilityEvents s.observabilitySink s.emitting s.connections s.register []
    (events.filterMap buildObservabilityEvent)).flatten.map .observe

/-! ## Execution -/

/-- `_build_execution_context` with a request, where `permissions` is what
`get_request_permissions` returns, if it does. -/
def buildExecutionContext (permissions : Option Access) : Except (Raised R) ExecutionContext :=
  if s.clockAware = false then .error (.askLens (ErrorType.planValidationError.raised none))
  else
    match permissions, s.auditPolicy with
    | none, _ => .error (.askLens (ErrorType.authorizationDeniedError.raised none))
    | some _, none => .error (.askLens (ErrorType.bindingInvalidError.raised none))
    | some access, some policy => .ok ⟨access, policy⟩

def prepareQueryPlan (registry : CatalogRegistry env) (plan : QueryPlan) :
    Except (Raised R) (SemanticResource × Q) :=
  match registry.get plan.resource with
  | .error e => .error e.toRaised
  | .ok resource =>
    match s.scope resource with
    | .error e => .error (e.wrap .scopeUnavailableError)
    | .ok queryset => .ok (resource, queryset)

/-- `_execute_compiled_query`. -/
def evaluateCompiledQuery (q : CompiledQuery) : Except (Raised R) (TimedResult V) :=
  match s.evaluate q with
  | .error e => .error e
  | .ok rawRows =>
    let result := executeCompiledQuery q rawRows
    match s.serialize result.columns result.rows with
    | .error e => .error e
    | .ok _ => .ok ⟨result, s.queryMs⟩

def executeValidatedPlan (registry : CatalogRegistry env) (plan : QueryPlan) :
    Except (Raised R) (TimedResult V) × List Effect :=
  match prepareQueryPlan s registry plan with
  | .error e => (.error e, [])
  | .ok (resource, queryset) =>
    match s.compile resource plan queryset with
    | .error e => (.error e.wrapCompilation, [])
    | .ok q =>
      match evaluateCompiledQuery s q with
      | .error e => (.error (e.wrap .executionError), [.evaluate])
      | .ok result => (.ok result, [.evaluate])

def auditExecution (question : String) (context : ExecutionContext)
    (validatedPlan : Option QueryPlan) (result : Option (TimedResult V))
    (error : Option RaisedError) : Option R × List Effect :=
  emitAuditEvent context.policy s.auditSink
    (buildAuditEvent context.policy s.clock s.principalId question validatedPlan
      (result.map fun r => (r.result.rowCount, r.durationMs)) error)

def executePublicPlan (registry : CatalogRegistry env) (limits : PlanLimits) (question : String)
    (plan : UntrustedPlan) (context : ExecutionContext) :
    Except (Raised R) (FacadeResult R V) × List Effect :=
  match parseAndValidateQueryPlan registry limits context.access plan.payload with
  | .error e =>
    let raised : Raised R := e.toRaised
    match raised.normalizePublicError with
    | none => (.error raised, [])
    | some exc =>
      let audit := auditExecution s question context none none (some exc.error)
      (.error (.publicAskLens { exc with
          auditRecord := audit.1, auditAttempted := true, observabilityAttempted := true }),
        audit.2 ++ s.observe [rejectedPlan exc.error.code s.planningMs])
  | .ok plan =>
    match executeValidatedPlan s registry plan with
    | (.error raised, evaluated) =>
      match raised.normalizePublicError with
      | none => (.error raised, evaluated)
      | some exc =>
        let audit := auditExecution s question context (some plan) none (some exc.error)
        (.error (.publicAskLens { exc with
            auditRecord := audit.1, auditAttempted := true, observabilityAttempted := true }),
          evaluated ++ audit.2 ++ s.observe [acceptedPlan plan s.planningMs,
            failedExecution plan exc.error.code s.executionMs])
    | (.ok result, evaluated) =>
      let audit := auditExecution s question context (some plan) (some result) none
      (.ok { result with validatedPlan := plan, auditRecord := audit.1 },
        evaluated ++ audit.2 ++ s.observe [acceptedPlan plan s.planningMs,
          succeededExecution plan result.result s.executionMs])

/-- `execute_plan`; `deferred` is `_context_rejection_observability_is_deferred()`. -/
def executePlan (registry : CatalogRegistry env) (limits : PlanLimits) (deferred : Bool)
    (question : String) (permissions : Option Access) (plan : UntrustedPlan) :
    Except (Raised R) (FacadeResult R V) × List Effect :=
  match buildExecutionContext s permissions with
  | .error raised =>
    match raised.normalizePublicError with
    | none => (.error raised, [])
    | some exc =>
      if deferred then (.error (.publicAskLens exc), [])
      else
        (.error (.publicAskLens { exc with observabilityAttempted := true }),
          s.observe [rejectedPlan exc.error.code s.contextMs])
  | .ok context => executePublicPlan s registry limits question plan context

/-- `QueryResult.to_dict` up to its metadata: the rows are serialized once more. -/
def TimedResult.toDict (r : TimedResult V) : Except (Raised R) D :=
  s.serialize r.result.columns r.result.rows

end AskLens.Execution
