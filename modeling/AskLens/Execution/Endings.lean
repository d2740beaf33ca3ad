import AskLens.Execution.Requests
import AskLens.Planning.Accepted

/-!
# How a request ends

The facade audits and observes what it runs and marks the error that it raises;
the request handler audits and observes an error without these marks. The cases
of the two inductive predicates say which effects each ending has.
-/
namespace AskLens.Execution

open Python Catalog Planning Compiler Observability Checks

variable {R Q V D : Type} {env : Environment} {s : Surroundings R Q V D}

theorem resource_ne_empty {registry : CatalogRegistry env} {limits : PlanLimits}
    {access : Access} {raw : RawPlan} {plan : QueryPlan}
    (h : parseAndValidateQueryPlan registry limits access raw = .ok plan) :
    plan.resource ≠ "" := by
  obtain ⟨resource, -, hregistered, haccepted⟩ := parseAndValidateQueryPlan_ok h
  obtain ⟨name, hname⟩ := hregistered.name_normal
  rw [haccepted.resource_name]
  unfold normalizeResourceName at hname
  dsimp only at hname
  split_ifs at hname with hempty
  rw [← Except.ok.inj hname]
  exact hempty

/-! ## The execution of a validated plan -/

theorem wrap_error? (t : ErrorType) (e : Raised R) : (e.wrap t).error? ≠ none := by
  cases e <;> simp [Raised.wrap, Raised.error?]

theorem wrapCompilation_error? (e : Raised R) : e.wrapCompilation.error? ≠ none := by
  cases e <;> simp [Raised.wrapCompilation, Raised.error?]

theorem normalizePublicError_isSome {e : Raised R} (h : e.error? ≠ none) :
    ∃ exc, e.normalizePublicError = some exc := by
  cases e <;> simp_all [Raised.error?, Raised.normalizePublicError]

theorem executeValidatedPlan_effects (registry : CatalogRegistry env) (plan : QueryPlan) :
    ∀ e ∈ (executeValidatedPlan s registry plan).2, e = .evaluate := by
  unfold executeValidatedPlan
  cases prepareQueryPlan s registry plan with
  | error e => simp
  | ok prepared =>
    dsimp only
    cases s.compile prepared.1 plan prepared.2 with
    | error e => simp
    | ok q =>
      dsimp only
      cases evaluateCompiledQuery s q with
      | error e => simp
      | ok result => simp

theorem executeValidatedPlan_error {registry : CatalogRegistry env} {plan : QueryPlan}
    {resource : SemanticResource} {e : Raised R} {effects : List Effect}
    (hget : registry.get plan.resource = .ok resource)
    (h : executeValidatedPlan s registry plan = (.error e, effects)) : e.error? ≠ none := by
  unfold executeValidatedPlan prepareQueryPlan at h
  rw [hget] at h
  dsimp only at h
  cases hscope : s.scope resource with
  | error raised =>
    rw [hscope] at h
    obtain ⟨he, -⟩ := Prod.mk.inj h
    rw [← Except.error.inj he]
    exact wrap_error? _ _
  | ok queryset =>
    rw [hscope] at h
    dsimp only at h
    cases hcompile : s.compile resource plan queryset with
    | error raised =>
      rw [hcompile] at h
      obtain ⟨he, -⟩ := Prod.mk.inj h
      rw [← Except.error.inj he]
      exact wrapCompilation_error? _
    | ok q =>
      rw [hcompile] at h
      dsimp only at h
      cases heval : evaluateCompiledQuery s q with
      | error raised =>
        rw [heval] at h
        obtain ⟨he, -⟩ := Prod.mk.inj h
        rw [← Except.error.inj he]
        exact wrap_error? _ _
      | ok result =>
        rw [heval] at h
        cases h

/-- The rows of a successful execution serialize, also a second time. -/
theorem evaluateCompiledQuery_ok {q : CompiledQuery} {result : TimedResult V}
    (h : evaluateCompiledQuery s q = .ok result) :
    ∃ rawRows document, s.evaluate q = .ok rawRows ∧
      result.result = executeCompiledQuery q rawRows ∧ result.toDict s = .ok document := by
  unfold evaluateCompiledQuery at h
  cases hrows : s.evaluate q with
  | error e =>
    rw [hrows] at h
    cases h
  | ok rawRows =>
    rw [hrows] at h
    dsimp only at h
    cases hdocument : s.serialize (executeCompiledQuery q rawRows).columns
        (executeCompiledQuery q rawRows).rows with
    | error e =>
      rw [hdocument] at h
      cases h
    | ok document =>
      rw [hdocument] at h
      obtain rfl := Except.ok.inj h
      exact ⟨rawRows, document, rfl, rfl, hdocument⟩

theorem prepareQueryPlan_ok {registry : CatalogRegistry env} {plan : QueryPlan}
    {prepared : SemanticResource × Q} (h : prepareQueryPlan s registry plan = .ok prepared) :
    registry.get plan.resource = .ok prepared.1 ∧ s.scope prepared.1 = .ok prepared.2 := by
  unfold prepareQueryPlan at h
  cases hget : registry.get plan.resource with
  | error e =>
    rw [hget] at h
    cases h
  | ok resource =>
    rw [hget] at h
    dsimp only at h
    cases hscope : s.scope resource with
    | error e =>
      rw [hscope] at h
      cases h
    | ok queryset =>
      rw [hscope] at h
      cases h
      exact ⟨rfl, hscope⟩

/-- The rows of a result were fetched by the query of its plan, under the scope of its resource. -/
theorem executeValidatedPlan_ok {registry : CatalogRegistry env} {plan : QueryPlan}
    {result : TimedResult V} {effects : List Effect}
    (h : executeValidatedPlan s registry plan = (.ok result, effects)) :
    ∃ resource queryset q rawRows document, registry.get plan.resource = .ok resource ∧
      s.scope resource = .ok queryset ∧ s.compile resource plan queryset = .ok q ∧
        s.evaluate q = .ok rawRows ∧ result.result = executeCompiledQuery q rawRows ∧
          result.toDict s = .ok document := by
  unfold executeValidatedPlan at h
  cases hprepared : prepareQueryPlan s registry plan with
  | error e =>
    rw [hprepared] at h
    cases h
  | ok prepared =>
    obtain ⟨hget, hscope⟩ := prepareQueryPlan_ok hprepared
    rw [hprepared] at h
    dsimp only at h
    cases hcompile : s.compile prepared.1 plan prepared.2 with
    | error e =>
      rw [hcompile] at h
      cases h
    | ok q =>
      rw [hcompile] at h
      dsimp only at h
      cases hevaluated : evaluateCompiledQuery s q with
      | error e =>
        rw [hevaluated] at h
        cases h
      | ok evaluated =>
        rw [hevaluated] at h
        obtain rfl := Except.ok.inj (Prod.mk.inj h).1
        obtain ⟨rawRows, document, hrows, hresult, hdocument⟩ :=
          evaluateCompiledQuery_ok hevaluated
        exact ⟨_, _, q, rawRows, document, hget, hscope, hcompile, hrows, hresult, hdocument⟩

theorem executeValidatedPlan_serializes {registry : CatalogRegistry env} {plan : QueryPlan}
    {result : TimedResult V} {effects : List Effect}
    (h : executeValidatedPlan s registry plan = (.ok result, effects)) :
    ∃ document, result.toDict s = .ok document := by
  obtain ⟨_, _, _, _, document, -, -, -, -, -, hdocument⟩ := executeValidatedPlan_ok h
  exact ⟨document, hdocument⟩

/-! ## The facade -/

structure AuditEvent.Describes (event : AuditEvent) (code : AskLensErrorCode)
    (message : String) : Prop where
  status : event.status = .failed
  errorCode : event.errorCode = some code
  errorMessage : event.errorMessage = message

/-- The observations of a failure: of a rejected plan, or of a failed execution. -/
def FailureEvents (code : AskLensErrorCode) (events : List EventFields) : Prop :=
  (∃ ms, events = [rejectedPlan code ms]) ∨
    ∃ (plan : QueryPlan) (ms ms' : ℕ), plan.resource ≠ "" ∧
      events = [acceptedPlan plan ms, failedExecution plan code ms']

def SuccessEvents (V : Type) (events : List EventFields) : Prop :=
  ∃ (plan : QueryPlan) (result : QueryResult V) (ms ms' : ℕ), plan.resource ≠ "" ∧
    events = [acceptedPlan plan ms, succeededExecution plan result ms']

/-- What is recorded of one outcome: an audit event, then observations. -/
def Surroundings.recorded (s : Surroundings R Q V D) (policy : AuditPolicy) (event : AuditEvent)
    (events : List EventFields) : List Effect :=
  (emitAuditEvent policy s.auditSink event).2 ++ s.observe events

/-- The evaluations that an accepted plan allows. -/
def Evaluations (accepted : Prop) (evaluated : List Effect) : Prop :=
  ∀ e ∈ evaluated, e = .evaluate ∧ accepted

theorem evaluations_nil {accepted : Prop} : Evaluations accepted [] := by
  intro e he
  cases he

/-- How one execution by the facade may end, with its effects. -/
inductive FacadeEnds (s : Surroundings R Q V D) (accepted : Prop) :
    Except (Raised R) (FacadeResult R V) × List Effect → Prop
  /-- The error is recorded and marked; the query may have been evaluated. -/
  | failed (exc : PublicAskLensError R) (evaluated : List Effect) (policy : AuditPolicy)
      (event : AuditEvent) (events : List EventFields)
      (configured : s.auditPolicy = some policy)
      (marked : exc.auditAttempted = true ∧ exc.observabilityAttempted = true)
      (evaluations : Evaluations accepted evaluated)
      (described : event.Describes exc.error.code exc.error.publicMessage)
      (observed : FailureEvents exc.error.code events) :
      FacadeEnds s accepted
        (.error (.publicAskLens exc), evaluated ++ s.recorded policy event events)
  | succeeded (result : FacadeResult R V) (evaluated : List Effect) (policy : AuditPolicy)
      (event : AuditEvent) (events : List EventFields)
      (configured : s.auditPolicy = some policy)
      (serialized : ∃ document, result.toDict s = .ok document)
      (evaluations : Evaluations accepted evaluated)
      (described : event.status = .success) (observed : SuccessEvents V events) :
      FacadeEnds s accepted (.ok result, evaluated ++ s.recorded policy event events)
  /-- Nothing was done before the error, which carries no marks. -/
  | unrecorded (e : Raised R)
      (unmarked : ∀ exc, e = .publicAskLens exc →
        exc.auditAttempted = false ∧ exc.observabilityAttempted = false) :
      FacadeEnds s accepted (.error e, [])

theorem toRaised_unmarked (e : PyException) (exc : PublicAskLensError R) :
    e.toRaised ≠ .publicAskLens exc := by
  cases e with
  | askLens exc => nofun
  | builtin e => cases e <;> nofun

theorem executePublicPlan_ends {registry : CatalogRegistry env} {limits : PlanLimits}
    {question : String} {plan : UntrustedPlan} {context : ExecutionContext}
    (hpolicy : s.auditPolicy = some context.policy) :
    FacadeEnds s
      (∃ p, parseAndValidateQueryPlan registry limits context.access plan.payload = .ok p)
      (executePublicPlan s registry limits question plan context) := by
  unfold executePublicPlan
  cases hvalidated : parseAndValidateQueryPlan registry limits context.access plan.payload with
  | error e =>
    dsimp only
    cases hpublic : (e.toRaised : Raised R).normalizePublicError with
    | none =>
      apply FacadeEnds.unrecorded
      intro exc hexc
      exact absurd hexc (toRaised_unmarked e exc)
    | some exc =>
      dsimp only
      rw [← List.nil_append (_ ++ _)]
      exact FacadeEnds.failed _ [] context.policy _ _ hpolicy ⟨rfl, rfl⟩ evaluations_nil
        ⟨rfl, rfl, rfl⟩ (.inl ⟨_, rfl⟩)
  | ok accepted =>
    have hresource := resource_ne_empty hvalidated
    obtain ⟨resource, hget, -, -⟩ := parseAndValidateQueryPlan_ok hvalidated
    have heffects := executeValidatedPlan_effects (s := s) registry accepted
    dsimp only
    cases hrun : executeValidatedPlan s registry accepted with
    | mk outcome evaluated =>
      rw [hrun] at heffects
      have hevaluations : Evaluations (∃ p, (.ok accepted : Py QueryPlan) = .ok p) evaluated :=
        fun e he => ⟨heffects e he, accepted, rfl⟩
      cases outcome with
      | error e =>
        obtain ⟨exc, hpublic⟩ := normalizePublicError_isSome (executeValidatedPlan_error hget hrun)
        simp only [hpublic, List.append_assoc]
        exact FacadeEnds.failed _ evaluated context.policy _ _ hpolicy ⟨rfl, rfl⟩ hevaluations
          ⟨rfl, rfl, rfl⟩ (.inr ⟨_, _, _, hresource, rfl⟩)
      | ok result =>
        simp only [List.append_assoc]
        exact FacadeEnds.succeeded _ evaluated context.policy _ _ hpolicy
          (executeValidatedPlan_serializes hrun) hevaluations rfl ⟨_, _, _, _, hresource, rfl⟩

theorem buildExecutionContext_ok {permissions : Option Access} {context : ExecutionContext}
    (h : buildExecutionContext s permissions = .ok context) :
    permissions = some context.access ∧ s.auditPolicy = some context.policy := by
  unfold buildExecutionContext at h
  split_ifs at h
  cases permissions with
  | none => cases h
  | some access =>
    cases hpolicy : s.auditPolicy with
    | none =>
      rw [hpolicy] at h
      cases h
    | some policy =>
      rw [hpolicy] at h
      rw [← Except.ok.inj h]
      exact ⟨rfl, rfl⟩

theorem buildExecutionContext_error {permissions : Option Access} {e : Raised R}
    (h : buildExecutionContext s permissions = .error e) : ∃ exc, e = .askLens exc := by
  unfold buildExecutionContext at h
  split_ifs at h
  · exact ⟨_, (Except.error.inj h).symm⟩
  · cases permissions with
    | none => exact ⟨_, (Except.error.inj h).symm⟩
    | some access =>
      cases hpolicy : s.auditPolicy with
      | none =>
        rw [hpolicy] at h
        exact ⟨_, (Except.error.inj h).symm⟩
      | some policy =>
        rw [hpolicy] at h
        cases h

/-- A result of the facade is one of its run in an admitted context. -/
theorem executePlan_ok {registry : CatalogRegistry env} {limits : PlanLimits} {deferred : Bool}
    {question : String} {permissions : Option Access} {untrusted : UntrustedPlan}
    {r : FacadeResult R V} {effects : List Effect}
    (h : executePlan s registry limits deferred question permissions untrusted =
      (.ok r, effects)) :
    ∃ context, buildExecutionContext s permissions = .ok context ∧
      executePublicPlan s registry limits question untrusted context = (.ok r, effects) := by
  unfold executePlan at h
  cases hcontext : buildExecutionContext s permissions with
  | error e =>
    rw [hcontext] at h
    dsimp only at h
    split at h
    · cases h
    · split_ifs at h
      · cases h
      · cases h
  | ok context =>
    rw [hcontext] at h
    exact ⟨context, rfl, h⟩

theorem FacadeEnds.mono {accepted accepted' : Prop}
    {run : Except (Raised R) (FacadeResult R V) × List Effect} (himp : accepted → accepted')
    (h : FacadeEnds s accepted run) : FacadeEnds s accepted' run := by
  cases h with
  | failed exc evaluated policy event events configured marked evaluations described observed =>
    exact .failed exc evaluated policy event events configured marked
      (fun e he => ⟨(evaluations e he).1, himp (evaluations e he).2⟩) described observed
  | succeeded result evaluated policy event events configured serialized evaluations described
      observed =>
    exact .succeeded result evaluated policy event events configured serialized
      (fun e he => ⟨(evaluations e he).1, himp (evaluations e he).2⟩) described observed
  | unrecorded e unmarked => exact .unrecorded e unmarked

theorem executePlan_ends (s : Surroundings R Q V D) (registry : CatalogRegistry env)
    (limits : PlanLimits) (question : String) (permissions : Option Access)
    (plan : UntrustedPlan) :
    FacadeEnds s
      (∃ access p, permissions = some access ∧
        parseAndValidateQueryPlan registry limits access plan.payload = .ok p)
      (executePlan s registry limits true question permissions plan) := by
  unfold executePlan
  cases hcontext : buildExecutionContext s permissions with
  | error e =>
    obtain ⟨exc, rfl⟩ := buildExecutionContext_error hcontext
    apply FacadeEnds.unrecorded
    intro marked hmarked
    obtain rfl := Raised.publicAskLens.inj hmarked
    exact ⟨rfl, rfl⟩
  | ok context =>
    obtain ⟨hpermissions, hpolicy⟩ := buildExecutionContext_ok hcontext
    refine (executePublicPlan_ends hpolicy).mono ?_
    rintro ⟨p, hp⟩
    exact ⟨context.access, p, hpermissions, hp⟩

/-! ## The request -/

/-- The `AskLensError` that the `try` body of a request raises. -/
def QueryRequest.failure (s : Surroundings R Q V D) (registry : CatalogRegistry env)
    (limits : PlanLimits) (request : QueryRequest) : Option RaisedError :=
  match (request.attempt s registry limits).1 with
  | .error e => e.error?
  | .ok _ => none

/-- The request was planned, and its plan is accepted under the permissions that it is executed
with. -/
def QueryRequest.PlanAccepted (registry : CatalogRegistry env) (limits : PlanLimits)
    (request : QueryRequest) : Prop :=
  ∃ plan access p, request.plan = .ok (.plan plan) ∧
    request.executionPermissions = some access ∧
      parseAndValidateQueryPlan registry limits access plan.payload = .ok p

/-- How a request may end, with its effects. -/
inductive RequestEnds (s : Surroundings R Q V D) (question : String) (accepted : Prop)
    (failure : Option RaisedError) :
    Except (Raised R) (QueryResponse R D) × List Effect → Prop
  /-- The handler records an error that nobody recorded. -/
  | rejected (exc : RaisedError) (run : Option R) (caused : failure = some exc) :
      RequestEnds s question accepted failure (.ok (.error run exc.payload),
        (auditExternalRejection s question exc).2 ++ s.observe [rejectedPlan exc.code s.requestMs])
  /-- The facade has recorded the error. -/
  | failed (exc : RaisedError) (run : Option R) (evaluated : List Effect) (policy : AuditPolicy)
      (event : AuditEvent) (events : List EventFields) (caused : failure = some exc)
      (configured : s.auditPolicy = some policy)
      (evaluations : Evaluations accepted evaluated)
      (described : event.Describes exc.code exc.publicMessage)
      (observed : FailureEvents exc.code events) :
      RequestEnds s question accepted failure
        (.ok (.error run exc.payload), evaluated ++ s.recorded policy event events)
  | answered (run : Option R) (plan : QueryPlan) (document : D) (evaluated : List Effect)
      (policy : AuditPolicy) (event : AuditEvent) (events : List EventFields)
      (configured : s.auditPolicy = some policy)
      (evaluations : Evaluations accepted evaluated)
      (described : event.status = .success) (observed : SuccessEvents V events) :
      RequestEnds s question accepted failure
        (.ok (.query run plan document), evaluated ++ s.recorded policy event events)
  /-- Help or an exception, after nothing or after a run of the facade. -/
  | silent (outcome : Except (Raised R) (QueryResponse R D)) (effects : List Effect)
      (answer : outcome = .ok .capabilities ∨ ∃ e, outcome = .error e)
      (done : effects = [] ∨ ∃ evaluated policy event events, s.auditPolicy = some policy ∧
        Evaluations accepted evaluated ∧
          effects = evaluated ++ s.recorded policy event events) :
      RequestEnds s question accepted failure (outcome, effects)

theorem handle_unmarked {accepted : Prop} (request : QueryRequest) {e : Raised R}
    (hunmarked : ∀ exc, e = .publicAskLens exc →
      exc.auditAttempted = false ∧ exc.observabilityAttempted = false) :
    RequestEnds s request.question accepted e.error? (request.handle s e) := by
  unfold QueryRequest.handle
  cases herror : e.error? with
  | none => exact .silent _ [] (.inr ⟨_, rfl⟩) (.inl rfl)
  | some exc =>
    dsimp only
    split_ifs
    · cases request.buildFallback with
      | error failure => exact .silent _ [] (.inr ⟨_, rfl⟩) (.inl rfl)
      | ok _ => exact .silent _ [] (.inl rfl) (.inl rfl)
    · cases e with
      | askLens raised => exact .rejected exc _ rfl
      | publicAskLens marked =>
        obtain ⟨haudit, hobserve⟩ := hunmarked marked rfl
        simp only [haudit, hobserve]
        exact .rejected exc _ rfl
      | unresolvedBinding => cases herror
      | exception => cases herror

theorem handle_marked {accepted : Prop} (request : QueryRequest) {exc : PublicAskLensError R}
    {evaluated : List Effect} {policy : AuditPolicy} {event : AuditEvent}
    {events : List EventFields} (hpolicy : s.auditPolicy = some policy)
    (hmarked : exc.auditAttempted = true ∧ exc.observabilityAttempted = true)
    (hevaluated : Evaluations accepted evaluated)
    (hdescribed : event.Describes exc.error.code exc.error.publicMessage)
    (hobserved : FailureEvents exc.error.code events) :
    RequestEnds s request.question accepted (some exc.error)
      ((request.handle s (.publicAskLens exc)).1,
        (evaluated ++ s.recorded policy event events) ++
          (request.handle s (.publicAskLens exc)).2) := by
  have herror : (Raised.publicAskLens exc).error? = some exc.error := rfl
  unfold QueryRequest.handle
  rw [herror]
  dsimp only
  split_ifs
  · cases request.buildFallback with
    | error failure =>
      rw [List.append_nil]
      exact .silent _ _ (.inr ⟨_, rfl⟩) (.inr ⟨_, _, _, _, hpolicy, hevaluated, rfl⟩)
    | ok _ =>
      rw [List.append_nil]
      exact .silent _ _ (.inl rfl) (.inr ⟨_, _, _, _, hpolicy, hevaluated, rfl⟩)
  · simp only [rejectRequest, hmarked.1, hmarked.2, if_true, List.append_nil]
    exact .failed exc.error _ _ _ _ _ rfl hpolicy hevaluated hdescribed hobserved

/-- A presentation that cannot be normalized is answered as a table. -/
theorem respond_ok (request : QueryRequest) {result : FacadeResult R V} {document : D}
    (hdocument : result.toDict s = .ok document) :
    request.respond s result = .ok (.query result.auditRecord result.validatedPlan document) ∨
      request.respond s result = .error .exception := by
  unfold QueryRequest.respond QueryRequest.buildPresentationPayload
  rw [hdocument]
  dsimp only
  cases request.normalizePresentation with
  | ok _ => exact .inl rfl
  | error failure =>
    cases failure with
    | askLens exc => exact .inl rfl
    | exception => exact .inr rfl

theorem execute_of_ok {registry : CatalogRegistry env} {limits : PlanLimits}
    {request : QueryRequest} {response : QueryResponse R D} {effects : List Effect}
    (h : request.attempt s registry limits = (.ok response, effects)) :
    executeAskLensQueryRequest s registry limits request = (.ok response, effects) := by
  unfold executeAskLensQueryRequest
  rw [h]

theorem execute_of_error {registry : CatalogRegistry env} {limits : PlanLimits}
    {request : QueryRequest} {e : Raised R} {effects : List Effect}
    (h : request.attempt s registry limits = (.error e, effects)) :
    executeAskLensQueryRequest s registry limits request =
      ((request.handle s e).1, effects ++ (request.handle s e).2) := by
  unfold executeAskLensQueryRequest
  rw [h]

theorem attempt_plan {registry : CatalogRegistry env} {limits : PlanLimits}
    {request : QueryRequest} {access : Access} {plan : UntrustedPlan}
    (hpermissions : request.permissions = some access)
    (hplan : request.plan = .ok (.plan plan)) :
    request.attempt s registry limits = request.answer s
      (executePlan s registry limits true request.question request.executionPermissions
        plan) := by
  unfold QueryRequest.attempt
  rw [hpermissions, hplan]

theorem failure_of_error {registry : CatalogRegistry env} {limits : PlanLimits}
    {request : QueryRequest} {e : Raised R} {effects : List Effect}
    (h : request.attempt s registry limits = (.error e, effects)) :
    request.failure s registry limits = e.error? := by
  unfold QueryRequest.failure
  rw [h]

theorem attempt_ends {accepted : Prop} {registry : CatalogRegistry env} {limits : PlanLimits}
    {request : QueryRequest} {run : Except (Raised R) (FacadeResult R V) × List Effect}
    (hends : FacadeEnds s accepted run)
    (hattempt : request.attempt s registry limits = request.answer s run) :
    RequestEnds s request.question accepted (request.failure s registry limits)
      (executeAskLensQueryRequest s registry limits request) := by
  cases hends with
  | failed exc evaluated policy event events configured marked evaluations described observed =>
    rw [execute_of_error hattempt, failure_of_error hattempt]
    exact handle_marked request configured marked evaluations described observed
  | unrecorded e unmarked =>
    rw [execute_of_error hattempt, failure_of_error hattempt, List.nil_append, Prod.mk.eta]
    exact handle_unmarked request unmarked
  | succeeded result evaluated policy event events configured serialized evaluations described
      observed =>
    obtain ⟨document, hdocument⟩ := serialized
    rw [QueryRequest.answer] at hattempt
    rcases respond_ok request hdocument with hrespond | hrespond
    · rw [hrespond] at hattempt
      rw [execute_of_ok hattempt]
      exact .answered _ _ _ _ _ _ _ configured evaluations described observed
    · have hhandle : request.handle s (.exception : Raised R) = (.error .exception, []) := rfl
      rw [hrespond] at hattempt
      rw [execute_of_error hattempt, hhandle, List.append_nil]
      exact .silent _ _ (.inr ⟨_, rfl⟩) (.inr ⟨_, _, _, _, configured, evaluations, rfl⟩)

theorem request_ends (s : Surroundings R Q V D) (registry : CatalogRegistry env)
    (limits : PlanLimits) (request : QueryRequest) :
    RequestEnds s request.question (request.PlanAccepted registry limits)
      (request.failure s registry limits)
      (executeAskLensQueryRequest s registry limits request) := by
  cases hpermissions : request.permissions with
  | none =>
    have hattempt : request.attempt s registry limits =
        (.error (.askLens (ErrorType.authorizationDeniedError.raised none)), []) := by
      unfold QueryRequest.attempt
      rw [hpermissions]
    rw [execute_of_error hattempt, failure_of_error hattempt, List.nil_append, Prod.mk.eta]
    apply handle_unmarked request
    intro exc hexc
    cases hexc
  | some access =>
    cases hplan : request.plan with
    | error failure =>
      have hattempt : request.attempt s registry limits = (.error failure.toRaised, []) := by
        unfold QueryRequest.attempt
        rw [hpermissions, hplan]
      rw [execute_of_error hattempt, failure_of_error hattempt, List.nil_append, Prod.mk.eta]
      apply handle_unmarked request
      intro exc hexc
      cases failure with
      | askLens raised => cases hexc
      | exception => cases hexc
    | ok planned =>
      cases planned with
      | capabilities =>
        have hattempt : request.attempt s registry limits = (.ok .capabilities, []) := by
          unfold QueryRequest.attempt
          rw [hpermissions, hplan]
        rw [execute_of_ok hattempt]
        exact .silent _ [] (.inl rfl) (.inl rfl)
      | plan plan =>
        refine attempt_ends ((executePlan_ends s registry limits request.question
          request.executionPermissions plan).mono ?_) (attempt_plan hpermissions hplan)
        rintro ⟨access', p, hpermissions', hp⟩
        exact ⟨plan, access', p, hplan, hpermissions', hp⟩

end AskLens.Execution
