import AskLens.Execution.PlanRuns
import AskLens.Mcp.RowPolicy

/-!
# Validation as a preview of execution

What `asklens_validate_plan` says of a plan is what `asklens_execute_plan` does with
it: a valid plan runs as the plan that was shown, and an invalid one is refused
with the error that was shown, without a query.
-/
namespace AskLens.Mcp

open Python Catalog Checks Compiler AskLens.Planning Execution Results Querying

variable {R Q V D : Type} {env : Environment}

variable {s : Surroundings R Q V D}

/-- A request that nothing but its plan can stop before it runs. -/
structure Admitted (s : Surroundings R Q V D) (env : Environment) (caller : Caller)
    (permissions : List String) (arguments : QueryArguments) : Prop where
  clock : s.clockAware = true
  policy : s.auditPolicy ≠ none
  granted : caller.permissions = some permissions
  granted_again : caller.executionPermissions = some permissions
  presentation : ∃ spec, parsePresentation env arguments.presentation = .ok spec

theorem executePlan_runs (registry : CatalogRegistry env) (limits : PlanLimits) (deferred : Bool)
    (question : String) (access : Access) (plan : UntrustedPlan) (hclock : s.clockAware = true)
    (hpolicy : s.auditPolicy ≠ none) :
    PlanRuns s (parseAndValidateQueryPlan registry limits access plan.payload)
      (executePlan s registry limits deferred question (some access) plan) := by
  obtain ⟨policy, hpolicy⟩ := Option.ne_none_iff_exists'.mp hpolicy
  have hcontext : buildExecutionContext s (some access) = .ok ⟨access, policy⟩ := by
    unfold buildExecutionContext
    rw [hclock, hpolicy]
    rfl
  unfold executePlan
  rw [hcontext]
  exact executePublicPlan_runs registry limits question plan ⟨access, policy⟩

/-! ## The tools -/

/-- The answer of `asklens_validate_plan` beside the run of `asklens_execute_plan`. -/
inductive Previews (s : Surroundings R Q V SerializedRowsPayload) (question : String) :
    Except (Raised R) PlanValidation → Except (Raised R) (ToolResult R) × List Effect → Prop
  /-- The error that was shown, and no query. -/
  | refused (error : PublicErrorDocument) (record : Option R) (audited : List Effect)
      (audits : ∀ e ∈ audited, IsAudit e) :
      Previews s question (.ok (.invalid error))
        (.ok (.outcome (.error question record error 400)),
          audited ++ s.observe [rejectedPlan error.code s.planningMs])
  | raised (e : Raised R) : Previews s question (.error e) (.error e, [])
  /-- The rows of the plan that was shown. -/
  | executed (p : QueryPlan) (payload : McpQueryPayload R) (result : QueryResult V)
      (evaluated audited : List Effect) (asked : payload.question = question)
      (shown : payload.plan = p.modelDump) (evaluates : ∀ e ∈ evaluated, e = .evaluate)
      (audits : ∀ e ∈ audited, IsAudit e) :
      Previews s question (.ok (.valid p.modelDump)) (.ok (.outcome (.query payload)),
        evaluated ++ audited ++ s.observe [acceptedPlan p s.planningMs,
          succeededExecution p result s.executionMs])
  /-- A failure of the plan that was shown, after it had been accepted. -/
  | failed (p : QueryPlan) (error : PublicErrorDocument) (record : Option R)
      (evaluated audited : List Effect) (evaluates : ∀ e ∈ evaluated, e = .evaluate)
      (audits : ∀ e ∈ audited, IsAudit e) :
      Previews s question (.ok (.valid p.modelDump))
        (.ok (.outcome (.error question record error 400)),
          evaluated ++ audited ++ s.observe [acceptedPlan p s.planningMs,
            failedExecution p error.code s.executionMs])

section

variable {s : Surroundings R Q V SerializedRowsPayload} {service : PlanningService env}
  {caller : Caller} {permissions : List String} {arguments : QueryArguments}

theorem attempt_provided (service : PlanningService env) (plan : RawPlan) (question : String)
    (h : Admitted s env caller permissions arguments) :
    ∃ spec, service.attempt s (caller.request question (some plan) arguments) =
      ((executePlan s service.registry service.limits true question
          (some (.ofPermissions permissions)) (.raw plan)).1.bind
        (PlanningService.respond s env (caller.request question (some plan) arguments) spec),
      (executePlan s service.registry service.limits true question
        (some (.ofPermissions permissions)) (.raw plan)).2) := by
  obtain ⟨spec, hspec⟩ := h.presentation
  refine ⟨spec, ?_⟩
  have hplan : service.plan (caller.request question (some plan) arguments) permissions =
      .ok (.plan (.raw plan) spec) := by
    unfold PlanningService.plan Caller.request
    dsimp only
    rw [hspec]
    rfl
  have hgranted : (caller.request question (some plan) arguments).permissions =
      some permissions := h.granted
  unfold PlanningService.attempt
  rw [hgranted]
  dsimp only
  rw [hplan]
  dsimp only [Caller.request]
  rw [h.granted_again, Option.map_some]
  rcases executePlan s service.registry service.limits true question
    (some (.ofPermissions permissions)) (.raw plan) with ⟨e | result, effects⟩
  · rfl
  · rfl

/-- An error that the facade has recorded is answered as it is. -/
theorem handle_provided (service : PlanningService env) {request : ServiceRequest}
    (hprovided : request.providedPlan ≠ none) {error : PublicAskLensError R}
    (hmarked : error.auditAttempted = true ∧ error.observabilityAttempted = true) :
    service.handle s request (.publicAskLens error) =
      (.ok (.error request.question error.auditRecord error.error.payload), []) := by
  have hlocal : service.shouldReturnCapabilitiesFallback request = false := by
    obtain ⟨raw, hraw⟩ := Option.ne_none_iff_exists'.mp hprovided
    unfold PlanningService.shouldReturnCapabilitiesFallback
    rw [hraw]
    rfl
  have hrejected : PlanningService.rejectRaised s request.question error.error
      (.publicAskLens error) =
        (.error request.question error.auditRecord error.error.payload, []) := by
    unfold PlanningService.rejectRaised PlanningService.reject
    dsimp only
    rw [hmarked.1, hmarked.2]
    rfl
  unfold PlanningService.handle
  simp only [Raised.error?, hrejected, hlocal]
  cases request.permissions with
  | none => rfl
  | some permissions => simp

/-- The run of the tool, from the `try` statement of its request. -/
theorem executeTool_of_attempt (service : PlanningService env) (settings : McpSettings)
    (includeRows : Bool) {request : ServiceRequest} (hdebug : request.debug = false)
    {outcome : Except (Raised R) (ServiceResponse R SerializedRowsPayload)} {effects : List Effect}
    {response : ServiceResponse R SerializedRowsPayload}
    (hattempt : service.attempt s request = (outcome, effects))
    (hhandled : outcome = .ok response ∨
      ∃ e, outcome = .error e ∧ service.handle s request e = (.ok response, [])) :
    executeTool service s settings request includeRows =
      (.ok (.outcome (applyMcpResponsePolicy settings includeRows response)), effects) := by
  have hanswer : service.execute s request = (.ok response, effects) := by
    unfold PlanningService.execute PlanningService.answer
    rw [hdebug, hattempt]
    rcases hhandled with rfl | ⟨e, rfl, hhandle⟩
    · rfl
    · simp [hhandle]
  unfold executeTool
  rw [hanswer]
  rfl

theorem executeTool_raised (service : PlanningService env) (settings : McpSettings)
    (includeRows : Bool) {request : ServiceRequest} (hdebug : request.debug = false) {e : Raised R}
    (hattempt : service.attempt s request = (.error e, [])) (hraised : e.error? = none) :
    executeTool service s settings request includeRows = (.error e, []) := by
  have hexecuted : service.execute s request = (.error e, []) := by
    unfold PlanningService.execute PlanningService.answer PlanningService.handle
    simp [hdebug, hattempt, hraised]
  unfold executeTool
  rw [hexecuted]
  rfl

/-- A validated plan is executed as it was shown, and nothing else is: an error of the validation
is the error of the execution, which then asks the database nothing. -/
theorem validation_previews_execution (service : PlanningService env) (toolset : AskLensMCPToolSet)
    (settings : McpSettings) (plan : RawPlan) (question : String)
    (h : Admitted s env caller permissions arguments) :
    Previews s question (asklensValidatePlan service caller plan)
      (toolset.call service s settings caller (.executePlan plan question arguments)) := by
  have hruns := executePlan_runs service.registry service.limits true question
    (.ofPermissions permissions) (.raw plan) h.clock h.policy
  have hprovided : (caller.request question (some plan) arguments).providedPlan ≠ none :=
    Option.some_ne_none plan
  obtain ⟨spec, hattempt⟩ := attempt_provided service plan question h
  have hcall : toolset.call service s settings caller (.executePlan plan question arguments) =
      executeTool service s settings (caller.request question (some plan) arguments)
        (toolset.resolveIncludeRows arguments) := rfl
  have hpayload : (UntrustedPlan.raw plan).payload = plan := rfl
  rw [hcall]
  unfold asklensValidatePlan PlanningService.validate
  rw [h.granted]
  dsimp only
  rw [hpayload] at hruns
  revert hruns hattempt
  generalize parseAndValidateQueryPlan service.registry service.limits (.ofPermissions permissions)
    plan = validated
  generalize executePlan s service.registry service.limits true question
    (some (.ofPermissions permissions)) (.raw plan) = run
  intro hruns hattempt
  cases hruns with
  | refused exc error audited public_error marked audits =>
    have hpayload : (exc.cls.errorType.raised none).payload = error.error.payload := by
      rw [public_error]
    rw [executeTool_of_attempt service settings _ rfl hattempt
      (.inr ⟨_, rfl, handle_provided service hprovided marked⟩)]
    dsimp only
    rw [hpayload]
    exact .refused error.error.payload _ _ audits
  | raised e builtin =>
    rw [executeTool_raised service settings _ rfl hattempt builtin]
    cases e with
    | askLens exc => cases builtin
    | builtin e => exact .raised _
  | executed result evaluated audited serialized evaluates audits =>
    obtain ⟨payload, hresponse⟩ := respond_total
      (caller.request question (some plan) arguments) spec serialized
    obtain ⟨hasked, hshown, -⟩ := respond_trace hresponse
    rw [executeTool_of_attempt service settings _ rfl hattempt (.inl hresponse)]
    exact .executed _ _ result.result _ _ hasked hshown evaluates audits
  | failed p error evaluated audited marked evaluates audits =>
    rw [executeTool_of_attempt service settings _ rfl hattempt
      (.inr ⟨_, rfl, handle_provided service hprovided marked⟩)]
    exact .failed p error.error.payload _ _ _ evaluates audits

end

theorem listNumbers_previewed :
    Previews (jsonTables [orderRow 1]) "MCP submitted QueryPlan"
      (asklensValidatePlan offline anyone (.mapping (Sample.listPlan ["number"]).dump))
      (rowTools.call offline (jsonTables [orderRow 1]) oneRow anyone listNumbers) :=
  validation_previews_execution offline rowTools oneRow _ _
    ⟨rfl, Option.some_ne_none _, rfl, rfl, none, rfl⟩

end AskLens.Mcp
