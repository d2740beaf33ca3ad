import AskLens.Execution.Endings

/-!
# What a run of the facade does

The outcome of the validation decides how a run ends: a refused plan is recorded
without a query, and an accepted one is evaluated and recorded with its outcome.
-/
namespace AskLens.Execution

open Python Catalog Planning Compiler Observability

variable {R Q V D : Type} {env : Environment} {s : Surroundings R Q V D}

def IsAudit (effect : Effect) : Prop := ∃ event, effect = .audit event

/-- What the facade does with a plan that is validated with this outcome. -/
inductive PlanRuns (s : Surroundings R Q V D) :
    Py QueryPlan → Except (Raised R) (FacadeResult R V) × List Effect → Prop
  | refused (exc : AskLensError) (error : PublicAskLensError R) (audited : List Effect)
      (public_error : error.error = exc.cls.errorType.raised none)
      (marked : error.auditAttempted = true ∧ error.observabilityAttempted = true)
      (audits : ∀ e ∈ audited, IsAudit e) :
      PlanRuns s (.error (.askLens exc)) (.error (.publicAskLens error),
        audited ++ s.observe [rejectedPlan error.error.code s.planningMs])
  | raised (e : PyException) (builtin : (e.toRaised : Raised R).error? = none) :
      PlanRuns s (.error e) (.error e.toRaised, [])
  | executed (result : FacadeResult R V) (evaluated audited : List Effect)
      (serialized : ∃ document, result.toDict s = .ok document)
      (evaluates : ∀ e ∈ evaluated, e = .evaluate) (audits : ∀ e ∈ audited, IsAudit e) :
      PlanRuns s (.ok result.validatedPlan) (.ok result,
        evaluated ++ audited ++ s.observe [acceptedPlan result.validatedPlan s.planningMs,
          succeededExecution result.validatedPlan result.result s.executionMs])
  | failed (p : QueryPlan) (error : PublicAskLensError R) (evaluated audited : List Effect)
      (marked : error.auditAttempted = true ∧ error.observabilityAttempted = true)
      (evaluates : ∀ e ∈ evaluated, e = .evaluate) (audits : ∀ e ∈ audited, IsAudit e) :
      PlanRuns s (.ok p) (.error (.publicAskLens error),
        evaluated ++ audited ++ s.observe [acceptedPlan p s.planningMs,
          failedExecution p error.error.code s.executionMs])

theorem auditExecution_audits (question : String) (context : ExecutionContext)
    (p : Option QueryPlan) (result : Option (TimedResult V)) (error : Option RaisedError) :
    ∀ e ∈ (auditExecution s question context p result error).2, IsAudit e := by
  unfold auditExecution emitAuditEvent
  intro e he
  cases hmode : context.policy.mode with
  | disabled =>
    rw [hmode] at he
    cases he
  | database =>
    rw [hmode] at he
    exact ⟨_, List.mem_singleton.mp he⟩
  | custom =>
    rw [hmode] at he
    exact ⟨_, List.mem_singleton.mp he⟩

theorem executePublicPlan_runs (registry : CatalogRegistry env) (limits : PlanLimits)
    (question : String) (plan : UntrustedPlan) (context : ExecutionContext) :
    PlanRuns s (parseAndValidateQueryPlan registry limits context.access plan.payload)
      (executePublicPlan s registry limits question plan context) := by
  unfold executePublicPlan
  cases hvalid : parseAndValidateQueryPlan registry limits context.access plan.payload with
  | error e =>
    dsimp only
    cases e with
    | askLens exc => exact .refused exc _ _ rfl ⟨rfl, rfl⟩ (auditExecution_audits _ _ _ _ _)
    | builtin e =>
      have hbuiltin : ((PyException.builtin e).toRaised : Raised R).error? = none := by
        cases e <;> rfl
      cases e <;> exact .raised _ hbuiltin
  | ok p =>
    dsimp only
    obtain ⟨resource, hresource, -⟩ := parseAndValidateQueryPlan_ok hvalid
    have hevaluates := executeValidatedPlan_effects (s := s) registry p
    generalize hexecuted : executeValidatedPlan s registry p = executed at hevaluates
    obtain ⟨outcome, evaluated⟩ := executed
    cases outcome with
    | error e =>
      obtain ⟨exc, hexc⟩ :=
        normalizePublicError_isSome (executeValidatedPlan_error hresource hexecuted)
      dsimp only
      rw [hexc]
      exact .failed p _ evaluated _ ⟨rfl, rfl⟩ hevaluates (auditExecution_audits _ _ _ _ _)
    | ok result =>
      exact .executed { result with validatedPlan := p, auditRecord := _ } evaluated _
        (executeValidatedPlan_serializes hexecuted) hevaluates (auditExecution_audits _ _ _ _ _)

/-- Where the plan is accepted or refused, a failure is an error of the package. -/
theorem PlanRuns.error_ne_none {validated : Py QueryPlan} {e : Raised R} {effects : List Effect}
    (h : PlanRuns s validated (.error e, effects)) (hcontained : Contained validated) :
    e.error? ≠ none := by
  cases h with
  | refused exc error audited public_error marked audits => nofun
  | failed p error evaluated audited marked evaluates audits => nofun
  | raised e builtin =>
    rcases hcontained with ⟨p, hp⟩ | ⟨exc, hexc⟩
    · cases hp
    · obtain rfl := Except.error.inj hexc
      cases builtin

theorem PlanRuns.escapes {e : BuiltinError}
    {run : Except (Raised R) (FacadeResult R V) × List Effect}
    (h : PlanRuns s (.error (.builtin e)) run) :
    run = (.error (PyException.builtin e).toRaised, []) := by
  cases h with
  | raised e builtin => rfl

end AskLens.Execution
