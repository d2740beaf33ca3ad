import AskLens.Compiler.PostedPlans
import AskLens.Planning.DecodedDumps
import AskLens.Querying.PayloadForms

/-!
# Refreshed answers

The answer to a query carries its plan. Whoever posts that plan again, as a
mapping or as any JSON text of it, gets the answer that the first request got.
-/
namespace AskLens.Querying

open Python Catalog Checks Compiler AskLens.Planning Execution Results

variable {R Q V D : Type} {env : Environment} {service : PlanningService env}
  (s : Surroundings R Q V D) {request : ServiceRequest}

/-- The host compiles with the compiler of the package. -/
def CompilesPlans (s : Surroundings R Q V D) (env : Environment) : Prop :=
  ∃ now, ∀ resource p queryset, s.compile resource p queryset =
    (compilePreparedQuery env resource p now).mapError PyException.toRaised

/-- The request that posts the plan of an answer. -/
def ServiceRequest.refreshing (request : ServiceRequest) (raw : RawPlan)
    (hint : Option PresentationSpec) : ServiceRequest :=
  { request with
    providedPlan := some raw
    providedPresentation := hint.map PresentationSpec.dump }

/-! ## Validation -/

/-- A plan that is short enough when posted is accepted with its defaults written out. -/
theorem parseAndValidate_refreshed {registry : CatalogRegistry env} {limits : PlanLimits}
    {access : Access} {raw raw' : RawPlan} {p : QueryPlan}
    (h : parseAndValidateQueryPlan registry limits access raw = .ok p)
    (hplain : ∀ x ∈ p.filters, x.value.IsPlain)
    (hcontent : parsePlanPayload env raw' = .ok p.modelDump)
    (hshort : validatePlanPayloadSize env limits.maxPlanBytes raw' = .ok ()) :
    parseAndValidateQueryPlan registry limits access raw' = .ok p.explicit := by
  obtain ⟨target, hp⟩ := exists_revalidates h hplain
  have hparse : parseQueryPlan env raw' = .ok p.explicit := by
    rw [parseQueryPlan, hcontent, ok_bind, modelDump_eq,
      parseQueryPlanModel_dump env (wellFormed_explicit hp.wellFormed hp.limit)]
  have hvalid : validateQueryPlan registry limits access p.explicit = .ok p.explicit := by
    have hget : registry.get p.explicit.resource = .ok target := hp.get
    simp only [validateQueryPlan, hget, ok_bind, validateForResource_explicit hp.fixed]
  rw [parseAndValidateQueryPlan, hshort, ok_bind, hparse, ok_bind, hvalid]

/-! ## Execution -/

theorem executeValidatedPlan_explicit (hcompiles : CompilesPlans s env)
    (registry : CatalogRegistry env) (p : QueryPlan) :
    executeValidatedPlan s registry p.explicit = executeValidatedPlan s registry p := by
  obtain ⟨now, hcompile⟩ := hcompiles
  have hprepare : prepareQueryPlan s registry p.explicit = prepareQueryPlan s registry p := rfl
  unfold executeValidatedPlan
  rw [hprepare]
  simp only [hcompile, compilePreparedQuery_explicit]

/-- The result of the facade for the same plan with its defaults written out. -/
def refreshedResult (r : FacadeResult R V) (record : Option R) : FacadeResult R V :=
  { r with validatedPlan := r.validatedPlan.explicit, auditRecord := record }

theorem executePublicPlan_refreshed (hcompiles : CompilesPlans s env)
    {registry : CatalogRegistry env} {limits : PlanLimits} {question : String}
    {untrusted : UntrustedPlan} {context : ExecutionContext} {r : FacadeResult R V}
    {effects : List Effect} {raw : RawPlan}
    (h : executePublicPlan s registry limits question untrusted context = (.ok r, effects))
    (hplain : ∀ x ∈ r.validatedPlan.filters, x.value.IsPlain)
    (hcontent : parsePlanPayload env raw = .ok r.validatedPlan.modelDump)
    (hshort : validatePlanPayloadSize env limits.maxPlanBytes raw = .ok ()) :
    ∃ record effects', executePublicPlan s registry limits question (.raw raw) context =
      (.ok (refreshedResult r record), effects') := by
  obtain ⟨hvalid, evaluated, hexecuted⟩ := executePublicPlan_trace h
  have hagain : parseAndValidateQueryPlan registry limits context.access
      (UntrustedPlan.raw raw).payload = .ok r.validatedPlan.explicit :=
    parseAndValidate_refreshed hvalid hplain hcontent hshort
  have hsame := executeValidatedPlan_explicit s hcompiles registry r.validatedPlan
  unfold executePublicPlan
  rw [hagain]
  dsimp only
  rw [hsame, hexecuted]
  exact ⟨_, _, rfl⟩

theorem executePlan_refreshed (hcompiles : CompilesPlans s env) {registry : CatalogRegistry env}
    {limits : PlanLimits} {deferred : Bool} {question : String} {permissions : Option Access}
    {untrusted : UntrustedPlan} {r : FacadeResult R V} {effects : List Effect} {raw : RawPlan}
    (h : executePlan s registry limits deferred question permissions untrusted = (.ok r, effects))
    (hplain : ∀ x ∈ r.validatedPlan.filters, x.value.IsPlain)
    (hcontent : parsePlanPayload env raw = .ok r.validatedPlan.modelDump)
    (hshort : validatePlanPayloadSize env limits.maxPlanBytes raw = .ok ()) :
    ∃ record effects', executePlan s registry limits deferred question permissions (.raw raw) =
      (.ok (refreshedResult r record), effects') := by
  obtain ⟨context, hcontext, hpublic⟩ := executePlan_ok h
  unfold executePlan
  rw [hcontext]
  exact executePublicPlan_refreshed s hcompiles hpublic hplain hcontent hshort

/-! ## Answers -/

theorem respond_refreshed {presentation : Option PresentationSpec} {r : FacadeResult R V}
    {payload : QueryPayload R D}
    (h : PlanningService.respond s env request presentation r = .ok (.query payload))
    (raw : RawPlan) (record : Option R) :
    PlanningService.respond s env (request.refreshing raw presentation) presentation
      (refreshedResult r record) = .ok (.query { payload with runId := record }) := by
  have hdump : r.validatedPlan.explicit.modelDump = r.validatedPlan.modelDump := by
    rw [modelDump_eq, modelDump_eq, explicit_explicit]
  have hrows : (refreshedResult r record).toDict s = r.toDict s := rfl
  have hresult : (refreshedResult r record).result = r.result := rfl
  have hplan : (refreshedResult r record).validatedPlan.modelDump =
      r.validatedPlan.modelDump := hdump
  have hincluded : (request.refreshing raw presentation).includePresentation =
      request.includePresentation := rfl
  unfold PlanningService.respond at h ⊢
  rw [hrows]
  cases hdocument : r.toDict s with
  | error e =>
    rw [hdocument] at h
    cases h
  | ok document =>
    rw [hdocument] at h
    simp only [hresult, hplan, hincluded] at h ⊢
    split at h
    · cases h
    · cases h
      rfl

theorem plan_refreshing (raw : RawPlan) (hint : Option PresentationSpec)
    (permissions : List String) :
    service.plan (request.refreshing raw hint) permissions = .ok (.plan (.raw raw) hint) := by
  unfold PlanningService.plan ServiceRequest.refreshing
  dsimp only
  rw [parsePresentation_dump, ok_bind]

theorem attempt_refreshed (hcompiles : CompilesPlans s env) {permissions : List String}
    {untrusted : UntrustedPlan} {presentation : Option PresentationSpec} {r : FacadeResult R V}
    {effects : List Effect} {payload : QueryPayload R D} {raw : RawPlan}
    (hpermissions : request.permissions = some permissions)
    (hexecuted : executePlan s service.registry service.limits true request.question
      (request.executionPermissions.map .ofPermissions) untrusted = (.ok r, effects))
    (hresponse : PlanningService.respond s env request presentation r = .ok (.query payload))
    (hplain : ∀ x ∈ r.validatedPlan.filters, x.value.IsPlain)
    (hcontent : parsePlanPayload env raw = .ok r.validatedPlan.modelDump)
    (hshort : validatePlanPayloadSize env service.limits.maxPlanBytes raw = .ok ()) :
    ∃ record effects', service.attempt s (request.refreshing raw presentation) =
      (.ok (.query { payload with runId := record }), effects') := by
  obtain ⟨record, effects', hagain⟩ :=
    executePlan_refreshed s hcompiles hexecuted hplain hcontent hshort
  have hsame : (request.refreshing raw presentation).permissions = some permissions := hpermissions
  have hquestion : (request.refreshing raw presentation).question = request.question := rfl
  have hexecution : (request.refreshing raw presentation).executionPermissions =
      request.executionPermissions := rfl
  refine ⟨record, effects', ?_⟩
  unfold PlanningService.attempt
  rw [hsame]
  dsimp only
  rw [plan_refreshing]
  dsimp only
  rw [hquestion, hexecution, hagain]
  dsimp only
  rw [respond_refreshed s hresponse]

/-- The plan of an answer, posted again with its presentation, gets the same answer, with an audit
record of its own. The plan may have been posted before or come from a provider. -/
theorem refreshed_answer (hcompiles : CompilesPlans s env) {permissions access : List String}
    {untrusted : UntrustedPlan} {hint : Option PresentationSpec} {p : QueryPlan}
    {payload : QueryPayload R D} {raw : RawPlan}
    (hpermissions : request.permissions = some permissions)
    (hplan : service.plan request permissions = .ok (.plan untrusted hint))
    (hexecution : request.executionPermissions = some access)
    (haccepted : parseAndValidateQueryPlan service.registry service.limits (.ofPermissions access)
      untrusted.payload = .ok p)
    (hplain : ∀ x ∈ p.filters, x.value.IsPlain)
    (h : (service.execute s request).1 = .ok (.query payload))
    (hcontent : parsePlanPayload env raw = .ok p.modelDump)
    (hshort : validatePlanPayloadSize env service.limits.maxPlanBytes raw = .ok ()) :
    payload.plan = p.modelDump ∧ ∃ record, (service.execute s (request.refreshing raw hint)).1 =
      .ok (.query { payload with runId := record }) := by
  obtain ⟨hstaff, effects, hattempt⟩ := execute_query h
  obtain ⟨permissions', untrusted', presentation, r, hpermissions', hplan', hexecuted,
    hresponse⟩ := attempt_query hattempt
  obtain rfl : permissions = permissions' :=
    Option.some.inj (hpermissions.symm.trans hpermissions')
  obtain ⟨rfl, rfl⟩ : untrusted = untrusted' ∧ hint = presentation :=
    PlannedResponse.plan.inj (Except.ok.inj (hplan.symm.trans hplan'))
  obtain ⟨access', haccess', hvalid, -⟩ := executePlan_trace hexecuted
  rw [hexecution] at haccess'
  obtain rfl : Access.ofPermissions access = access' := Option.some.inj haccess'
  obtain rfl : p = r.validatedPlan := Except.ok.inj (haccepted.symm.trans hvalid)
  obtain ⟨-, hshown, -⟩ := respond_trace hresponse
  obtain ⟨record, effects', hagain⟩ :=
    attempt_refreshed s hcompiles hpermissions hexecuted hresponse hplain hcontent hshort
  have hallowed : ¬ ((request.refreshing raw hint).debug = true ∧
      (request.refreshing raw hint).isStaff = false) := by
    rintro ⟨hdebug, hno⟩
    have hyes : request.isStaff = true := hstaff hdebug
    exact Bool.false_ne_true (hno.symm.trans hyes)
  refine ⟨hshown, record, ?_⟩
  unfold PlanningService.execute PlanningService.answer
  rw [if_neg hallowed, hagain]

def otherNumbers : QueryPlan :=
  { Sample.listPlan ["number"] with
    filters? := some [⟨"number", .neq, .scalar (.str none "7")⟩] }

def listOtherOrders : ServiceRequest :=
  { askForHelp with
    question := "List the orders but number 7"
    providedPlan := some (.mapping otherNumbers.dump) }

theorem listOtherOrders_refreshed : ∃ payload t record,
    (offline.execute (tablesOf twoOrders) listOtherOrders).1 = .ok (.query payload) ∧
      dumps Sample.environment.interp (.dict payload.plan) = .ok t ∧
        (offline.execute (tablesOf twoOrders) (listOtherOrders.refreshing (.text t) none)).1 =
          .ok (.query { payload with runId := record }) := by
  have hrows : answeredRows (offline.execute (tablesOf twoOrders) listOtherOrders).1 =
      some [[("number", 1)], [("number", 2)]] := by decide +kernel
  have hwritten : (dumps Sample.environment.interp (.dict otherNumbers.modelDump)).toOption.any
      (fun t => validatePlanPayloadSize Sample.environment Sample.limits.maxPlanBytes (.text t) =
        .ok ()) = true := by decide +kernel
  have haccepted : parseAndValidateQueryPlan numberedOrders Sample.limits (.ofPermissions [])
      (.mapping otherNumbers.dump) = .ok otherNumbers := by decide +kernel
  obtain ⟨payload, hpayload, -⟩ := query_of_answeredRows hrows
  obtain ⟨t, ht, hshort⟩ := exists_of_any_toOption hwritten
  have hplain : ∀ x ∈ otherNumbers.filters, x.value.IsPlain := by
    intro x hx
    obtain rfl := List.mem_singleton.mp hx
    rfl
  have hcontent : parsePlanPayload Sample.environment (.text t) = .ok otherNumbers.modelDump :=
    parsePlanPayload_form otherNumbers.explicit.decoded_dump (.text ht)
  have hplan : offline.plan listOtherOrders [] =
      .ok (.plan (.raw (.mapping otherNumbers.dump)) none) := rfl
  obtain ⟨hshown, record, hagain⟩ := refreshed_answer (tablesOf twoOrders)
    ⟨Sample.newYear, fun _ _ _ => rfl⟩ rfl hplan rfl haccepted hplain hpayload hcontent
    (of_decide_eq_true hshort)
  rw [← hshown] at ht
  exact ⟨payload, t, record, hpayload, ht, hagain⟩

end AskLens.Querying
