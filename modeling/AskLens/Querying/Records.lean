import AskLens.Querying.Answers

/-!
# What a request leaves behind

The service is audited and observed like the request model that it refines. The
rows of an answer come from a plan that was accepted for the permissions under
which it ran.
-/
namespace AskLens.Querying

open Python Catalog Checks Compiler AskLens.Planning Execution Results

variable {R Q V D : Type} {env : Environment} (service : PlanningService env)
  {s : Surroundings R Q V D}

/-! ## Records -/

/-- Planning has decided on a plan, and the validator accepts it under the permissions that the
request is executed with. -/
def PlanningService.PlanAccepted (request : ServiceRequest) : Prop :=
  ∃ permissions untrusted presentation executionPermissions p,
    request.permissions = some permissions ∧
      service.plan request permissions = .ok (.plan untrusted presentation) ∧
        request.executionPermissions = some executionPermissions ∧
          parseAndValidateQueryPlan service.registry service.limits
            (.ofPermissions executionPermissions) untrusted.payload = .ok p

/-- What the caller of the service may rely on. -/
structure ServiceRecords (accepted : Prop)
    (run : Except (Raised R) (ServiceResponse R D) × List Effect) : Prop where
  error : ∀ question record document, run.1 = .ok (.error question record document) →
    FailureRecorded document.code document.message run.2
  query : ∀ payload, run.1 = .ok (.query payload) → SuccessRecorded run.2
  ordered : AuditsFirst run.2
  evaluated : .evaluate ∈ run.2 → accepted

variable {service} {request : ServiceRequest}

theorem Refines.records {accepted accepted' : Prop}
    {x : Except (Raised R) (ServiceResponse R D) × List Effect}
    {y : Except (Raised R) (QueryResponse R D) × List Effect} (h : Refines x y)
    (hrecorded : RecordedOnce accepted y) (himp : accepted → accepted') :
    ServiceRecords accepted' x := by
  have hordered := hrecorded.ordered
  have hevaluated := hrecorded.evaluated
  rw [← h.effects] at hordered hevaluated
  refine ⟨fun question record document hx => ?_, fun payload hx => ?_, hordered,
    fun hmem => himp (hevaluated hmem)⟩
  · rcases h.outcome with ⟨a, b, ha, hb, hstands⟩ | ⟨e, he, -⟩
    · rw [hx] at ha
      cases ha
      cases hstands
      rw [h.effects]
      exact hrecorded.error _ _ hb
    · rw [hx] at he
      cases he
  · rcases h.outcome with ⟨a, b, ha, hb, hstands⟩ | ⟨e, he, -⟩
    · rw [hx] at ha
      cases ha
      cases hstands with
      | query p hplan =>
        rw [h.effects]
        exact hrecorded.query _ _ _ hb
    · rw [hx] at he
      cases he

theorem planAccepted_of_queryRequest {permissions : List String}
    (hpermissions : request.permissions = some permissions)
    (h : (service.queryRequest request).PlanAccepted service.registry service.limits) :
    service.PlanAccepted request := by
  obtain ⟨untrusted, access, p, hplan, hexecution, haccepted⟩ := h
  obtain ⟨executionPermissions, hread, rfl⟩ := Option.map_eq_some_iff.mp hexecution
  rw [plan_refines service hpermissions] at hplan
  cases hdecided : service.plan request permissions with
  | error e =>
    rw [hdecided] at hplan
    cases hplan
  | ok planned =>
    rw [hdecided] at hplan
    cases planned with
    | capabilities payload => cases hplan
    | plan decided presentation =>
      cases hplan
      exact ⟨permissions, _, presentation, executionPermissions, p, hpermissions, hdecided, hread,
        haccepted⟩

/-- Without permissions nothing is planned, so nothing can have been accepted. -/
theorem denied_ends (s : Surroundings R Q V D) (registry : CatalogRegistry env)
    (limits : PlanLimits) {request : QueryRequest} (hpermissions : request.permissions = none) :
    RequestEnds s request.question False (request.failure s registry limits)
      (executeAskLensQueryRequest s registry limits request) := by
  have hattempt : request.attempt s registry limits =
      (.error (.askLens (ErrorType.authorizationDeniedError.raised none)), []) := by
    unfold QueryRequest.attempt
    rw [hpermissions]
  rw [execute_of_error hattempt, failure_of_error hattempt, List.nil_append, Prod.mk.eta]
  apply handle_unmarked request
  intro exc hexc
  cases hexc

/-- Every error and every query answer of the service is audited and observed exactly once, the
audit first, whatever the provider sends; and only an accepted plan is evaluated. -/
theorem service_recordedOnce (service : PlanningService env) (h : s.Usable)
    (request : ServiceRequest) :
    ServiceRecords (service.PlanAccepted request) (service.execute s request) := by
  unfold PlanningService.execute
  split_ifs with hdebug
  · have hnone : (Effect.evaluate) ∉ ([] : List Effect) := List.not_mem_nil
    constructor
    · intro _ _ _ hok
      cases hok
    · intro _ hok
      cases hok
    · exact List.Pairwise.nil
    · intro hmem
      exact absurd hmem hnone
  have hrefines := answer_refines service s request
  cases hpermissions : request.permissions with
  | none =>
    have hnone : (service.queryRequest request).permissions = none := by
      rw [PlanningService.queryRequest, hpermissions]
      rfl
    exact hrefines.records
      ((denied_ends s service.registry service.limits hnone).recordedOnce h) False.elim
  | some permissions =>
    exact hrefines.records
      ((request_ends s service.registry service.limits (service.queryRequest request)).recordedOnce
        h) (planAccepted_of_queryRequest hpermissions)

def twoOrders : List (Dict ℕ) := [[(selectAlias 0, 1)], [(selectAlias 0, 2)]]

def listOrders : ServiceRequest :=
  { askForHelp with
    question := "List the orders"
    providedPlan := some (.mapping (Sample.listPlan ["number"]).dump) }

def answeredRows : Except (Raised R) (ServiceResponse R D) → Option D
  | .ok (.query payload) => some payload.result.rows
  | _ => none

theorem query_of_answeredRows {outcome : Except (Raised R) (ServiceResponse R D)} {rows : D}
    (h : answeredRows outcome = some rows) :
    ∃ payload, outcome = .ok (.query payload) ∧ payload.result.rows = rows := by
  unfold answeredRows at h
  split at h
  · exact ⟨_, rfl, Option.some.inj h⟩
  · cases h

theorem listOrders_recorded :
    SuccessRecorded (offline.execute (tablesOf twoOrders) listOrders).2 ∧
      .evaluate ∈ (offline.execute (tablesOf twoOrders) listOrders).2 ∧
        offline.PlanAccepted listOrders := by
  have hrows : answeredRows (offline.execute (tablesOf twoOrders) listOrders).1 =
      some [[("number", 1)], [("number", 2)]] := by decide +kernel
  have hevaluated : ((offline.execute (tablesOf twoOrders) listOrders).2.any fun e =>
      !e.isRecord) = true := by decide +kernel
  obtain ⟨payload, hpayload, -⟩ := query_of_answeredRows hrows
  have hmem := any_not_isRecord.mp hevaluated
  have hrecorded := service_recordedOnce offline (tablesOf_usable twoOrders) listOrders
  exact ⟨hrecorded.query payload hpayload, hmem, hrecorded.evaluated hmem⟩

/-! ## Query answers -/

/-- The plan comes from the caller, or planning has validated it already. -/
inductive PlanOrigin (service : PlanningService env) (request : ServiceRequest)
    (permissions : List String) : UntrustedPlan → Prop
  | provided (payload : RawPlan) (h : request.providedPlan = some payload) :
      PlanOrigin service request permissions (.raw payload)
  | planned (source p : QueryPlan) (h : request.providedPlan = none)
      (hvalid : validateQueryPlan service.registry service.limits (.ofPermissions permissions)
        source = .ok p) :
      PlanOrigin service request permissions (.model p)

theorem validateQueryPlan_of_validate {permissions : List String} {raw : RawPlan} {p : QueryPlan}
    (h : service.validate permissions raw = .ok p) :
    ∃ source, validateQueryPlan service.registry service.limits (.ofPermissions permissions)
      source = .ok p := by
  unfold PlanningService.validate parseAndValidateQueryPlan at h
  obtain ⟨_, -, h⟩ := bind_eq_ok.mp h
  obtain ⟨source, -, h⟩ := bind_eq_ok.mp h
  exact ⟨source, h⟩

theorem planRouted_plan {question : String} {permissions : List String}
    {presentation shown : Option PresentationSpec} {untrusted : UntrustedPlan}
    (h : service.planRouted question permissions presentation = .ok (.plan untrusted shown)) :
    ∃ source p, validateQueryPlan service.registry service.limits (.ofPermissions permissions)
      source = .ok p ∧ untrusted = .model p := by
  unfold PlanningService.planRouted at h
  obtain ⟨routed, -, h⟩ := bind_eq_ok.mp h
  cases hintent : routed.1.intent with
  | capabilities =>
    rw [hintent] at h
    obtain ⟨help, -, h⟩ := bind_eq_ok.mp h
    cases h
  | query =>
    rw [hintent] at h
    obtain ⟨response, hresponse, h⟩ := bind_eq_ok.mp h
    cases h
    unfold PlanningService.planQuestion at hresponse
    obtain ⟨raw, -, hresponse⟩ := bind_eq_ok.mp hresponse
    obtain ⟨parsed, -, hresponse⟩ := bind_eq_ok.mp hresponse
    obtain ⟨p, hp, hresponse⟩ := bind_eq_ok.mp hresponse
    obtain ⟨_, -, hvalid⟩ := bind_eq_ok.mp (raising_eq_ok.mp hp)
    cases hresponse
    exact ⟨_, p, hvalid, rfl⟩

theorem plan_origin {permissions : List String} {shown : Option PresentationSpec}
    {untrusted : UntrustedPlan}
    (h : service.plan request permissions = .ok (.plan untrusted shown)) :
    PlanOrigin service request permissions untrusted := by
  obtain ⟨presentation, ⟨raw, hprovided, hposted⟩ | ⟨hprovided, -, hlive⟩ |
    ⟨hprovided, -, hrouted⟩⟩ := plan_ok h
  · cases hposted
    exact .provided raw hprovided
  · rcases planLive_ok hlive with ⟨_, p, _, haccepted, hplan⟩ | ⟨_, _, -, hanswer⟩
    · cases hplan
      obtain ⟨source, hvalid⟩ := validateQueryPlan_of_validate haccepted
      exact .planned source p hprovided hvalid
    · cases hanswer
  · obtain ⟨source, p, hvalid, rfl⟩ := planRouted_plan hrouted
    exact .planned source p hprovided hvalid

/-- How the answer to a query came about. -/
structure Executed (service : PlanningService env) (s : Surroundings R Q V D)
    (request : ServiceRequest) (payload : QueryPayload R D) (untrusted : UntrustedPlan)
    (access : List String) (p : QueryPlan) : Prop where
  accepted : parseAndValidateQueryPlan service.registry service.limits (.ofPermissions access)
    untrusted.payload = .ok p
  plan : payload.plan = p.modelDump
  debug : payload.debug = if request.debug = true then some p.modelDump else none
  rows : ∃ resource queryset q rawRows, service.registry.get p.resource = .ok resource ∧
    s.scope resource = .ok queryset ∧ s.compile resource p queryset = .ok q ∧
      s.evaluate q = .ok rawRows ∧
        s.serialize (executeCompiledQuery q rawRows).columns (executeCompiledQuery q rawRows).rows =
            .ok payload.result.rows ∧
          payload.result.limit = q.limit ∧
            payload.result.truncated = (executeCompiledQuery q rawRows).truncated

theorem executePublicPlan_trace {registry : CatalogRegistry env} {limits : PlanLimits}
    {question : String} {untrusted : UntrustedPlan} {context : ExecutionContext}
    {r : FacadeResult R V} {effects : List Effect}
    (h : executePublicPlan s registry limits question untrusted context = (.ok r, effects)) :
    parseAndValidateQueryPlan registry limits context.access untrusted.payload =
        .ok r.validatedPlan ∧
      ∃ evaluated, executeValidatedPlan s registry r.validatedPlan =
        (.ok r.toTimedResult, evaluated) := by
  unfold executePublicPlan at h
  cases hvalid : parseAndValidateQueryPlan registry limits context.access untrusted.payload with
  | error e =>
    rw [hvalid] at h
    dsimp only at h
    split at h
    · cases h
    · cases h
  | ok p =>
    rw [hvalid] at h
    dsimp only at h
    generalize hexecuted : executeValidatedPlan s registry p = executed at h
    obtain ⟨outcome, evaluated⟩ := executed
    cases outcome with
    | error e =>
      dsimp only at h
      split at h
      · cases h
      · cases h
    | ok result =>
      cases h
      exact ⟨rfl, evaluated, hexecuted⟩

theorem executePlan_trace {registry : CatalogRegistry env} {limits : PlanLimits} {deferred : Bool}
    {question : String} {permissions : Option Access} {untrusted : UntrustedPlan}
    {r : FacadeResult R V} {effects : List Effect}
    (h : executePlan s registry limits deferred question permissions untrusted =
      (.ok r, effects)) :
    ∃ access, permissions = some access ∧
      parseAndValidateQueryPlan registry limits access untrusted.payload = .ok r.validatedPlan ∧
        ∃ evaluated, executeValidatedPlan s registry r.validatedPlan =
          (.ok r.toTimedResult, evaluated) := by
  obtain ⟨context, hcontext, hpublic⟩ := executePlan_ok h
  exact ⟨_, (buildExecutionContext_ok hcontext).1, executePublicPlan_trace hpublic⟩

theorem respond_trace {presentation : Option PresentationSpec} {r : FacadeResult R V}
    {payload : QueryPayload R D}
    (h : PlanningService.respond s env request presentation r = .ok (.query payload)) :
    payload.question = request.question ∧ payload.plan = r.validatedPlan.modelDump ∧
      payload.debug = (if request.debug = true then some r.validatedPlan.modelDump else none) ∧
        s.serialize r.result.columns r.result.rows = .ok payload.result.rows ∧
          payload.result.limit = r.result.limit ∧
            payload.result.truncated = r.result.truncated := by
  unfold PlanningService.respond at h
  cases hdocument : r.toDict s with
  | error e =>
    rw [hdocument] at h
    cases h
  | ok document =>
    rw [hdocument] at h
    dsimp only at h
    split at h
    · cases h
    · cases h
      exact ⟨rfl, rfl, rfl, hdocument, rfl, rfl⟩

theorem respond_total (request : ServiceRequest) (spec : Option PresentationSpec)
    {r : FacadeResult R V} (h : ∃ document, r.toDict s = .ok document) :
    ∃ payload, PlanningService.respond s env request spec r = .ok (.query payload) := by
  obtain ⟨document, hdocument⟩ := h
  obtain ⟨shown, hshown⟩ := buildPresentationPayload_total (fun _ => "") env.display spec
    r.result.columns request.includePresentation
  unfold PlanningService.respond
  rw [hdocument]
  dsimp only
  rw [hshown]
  exact ⟨_, rfl⟩

/-- A query answer of the `try` statement comes from a plan that was executed. -/
theorem attempt_query {payload : QueryPayload R D} {effects : List Effect}
    (h : service.attempt s request = (.ok (.query payload), effects)) :
    ∃ permissions untrusted presentation r, request.permissions = some permissions ∧
      service.plan request permissions = .ok (.plan untrusted presentation) ∧
        executePlan s service.registry service.limits true request.question
          (request.executionPermissions.map .ofPermissions) untrusted = (.ok r, effects) ∧
          PlanningService.respond s env request presentation r = .ok (.query payload) := by
  obtain ⟨permissions, hpermissions, ⟨_, -, hsame⟩ | ⟨untrusted, presentation, r, hplan, hexecuted,
    hresponse⟩⟩ := attempt_ok s h
  · cases hsame
  · exact ⟨permissions, untrusted, presentation, r, hpermissions, hplan, hexecuted, hresponse⟩

/-- A query is answered by the `try` statement, never by its handler. -/
theorem execute_query {payload : QueryPayload R D}
    (h : (service.execute s request).1 = .ok (.query payload)) :
    (request.debug = true → request.isStaff = true) ∧
      ∃ effects, service.attempt s request = (.ok (.query payload), effects) := by
  unfold PlanningService.execute at h
  split_ifs at h with hdebug
  have hstaff : request.debug = true → request.isStaff = true := by
    intro hrequested
    by_contra hno
    exact hdebug ⟨hrequested, Bool.eq_false_iff.mpr hno⟩
  unfold PlanningService.answer at h
  generalize hattempt : service.attempt s request = attempted at h
  obtain ⟨outcome, effects⟩ := attempted
  cases outcome with
  | error e =>
    rcases handle_answers s h with ⟨run, document, herror⟩ | ⟨_, _, _, -, -, hhelp⟩
    · cases herror
    · cases hhelp
  | ok response =>
    obtain rfl := Except.ok.inj h
    exact ⟨hstaff, effects, rfl⟩

/-- A query answer shows the plan that was executed. The validator has accepted that plan for the
permissions of the execution, and a plan of the provider once before for those of the request. -/
theorem query_answers_accepted {payload : QueryPayload R D}
    (h : (service.execute s request).1 = .ok (.query payload)) :
    (request.debug = true → request.isStaff = true) ∧ payload.question = request.question ∧
      ∃ permissions access untrusted p, request.permissions = some permissions ∧
        request.executionPermissions = some access ∧
          PlanOrigin service request permissions untrusted ∧
            Executed service s request payload untrusted access p := by
  obtain ⟨hstaff, effects, hattempt⟩ := execute_query h
  obtain ⟨permissions, untrusted, presentation, r, hpermissions, hplan, hexecuted, hresponse⟩ :=
    attempt_query hattempt
  obtain ⟨hquestion, hshown, hdebugged, hrows, hlimit, htruncated⟩ := respond_trace hresponse
  obtain ⟨access, haccess, haccepted, evaluated, hvalidated⟩ := executePlan_trace hexecuted
  obtain ⟨read, hread, rfl⟩ := Option.map_eq_some_iff.mp haccess
  obtain ⟨resource, queryset, q, rawRows, _, hget, hscope, hcompile, hevaluate, hresult, -⟩ :=
    executeValidatedPlan_ok hvalidated
  rw [hresult] at hrows hlimit htruncated
  refine ⟨hstaff, hquestion, permissions, read, untrusted, r.validatedPlan, hpermissions, hread,
    plan_origin hplan, haccepted, hshown, hdebugged, ?_⟩
  exact ⟨resource, queryset, q, rawRows, hget, hscope, hcompile, hevaluate, hrows, hlimit,
    htruncated⟩

theorem listOrders_answered : ∃ payload permissions access untrusted p,
    (offline.execute (tablesOf twoOrders) listOrders).1 = .ok (.query payload) ∧
      payload.result.rows = [[("number", 1)], [("number", 2)]] ∧
        listOrders.permissions = some permissions ∧ listOrders.executionPermissions = some access ∧
          PlanOrigin offline listOrders permissions untrusted ∧
            Executed offline (tablesOf twoOrders) listOrders payload untrusted access p := by
  have hrows : answeredRows (offline.execute (tablesOf twoOrders) listOrders).1 =
      some [[("number", 1)], [("number", 2)]] := by decide +kernel
  obtain ⟨payload, hpayload, hshown⟩ := query_of_answeredRows hrows
  obtain ⟨-, -, permissions, access, untrusted, p, hpermissions, haccess, horigin, hexecuted⟩ :=
    query_answers_accepted hpayload
  exact ⟨payload, permissions, access, untrusted, p, hpayload, hshown, hpermissions, haccess,
    horigin, hexecuted⟩

end AskLens.Querying
