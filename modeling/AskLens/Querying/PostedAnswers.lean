import AskLens.Planning.SuggestedPlans
import AskLens.Querying.Records

/-!
# Posted plans

A caller may post the plan that a provider has sent, with its presentation. The
answer is then the one that the provider's plan gets, with the same audit and
observations.
-/
namespace AskLens.Querying

open Python Catalog Checks AskLens.Planning Execution Results

variable {R Q V D : Type} {env : Environment} {service : PlanningService env}
  (s : Surroundings R Q V D) {request : ServiceRequest} {permissions : List String}

/-- The provider answers the question with a plan that is accepted, and short enough to be
validated a second time. -/
structure SendsPlan (service : PlanningService env) (question : String) (permissions : List String)
    (queryPlan : Entries) (hint : Option PresentationSpec) (p : QueryPlan) : Prop where
  sent : ∃ payload, service.provider
      (service.unifiedRequest question (service.guidance permissions)) = .ok payload ∧
    parseAskLensProviderResponse env payload = .ok (.query queryPlan hint)
  accepted : service.validate permissions (.mapping queryPlan) = .ok p
  plain : ∀ x ∈ p.filters, x.value.IsPlain
  short : validatePlanPayloadSize env service.limits.maxPlanBytes (.mapping p.dump) = .ok ()

def ServiceRequest.posting (request : ServiceRequest) (queryPlan : Entries)
    (hint : Option PresentationSpec) : ServiceRequest :=
  { request with
    providedPlan := some (.mapping queryPlan)
    providedPresentation := hint.map PresentationSpec.dump }

/-! ## The facade -/

theorem executePublicPlan_congr {registry : CatalogRegistry env} {limits : PlanLimits}
    {a b : UntrustedPlan} {context : ExecutionContext}
    (h : parseAndValidateQueryPlan registry limits context.access a.payload =
      parseAndValidateQueryPlan registry limits context.access b.payload) (question : String) :
    executePublicPlan s registry limits question a context =
      executePublicPlan s registry limits question b context := by
  unfold executePublicPlan
  rw [h]

theorem executePlan_congr {registry : CatalogRegistry env} {limits : PlanLimits}
    {a b : UntrustedPlan} {access : Access}
    (h : parseAndValidateQueryPlan registry limits access a.payload =
      parseAndValidateQueryPlan registry limits access b.payload) (deferred : Bool)
    (question : String) :
    executePlan s registry limits deferred question (some access) a =
      executePlan s registry limits deferred question (some access) b := by
  unfold executePlan
  cases hcontext : buildExecutionContext s (some access) with
  | error e => rfl
  | ok context =>
    have haccess := Option.some.inj (buildExecutionContext_ok hcontext).1
    rw [haccess] at h
    exact executePublicPlan_congr s h question

/-! ## Planning -/

theorem plan_live {queryPlan : Entries} {hint : Option PresentationSpec} {p : QueryPlan}
    (hlive : service.live = true) (hprovided : request.providedPlan = none)
    (hpresentation : request.providedPresentation = none)
    (h : SendsPlan service request.question permissions queryPlan hint p) :
    service.plan request permissions = .ok (.plan (.model p) hint) := by
  obtain ⟨payload, hsent, hparsed⟩ := h.sent
  have hread : service.readProviderResponse request.question (service.guidance permissions)
      permissions payload = .ok (.query p hint) := by
    unfold PlanningService.readProviderResponse
    rw [hparsed, ok_bind]
    dsimp only
    rw [h.accepted, ok_bind]
  have hresponse : service.planAskLensResponse request.question (service.guidance permissions)
      permissions = .ok (.query p hint) := by
    unfold PlanningService.planAskLensResponse
    rw [hsent, ok_bind, hread]
    rfl
  unfold PlanningService.plan PlanningService.planLive
  rw [hpresentation, hprovided]
  simp only [parsePresentation, ok_bind, hlive, if_true, hresponse]
  cases hint <;> rfl

theorem parsePresentation_dump (hint : Option PresentationSpec) :
    parsePresentation env (hint.map PresentationSpec.dump) = .ok hint := by
  cases hint with
  | none => rfl
  | some spec =>
    rw [Option.map_some]
    simp only [parsePresentation, parsePresentationSpec_dump]

theorem plan_posted (request : ServiceRequest) (permissions : List String) (queryPlan : Entries)
    (hint : Option PresentationSpec) :
    service.plan (request.posting queryPlan hint) permissions =
      .ok (.plan (.raw (.mapping queryPlan)) hint) := by
  unfold PlanningService.plan ServiceRequest.posting
  dsimp only
  rw [parsePresentation_dump, ok_bind]

/-! ## The answers -/

theorem attempt_posted {queryPlan : Entries} {hint : Option PresentationSpec} {p : QueryPlan}
    (hlive : service.live = true) (hprovided : request.providedPlan = none)
    (hpresentation : request.providedPresentation = none)
    (hpermissions : request.permissions = some permissions)
    (hsame : request.executionPermissions = some permissions)
    (h : SendsPlan service request.question permissions queryPlan hint p) :
    service.attempt s (request.posting queryPlan hint) = service.attempt s request := by
  have hvalid : parseAndValidateQueryPlan service.registry service.limits
      (.ofPermissions permissions) (.mapping queryPlan) = .ok p := h.accepted
  obtain ⟨target, hp⟩ := exists_revalidates hvalid h.plain
  have hagain : parseAndValidateQueryPlan service.registry service.limits
      (.ofPermissions permissions) (.mapping p.dump) = .ok p := by
    rw [parseAndValidate_dump hp.wellFormed hp.get hp.fixed, h.short]
    rfl
  have hexecuted := executePlan_congr s (a := .raw (.mapping queryPlan)) (b := .model p)
    (hvalid.trans hagain.symm) true request.question
  have hposted : (request.posting queryPlan hint).permissions = some permissions := hpermissions
  unfold PlanningService.attempt
  rw [hposted, hpermissions]
  dsimp only
  rw [plan_posted, plan_live hlive hprovided hpresentation h]
  dsimp only [ServiceRequest.posting]
  rw [hsame, Option.map_some, hexecuted]
  rfl

/-- The plan of a provider is answered as if the caller had posted it: with the same document, the
same audit event and the same observations. -/
theorem live_answer_eq_posted {queryPlan : Entries} {hint : Option PresentationSpec}
    {p : QueryPlan} (hlive : service.live = true) (hprovided : request.providedPlan = none)
    (hpresentation : request.providedPresentation = none)
    (hpermissions : request.permissions = some permissions)
    (hsame : request.executionPermissions = some permissions)
    (hquestion : isCapabilitiesFallbackQuestion service.tables request.question = false)
    (h : SendsPlan service request.question permissions queryPlan hint p) :
    service.execute s (request.posting queryPlan hint) = service.execute s request := by
  have hhandle : ∀ e : Raised R, service.handle s (request.posting queryPlan hint) e =
      service.handle s request e := by
    intro e
    have hposted : service.shouldReturnCapabilitiesFallback (request.posting queryPlan hint) =
        false := rfl
    have hlocal : service.shouldReturnCapabilitiesFallback request = false := by
      unfold PlanningService.shouldReturnCapabilitiesFallback
      rw [hquestion, Bool.and_false]
    unfold PlanningService.handle
    rw [hposted, hlocal]
    rfl
  unfold PlanningService.execute PlanningService.answer
  rw [attempt_posted s hlive hprovided hpresentation hpermissions hsame h]
  simp only [hhandle]
  rfl

def orderNumbers : QueryPlan := Sample.listPlan ["number"]

def sendsOrders : PlanningService Sample.environment :=
  { offline with
    provider := fun _ => .ok (.mapping [(textObj "response_type", textObj "query"),
      (textObj "query_plan", .dict orderNumbers.dump)]) }

def sentPlan : Py AskLensProviderResponse → Option Entries
  | .ok (.query plan none) => some plan
  | _ => none

theorem query_of_sentPlan {x : Py AskLensProviderResponse} {plan : Entries}
    (h : sentPlan x = some plan) : x = .ok (.query plan none) := by
  unfold sentPlan at h
  split at h
  · cases h
    rfl
  · cases h

def askForOrders : ServiceRequest := { askForHelp with question := "List the orders" }

theorem sendsOrders_sends :
    SendsPlan sendsOrders "List the orders" [] orderNumbers.dump none orderNumbers where
  sent := ⟨_, rfl, query_of_sentPlan rfl⟩
  accepted := by decide +kernel
  plain := by simp [orderNumbers, Sample.listPlan, QueryPlan.filters]
  short := by decide +kernel

theorem sendsOrders_posted :
    sendsOrders.execute (tablesOf twoOrders) (askForOrders.posting orderNumbers.dump none) =
      sendsOrders.execute (tablesOf twoOrders) askForOrders :=
  live_answer_eq_posted (tablesOf twoOrders) rfl rfl rfl rfl rfl (by decide +kernel) sendsOrders_sends

end AskLens.Querying
