import AskLens.Execution.RecordedOnce
import AskLens.Querying.Service

/-!
# The service refines the request model

The request model takes the outcome of every planning stage as given. Here the
outcomes are those of the service, so what holds of every request holds of the
service for every provider.
-/
namespace AskLens.Querying

open Python Catalog Checks AskLens.Planning Execution Results

variable {R Q V D : Type} {env : Environment}

/-! ## The abstraction -/

def PlannedResponse.planned : PlannedResponse → Planned
  | .capabilities _ => .capabilities
  | .plan untrusted _ => .plan untrusted

def PlanningService.ProviderResult.planned : PlanningService.ProviderResult → Planned
  | .query plan _ => .plan (.model plan)
  | .capabilities _ => .capabilities

def PlanningService.queryRequest (service : PlanningService env) (request : ServiceRequest) :
    QueryRequest :=
  let permissions := request.permissions.getD []
  let capabilities := service.guidance permissions
  let routed := service.routeQuestionIntent service.live request.question capabilities
  { question := request.question
    providedPlan := request.providedPlan
    permissions := request.permissions.map .ofPermissions
    executionPermissions := request.executionPermissions.map .ofPermissions
    parsePresentation := (parsePresentation env request.providedPresentation).map fun _ => ()
    live := service.live
    buildQueryGuidance := .ok ()
    planAskLensResponse :=
      (service.planAskLensResponse request.question capabilities permissions).map
        PlanningService.ProviderResult.planned
    routeQuestionIntent := routed.map fun r => r.1.intent == .capabilities
    queryHelp := do
      let r ← routed
      let _ ← service.queryHelpForCapabilities request.question
        (filterCapabilitiesForIntent capabilities r.1) permissions
      .ok ()
    buildCapabilitiesPayload := .ok ()
    planQuestion :=
      (service.planQuestion request.question permissions).map fun r => .model r.1
    fallbackQuestion := isCapabilitiesFallbackQuestion service.tables request.question
    buildFallback :=
      (service.deterministicHelp request.question capabilities permissions).map fun _ => ()
    normalizePresentation := .ok () }

/-- The response of the request model that a payload stands for. -/
inductive StandsFor : ServiceResponse R D → QueryResponse R D → Prop
  | query (payload : QueryPayload R D) (p : QueryPlan) (h : payload.plan = p.modelDump) :
      StandsFor (.query payload) (.query payload.runId p payload.result.rows)
  | capabilities (payload : CapabilitiesPayload) : StandsFor (.capabilities payload) .capabilities
  | error (question : String) (run : Option R) (payload : PublicErrorDocument) :
      StandsFor (.error question run payload) (.error run payload)

/-- The same effects, and either answers that stand for each other or the same exception. -/
structure Refines (x : Except (Raised R) (ServiceResponse R D) × List Effect)
    (y : Except (Raised R) (QueryResponse R D) × List Effect) : Prop where
  effects : x.2 = y.2
  outcome : (∃ a b, x.1 = .ok a ∧ y.1 = .ok b ∧ StandsFor a b) ∨
    ∃ e, x.1 = .error e ∧ y.1 = .error e

theorem refines_ok {a : ServiceResponse R D} {b : QueryResponse R D} (h : StandsFor a b)
    (effects : List Effect) : Refines (.ok a, effects) (.ok b, effects) :=
  ⟨rfl, .inl ⟨a, b, rfl, rfl, h⟩⟩

theorem refines_error (e : Raised R) (effects : List Effect) :
    Refines (D := D) (.error e, effects) (.error e, effects) :=
  ⟨rfl, .inr ⟨e, rfl, rfl⟩⟩

/-! ## The stages -/

variable (service : PlanningService env) {request : ServiceRequest} {permissions : List String}

theorem planLive_planned (question : String) (permissions : List String)
    (presentation : Option PresentationSpec) :
    (service.planLive question permissions presentation).map PlannedResponse.planned =
      (service.planAskLensResponse question (service.guidance permissions) permissions).map
        PlanningService.ProviderResult.planned := by
  unfold PlanningService.planLive
  dsimp only
  cases service.planAskLensResponse question (service.guidance permissions) permissions with
  | error e => rfl
  | ok result =>
    cases result with
    | query plan hint => rfl
    | capabilities help => rfl

theorem planRouted_planned (hpermissions : request.permissions = some permissions)
    (presentation : Option PresentationSpec) :
    (service.planRouted request.question permissions presentation).map PlannedResponse.planned =
      (do
        if ← (service.queryRequest request).routeQuestionIntent then do
          (service.queryRequest request).buildQueryGuidance
          (service.queryRequest request).queryHelp
          (service.queryRequest request).buildCapabilitiesPayload
          .ok .capabilities
        else do
          .ok (.plan (← (service.queryRequest request).planQuestion))) := by
  have hgetD : request.permissions.getD [] = permissions := by
    rw [hpermissions]
    rfl
  unfold PlanningService.planRouted
  simp only [PlanningService.queryRequest, hgetD]
  cases service.routeQuestionIntent service.live request.question
      (service.guidance permissions) with
  | error e => rfl
  | ok routed =>
    simp only [ok_bind, Except.map]
    cases routed.1.intent with
    | query => cases service.planQuestion request.question permissions <;> rfl
    | capabilities =>
      cases service.queryHelpForCapabilities request.question
          (filterCapabilitiesForIntent (service.guidance permissions) routed.1) permissions <;> rfl

theorem plan_refines (hpermissions : request.permissions = some permissions) :
    (service.queryRequest request).plan =
      (service.plan request permissions).map PlannedResponse.planned := by
  have hgetD : request.permissions.getD [] = permissions := by
    rw [hpermissions]
    rfl
  have hrouted := planRouted_planned service hpermissions
  have hlive := planLive_planned service request.question permissions
  have hresponse : (service.queryRequest request).planAskLensResponse =
      (service.planAskLensResponse request.question (service.guidance permissions)
        permissions).map PlanningService.ProviderResult.planned := by
    simp only [PlanningService.queryRequest, hgetD]
  have hparse : (service.queryRequest request).parsePresentation =
      (parsePresentation env request.providedPresentation).map fun _ => () := rfl
  have hprovided : (service.queryRequest request).providedPlan = request.providedPlan := rfl
  have hguidance : (service.queryRequest request).buildQueryGuidance = .ok () := rfl
  have hpayload : (service.queryRequest request).buildCapabilitiesPayload = .ok () := rfl
  have hsame : (service.queryRequest request).live = service.live := rfl
  unfold QueryRequest.plan PlanningService.plan
  rw [hparse]
  cases parsePresentation env request.providedPresentation with
  | error e => rfl
  | ok presentation =>
    rw [ok_bind, show (Except.map (fun _ => ()) (.ok presentation) : Planning Unit) = .ok () from rfl,
      ok_bind, hprovided]
    cases request.providedPlan with
    | some payload => rfl
    | none =>
      simp only [hsame]
      split_ifs with hon
      · rw [hlive, hresponse, hguidance, hpayload, ok_bind]
        cases service.planAskLensResponse request.question (service.guidance permissions)
            permissions with
        | error e => rfl
        | ok result => cases result <;> rfl
      · rw [hrouted]

/-! ## The request -/

variable (s : Surroundings R Q V D)

theorem buildPresentationPayload_total (display : PyText → String) (repr : PyObj → String)
    (hint : Option PresentationSpec) (columns : List Compiler.ResultColumn)
    (includePresentation : Bool) : ∃ shown,
      buildPresentationPayload display repr hint columns includePresentation = .ok shown := by
  cases includePresentation with
  | false => exact ⟨none, rfl⟩
  | true =>
    rcases buildPresentationPayload_cases display repr hint columns with ⟨-, h⟩ | ⟨-, h⟩
    · exact ⟨_, h⟩
    · exact ⟨_, h⟩

theorem respond_refines (request : ServiceRequest) (presentation : Option PresentationSpec)
    (r : FacadeResult R V) (effects : List Effect) :
    Refines (PlanningService.respond s env request presentation r, effects)
      ((service.queryRequest request).respond s r, effects) := by
  obtain ⟨shown, hshown⟩ := buildPresentationPayload_total (fun _ => "") env.display presentation
    r.result.columns request.includePresentation
  unfold PlanningService.respond QueryRequest.respond
  cases r.toDict s with
  | error e => exact refines_error e effects
  | ok document =>
    simp only [hshown]
    exact refines_ok (.query _ r.validatedPlan rfl) effects

theorem reject_standsFor (question : String) (exc : RaisedError) (record : Option R)
    (auditAttempted observabilityAttempted : Bool) :
    StandsFor
        (PlanningService.reject s question exc record auditAttempted observabilityAttempted).1
        (rejectRequest s question exc record auditAttempted observabilityAttempted).1 ∧
      (PlanningService.reject s question exc record auditAttempted observabilityAttempted).2 =
        (rejectRequest s question exc record auditAttempted observabilityAttempted).2 :=
  ⟨.error question _ exc.payload, rfl⟩

theorem attempt_refines (request : ServiceRequest) :
    Refines (service.attempt s request)
      ((service.queryRequest request).attempt s service.registry service.limits) := by
  unfold PlanningService.attempt QueryRequest.attempt
  have hmap : (service.queryRequest request).permissions =
      request.permissions.map .ofPermissions := rfl
  rw [hmap]
  cases hpermissions : request.permissions with
  | none => exact refines_error _ []
  | some permissions =>
    rw [Option.map_some]
    simp only [plan_refines service hpermissions]
    cases service.plan request permissions with
    | error e => exact refines_error _ []
    | ok planned =>
      cases planned with
      | capabilities payload => exact refines_ok (.capabilities payload) []
      | plan untrusted presentation =>
        show Refines _ ((service.queryRequest request).answer s (executePlan s service.registry
          service.limits true request.question
          (request.executionPermissions.map .ofPermissions) untrusted))
        dsimp only
        generalize executePlan s service.registry service.limits true request.question
          (request.executionPermissions.map .ofPermissions) untrusted = executed
        obtain ⟨outcome, effects⟩ := executed
        cases outcome with
        | error e => exact refines_error e effects
        | ok result => exact respond_refines service s request presentation result effects

theorem handle_error {e : Raised R} {exc : RaisedError} (he : e.error? = some exc)
    (request : QueryRequest) (hfallsBack : request.fallsBack exc = false) :
    ∃ rejected : QueryResponse R D × List Effect,
      request.handle s e = (.ok rejected.1, rejected.2) ∧
        StandsFor (PlanningService.rejectRaised s request.question exc e).1 rejected.1 ∧
          (PlanningService.rejectRaised s request.question exc e).2 = rejected.2 := by
  unfold QueryRequest.handle
  simp only [he, hfallsBack, Bool.false_eq_true, if_false]
  refine ⟨_, rfl, ?_⟩
  cases e with
  | publicAskLens marked => exact reject_standsFor s _ _ _ _ _
  | askLens exc' => exact reject_standsFor s _ _ _ _ _
  | unresolvedBinding => cases he
  | exception => cases he

theorem fallsBack_iff (request : ServiceRequest) (exc : RaisedError) :
    (service.queryRequest request).fallsBack exc =
      (request.permissions.isSome && decide (exc.code ≠ .authorizationDenied) &&
        service.shouldReturnCapabilitiesFallback request) := by
  unfold QueryRequest.fallsBack PlanningService.shouldReturnCapabilitiesFallback
  simp only [PlanningService.queryRequest, Option.isSome_map, Bool.and_assoc]

theorem handle_refines (request : ServiceRequest) (e : Raised R) (effects : List Effect) :
    Refines ((service.handle s request e).1, effects ++ (service.handle s request e).2)
      (((service.queryRequest request).handle s e).1,
        effects ++ ((service.queryRequest request).handle s e).2) := by
  unfold PlanningService.handle
  cases he : e.error? with
  | none =>
    have hsame : (service.queryRequest request).handle s e = (.error e, []) := by
      unfold QueryRequest.handle
      simp only [he]
    rw [hsame]
    exact refines_error e _
  | some exc =>
    have hfalls := fallsBack_iff service request exc
    cases hpermissions : request.permissions with
    | none =>
      rw [hpermissions] at hfalls
      obtain ⟨rejected, hhandle, hstands, heffects⟩ := handle_error s he _ hfalls
      rw [hhandle, ← heffects]
      exact refines_ok hstands _
    | some permissions =>
      rw [hpermissions] at hfalls
      dsimp only
      split_ifs with hfallback
      · have hyes : (service.queryRequest request).fallsBack exc = true := by
          rw [hfalls, hfallback.2]
          simpa using hfallback.1
        have hbuild : (service.queryRequest request).buildFallback =
            (service.deterministicHelp request.question (service.guidance permissions)
              permissions).map fun _ => () := by
          simp only [PlanningService.queryRequest, hpermissions, Option.getD_some]
        unfold QueryRequest.handle PlanningService.fallbackPayload
        simp only [he, hyes, if_true, hbuild]
        cases service.deterministicHelp request.question (service.guidance permissions)
            permissions with
        | error failure => exact refines_error _ _
        | ok help => exact refines_ok (.capabilities _) _
      · have hno : (service.queryRequest request).fallsBack exc = false := by
          rw [hfalls, Option.isSome_some, Bool.true_and, Bool.and_eq_false_iff]
          rw [Decidable.not_and_iff_or_not] at hfallback
          rcases hfallback with hcode | hwording
          · exact .inl (decide_eq_false hcode)
          · exact .inr (Bool.eq_false_iff.mpr hwording)
        obtain ⟨rejected, hhandle, hstands, heffects⟩ := handle_error s he _ hno
        rw [hhandle, ← heffects]
        exact refines_ok hstands _

/-- Every answer of the service is an answer of the request model, with the same effects. -/
theorem answer_refines (request : ServiceRequest) :
    Refines (service.answer s request)
      (executeAskLensQueryRequest s service.registry service.limits
        (service.queryRequest request)) := by
  have hattempt := attempt_refines service s request
  unfold PlanningService.answer executeAskLensQueryRequest
  generalize service.attempt s request = x at hattempt ⊢
  generalize (service.queryRequest request).attempt s service.registry service.limits = y
    at hattempt ⊢
  obtain ⟨outcome, effects⟩ := x
  obtain ⟨outcome', effects'⟩ := y
  obtain ⟨rfl, ⟨a, b, rfl, rfl, hstands⟩ | ⟨e, rfl, rfl⟩⟩ := hattempt
  · exact refines_ok hstands _
  · exact handle_refines service s request e _

end AskLens.Querying
