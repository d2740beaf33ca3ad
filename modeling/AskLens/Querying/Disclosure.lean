import AskLens.Catalog.Disclosure
import AskLens.Querying.Records

/-!
# What a provider is told

One request sends a provider one prompt, and that prompt depends on the registry
only through what the caller may see of it.
-/
namespace AskLens.Querying

open Python Catalog Checks AskLens.Planning Execution Results

variable {env : Environment}

/-- The prompt of a request. A live provider answers with help or a plan; the other one is only
asked for plans, after the question has been routed locally. -/
def PlanningService.prompt (service : PlanningService env) (question : String)
    (permissions : List String) : ProviderRequest :=
  if service.live = true then
    service.unifiedRequest question (service.guidance permissions)
  else
    .plan question (service.registry.toDict (.ofPermissions permissions))

/-! ## The visible part -/

section

variable {registry other : CatalogRegistry env} {permissions : List String}

/-- Under its own name, a resource is found in a registry whose keys are distinct. -/
theorem requiredPermission_visible (hkeys : registry.resources.keys.Nodup) {r : SemanticResource}
    {access : Access} (hr : r ∈ registry.visibleResources access) :
    registry.requiredPermission r.name = r.requiresPermission := by
  obtain ⟨entry, hentry, rfl⟩ := List.mem_map.mp (List.mem_of_mem_filter hr)
  have hname := (registry.registered entry hentry).1
  have hget : registry.resources.get? entry.2.name = some entry.2 := by
    rw [Dict.get?_eq_some_iff hkeys, hname]
    exact hentry
  unfold CatalogRegistry.requiredPermission
  rw [hget]
  rfl

theorem guidance_eq_visiblePart (tables : CaseTables) (maxRows : ℤ)
    (hkeys : registry.resources.keys.Nodup)
    (hdates : registry.DateFieldsVisible (.ofPermissions permissions)) :
    buildQueryGuidance tables maxRows registry permissions =
      guidanceOf maxRows (((registry.visibleResources (.ofPermissions permissions)).map fun r =>
        r.visiblePart (.ofPermissions permissions)).map fun r =>
          buildResourceCapability tables (r.toDict env.unicode (.ofPermissions permissions))
            permissions r.requiresPermission) := by
  unfold buildQueryGuidance CatalogRegistry.toDict
  rw [List.map_map, List.map_map]
  apply congrArg (guidanceOf maxRows)
  apply List.map_congr_left
  intro r hr
  show buildResourceCapability tables (r.toDict env.unicode (.ofPermissions permissions))
      permissions (registry.requiredPermission r.name) =
    buildResourceCapability tables
      ((r.visiblePart (.ofPermissions permissions)).toDict env.unicode (.ofPermissions permissions))
      permissions r.requiresPermission
  rw [requiredPermission_visible hkeys hr, visiblePart_toDict (hdates r hr)]

theorem guidance_of_sameVisiblePart (tables : CaseTables) (maxRows : ℤ)
    (hkeys : registry.resources.keys.Nodup) (hkeys' : other.resources.keys.Nodup)
    (hsame : registry.SameVisiblePart other (.ofPermissions permissions))
    (hdates : registry.DateFieldsVisible (.ofPermissions permissions))
    (hdates' : other.DateFieldsVisible (.ofPermissions permissions)) :
    buildQueryGuidance tables maxRows other permissions =
      buildQueryGuidance tables maxRows registry permissions := by
  have hparts : (registry.visibleResources (.ofPermissions permissions)).map (fun r =>
      r.visiblePart (.ofPermissions permissions)) =
        (other.visibleResources (.ofPermissions permissions)).map fun r =>
          r.visiblePart (.ofPermissions permissions) := hsame
  rw [guidance_eq_visiblePart tables maxRows hkeys hdates,
    guidance_eq_visiblePart tables maxRows hkeys' hdates', hparts]

end

/-! ## One prompt for each request -/

variable {R Q V D : Type} (s : Surroundings R Q V D) {service : PlanningService env}
  {provider : ProviderRequest → Planning RawPlan} {request : ServiceRequest}
  {permissions : List String}

/-- The same deployment with another provider. -/
def PlanningService.asking (service : PlanningService env)
    (provider : ProviderRequest → Planning RawPlan) : PlanningService env :=
  { service with provider := provider }

theorem planLive_asking (hlive : service.live = true)
    (h : provider (service.prompt request.question permissions) =
      service.provider (service.prompt request.question permissions))
    (presentation : Option PresentationSpec) :
    (service.asking provider).planLive request.question permissions presentation =
      service.planLive request.question permissions presentation := by
  unfold PlanningService.prompt at h
  rw [if_pos hlive] at h
  have hresponse : (service.asking provider).planAskLensResponse request.question
      (service.guidance permissions) permissions =
        service.planAskLensResponse request.question (service.guidance permissions)
          permissions := by
    unfold PlanningService.planAskLensResponse
    show (provider (service.unifiedRequest request.question (service.guidance permissions)) >>= _) =
      _
    rw [h]
    rfl
  unfold PlanningService.planLive
  show ((service.asking provider).planAskLensResponse request.question
    (service.guidance permissions) permissions >>= _) = _
  rw [hresponse]
  rfl

theorem routed_locally (hlive : service.live = false) (question : String)
    (capabilities : CapabilitiesSnapshot) :
    (service.asking provider).routeQuestionIntent (service.asking provider).live question
        capabilities =
      service.routeQuestionIntent service.live question capabilities := by
  unfold PlanningService.routeQuestionIntent PlanningService.asking
  simp only [hlive, Bool.false_eq_true, if_false]

theorem help_locally (hlive : service.live = false) (question : String)
    (capabilities : CapabilitiesSnapshot) :
    (service.asking provider).queryHelpForCapabilities question capabilities permissions =
      service.queryHelpForCapabilities question capabilities permissions := by
  have hsame : (service.asking provider).live = false := hlive
  unfold PlanningService.queryHelpForCapabilities
  rw [if_pos hlive, if_pos hsame]
  rfl

theorem planRouted_asking (hlive : service.live = false)
    (h : provider (service.prompt request.question permissions) =
      service.provider (service.prompt request.question permissions))
    (presentation : Option PresentationSpec) :
    (service.asking provider).planRouted request.question permissions presentation =
      service.planRouted request.question permissions presentation := by
  unfold PlanningService.prompt at h
  rw [if_neg (by simp [hlive])] at h
  have hplanned : (service.asking provider).planQuestion request.question permissions =
      service.planQuestion request.question permissions := by
    unfold PlanningService.planQuestion
    show (provider (.plan request.question
      (service.registry.toDict (.ofPermissions permissions))) >>= _) = _
    rw [h]
    rfl
  unfold PlanningService.planRouted
  have hguidance : (service.asking provider).guidance permissions = service.guidance permissions :=
    rfl
  simp only [hguidance, routed_locally hlive, help_locally hlive, hplanned]
  rfl

theorem execute_asking (hpermissions : request.permissions = some permissions)
    (h : provider (service.prompt request.question permissions) =
      service.provider (service.prompt request.question permissions)) :
    (service.asking provider).execute s request = service.execute s request := by
  have hplan : (service.asking provider).plan request permissions =
      service.plan request permissions := by
    unfold PlanningService.plan
    have hlive : (service.asking provider).live = service.live := rfl
    rw [hlive]
    cases hon : service.live with
    | true => simp only [if_true, planLive_asking hon h]
    | false => simp only [Bool.false_eq_true, if_false, planRouted_asking hon h]
  have hattempt : (service.asking provider).attempt s request = service.attempt s request := by
    unfold PlanningService.attempt
    rw [hpermissions]
    dsimp only
    rw [hplan]
    rfl
  unfold PlanningService.execute PlanningService.answer
  rw [hattempt]
  rfl

/-- The provider hears one prompt, and the prompt is the same for every registry with the same
visible part. -/
theorem provider_told_visible {other : CatalogRegistry env}
    (hkeys : service.registry.resources.keys.Nodup) (hkeys' : other.resources.keys.Nodup)
    (hsame : service.registry.SameVisiblePart other (.ofPermissions permissions))
    (hdates : service.registry.DateFieldsVisible (.ofPermissions permissions))
    (hdates' : other.DateFieldsVisible (.ofPermissions permissions)) :
    (∀ question, { service with registry := other }.prompt question permissions =
        service.prompt question permissions) ∧
      ∀ (request : ServiceRequest) (provider : ProviderRequest → Planning RawPlan),
        request.permissions = some permissions →
          provider (service.prompt request.question permissions) =
              service.provider (service.prompt request.question permissions) →
            (service.asking provider).execute s request = service.execute s request := by
  refine ⟨fun question => ?_, fun request provider hpermissions h => execute_asking s hpermissions h⟩
  have hguidance := guidance_of_sameVisiblePart service.tables service.limits.maxRows hkeys hkeys'
    hsame hdates hdates'
  have hcatalog : other.toDict (.ofPermissions permissions) =
      service.registry.toDict (.ofPermissions permissions) := by
    rw [toDict_eq_visiblePart hdates, toDict_eq_visiblePart hdates', ← hsame]
  unfold PlanningService.prompt PlanningService.unifiedRequest PlanningService.guidance
    PlanningService.suggestionCount
  simp only [hguidance, hcatalog]

def financeService : PlanningService Sample.environment :=
  { offline with registry := financeOrders [] }

/-- The provider of someone without finance permissions does not hear of the day of an order. -/
theorem financeOrders_told :
    (∀ question, { financeService with registry := numberedOrders }.prompt question [] =
        financeService.prompt question []) ∧
      ∀ (request : ServiceRequest) (provider : ProviderRequest → Planning RawPlan),
        request.permissions = some [] →
          provider (financeService.prompt request.question []) =
              financeService.provider (financeService.prompt request.question []) →
            (financeService.asking provider).execute unavailable request =
              financeService.execute unavailable request := by
  have hkeys : financeService.registry.resources.keys.Nodup := by decide +kernel
  have hdates : financeService.registry.DateFieldsVisible (.ofPermissions []) := by
    intro r hr name hname
    obtain rfl := List.mem_singleton.mp hr
    cases hname
  have hdates' : numberedOrders.DateFieldsVisible (.ofPermissions []) := by
    intro r hr name hname
    obtain rfl := List.mem_singleton.mp hr
    cases hname
  exact provider_told_visible unavailable hkeys (by decide +kernel) rfl hdates hdates'

end AskLens.Querying
