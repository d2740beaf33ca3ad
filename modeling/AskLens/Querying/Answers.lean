import AskLens.Planning.FallbackHelp
import AskLens.Querying.Refinement

/-!
# What an answer carries

A capabilities answer describes the visible catalog, and its suggestions carry
plans that the validator has accepted for this caller. That holds of every
provider, and of the deterministic help that answers when the provider fails.
-/
namespace AskLens.Querying

open Python Catalog Checks AskLens.Planning Execution Results

variable {env : Environment}

/-! ## Usable suggestions -/

/-- The dump of a plan for this resource that the validator accepts. -/
def IsAcceptedDump (context : HelpContext env) (resourceName : String) (dump : Entries) : Prop :=
  ∃ raw p, parseAndValidateQueryPlan context.registry context.limits
    (.ofPermissions context.permissions) (.mapping raw) = .ok p ∧
      p.resource = resourceName ∧ dump = p.modelDump

/-- A suggestion about one of these resources, whose plan the caller may run. -/
structure UsableSuggestion (context : HelpContext env) (names : List String)
    (suggestion : HelpSuggestion) : Prop where
  resource : suggestion.resourceName ∈ names
  accepted : ∀ dump, suggestion.plan = some dump →
    IsAcceptedDump context suggestion.resourceName dump

variable {context : HelpContext env} {resources : List CapabilityResource}

/-! ## Help of a provider -/

theorem validateQueryHelp_suggestions {help result : QueryHelp}
    (h : validateQueryHelp context resources help = .ok result) :
    result.suggestions = validSuggestions context resources help := by
  unfold validateQueryHelp at h
  obtain ⟨collected, hcollected, h⟩ := bind_eq_ok.mp h
  have hcaught : ∀ suggestion ∈ help.suggestions,
      ¬ Escapes isPlanValidationError (checkSuggestion context resources suggestion) := by
    intro suggestion hmem hescapes
    obtain ⟨e, he⟩ := collectValid_of_escapes hmem hescapes
    rw [checkSuggestion, hcollected] at he
    cases he
  obtain ⟨errors, hvalid⟩ := collectValid_of_caught hcaught
  rw [checkSuggestion, hcollected] at hvalid
  cases hvalid
  simp only at h
  split_ifs at h
  unfold QueryHelp.withSuggestions at h
  split_ifs at h
  cases h
  rfl

theorem toOption_eq_some {ε α : Type} {x : Except ε α} {a : α} :
    x.toOption = some a ↔ x = .ok a := by
  cases x with
  | error e => simp [Except.toOption]
  | ok b => simp [Except.toOption]

theorem init_fields {question resourceName why : String} {fields metrics dateFields : List String}
    {plan : Option Entries} {suggestion : QueryHelpSuggestion}
    (h : QueryHelpSuggestion.init question resourceName fields metrics dateFields plan why =
      .ok suggestion) :
    suggestion.resourceName = strip resourceName ∧ suggestion.plan = plan := by
  unfold QueryHelpSuggestion.init at h
  split_ifs at h
  cases h
  exact ⟨rfl, rfl⟩

theorem validateSuggestionPlan_ok {suggestion result : QueryHelpSuggestion}
    {resource : CapabilityResource} (hplans : context.requirePlans = true)
    (h : validateSuggestionPlan context suggestion resource = .ok result) :
    result.resourceName = suggestion.resourceName ∧
      ∃ dump, result.plan = some dump ∧ IsAcceptedDump context resource.name dump := by
  unfold validateSuggestionPlan at h
  obtain ⟨payload, hpayload, h⟩ := bind_eq_ok.mp h
  cases payload with
  | none =>
    -- a plan is always built where one is required
    unfold suggestionPlan at hpayload
    rw [hplans] at hpayload
    cases hplan : suggestion.plan with
    | some plan =>
      rw [hplan] at hpayload
      cases hpayload
    | none =>
      rw [hplan] at hpayload
      dsimp only at hpayload
      cases hbuilt : buildSuggestionPlanPayload suggestion resource with
      | ok plan =>
        rw [hbuilt] at hpayload
        cases hpayload
      | error e =>
        rw [hbuilt] at hpayload
        cases hpayload
  | some raw =>
    unfold validatePlanPayload at h
    obtain ⟨p, hp, h⟩ := bind_eq_ok.mp h
    obtain ⟨_, hname, h⟩ := bind_eq_ok.mp h
    obtain ⟨_, -, h⟩ := bind_eq_ok.mp h
    cases h
    rw [raiseIf_eq_ok, not_not] at hname
    exact ⟨rfl, p.modelDump, rfl, raw, p, hp, hname, rfl⟩

/-- A suggestion that passes names a resource of the guidance and carries an accepted plan. -/
theorem checkSuggestion_ok {suggestion result : QueryHelpSuggestion}
    (hplans : context.requirePlans = true) (hnames : ∀ r ∈ resources, IsName r.name)
    (h : checkSuggestion context resources suggestion = .ok result) :
    result.resourceName ∈ resources.map CapabilityResource.name ∧
      ∃ dump, result.plan = some dump ∧ IsAcceptedDump context result.resourceName dump := by
  unfold checkSuggestion validateQueryHelpSuggestion at h
  cases hfound : (indexResourceReferences context.tables.casefold resources).get?
      (context.tables.casefold suggestion.resourceName) with
  | none =>
    rw [hfound] at h
    cases h
  | some resource =>
    rw [hfound] at h
    dsimp only at h
    have hmem : resource ∈ resources := by
      rw [indexResourceReferences, get?_indexOf, Option.map_id_fun, id] at hfound
      exact (LastClaim.lastClaim_mem hfound).1
    obtain ⟨normalized, hnormalized, h⟩ := bind_eq_ok.mp h
    obtain ⟨_, -, h⟩ := bind_eq_ok.mp h
    have hname : normalized.resourceName = resource.name := by
      rw [(init_fields hnormalized).1]
      exact (isName_text.mp (hnames resource hmem)).1
    obtain ⟨hsame, dump, hdump, haccepted⟩ := validateSuggestionPlan_ok hplans h
    rw [hsame, hname]
    exact ⟨List.mem_map_of_mem hmem, dump, hdump, haccepted⟩

theorem limitQueryHelpSuggestions_ok {help result : QueryHelp} {count : ℕ}
    (h : limitQueryHelpSuggestions help count = .ok result) :
    result.suggestions.length ≤ count ∧ result.suggestions ⊆ help.suggestions := by
  unfold limitQueryHelpSuggestions at h
  split_ifs at h with hfew
  · cases h
    exact ⟨hfew, List.Subset.refl _⟩
  · unfold QueryHelp.withSuggestions at h
    split_ifs at h
    cases h
    exact ⟨List.length_take_le _ _, List.take_subset _ _⟩

theorem raising_eq_ok {α : Type} {x : Py α} {a : α} : raising x = .ok a ↔ x = .ok a := by
  cases x with
  | ok b => simp [raising]
  | error e =>
    cases e with
    | askLens exc => simp [raising]
    | builtin e => simp [raising]

/-! ## Capabilities answers -/

variable (service : PlanningService env)

structure CapabilitiesAnswer (question : String) (permissions : List String)
    (payload : CapabilitiesPayload) : Prop where
  asked : payload.question = question
  intent : payload.intent.intent = .capabilities
  catalog : payload.catalog = service.registry.toDict (.ofPermissions permissions)
  count : payload.help.suggestions.length ≤ service.suggestionCount question
  usable : ∀ suggestion ∈ payload.help.suggestions, UsableSuggestion
    (service.helpContext permissions) (payload.catalog.map ResourceCatalogItem.name) suggestion
  /-- A suggestion of a provider always has a plan. -/
  provided : payload.helpSource = .semanticProvider →
    ∀ suggestion ∈ payload.help.suggestions, suggestion.plan ≠ none

/-- The help of an answer, before it is put into its payload. -/
structure UsableHelp (question : String) (permissions : List String) (help : HelpContent)
    (source : HelpSource) : Prop where
  count : help.suggestions.length ≤ service.suggestionCount question
  usable : ∀ suggestion ∈ help.suggestions, UsableSuggestion (service.helpContext permissions)
    ((service.registry.toDict (.ofPermissions permissions)).map ResourceCatalogItem.name) suggestion
  provided : source = .semanticProvider → ∀ suggestion ∈ help.suggestions, suggestion.plan ≠ none

variable {service} {question : String} {permissions : List String}

theorem guidance_names : (service.guidance permissions).resources.map (fun r => r.name) =
    (service.registry.toDict (.ofPermissions permissions)).map ResourceCatalogItem.name := by
  unfold PlanningService.guidance buildQueryGuidance guidanceOf
  rw [List.map_map]
  rfl

theorem UsableHelp.answer {help : HelpContent} {source : HelpSource}
    (h : UsableHelp service question permissions help source) {intent : QuestionIntent}
    (hintent : intent.intent = .capabilities) (routing : PlanningService.RoutingSource)
    (helpError : String) :
    CapabilitiesAnswer service question permissions
      (service.capabilitiesPayload question intent routing permissions help source helpError) :=
  ⟨rfl, hintent, rfl, h.count, h.usable, h.provided⟩

/-- Part of the guidance of the caller. -/
def PartOfGuidance (service : PlanningService env) (permissions : List String)
    (capabilities : CapabilitiesSnapshot) : Prop :=
  capabilities.resources ⊆ (service.guidance permissions).resources

theorem PartOfGuidance.names {capabilities : CapabilitiesSnapshot}
    (h : PartOfGuidance service permissions capabilities) :
    capabilities.resources.map (fun r => r.name) ⊆
      (service.registry.toDict (.ofPermissions permissions)).map ResourceCatalogItem.name := by
  rw [← guidance_names]
  exact List.map_subset _ h

theorem acceptHelp_usable {capabilities : CapabilitiesSnapshot} {help result : QueryHelp}
    (hpart : PartOfGuidance service permissions capabilities)
    (h : service.acceptHelp question capabilities permissions help = .ok result) :
    UsableHelp service question permissions result.content .semanticProvider := by
  unfold PlanningService.acceptHelp at h
  obtain ⟨validated, hvalidated, hlimited⟩ := bind_eq_ok.mp h
  obtain ⟨hcount, hsubset⟩ := limitQueryHelpSuggestions_ok hlimited
  have hnames : ∀ r ∈ capabilities.resources.map ResourceGuidance.toCapabilityResource,
      IsName r.name := by
    intro r hr
    obtain ⟨resource, hresource, rfl⟩ := List.mem_map.mp hr
    exact isName_guidance (hpart hresource)
  have hchecked : ∀ suggestion ∈ result.content.suggestions,
      suggestion.resourceName ∈
          (service.registry.toDict (.ofPermissions permissions)).map ResourceCatalogItem.name ∧
        ∃ dump, suggestion.plan = some dump ∧
          IsAcceptedDump (service.helpContext permissions) suggestion.resourceName dump := by
    intro suggestion hsuggestion
    obtain ⟨kept, hkept, rfl⟩ := List.mem_map.mp hsuggestion
    have hvalid := hsubset hkept
    rw [validateQueryHelp_suggestions hvalidated] at hvalid
    obtain ⟨source, -, hsource⟩ := List.mem_filterMap.mp hvalid
    have hplans : (service.helpContext permissions).requirePlans = true := rfl
    obtain ⟨hresource, hplan⟩ := checkSuggestion_ok hplans hnames (toOption_eq_some.mp hsource)
    refine ⟨hpart.names ?_, hplan⟩
    rw [List.map_map] at hresource
    exact hresource
  refine ⟨?_, fun suggestion hsuggestion => ?_, fun _ suggestion hsuggestion hnone => ?_⟩
  · show (result.suggestions.map QueryHelpSuggestion.copy).length ≤ _
    rw [List.length_map]
    exact hcount
  · obtain ⟨hresource, plan, hplan, haccepted⟩ := hchecked suggestion hsuggestion
    refine ⟨hresource, fun dump hdump => ?_⟩
    cases hplan.symm.trans hdump
    exact haccepted
  · obtain ⟨-, plan, hplan, -⟩ := hchecked suggestion hsuggestion
    rw [hnone] at hplan
    cases hplan

theorem deterministicHelp_usable {capabilities : CapabilitiesSnapshot} {help : HelpContent}
    {source : HelpSource} (hdepth : 3 ≤ env.interp.recursionLimit)
    (hpart : PartOfGuidance service permissions capabilities)
    (hsummary : strip capabilities.summary ≠ "") (hsource : source ≠ .semanticProvider)
    (h : service.deterministicHelp question capabilities permissions = .ok help) :
    UsableHelp service question permissions help source := by
  obtain ⟨built, hbuilt, hsuggested, -⟩ := buildDeterministicQueryHelp_ok
    (service.helpContext permissions) question hdepth hpart hsummary
  unfold PlanningService.deterministicHelp at h
  rw [hbuilt] at h
  cases h
  refine ⟨?_, fun suggestion hsuggestion => ?_, fun hprovider => absurd hprovider hsource⟩
  · rw [← hsuggested.length_eq, List.length_take]
    exact Nat.min_le_left _ _
  · obtain ⟨pair, hpair, hfor⟩ := forall₂_mem_right hsuggested hsuggestion
    obtain ⟨resource, hresource, hexample⟩ := List.mem_flatMap.mp (List.mem_of_mem_take hpair)
    obtain ⟨text, -, rfl⟩ := List.mem_map.mp hexample
    refine ⟨?_, hfor.accepted⟩
    rw [hfor.resource]
    exact hpart.names (List.mem_map_of_mem hresource)

theorem partOfGuidance_self : PartOfGuidance service permissions (service.guidance permissions) :=
  List.Subset.refl _

theorem partOfGuidance_filter (intent : QuestionIntent) : PartOfGuidance service permissions
    (filterCapabilitiesForIntent (service.guidance permissions) intent) := by
  unfold PartOfGuidance filterCapabilitiesForIntent
  split_ifs
  · exact List.Subset.refl _
  · show List.filter _ _ ⊆ _
    exact List.filter_sublist.subset

theorem strip_filteredSummary (resources : List ResourceGuidance) :
    strip (buildFilteredSummary resources) ≠ "" := by
  unfold buildFilteredSummary
  split
  · exact strip_ne_of_head (c := 'N') rfl (by decide)
  · exact strip_ne_of_head (c := 'T') rfl (by decide)
  · apply strip_ne_of_head (c := 'T')
    · rw [String.toList_append, String.toList_append]
      rfl
    · decide

theorem strip_filterCapabilities (intent : QuestionIntent) :
    strip (filterCapabilitiesForIntent (service.guidance permissions) intent).summary ≠ "" := by
  unfold filterCapabilitiesForIntent
  split_ifs
  · exact strip_summary _
  · exact strip_filteredSummary _

/-- The help for a part of the guidance, from a provider or without one. -/
theorem queryHelpForCapabilities_usable {capabilities : CapabilitiesSnapshot}
    {help : HelpContent × HelpSource × String} (hdepth : 3 ≤ env.interp.recursionLimit)
    (hpart : PartOfGuidance service permissions capabilities)
    (hsummary : strip capabilities.summary ≠ "")
    (h : service.queryHelpForCapabilities question capabilities permissions = .ok help) :
    UsableHelp service question permissions help.1 help.2.1 := by
  unfold PlanningService.queryHelpForCapabilities at h
  split_ifs at h with hlive
  · obtain ⟨built, hbuilt, h⟩ := bind_eq_ok.mp h
    have hsource : HelpSource.deterministic ≠ .semanticProvider := by decide
    cases h
    exact deterministicHelp_usable hdepth hpart hsummary hsource hbuilt
  · split at h
    · rename_i built hbuilt
      cases h
      unfold PlanningService.buildQueryHelp at hbuilt
      obtain ⟨payload, -, hbuilt⟩ := bind_eq_ok.mp hbuilt
      obtain ⟨parsed, -, hbuilt⟩ := bind_eq_ok.mp hbuilt
      exact acceptHelp_usable hpart (raising_eq_ok.mp hbuilt)
    · obtain ⟨built, hbuilt, h⟩ := bind_eq_ok.mp h
      have hsource : HelpSource.deterministicFallback ≠ .semanticProvider := by decide
      cases h
      exact deterministicHelp_usable hdepth hpart hsummary hsource hbuilt
    · cases h

/-! ## The request -/

/-- What the unified prompt leads to: an accepted plan, or accepted help. -/
theorem planAskLensResponse_ok {capabilities : CapabilitiesSnapshot}
    {result : PlanningService.ProviderResult}
    (h : service.planAskLensResponse question capabilities permissions = .ok result) :
    (∃ queryPlan plan hint, service.validate permissions (.mapping queryPlan) = .ok plan ∧
      result = .query plan hint) ∨
      ∃ sent help, service.acceptHelp question capabilities permissions sent = .ok help ∧
        result = .capabilities help := by
  unfold PlanningService.planAskLensResponse at h
  obtain ⟨raw, -, h⟩ := bind_eq_ok.mp h
  have hread := raising_eq_ok.mp h
  unfold PlanningService.readProviderResponse at hread
  obtain ⟨response, -, hread⟩ := bind_eq_ok.mp hread
  cases response with
  | query queryPlan hint =>
    obtain ⟨plan, hplan, hread⟩ := bind_eq_ok.mp hread
    exact .inl ⟨queryPlan, plan, hint, hplan, (Except.ok.inj hread).symm⟩
  | capabilities sent =>
    obtain ⟨help, hhelp, hread⟩ := bind_eq_ok.mp hread
    exact .inr ⟨sent, help, hhelp, (Except.ok.inj hread).symm⟩

/-- The answer of a configured provider is help from it, or a plan that was accepted. -/
theorem planLive_ok {presentation : Option PresentationSpec} {planned : PlannedResponse}
    (h : service.planLive question permissions presentation = .ok planned) :
    (∃ queryPlan plan hint, service.validate permissions (.mapping queryPlan) = .ok plan ∧
      planned = .plan (.model plan) (presentation <|> hint)) ∨
      ∃ sent help,
        service.acceptHelp question (service.guidance permissions) permissions sent = .ok help ∧
          planned = .capabilities (service.capabilitiesPayload question
            (capabilitiesIntent (confidenceOf 10)) .semanticProvider permissions help.content
            .semanticProvider "") := by
  unfold PlanningService.planLive at h
  obtain ⟨result, hresult, h⟩ := bind_eq_ok.mp h
  rcases planAskLensResponse_ok hresult with
    ⟨queryPlan, plan, hint, hplan, rfl⟩ | ⟨sent, help, hhelp, rfl⟩
  · exact .inl ⟨queryPlan, plan, hint, hplan, (Except.ok.inj h).symm⟩
  · exact .inr ⟨sent, help, hhelp, (Except.ok.inj h).symm⟩

theorem planRouted_capabilities (hdepth : 3 ≤ env.interp.recursionLimit)
    {presentation : Option PresentationSpec} {payload : CapabilitiesPayload}
    (h : service.planRouted question permissions presentation = .ok (.capabilities payload)) :
    CapabilitiesAnswer service question permissions payload := by
  unfold PlanningService.planRouted at h
  obtain ⟨routed, -, h⟩ := bind_eq_ok.mp h
  cases hintent : routed.1.intent with
  | query =>
    rw [hintent] at h
    obtain ⟨response, -, h⟩ := bind_eq_ok.mp h
    cases h
  | capabilities =>
    rw [hintent] at h
    obtain ⟨help, hhelp, h⟩ := bind_eq_ok.mp h
    cases h
    exact (queryHelpForCapabilities_usable hdepth (partOfGuidance_filter routed.1)
      (strip_filterCapabilities routed.1) hhelp).answer hintent _ _

/-- A posted plan is handed on as it is; a question goes to the branch of the configuration. -/
theorem plan_ok {request : ServiceRequest} {planned : PlannedResponse}
    (h : service.plan request permissions = .ok planned) :
    ∃ presentation, (∃ raw, request.providedPlan = some raw ∧
        planned = .plan (.raw raw) presentation) ∨
      (request.providedPlan = none ∧ service.live = true ∧
        service.planLive request.question permissions presentation = .ok planned) ∨
      request.providedPlan = none ∧ service.live = false ∧
        service.planRouted request.question permissions presentation = .ok planned := by
  unfold PlanningService.plan at h
  obtain ⟨presentation, -, h⟩ := bind_eq_ok.mp h
  refine ⟨presentation, ?_⟩
  cases hprovided : request.providedPlan with
  | some raw =>
    rw [hprovided] at h
    exact .inl ⟨raw, rfl, (Except.ok.inj h).symm⟩
  | none =>
    rw [hprovided] at h
    dsimp only at h
    split_ifs at h with hlive
    · exact .inr (.inl ⟨rfl, hlive, h⟩)
    · exact .inr (.inr ⟨rfl, Bool.eq_false_iff.mpr hlive, h⟩)

theorem plan_capabilities (hdepth : 3 ≤ env.interp.recursionLimit) {request : ServiceRequest}
    {payload : CapabilitiesPayload}
    (h : service.plan request permissions = .ok (.capabilities payload)) :
    CapabilitiesAnswer service request.question permissions payload := by
  obtain ⟨presentation, ⟨raw, -, hposted⟩ | ⟨-, -, hlive⟩ | ⟨-, -, hrouted⟩⟩ := plan_ok h
  · cases hposted
  · rcases planLive_ok hlive with ⟨_, _, _, -, hplan⟩ | ⟨sent, help, hhelp, hanswer⟩
    · cases hplan
    · cases hanswer
      exact (acceptHelp_usable partOfGuidance_self hhelp).answer rfl _ _
  · exact planRouted_capabilities hdepth hrouted

theorem fallbackPayload_answer (hdepth : 3 ≤ env.interp.recursionLimit) {exc : RaisedError}
    {payload : CapabilitiesPayload}
    (h : service.fallbackPayload question permissions exc = .ok payload) :
    CapabilitiesAnswer service question permissions payload := by
  unfold PlanningService.fallbackPayload at h
  obtain ⟨help, hhelp, h⟩ := bind_eq_ok.mp h
  cases h
  have hintent : (capabilitiesIntent (confidenceOf 5)).intent = .capabilities := rfl
  have hsource : HelpSource.deterministicFallback ≠ .semanticProvider := by decide
  exact (deterministicHelp_usable hdepth partOfGuidance_self (strip_summary _) hsource
    hhelp).answer hintent _ _

variable {R Q V D : Type} (s : Surroundings R Q V D)

theorem respond_ne_capabilities {request : ServiceRequest}
    {presentation : Option PresentationSpec} {r : FacadeResult R V} {payload : CapabilitiesPayload} :
    PlanningService.respond s env request presentation r ≠ .ok (.capabilities payload) := by
  intro h
  unfold PlanningService.respond at h
  split at h
  · cases h
  · split at h
    · cases h
    · cases h

/-- A response of the `try` statement is help that planning has decided on, or shows the result of
the plan. -/
theorem attempt_ok {request : ServiceRequest} {response : ServiceResponse R D}
    {effects : List Effect} (h : service.attempt s request = (.ok response, effects)) :
    ∃ permissions, request.permissions = some permissions ∧
      ((∃ payload, service.plan request permissions = .ok (.capabilities payload) ∧
          response = .capabilities payload) ∨
        ∃ untrusted presentation r,
          service.plan request permissions = .ok (.plan untrusted presentation) ∧
            executePlan s service.registry service.limits true request.question
              (request.executionPermissions.map .ofPermissions) untrusted = (.ok r, effects) ∧
              PlanningService.respond s env request presentation r = .ok response) := by
  unfold PlanningService.attempt at h
  cases hpermissions : request.permissions with
  | none =>
    rw [hpermissions] at h
    cases h
  | some permissions =>
    refine ⟨permissions, rfl, ?_⟩
    rw [hpermissions] at h
    dsimp only at h
    cases hplan : service.plan request permissions with
    | error e =>
      rw [hplan] at h
      cases h
    | ok planned =>
      rw [hplan] at h
      cases planned with
      | capabilities payload =>
        cases h
        exact .inl ⟨payload, rfl, rfl⟩
      | plan untrusted presentation =>
        dsimp only at h
        generalize hexecuted : executePlan s service.registry service.limits true request.question
          (request.executionPermissions.map .ofPermissions) untrusted = executed at h
        obtain ⟨outcome, made⟩ := executed
        cases outcome with
        | error e => cases h
        | ok r =>
          obtain ⟨hresponse, rfl⟩ := Prod.mk.inj h
          exact .inr ⟨untrusted, presentation, r, rfl, hexecuted, hresponse⟩

theorem attempt_capabilities {request : ServiceRequest} {payload : CapabilitiesPayload}
    {effects : List Effect}
    (h : service.attempt s request = (.ok (.capabilities payload), effects)) :
    ∃ permissions, request.permissions = some permissions ∧
      service.plan request permissions = .ok (.capabilities payload) := by
  obtain ⟨permissions, hpermissions, ⟨answered, hplan, hsame⟩ | ⟨_, _, _, -, -, hresponse⟩⟩ :=
    attempt_ok s h
  · cases hsame
    exact ⟨permissions, hpermissions, hplan⟩
  · exact absurd hresponse (respond_ne_capabilities s)

theorem attempt_ne_error {request : ServiceRequest} {question : String} {run : Option R}
    {document : PublicErrorDocument} {effects : List Effect} :
    service.attempt s request ≠ (.ok (.error question run document), effects) := by
  intro h
  obtain ⟨_, -, ⟨_, -, hsame⟩ | ⟨_, _, _, -, -, hresponse⟩⟩ := attempt_ok s h
  · cases hsame
  · unfold PlanningService.respond at hresponse
    split at hresponse
    · cases hresponse
    · split at hresponse
      · cases hresponse
      · cases hresponse

theorem rejectRaised_error (question : String) (exc : RaisedError) (e : Raised R) : ∃ run,
    (PlanningService.rejectRaised s question exc e).1 = .error question run exc.payload := by
  cases e <;> exact ⟨_, rfl⟩

theorem handle_answers {request : ServiceRequest} {e : Raised R} {response : ServiceResponse R D}
    (h : (service.handle s request e).1 = .ok response) :
    (∃ run document, response = .error request.question run document) ∨
      ∃ permissions exc payload, request.permissions = some permissions ∧
        service.fallbackPayload request.question permissions exc = .ok payload ∧
          response = .capabilities payload := by
  unfold PlanningService.handle at h
  cases he : e.error? with
  | none =>
    rw [he] at h
    cases h
  | some exc =>
    obtain ⟨run, hrejected⟩ := rejectRaised_error s request.question exc e
    rw [he] at h
    cases hpermissions : request.permissions with
    | none =>
      rw [hpermissions] at h
      exact .inl ⟨run, exc.payload, (Except.ok.inj h).symm.trans hrejected⟩
    | some permissions =>
      rw [hpermissions] at h
      dsimp only at h
      split_ifs at h
      · right
        cases hbuilt : service.fallbackPayload request.question permissions exc with
        | error failure =>
          rw [hbuilt] at h
          cases h
        | ok built =>
          rw [hbuilt] at h
          exact ⟨permissions, exc, built, rfl, hbuilt, (Except.ok.inj h).symm⟩
      · exact .inl ⟨run, exc.payload, (Except.ok.inj h).symm.trans hrejected⟩

/-- A capabilities answer describes the catalog that the caller sees, and each of its plans is one
that the validator accepts for this caller. -/
theorem capabilities_answers_usable (hdepth : 3 ≤ env.interp.recursionLimit)
    {request : ServiceRequest} {payload : CapabilitiesPayload}
    (h : (service.execute s request).1 = .ok (.capabilities payload)) :
    ∃ permissions, request.permissions = some permissions ∧
      CapabilitiesAnswer service request.question permissions payload := by
  unfold PlanningService.execute at h
  split_ifs at h with hdebug
  unfold PlanningService.answer at h
  generalize hattempt : service.attempt s request = attempted at h
  obtain ⟨outcome, effects⟩ := attempted
  cases outcome with
  | ok response =>
    obtain rfl := Except.ok.inj h
    obtain ⟨permissions, hpermissions, hplan⟩ := attempt_capabilities s hattempt
    exact ⟨permissions, hpermissions, plan_capabilities hdepth hplan⟩
  | error e =>
    rcases handle_answers s h with ⟨run, document, herror⟩ | ⟨permissions, exc, built,
      hpermissions, hpayload, hbuilt⟩
    · cases herror
    · cases hbuilt
      exact ⟨permissions, hpermissions, fallbackPayload_answer hdepth hpayload⟩

/-- A live service whose provider never answers. -/
def offline : PlanningService Sample.environment where
  tables := plainTables
  registry := numberedOrders
  limits := Sample.limits
  shortlistLimit := 12
  live := true
  provider _ := .error (.askLens (ErrorType.llmProviderError.raised none))
  parseConfidence _ := .ok (confidenceOf 10)

def askForHelp : ServiceRequest where
  question := "help"
  debug := false
  isStaff := false
  includePresentation := true
  providedPlan := none
  providedPresentation := none
  permissions := some []
  executionPermissions := some []

def helpReply : Entries :=
  [(textObj "response_type", textObj "capabilities"),
    (textObj "query_help", .dict
      [(textObj "answer", textObj "Ask for orders."),
        (textObj "suggestions", .list [.dict
          [(textObj "question", textObj "List the orders"),
            (textObj "resource_name", textObj "orders"),
            (textObj "fields", .list [textObj "number"]),
            (textObj "plan", .dict (Sample.listPlan ["number"]).dump)]])])]

def sendsHelp : PlanningService Sample.environment :=
  { offline with provider := fun _ => .ok (.mapping helpReply) }

def answeredCapabilities : Except (Raised R) (ServiceResponse R D) → Option CapabilitiesPayload
  | .ok (.capabilities payload) => some payload
  | _ => none

theorem exists_answeredCapabilities {outcome : Except (Raised R) (ServiceResponse R D)}
    {test : CapabilitiesPayload → Bool} (h : (answeredCapabilities outcome).any test = true) :
    ∃ payload, outcome = .ok (.capabilities payload) ∧ test payload = true := by
  unfold answeredCapabilities at h
  split at h
  · exact ⟨_, rfl, h⟩
  · cases h

theorem sendsHelp_answer_usable : ∃ payload permissions,
    (sendsHelp.execute unavailable askForHelp).1 = .ok (.capabilities payload) ∧
      payload.helpSource = .semanticProvider ∧ payload.help.suggestions.length = 1 ∧
        askForHelp.permissions = some permissions ∧
          CapabilitiesAnswer sendsHelp askForHelp.question permissions payload := by
  have hprovided : (answeredCapabilities (sendsHelp.execute unavailable askForHelp).1).any
      (fun payload => payload.helpSource = .semanticProvider ∧
        payload.help.suggestions.length = 1) = true := by
    decide +kernel
  obtain ⟨payload, hpayload, htested⟩ := exists_answeredCapabilities hprovided
  obtain ⟨hsource, hlength⟩ := of_decide_eq_true htested
  obtain ⟨permissions, hpermissions, hanswer⟩ :=
    capabilities_answers_usable unavailable (by decide) hpayload
  exact ⟨payload, permissions, hpayload, hsource, hlength, hpermissions, hanswer⟩

/-! ## Fallback questions -/

theorem fallbackPayload_built (hdepth : 3 ≤ env.interp.recursionLimit) (question : String)
    (permissions : List String) (exc : RaisedError) : ∃ payload,
      service.fallbackPayload question permissions exc = .ok payload ∧
        List.Forall₂ (SuggestedFor (service.helpContext permissions))
          ((examplePairs (service.guidance permissions).resources).take
            (service.suggestionCount question)) payload.help.suggestions := by
  have hpart : PartOfGuidance service permissions (service.guidance permissions) :=
    partOfGuidance_self
  obtain ⟨help, hhelp, hsuggested, -⟩ := buildDeterministicQueryHelp_ok
    (service.helpContext permissions) question hdepth hpart (strip_summary _)
  refine ⟨service.capabilitiesPayload question (capabilitiesIntent (confidenceOf 5)) .fallback
    permissions help .deterministicFallback (safeProviderFallbackMessage exc.code), ?_, hsuggested⟩
  unfold PlanningService.fallbackPayload PlanningService.deterministicHelp
  rw [hhelp]
  rfl

theorem fallback_live {request : ServiceRequest}
    (h : service.shouldReturnCapabilitiesFallback request = true) :
    request.providedPlan = none ∧ service.live = true := by
  unfold PlanningService.shouldReturnCapabilitiesFallback at h
  rw [Bool.and_eq_true, Bool.and_eq_true, Option.isNone_iff_eq_none] at h
  exact h.1

theorem handle_fallback (hdepth : 3 ≤ env.interp.recursionLimit) {request : ServiceRequest}
    (hpermissions : request.permissions = some permissions)
    (hfallback : service.shouldReturnCapabilitiesFallback request = true) (e : Raised R) :
    (e.error? = none ∧ (service.handle s request e).1 = .error e) ∨
      (∃ run, ∃ exc : RaisedError, exc.code = .authorizationDenied ∧
        (service.handle s request e).1 = .ok (.error request.question run exc.payload)) ∨
      ∃ exc payload, service.fallbackPayload request.question permissions exc = .ok payload ∧
        (service.handle s request e).1 = .ok (.capabilities payload) := by
  unfold PlanningService.handle
  cases he : e.error? with
  | none => exact .inl ⟨rfl, rfl⟩
  | some exc =>
    right
    rw [hpermissions]
    dsimp only
    split_ifs with hcode
    · right
      obtain ⟨payload, hpayload, -⟩ := fallbackPayload_built hdepth
        request.question permissions exc
      rw [hpayload]
      exact ⟨exc, payload, hpayload, rfl⟩
    · left
      have hdenied : exc.code = .authorizationDenied := by
        by_contra hother
        exact hcode ⟨hother, hfallback⟩
      cases e with
      | publicAskLens marked => exact ⟨_, exc, hdenied, rfl⟩
      | askLens raised => exact ⟨_, exc, hdenied, rfl⟩
      | unresolvedBinding => cases he
      | exception => cases he

theorem plan_source {request : ServiceRequest} {payload : CapabilitiesPayload}
    (hlive : service.live = true)
    (h : service.plan request permissions = .ok (.capabilities payload)) :
    payload.source = .semanticProvider := by
  obtain ⟨presentation, ⟨raw, -, hposted⟩ | ⟨-, -, hanswered⟩ | ⟨-, hlocal, -⟩⟩ := plan_ok h
  · cases hposted
  · rcases planLive_ok hanswered with ⟨_, _, _, -, hplan⟩ | ⟨_, _, -, hanswer⟩
    · cases hplan
    · cases hanswer
      rfl
  · rw [hlive] at hlocal
    cases hlocal

/-- A question about the capabilities is never answered with an error, unless it is denied. Where
the provider, the validation or the query fails, the help of the first examples answers. -/
theorem fallback_question_answered (hdepth : 3 ≤ env.interp.recursionLimit)
    {request : ServiceRequest} (hpermissions : request.permissions = some permissions)
    (hfallback : service.shouldReturnCapabilitiesFallback request = true) :
    (∀ question run document,
      (service.execute s request).1 = .ok (.error question run document) →
        document.code = .authorizationDenied) ∧
      (∀ e, (service.execute s request).1 = .error e → e.error? = none) ∧
      ∀ payload, (service.execute s request).1 = .ok (.capabilities payload) →
        payload.source = .fallback →
          List.Forall₂ (SuggestedFor (service.helpContext permissions))
            ((examplePairs (service.guidance permissions).resources).take
              (service.suggestionCount request.question)) payload.help.suggestions := by
  unfold PlanningService.execute
  split_ifs with hdebug
  · refine ⟨nofun, fun e he => ?_, fun _ h => nomatch h⟩
    cases he
    rfl
  unfold PlanningService.answer
  generalize hattempt : service.attempt s request = attempted
  obtain ⟨outcome, effects⟩ := attempted
  cases outcome with
  | ok response =>
    refine ⟨fun question run document h => ?_, nofun, fun payload h hsource => ?_⟩
    · obtain rfl := Except.ok.inj h
      exact absurd hattempt (attempt_ne_error s)
    · obtain rfl := Except.ok.inj h
      obtain ⟨_, -, hplan⟩ := attempt_capabilities s hattempt
      rw [plan_source (fallback_live hfallback).2 hplan] at hsource
      cases hsource
  | error e =>
    dsimp only
    rcases handle_fallback s hdepth hpermissions hfallback e with
      ⟨hnone, hsame⟩ | ⟨run, exc, hdenied, hsame⟩ | ⟨exc, payload, hpayload, hsame⟩
    all_goals rw [hsame]
    · refine ⟨nofun, fun e' he => ?_, fun _ h => nomatch h⟩
      cases he
      exact hnone
    · refine ⟨fun question run' document h => ?_, nofun, fun _ h => nomatch h⟩
      cases h
      exact hdenied
    · refine ⟨nofun, nofun, fun answered h _ => ?_⟩
      cases h
      obtain ⟨built, hbuilt, hsuggested⟩ := fallbackPayload_built hdepth
        request.question permissions exc
      cases hpayload.symm.trans hbuilt
      exact hsuggested

/-- The provider does not answer, and the help does. -/
theorem offline_fallback : ∃ payload,
    (offline.execute unavailable askForHelp).1 = .ok (.capabilities payload) ∧
      payload.help.suggestions.length = 1 ∧
        List.Forall₂ (SuggestedFor (offline.helpContext []))
          ((examplePairs (offline.guidance []).resources).take (offline.suggestionCount "help"))
          payload.help.suggestions := by
  have hfallback : (answeredCapabilities (offline.execute unavailable askForHelp).1).any
      (fun payload => payload.source = .fallback ∧
        payload.help.suggestions.length = 1) = true := by
    decide +kernel
  obtain ⟨payload, hpayload, htested⟩ := exists_answeredCapabilities hfallback
  obtain ⟨hsource, hlength⟩ := of_decide_eq_true htested
  have hdepth : 3 ≤ Sample.environment.interp.recursionLimit := by decide
  have hpermissions : askForHelp.permissions = some [] := rfl
  have hquestion : offline.shouldReturnCapabilitiesFallback askForHelp = true := by
    decide +kernel
  obtain ⟨-, -, hsuggested⟩ :=
    fallback_question_answered unavailable hdepth hpermissions hquestion
  exact ⟨payload, hpayload, hlength, hsuggested payload hpayload hsource⟩

end AskLens.Querying
