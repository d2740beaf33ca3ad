import AskLens.Execution.PlanRuns
import AskLens.Planning.ContainedHelp
import AskLens.Querying.PostedAnswers

/-!
# Every request is answered

Over an orderly registry, a provider that sends documents or fails with an
error of the package never makes a request fail: whatever the question, the
plan, the callbacks of the host and the database do, there is a response.
-/
namespace AskLens.Querying

open Python Catalog Checks AskLens.Planning Execution Results

variable {env : Environment}

/-! ## Payloads -/

/-- The `json` module decodes or refuses the payload, and can write it. -/
structure IsDocument (env : Environment) (raw : RawPlan) : Prop where
  decodes : ∀ t, raw.text? = some t →
    loads env.interp t ≠ .error .valueError ∧ loads env.interp t ≠ .error .recursionError
  encodes : ∀ entries, raw = .mapping entries →
    Encodable env.interp.recursionLimit (.dict entries)

variable {raw : RawPlan} {payload : Entries}

theorem contained_parsePlanPayload (h : IsDocument env raw) :
    Contained (parsePlanPayload env raw) :=
  (contained_bind_iff.mp (contained_parseQueryPlan_iff.mpr h.decodes)).1

theorem encodable_parsePlanText {t : PyText} (h : parsePlanText env t = .ok payload) :
    Encodable env.interp.recursionLimit (.dict payload) := by
  unfold parsePlanText at h
  split at h
  · rename_i entries hloads
    obtain rfl := Except.ok.inj h
    exact loads_ok hloads
  all_goals cases h

theorem encodable_parsePlanPayload (hraw : IsDocument env raw)
    (h : parsePlanPayload env raw = .ok payload) :
    Encodable env.interp.recursionLimit (.dict payload) := by
  cases raw with
  | mapping entries =>
    obtain rfl := Except.ok.inj h
    exact hraw.encodes entries rfl
  | text t => exact encodable_parsePlanText h
  | bytes b =>
    unfold parsePlanPayload at h
    dsimp only at h
    split at h
    · exact encodable_parsePlanText h
    · cases h

/-! ## Planning -/

/-- The stage returns or raises an error of the package. -/
def Settles {α : Type} (x : Planning α) : Prop := x ≠ .error .exception

theorem settles_ok {α : Type} (a : α) : Settles (.ok a : Planning α) := nofun

theorem settles_bind_iff {α β : Type} {x : Planning α} {f : α → Planning β} :
    Settles (x >>= f) ↔ Settles x ∧ ∀ a, x = .ok a → Settles (f a) := by
  cases x with
  | ok a => simp [Settles]
  | error e => simp [Settles]

theorem settles_raising {α : Type} {x : Py α} (h : Contained x) : Settles (raising x) := by
  rcases h with ⟨a, rfl⟩ | ⟨exc, rfl⟩
  · nofun
  · nofun

/-- What is asked of a provider: it fails with errors of the package and sends documents. -/
structure Dependable (service : PlanningService env) : Prop where
  fails : ∀ asked, Settles (service.provider asked)
  sends : ∀ asked raw, service.provider asked = .ok raw → IsDocument env raw

section

variable {service : PlanningService env} {question : String} {permissions : List String}
  {capabilities : CapabilitiesSnapshot}

theorem nonblank_guidance (h : OrderlyRegistry service.registry) {resource : ResourceGuidance}
    (hresource : resource ∈ (service.guidance permissions).resources) :
    NamesNonblank resource.toCapabilityResource := by
  obtain ⟨r, hr, rfl⟩ := mem_guidance hresource
  have hmem := (List.mem_filter.mp hr).1
  have hfields : ∀ f ∈ (buildResourceCapability service.tables
      (r.toDict env.unicode (.ofPermissions permissions)) permissions
      (service.registry.requiredPermission r.name)).fields, strip f.name ≠ "" := by
    intro f hf
    obtain ⟨item, hitem, rfl⟩ := List.mem_map.mp hf
    obtain ⟨field, hfield, rfl⟩ := List.mem_map.mp hitem
    exact h.fieldNames r hmem field (List.mem_filter.mp hfield).1
  refine ⟨(isName_guidance hresource).strip_ne, hfields, fun m hm => ?_, fun f hf => ?_⟩
  · obtain ⟨item, hitem, rfl⟩ := List.mem_map.mp hm
    obtain ⟨metric, hmetric, rfl⟩ := List.mem_map.mp hitem
    exact h.metricNames r hmem metric (List.mem_filter.mp hmetric).1
  · exact hfields f (List.mem_filter.mp hf).1

theorem contained_acceptHelp (h : OrderlyRegistry service.registry)
    (hdepth : 3 ≤ env.interp.recursionLimit)
    (hpart : PartOfGuidance service permissions capabilities) {help : QueryHelp}
    (hplans : help.PlansEncodable env.interp.recursionLimit) :
    Contained (service.acceptHelp question capabilities permissions help) := by
  unfold PlanningService.acceptHelp
  rw [contained_bind_iff]
  refine ⟨contained_validateQueryHelp h hdepth ?_ hplans,
    fun validated _ => contained_limitQueryHelpSuggestions validated _⟩
  intro resource hresource
  obtain ⟨guided, hguided, rfl⟩ := List.mem_map.mp hresource
  exact nonblank_guidance h (hpart hguided)

theorem contained_readProviderResponse (h : OrderlyRegistry service.registry)
    (hdepth : 3 ≤ env.interp.recursionLimit)
    (hpart : PartOfGuidance service permissions capabilities) (hraw : IsDocument env raw) :
    Contained (service.readProviderResponse question capabilities permissions raw) := by
  unfold PlanningService.readProviderResponse
  rw [contained_bind_iff]
  refine ⟨contained_parseProviderModel (contained_parsePlanPayload hraw), fun response hparsed => ?_⟩
  obtain ⟨payload, hpayload, hparsed⟩ := parseProviderModel_ok hparsed
  have hencodable := parseProviderResponseModel_encodable
    (encodable_normalizedResponse (encodable_parsePlanPayload hraw hpayload)) hparsed
  cases response with
  | query queryPlan hint =>
    dsimp only
    rw [contained_bind_iff]
    exact ⟨contained_mapping h (encodesWithin_of_encodable hencodable), fun _ _ => contained_ok _⟩
  | capabilities help =>
    dsimp only
    rw [contained_bind_iff]
    exact ⟨contained_acceptHelp h hdepth hpart hencodable, fun _ _ => contained_ok _⟩

theorem settles_planLive (h : OrderlyRegistry service.registry) (hprovider : Dependable service)
    (hdepth : 3 ≤ env.interp.recursionLimit) (presentation : Option PresentationSpec) :
    Settles (service.planLive question permissions presentation) := by
  unfold PlanningService.planLive PlanningService.planAskLensResponse
  simp only [settles_bind_iff]
  refine ⟨⟨hprovider.fails _, fun raw hraw => settles_raising
    (contained_readProviderResponse h hdepth partOfGuidance_self (hprovider.sends _ raw hraw))⟩,
    fun result _ => ?_⟩
  cases result with
  | query plan hint => exact settles_ok _
  | capabilities help => exact settles_ok _

theorem parsePlannerResponseModel_printable {depth : ℕ} {v : PyObj}
    {response : QueryPlan × Option PresentationSpec} (hv : Encodable depth v)
    (h : PlanningService.parsePlannerResponseModel env v = .ok response) :
    ∀ x ∈ response.1.filters, x.Printable := by
  simp only [PlanningService.parsePlannerResponseModel, bind_eq_ok] at h
  obtain ⟨entries, hentries, plan, hplan, presentation, -, _, -, h⟩ := h
  obtain rfl := modelEntries_ok hentries
  obtain rfl := Except.ok.inj h
  obtain ⟨w, hw, hparsed⟩ := required_ok hplan
  obtain ⟨members, hmembers, hmodel⟩ := bind_eq_ok.mp hparsed
  obtain rfl := modelEntries_ok hmembers
  exact parseQueryPlanModel_printable (encodable_lookup hv hw) hmodel

theorem contained_payloadSize_dump (hdepth : 4 ≤ env.interp.recursionLimit) (maxBytes : ℕ)
    (p : QueryPlan) : Contained (validatePlanPayloadSize env maxBytes (.mapping p.dump)) := by
  unfold validatePlanPayloadSize
  rw [contained_bind_iff, contained_payloadBytes_iff]
  refine ⟨?_, fun _ _ => contained_raiseIf _ _ _⟩
  intro entries hentries
  obtain rfl := RawPlan.mapping.inj hentries
  obtain ⟨d, hd⟩ := Nat.exists_eq_add_of_le' hdepth
  have hencodes := p.encodesWithin (d := d)
  rw [← hd] at hencodes
  exact hencodes

theorem settles_planQuestion (h : OrderlyRegistry service.registry)
    (hprovider : Dependable service) (hdepth : 4 ≤ env.interp.recursionLimit) :
    Settles (service.planQuestion question permissions) := by
  unfold PlanningService.planQuestion PlanningService.parsePlannerProviderResponse
  simp only [settles_bind_iff]
  refine ⟨hprovider.fails _, fun raw hraw => ?_⟩
  have hdocument := hprovider.sends _ raw hraw
  refine ⟨settles_raising (contained_parseProviderModel (contained_parsePlanPayload hdocument)),
    fun response hparsed => ⟨settles_raising ?_, fun _ _ => settles_ok _⟩⟩
  unfold PlanningService.validateQueryPlan
  rw [contained_bind_iff]
  refine ⟨contained_payloadSize_dump hdepth _ _, fun _ _ => contained_validateQueryPlan h ?_⟩
  obtain ⟨payload, hpayload, hparsed⟩ := parseProviderModel_ok (raising_eq_ok.mp hparsed)
  exact parsePlannerResponseModel_printable (encodable_parsePlanPayload hdocument hpayload) hparsed

theorem settles_deterministicHelp (hdepth : 3 ≤ env.interp.recursionLimit)
    (hpart : PartOfGuidance service permissions capabilities)
    (hsummary : strip capabilities.summary ≠ "") :
    Settles (service.deterministicHelp question capabilities permissions) := by
  obtain ⟨help, hhelp, -⟩ := buildDeterministicQueryHelp_ok (service.helpContext permissions)
    question hdepth hpart hsummary
  unfold PlanningService.deterministicHelp
  rw [hhelp]
  exact settles_ok help

/-- Without a configured provider the questions are routed by their wording. -/
theorem settles_planRouted (h : OrderlyRegistry service.registry) (hprovider : Dependable service)
    (hdepth : 4 ≤ env.interp.recursionLimit) (hlive : service.live = false)
    (presentation : Option PresentationSpec) :
    Settles (service.planRouted question permissions presentation) := by
  unfold PlanningService.planRouted
  rw [settles_bind_iff]
  constructor
  · unfold PlanningService.routeQuestionIntent
    rw [hlive]
    split
    · exact settles_ok _
    · rw [if_neg Bool.false_ne_true]
      exact settles_ok _
  · intro routed _
    split
    · rw [settles_bind_iff]
      refine ⟨?_, fun _ _ => settles_ok _⟩
      unfold PlanningService.queryHelpForCapabilities
      rw [if_pos hlive, settles_bind_iff]
      exact ⟨settles_deterministicHelp (by omega) (partOfGuidance_filter routed.1)
        (strip_filterCapabilities routed.1), fun _ _ => settles_ok _⟩
    · rw [settles_bind_iff]
      exact ⟨settles_planQuestion h hprovider hdepth, fun _ _ => settles_ok _⟩

theorem settles_parsePresentation (provided : Option Entries) :
    Settles (parsePresentation env provided) := by
  unfold parsePresentation
  split
  · exact settles_ok _
  · split
    · exact settles_ok _
    · nofun

theorem settles_plan (h : OrderlyRegistry service.registry) (hprovider : Dependable service)
    (hdepth : 4 ≤ env.interp.recursionLimit) (request : ServiceRequest) :
    Settles (service.plan request permissions) := by
  unfold PlanningService.plan
  rw [settles_bind_iff]
  refine ⟨settles_parsePresentation _, fun presentation _ => ?_⟩
  cases request.providedPlan with
  | some payload => exact settles_ok _
  | none =>
    dsimp only
    split_ifs with hlive
    · exact settles_planLive h hprovider (by omega) presentation
    · exact settles_planRouted h hprovider hdepth (by simpa using hlive) presentation

end

/-! ## Execution -/

section

variable {R Q V D : Type} {s : Surroundings R Q V D} {registry : CatalogRegistry env}
  {limits : PlanLimits}

theorem executePlan_error {question : String} {permissions : Option Access} {plan : UntrustedPlan}
    {e : Raised R} {effects : List Effect}
    (hplan : ∀ context, buildExecutionContext s permissions = .ok context →
      Contained (parseAndValidateQueryPlan registry limits context.access plan.payload))
    (h : executePlan s registry limits true question permissions plan = (.error e, effects)) :
    e.error? ≠ none := by
  unfold executePlan at h
  cases hcontext : buildExecutionContext s permissions with
  | error raised =>
    obtain ⟨exc, rfl⟩ := buildExecutionContext_error hcontext
    rw [hcontext] at h
    obtain ⟨he, -⟩ := Prod.mk.inj h
    rw [← Except.error.inj he]
    nofun
  | ok context =>
    rw [hcontext] at h
    have hruns := executePublicPlan_runs (s := s) registry limits question plan context
    rw [show executePublicPlan s registry limits question plan context = (.error e, effects) from h]
      at hruns
    exact hruns.error_ne_none (hplan context hcontext)

theorem executePlan_serialized {question : String} {permissions : Option Access}
    {plan : UntrustedPlan} {r : FacadeResult R V} {effects : List Effect}
    (h : executePlan s registry limits true question permissions plan = (.ok r, effects)) :
    ∃ document, r.toDict s = .ok document := by
  have hends := executePlan_ends s registry limits question permissions plan
  rw [h] at hends
  cases hends with
  | succeeded _ evaluated policy event events configured serialized => exact serialized

/-! ## The request -/

variable {service : PlanningService env} {request : ServiceRequest}

/-- The request gets as far as to the parsing of its posted plan. -/
structure ParsesPosted (s : Surroundings R Q V D) (env : Environment) (request : ServiceRequest)
    (raw : RawPlan) (access : Access) : Prop where
  permitted : ∃ permissions, request.permissions = some permissions
  hint : ∃ presentation, parsePresentation env request.providedPresentation = .ok presentation
  posted : request.providedPlan = some raw
  context : ∃ policy, buildExecutionContext s
    (request.executionPermissions.map .ofPermissions) = .ok ⟨access, policy⟩

theorem contained_planned (h : OrderlyRegistry service.registry)
    (hdepth : 4 ≤ env.interp.recursionLimit) {permissions : List String} {access : Access}
    {untrusted : UntrustedPlan} (horigin : PlanOrigin service request permissions untrusted)
    (hposted : ∀ raw, request.providedPlan = some raw →
      Tractable service.registry service.limits access raw) :
    Contained (parseAndValidateQueryPlan service.registry service.limits access
      untrusted.payload) := by
  cases horigin with
  | provided raw hprovided => exact (contained_parse_iff _ _ _ _).mpr (hposted raw hprovided)
  | planned source p _ _ =>
    apply contained_mapping h
    obtain ⟨d, hd⟩ := Nat.exists_eq_add_of_le' hdepth
    rw [hd]
    exact p.encodesWithin

theorem attempt_error (h : OrderlyRegistry service.registry) (hprovider : Dependable service)
    (hdepth : 4 ≤ env.interp.recursionLimit)
    (hposted : ∀ raw access, ParsesPosted s env request raw access →
      Tractable service.registry service.limits access raw)
    {e : Raised R} {effects : List Effect}
    (hattempt : service.attempt s request = (.error e, effects)) : e.error? ≠ none := by
  unfold PlanningService.attempt at hattempt
  cases hpermissions : request.permissions with
  | none =>
    rw [hpermissions] at hattempt
    obtain ⟨he, -⟩ := Prod.mk.inj hattempt
    rw [← Except.error.inj he]
    nofun
  | some permissions =>
    rw [hpermissions] at hattempt
    dsimp only at hattempt
    have hsettles : Settles (service.plan request permissions) :=
      settles_plan h hprovider (by omega) request
    cases hplan : service.plan request permissions with
    | error failure =>
      rw [hplan] at hattempt hsettles
      obtain ⟨he, -⟩ := Prod.mk.inj hattempt
      rw [← Except.error.inj he]
      cases failure with
      | askLens exc => nofun
      | exception => exact absurd rfl hsettles
    | ok planned =>
      rw [hplan] at hattempt
      cases planned with
      | capabilities payload => cases hattempt
      | plan untrusted presentation =>
        dsimp only at hattempt
        have horigin := plan_origin hplan
        have hhint : ∃ hint, parsePresentation env request.providedPresentation = .ok hint :=
          (bind_eq_ok.mp hplan).imp fun _ h => h.1
        cases hrun : executePlan s service.registry service.limits true request.question
            (request.executionPermissions.map .ofPermissions) untrusted with
        | mk outcome evaluated =>
          rw [hrun] at hattempt
          cases outcome with
          | error raised =>
            obtain ⟨he, -⟩ := Prod.mk.inj hattempt
            rw [← Except.error.inj he]
            refine executePlan_error (fun context hcontext => ?_) hrun
            exact contained_planned h hdepth horigin fun raw hraw => hposted raw context.access
              ⟨⟨permissions, hpermissions⟩, hhint, hraw, context.policy, hcontext⟩
          | ok result =>
            -- what was serialized once is serialized again
            obtain ⟨payload, hresponse⟩ :=
              respond_total request presentation (executePlan_serialized hrun)
            dsimp only at hattempt
            rw [hresponse] at hattempt
            cases hattempt

theorem handle_responds (hdepth : 3 ≤ env.interp.recursionLimit) {e : Raised R}
    (h : e.error? ≠ none) : ∃ response, (service.handle s request e).1 = .ok response := by
  unfold PlanningService.handle
  cases he : e.error? with
  | none => exact absurd he h
  | some exc =>
    dsimp only
    cases request.permissions with
    | none => exact ⟨_, rfl⟩
    | some permissions =>
      dsimp only
      split_ifs
      · obtain ⟨payload, hpayload, -⟩ := fallbackPayload_built hdepth
          request.question permissions exc
        rw [hpayload]
        exact ⟨_, rfl⟩
      · exact ⟨_, rfl⟩

theorem builtin_error? {R : Type} (e : BuiltinError) :
    ((PyException.builtin e).toRaised : Raised R).error? = none := by
  cases e <;> rfl

theorem handle_escape {e : Raised R} (h : e.error? = none) :
    service.handle s request e = (.error e, []) := by
  unfold PlanningService.handle
  rw [h]

theorem answer_escapes (service : PlanningService env) {raw : RawPlan} {access : Access}
    (hparses : ParsesPosted s env request raw access)
    (hescapes : ¬ Tractable service.registry service.limits access raw) :
    ∃ e, (service.answer s request).1 = .error e := by
  obtain ⟨permissions, hpermissions⟩ := hparses.permitted
  obtain ⟨presentation, hpresentation⟩ := hparses.hint
  obtain ⟨policy, hcontext⟩ := hparses.context
  have hplan : service.plan request permissions = .ok (.plan (.raw raw) presentation) := by
    unfold PlanningService.plan
    rw [hpresentation, hparses.posted]
    rfl
  rw [← contained_parse_iff] at hescapes
  cases hparse : parseAndValidateQueryPlan service.registry service.limits access raw with
  | ok p =>
    rw [hparse] at hescapes
    exact absurd (contained_ok p) hescapes
  | error exc =>
    cases exc with
    | askLens exc =>
      rw [hparse] at hescapes
      exact absurd (.inr ⟨exc, rfl⟩) hescapes
    | builtin e =>
      have hrun : executePublicPlan s service.registry service.limits request.question (.raw raw)
          ⟨access, policy⟩ = (.error (PyException.builtin e).toRaised, []) := by
        have hruns := executePublicPlan_runs (s := s) service.registry service.limits
          request.question (.raw raw) ⟨access, policy⟩
        unfold UntrustedPlan.payload at hruns
        rw [hparse] at hruns
        exact hruns.escapes
      have hattempt : service.attempt s request =
          (.error (PyException.builtin e).toRaised, []) := by
        unfold PlanningService.attempt
        rw [hpermissions]
        dsimp only
        rw [hplan]
        dsimp only
        unfold executePlan
        rw [hcontext]
        dsimp only
        rw [hrun]
      unfold PlanningService.answer
      rw [hattempt]
      dsimp only
      rw [handle_escape (builtin_error? e)]
      exact ⟨_, rfl⟩

/-- A request is answered with a response, whatever the host, the database and the question are,
exactly when its posted plan can be parsed or refused. -/
theorem request_answered_iff (h : OrderlyRegistry service.registry)
    (hprovider : Dependable service) (hdepth : 4 ≤ env.interp.recursionLimit)
    (hdebug : request.debug = true → request.isStaff = true) :
    (∃ response, (service.execute s request).1 = .ok response) ↔
      ∀ raw access, ParsesPosted s env request raw access →
        Tractable service.registry service.limits access raw := by
  unfold PlanningService.execute
  rw [if_neg]
  · constructor
    · rintro ⟨response, hresponse⟩ raw access hparses
      by_contra hescapes
      obtain ⟨e, he⟩ := answer_escapes service hparses hescapes
      rw [he] at hresponse
      cases hresponse
    · intro hposted
      unfold PlanningService.answer
      cases hattempt : service.attempt s request with
      | mk outcome effects =>
        cases outcome with
        | ok response => exact ⟨response, rfl⟩
        | error e =>
          exact handle_responds (by omega) (attempt_error h hprovider hdepth hposted hattempt)
  · rintro ⟨hasked, hstaff⟩
    rw [hdebug hasked] at hstaff
    cases hstaff

end

theorem namesNoInteger {resource : SemanticResource}
    (h : ∀ f ∈ resource.fields.values, f.enum.isNone = true) (x : FilterSpec) :
    ¬ NamesLongInteger resource x := by
  rintro ⟨-, f, definition, _, _, hf, -, henum, -⟩
  have hnone := h f (List.mem_map.mpr ⟨_, Dict.mem_of_get? hf, rfl⟩)
  rw [henum] at hnone
  cases hnone

theorem numberedOrders_orderly : OrderlyRegistry numberedOrders where
  printable resource hresource x := by
    have hplain : ∀ resource ∈ numberedOrders.resources.values,
        ∀ f ∈ resource.fields.values, f.enum.isNone = true := by decide +kernel
    exact namesNoInteger (hplain resource hresource) x
  fieldNames := by decide +kernel
  metricNames := by decide +kernel

theorem sendsOrders_dependable : Dependable sendsOrders where
  fails _ := settles_ok _
  sends _ raw hraw := by
    obtain rfl := Except.ok.inj hraw
    exact ⟨nofun, fun entries hentries => RawPlan.mapping.inj hentries ▸ ⟨_, rfl⟩⟩

theorem listOrders_tractable {raw : RawPlan} {access : Access}
    (h : ParsesPosted unavailable Sample.environment listOrders raw access) :
    Tractable sendsOrders.registry sendsOrders.limits access raw := by
  obtain rfl : raw = .mapping (Sample.listPlan ["number"]).dump :=
    (Option.some.inj h.posted).symm
  apply (contained_parse_iff _ _ _ _).mp
  apply contained_mapping numberedOrders_orderly
  exact QueryPlan.encodesWithin (d := 996) _

/-- The plan that is posted is parsed, and everything after that fails. -/
theorem sendsOrders_responds :
    (∃ raw access, ParsesPosted unavailable Sample.environment listOrders raw access) ∧
      ∃ response, (sendsOrders.execute unavailable listOrders).1 = .ok response := by
  refine ⟨⟨_, _, ⟨_, rfl⟩, ⟨_, rfl⟩, rfl, ⟨_, rfl⟩⟩, ?_⟩
  apply (request_answered_iff numberedOrders_orderly sendsOrders_dependable (by decide)
    (by decide)).mpr
  intro raw access hparses
  exact listOrders_tractable hparses

end AskLens.Querying
