import AskLens.Planning.DecodedDumps
import AskLens.Python.Utf8
import AskLens.Querying.PostedAnswers

/-!
# The forms of a payload

Plans and provider responses may come as a mapping, as its JSON text or as the
UTF-8 bytes of that text. The form of a payload leaves no trace: neither in the
answer nor in the audit events and observations.
-/
namespace AskLens.Querying

open Python Catalog Checks AskLens.Planning Execution Results

variable {env : Environment}

/-- The three forms of a mapping. -/
inductive FormOf (env : Environment) (entries : Entries) : RawPlan → Prop
  | mapping : FormOf env entries (.mapping entries)
  | text {t : PyText} (written : dumps env.interp (.dict entries) = .ok t) :
    FormOf env entries (.text t)
  | bytes {t : PyText} {b : List UInt8} (written : dumps env.interp (.dict entries) = .ok t)
    (encoded : decodeUtf8 b = some t) : FormOf env entries (.bytes b)

/-- Two payloads with the same content. A mapping is taken to hold what decoding may return, as
the body of a request does. -/
def SameContent (env : Environment) (raw raw' : RawPlan) : Prop :=
  raw = raw' ∨ ∃ entries, Decoded (.dict entries) ∧ FormOf env entries raw ∧ FormOf env entries raw'

/-- The same outcome up to the diagnostic message of an error, which stays internal. -/
def SameOutcome {α : Type} (x y : Py α) : Prop :=
  x = y ∨ ∃ cls msg msg', x = .error (ErrorClass.exc cls msg) ∧ y = .error (cls.exc msg')

/-! ## Parsing -/

theorem parsePlanText_written {entries : Entries} {t : PyText} (hdecoded : Decoded (.dict entries))
    (h : dumps env.interp (.dict entries) = .ok t) : parsePlanText env t = .ok entries := by
  have hloads := loads_dumps hdecoded h
  unfold parsePlanText
  rw [hloads]

theorem parsePlanPayload_form {entries : Entries} {raw : RawPlan}
    (hdecoded : Decoded (.dict entries)) (h : FormOf env entries raw) :
    parsePlanPayload env raw = .ok entries := by
  cases h with
  | mapping => rfl
  | text written => exact parsePlanText_written hdecoded written
  | bytes written encoded =>
    simp only [parsePlanPayload, encoded]
    exact parsePlanText_written hdecoded written

theorem parsePlanPayload_same {raw raw' : RawPlan} (h : SameContent env raw raw') :
    parsePlanPayload env raw' = parsePlanPayload env raw := by
  rcases h with rfl | ⟨entries, hdecoded, hraw, hraw'⟩
  · rfl
  · rw [parsePlanPayload_form hdecoded hraw, parsePlanPayload_form hdecoded hraw']

/-! ## Sizes -/

theorem payloadBytes_form {entries : Entries} {raw : RawPlan} (h : FormOf env entries raw)
    {t : PyText} (ht : dumps env.interp (.dict entries) = .ok t) :
    (∃ n, t.encodedLength = some n ∧ payloadBytes env raw = .ok n) ∨
      t.encodedLength = none ∧ ∃ msg, payloadBytes env raw = .error (ErrorClass.planParse.exc msg) := by
  cases h with
  | mapping =>
    cases hlength : t.encodedLength with
    | none =>
      refine .inr ⟨rfl, "QueryPlan text values must be valid UTF-8.", ?_⟩
      simp only [payloadBytes, ht, hlength]
    | some n => exact .inl ⟨n, rfl, by simp only [payloadBytes, ht, hlength]⟩
  | text written =>
    obtain rfl := Except.ok.inj (ht.symm.trans written)
    cases hlength : t.encodedLength with
    | none =>
      refine .inr ⟨rfl, "QueryPlan text must be valid UTF-8.", ?_⟩
      simp only [payloadBytes, hlength]
    | some n => exact .inl ⟨n, rfl, by simp only [payloadBytes, hlength]⟩
  | bytes written encoded =>
    obtain rfl := Except.ok.inj (ht.symm.trans written)
    exact .inl ⟨_, encodedLength_decodeUtf8 encoded, rfl⟩

/-- Some form of a mapping is a text, unless there is only one form. -/
theorem FormOf.written {entries : Entries} {raw : RawPlan} (h : FormOf env entries raw) :
    raw = .mapping entries ∨ ∃ t, dumps env.interp (.dict entries) = .ok t := by
  cases h with
  | mapping => exact .inl rfl
  | text written => exact .inr ⟨_, written⟩
  | bytes written encoded => exact .inr ⟨_, written⟩

theorem payloadBytes_same {raw raw' : RawPlan} (h : SameContent env raw raw') :
    SameOutcome (payloadBytes env raw) (payloadBytes env raw') := by
  rcases h with rfl | ⟨entries, -, hraw, hraw'⟩
  · exact .inl rfl
  · have hwritten : raw = raw' ∨ ∃ t, dumps env.interp (.dict entries) = .ok t := by
      rcases hraw.written with rfl | hwritten
      · exact hraw'.written.imp_left Eq.symm
      · exact .inr hwritten
    rcases hwritten with rfl | ⟨t, ht⟩
    · exact .inl rfl
    · rcases payloadBytes_form hraw ht with ⟨n, hn, hbytes⟩ | ⟨hn, msg, hbytes⟩
      · rcases payloadBytes_form hraw' ht with ⟨m, hm, hbytes'⟩ | ⟨hm, msg, hbytes'⟩
        · obtain rfl := Option.some.inj (hn.symm.trans hm)
          exact .inl (hbytes.trans hbytes'.symm)
        · rw [hn] at hm
          cases hm
      · rcases payloadBytes_form hraw' ht with ⟨m, hm, hbytes'⟩ | ⟨hm, msg', hbytes'⟩
        · rw [hn] at hm
          cases hm
        · exact .inr ⟨_, _, _, hbytes, hbytes'⟩

theorem SameOutcome.bind {α β : Type} {x y : Py α} (h : SameOutcome x y) (f : α → Py β) :
    SameOutcome (x >>= f) (y >>= f) := by
  rcases h with rfl | ⟨cls, msg, msg', rfl, rfl⟩
  · exact .inl rfl
  · exact .inr ⟨cls, msg, msg', rfl, rfl⟩

theorem parseAndValidate_same (registry : CatalogRegistry env) (limits : PlanLimits)
    (access : Access) {raw raw' : RawPlan} (h : SameContent env raw raw') :
    SameOutcome (parseAndValidateQueryPlan registry limits access raw)
      (parseAndValidateQueryPlan registry limits access raw') := by
  have hparse : parseQueryPlan env raw' = parseQueryPlan env raw := by
    unfold parseQueryPlan
    rw [parsePlanPayload_same h]
  unfold parseAndValidateQueryPlan validatePlanPayloadSize
  rw [hparse]
  exact ((payloadBytes_same h).bind _).bind _

/-! ## Execution -/

variable {R Q V D : Type} (s : Surroundings R Q V D)

theorem executePublicPlan_same {registry : CatalogRegistry env} {limits : PlanLimits}
    {raw raw' : RawPlan} {context : ExecutionContext} (h : SameContent env raw raw')
    (question : String) :
    executePublicPlan s registry limits question (.raw raw') context =
      executePublicPlan s registry limits question (.raw raw) context := by
  rcases parseAndValidate_same registry limits context.access h with
    hsame | ⟨cls, msg, msg', hraw, hraw'⟩
  · exact executePublicPlan_congr s hsame.symm question
  · unfold executePublicPlan UntrustedPlan.payload
    rw [hraw, hraw']
    rfl

theorem executePlan_same {registry : CatalogRegistry env} {limits : PlanLimits}
    {raw raw' : RawPlan} (h : SameContent env raw raw') (deferred : Bool) (question : String)
    (permissions : Option Access) :
    executePlan s registry limits deferred question permissions (.raw raw') =
      executePlan s registry limits deferred question permissions (.raw raw) := by
  unfold executePlan
  cases buildExecutionContext s permissions with
  | error e => rfl
  | ok context => exact executePublicPlan_same s h question

/-! ## Providers -/

/-- What two providers send back: the same failure, or the same content. -/
inductive SameReply (env : Environment) : Planning RawPlan → Planning RawPlan → Prop
  | failed (e : PlanningFailure) : SameReply env (.error e) (.error e)
  | sent {raw raw' : RawPlan} (same : SameContent env raw raw') : SameReply env (.ok raw) (.ok raw')

theorem SameReply.bind {α : Type} {reply reply' : Planning RawPlan}
    (h : SameReply env reply reply') {read : RawPlan → Planning α}
    (hread : ∀ {raw raw'}, parsePlanPayload env raw' = parsePlanPayload env raw →
      read raw' = read raw) :
    (reply' >>= read) = (reply >>= read) := by
  cases h with
  | failed e => rfl
  | sent same => exact hread (parsePlanPayload_same same)

theorem parseProviderModel_same {α : Type} {model : String} {parse : PyObj → Parse α}
    {normalize : Entries → Entries} {raw raw' : RawPlan}
    (h : parsePlanPayload env raw' = parsePlanPayload env raw) :
    parseProviderModel env model parse normalize raw' =
      parseProviderModel env model parse normalize raw := by
  unfold parseProviderModel
  rw [h]

namespace PlanningService

variable (service : PlanningService env) {provider : ProviderRequest → Planning RawPlan}

/-- The same deployment with another provider. -/
def withProvider (provider : ProviderRequest → Planning RawPlan) : PlanningService env :=
  { service with provider := provider }

theorem planAskLensResponse_same
    (h : ∀ prompt, SameReply env (service.provider prompt) (provider prompt)) (question : String)
    (capabilities : CapabilitiesSnapshot) (permissions : List String) :
    (service.withProvider provider).planAskLensResponse question capabilities permissions =
      service.planAskLensResponse question capabilities permissions := by
  apply (h _).bind
  intro raw raw' hsame
  unfold readProviderResponse parseAskLensProviderResponse
  rw [parseProviderModel_same hsame]

theorem buildQueryHelp_same
    (h : ∀ prompt, SameReply env (service.provider prompt) (provider prompt)) (question : String)
    (capabilities : CapabilitiesSnapshot) (permissions : List String) :
    (service.withProvider provider).buildQueryHelp question capabilities permissions =
      service.buildQueryHelp question capabilities permissions := by
  apply (h _).bind
  intro raw raw' hsame
  unfold parseQueryHelp
  rw [parseProviderModel_same hsame]

theorem planQuestion_same
    (h : ∀ prompt, SameReply env (service.provider prompt) (provider prompt)) (question : String)
    (permissions : List String) :
    (service.withProvider provider).planQuestion question permissions =
      service.planQuestion question permissions := by
  apply (h _).bind
  intro raw raw' hsame
  unfold parsePlannerProviderResponse
  rw [parseProviderModel_same hsame]

theorem planQuestionIntent_same
    (h : ∀ prompt, SameReply env (service.provider prompt) (provider prompt)) (question : String)
    (capabilities : CapabilitiesSnapshot) :
    (service.withProvider provider).planQuestionIntent question capabilities =
      service.planQuestionIntent question capabilities := by
  apply (h _).bind
  intro raw raw' hsame
  unfold parseQuestionIntent
  rw [parseProviderModel_same hsame]

theorem routeQuestionIntent_same
    (h : ∀ prompt, SameReply env (service.provider prompt) (provider prompt)) (asks : Bool)
    (question : String) (capabilities : CapabilitiesSnapshot) :
    (service.withProvider provider).routeQuestionIntent asks question capabilities =
      service.routeQuestionIntent asks question capabilities := by
  unfold routeQuestionIntent
  rw [service.planQuestionIntent_same h]
  rfl

theorem queryHelpForCapabilities_same
    (h : ∀ prompt, SameReply env (service.provider prompt) (provider prompt)) (question : String)
    (capabilities : CapabilitiesSnapshot) (permissions : List String) :
    (service.withProvider provider).queryHelpForCapabilities question capabilities permissions =
      service.queryHelpForCapabilities question capabilities permissions := by
  unfold queryHelpForCapabilities
  rw [service.buildQueryHelp_same h]
  rfl

theorem planLive_same
    (h : ∀ prompt, SameReply env (service.provider prompt) (provider prompt)) (question : String)
    (permissions : List String) (presentation : Option PresentationSpec) :
    (service.withProvider provider).planLive question permissions presentation =
      service.planLive question permissions presentation := by
  have hguidance : (service.withProvider provider).guidance permissions =
      service.guidance permissions := rfl
  unfold planLive
  dsimp only
  rw [hguidance, service.planAskLensResponse_same h]
  rfl

theorem planRouted_same
    (h : ∀ prompt, SameReply env (service.provider prompt) (provider prompt)) (question : String)
    (permissions : List String) (presentation : Option PresentationSpec) :
    (service.withProvider provider).planRouted question permissions presentation =
      service.planRouted question permissions presentation := by
  have hguidance : (service.withProvider provider).guidance permissions =
      service.guidance permissions := rfl
  have hlive : (service.withProvider provider).live = service.live := rfl
  unfold planRouted
  simp only [hguidance, hlive, service.routeQuestionIntent_same h,
    service.queryHelpForCapabilities_same h, service.planQuestion_same h]
  rfl

/-! ## Answers -/

variable {request : ServiceRequest} {posted : Option RawPlan}

/-- A question is planned alike, and a posted plan is handed on as it is. -/
theorem plan_same
    (h : ∀ prompt, SameReply env (service.provider prompt) (provider prompt))
    (hprovided : request.providedPlan = none) (permissions : List String) :
    (service.withProvider provider).plan request permissions = service.plan request permissions := by
  have hlive : (service.withProvider provider).live = service.live := rfl
  unfold plan
  simp only [hprovided, hlive, service.planLive_same h, service.planRouted_same h]

theorem attempt_question
    (h : ∀ prompt, SameReply env (service.provider prompt) (provider prompt))
    (hprovided : request.providedPlan = none) :
    (service.withProvider provider).attempt s request = service.attempt s request := by
  unfold attempt
  simp only [service.plan_same h hprovided]
  rfl

theorem plan_carried (raw : RawPlan) (permissions : List String) :
    service.plan { request with providedPlan := some raw } permissions =
      parsePresentation env request.providedPresentation >>= fun presentation =>
        .ok (.plan (.raw raw) presentation) := rfl

theorem attempt_posted_same {raw raw' : RawPlan} (h : SameContent env raw raw') :
    service.attempt s { request with providedPlan := some raw' } =
      service.attempt s { request with providedPlan := some raw } := by
  unfold attempt
  simp only [plan_carried]
  cases request.permissions with
  | none => rfl
  | some permissions =>
    dsimp only
    cases parsePresentation env request.providedPresentation with
    | error e => rfl
    | ok presentation =>
      simp only [ok_bind]
      rw [executePlan_same s h]
      rfl

theorem attempt_same
    (h : ∀ prompt, SameReply env (service.provider prompt) (provider prompt))
    (hposted : Option.Rel (SameContent env) request.providedPlan posted) :
    (service.withProvider provider).attempt s { request with providedPlan := posted } =
      service.attempt s request := by
  generalize hprovided : request.providedPlan = provided at hposted
  have hrequest : request = { request with providedPlan := provided } := by rw [← hprovided]
  rw [hrequest]
  cases hposted with
  | none => exact service.attempt_question s h rfl
  | some same => exact service.attempt_posted_same s same

theorem handle_same (hposted : posted.isNone = request.providedPlan.isNone) (e : Raised R) :
    (service.withProvider provider).handle (D := D) s { request with providedPlan := posted } e =
      service.handle s request e := by
  have hfallback : (service.withProvider provider).shouldReturnCapabilitiesFallback
      { request with providedPlan := posted } = service.shouldReturnCapabilitiesFallback request := by
    unfold shouldReturnCapabilitiesFallback
    rw [← hposted]
    rfl
  unfold handle
  rw [hfallback]
  rfl

/-- The answer, the audit events and the observations are those of the content: neither the form
in which a plan is posted nor the one in which a provider replies can be told from them. -/
theorem answer_ignores_form
    (h : ∀ prompt, SameReply env (service.provider prompt) (provider prompt))
    (hposted : Option.Rel (SameContent env) request.providedPlan posted) :
    (service.withProvider provider).execute s { request with providedPlan := posted } =
      service.execute s request := by
  have hnone : posted.isNone = request.providedPlan.isNone := by
    generalize request.providedPlan = provided at hposted
    cases hposted with
    | none => rfl
    | some same => rfl
  unfold execute answer
  rw [service.attempt_same s h hposted]
  simp only [service.handle_same s hnone]

end PlanningService

/-- What `sendsOrders` replies. -/
def ordersReply : Entries :=
  [(textObj "response_type", textObj "query"), (textObj "query_plan", .dict orderNumbers.dump)]

theorem decoded_ordersReply : Decoded (.dict ordersReply) := by
  have hnamed : NamedEntries ["response_type", "query_plan"] ordersReply := by
    refine ⟨[("response_type", textObj "query"), ("query_plan", .dict orderNumbers.dump)], rfl,
      List.Sublist.refl _, ?_⟩
    simp [decoded_textObj, orderNumbers.decoded_dump]
  exact hnamed.decoded (by decide)

/-- The provider of `sendsOrders` may reply with a text as well. -/
theorem sendsOrders_text : ∃ t, dumps Sample.environment.interp (.dict ordersReply) = .ok t ∧
    (sendsOrders.withProvider fun _ => .ok (.text t)).execute (tablesOf twoOrders)
        { askForOrders with providedPlan := none } =
      sendsOrders.execute (tablesOf twoOrders) askForOrders := by
  have hwritten : ∃ t, dumps Sample.environment.interp (.dict ordersReply) = .ok t := ⟨_, rfl⟩
  obtain ⟨t, ht⟩ := hwritten
  refine ⟨t, ht, ?_⟩
  apply PlanningService.answer_ignores_form
  · intro prompt
    exact .sent (.inr ⟨ordersReply, decoded_ordersReply, .mapping, .text ht⟩)
  · exact .none

end AskLens.Querying
