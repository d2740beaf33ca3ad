import AskLens.Execution.Endings
import AskLens.Sample

/-!
# Every outcome is recorded once

Outside open transactions the sinks are called at once, so each error and each
result of a request has one audit event, and its observations follow that event.
-/
namespace AskLens.Execution

open Python Catalog Planning Compiler Observability

variable {R Q V D : Type} {env : Environment}

def Effect.isRecord : Effect → Bool
  | .evaluate => false
  | .audit _ | .observe _ => true

def Effect.isObservation : Effect → Bool
  | .observe _ => true
  | .audit _ | .evaluate => false

/-- The audit events and observations among the effects. -/
def records (effects : List Effect) : List Effect := effects.filter Effect.isRecord

/-- One failed audit event, then one rejected or failed observation, all with this code. -/
def FailureRecorded (code : AskLensErrorCode) (message : String) (effects : List Effect) : Prop :=
  ∃ event : AuditEvent, event.Describes code message ∧
    ((∃ rejected : ObservabilityEvent, rejected.status = .rejected ∧
        rejected.errorCode = some code ∧ records effects = [.audit event, .observe rejected]) ∨
      ∃ accepted failed : ObservabilityEvent, accepted.status = .accepted ∧
        failed.status = .failed ∧ failed.errorCode = some code ∧
          records effects = [.audit event, .observe accepted, .observe failed])

/-- One successful audit event, then the observations accepted and succeeded. -/
def SuccessRecorded (effects : List Effect) : Prop :=
  ∃ (event : AuditEvent) (accepted succeeded : ObservabilityEvent), event.status = .success ∧
    accepted.status = .accepted ∧ succeeded.status = .succeeded ∧
      records effects = [.audit event, .observe accepted, .observe succeeded]

/-- No observation comes before an audit event. -/
def AuditsFirst (effects : List Effect) : Prop :=
  effects.Pairwise fun a b => a.isObservation = true → ∀ event, b ≠ .audit event

/-- A request outside a sink and outside open transactions, with an audit sink and an observation
sink that does not raise. -/
structure Surroundings.Usable (s : Surroundings R Q V D) : Prop where
  audited : ∃ policy, s.auditPolicy = some policy ∧ policy.mode ≠ .disabled
  observed : ∃ raises, s.observabilitySink = some raises ∧ ∀ e, raises e = false
  outside_sink : s.emitting = false
  outside_transactions : ∀ c ∈ s.connections.states, c.2 = .unopened ∨ c.2 = .autocommit

variable {s : Surroundings R Q V D}

/-! ## The sinks -/

theorem deliver_of_never {raises : ObservabilityEvent → Bool} (h : ∀ e, raises e = false)
    (events : List ObservabilityEvent) : deliver raises events = events := by
  induction events with
  | nil => rfl
  | cons e events ih => simp [deliver, h e, ih]

theorem Surroundings.Usable.observe_eq (h : s.Usable) (events : List EventFields) :
    s.observe events = (events.filterMap buildObservabilityEvent).map .observe := by
  obtain ⟨raises, hsink, hraises⟩ := h.observed
  unfold Surroundings.observe
  rw [hsink, h.outside_sink]
  by_cases hbatch : events.filterMap buildObservabilityEvent = []
  · rw [hbatch]
    rfl
  · have hblocks : s.connections.openBlocks = [] := by
      rw [Connections.openBlocks, List.filterMap_eq_nil_iff]
      rintro ⟨a, state⟩ hc
      rcases h.outside_transactions _ hc with hstate | hstate
      · subst hstate
        rfl
      · subst hstate
        rfl
    have hhook : s.connections.hookable = true := by
      rw [Connections.hookable, List.all_eq_true]
      intro c hc
      rcases h.outside_transactions c hc with hstate | hstate
      · rw [hstate]
        rfl
      · rw [hstate]
        rfl
    rw [emitObservabilityEvents_eq _ _ _ _ hbatch, deliveriesAfter_eq, hblocks,
      if_pos ⟨hhook, by simp⟩, deliver_of_never hraises, List.flatten_singleton]

theorem emitAuditEvent_snd {policy : AuditPolicy} (h : policy.mode ≠ .disabled)
    (sink : AuditEvent → Option R) (event : AuditEvent) :
    (emitAuditEvent policy sink event).2 = [.audit event] := by
  unfold emitAuditEvent
  cases hmode : policy.mode with
  | disabled => exact absurd hmode h
  | database => rfl
  | custom => rfl

/-! ## The events -/

theorem rejectedPlan_valid (code : AskLensErrorCode) (ms : ℕ) :
    (rejectedPlan code ms).postInit = true := by
  simp [rejectedPlan, EventFields.postInit, EventFields.isFailure, EventName.status]

theorem acceptedPlan_valid {plan : QueryPlan} (h : plan.resource ≠ "") (ms : ℕ) :
    (acceptedPlan plan ms).postInit = true := by
  simp [acceptedPlan, EventFields.postInit, EventFields.isFailure, EventName.status, h]

theorem failedExecution_valid {plan : QueryPlan} (h : plan.resource ≠ "")
    (code : AskLensErrorCode) (ms : ℕ) : (failedExecution plan code ms).postInit = true := by
  simp [failedExecution, EventFields.postInit, EventFields.isFailure, EventName.status, h]

theorem succeededExecution_valid {plan : QueryPlan} (h : plan.resource ≠ "")
    (result : QueryResult V) (ms : ℕ) : (succeededExecution plan result ms).postInit = true := by
  simp [succeededExecution, EventFields.postInit, EventFields.isFailure, EventName.status, h]

theorem Surroundings.Usable.observe_rejected (h : s.Usable) (code : AskLensErrorCode) (ms : ℕ) :
    s.observe [rejectedPlan code ms] = [.observe ⟨_, rejectedPlan_valid code ms⟩] := by
  rw [h.observe_eq, List.filterMap_cons, buildObservabilityEvent_eq_some (rejectedPlan_valid _ _)]
  rfl

theorem Surroundings.Usable.observe_pair (h : s.Usable) {first second : EventFields}
    (hfirst : first.postInit = true) (hsecond : second.postInit = true) :
    s.observe [first, second] = [.observe ⟨first, hfirst⟩, .observe ⟨second, hsecond⟩] := by
  rw [h.observe_eq, List.filterMap_cons, buildObservabilityEvent_eq_some hfirst]
  rw [List.filterMap_cons, buildObservabilityEvent_eq_some hsecond]
  rfl

/-! ## What is recorded -/

theorem Surroundings.Usable.recorded_eq (h : s.Usable) {policy : AuditPolicy}
    (hpolicy : s.auditPolicy = some policy) (event : AuditEvent) (events : List EventFields) :
    s.recorded policy event events = .audit event :: s.observe events := by
  obtain ⟨policy', hpolicy', hmode⟩ := h.audited
  obtain rfl : policy' = policy := Option.some.inj (hpolicy'.symm.trans hpolicy)
  unfold Surroundings.recorded
  rw [emitAuditEvent_snd hmode]
  rfl

theorem auditsFirst_single {event : AuditEvent} {observations : List Effect}
    (h : ∀ o ∈ observations, o.isObservation = true) :
    AuditsFirst (.audit event :: observations) := by
  refine List.pairwise_cons.mpr ⟨fun o _ hfirst => ?_, ?_⟩
  · cases hfirst
  · refine List.pairwise_of_forall_mem_list fun a _ b hb _ event hevent => ?_
    have hobservation := h b hb
    rw [hevent] at hobservation
    cases hobservation

theorem records_evaluated {accepted : Prop} {evaluated : List Effect}
    (hevaluated : Evaluations accepted evaluated) (recorded : List Effect) :
    records (evaluated ++ recorded) = records recorded := by
  have hnone : records evaluated = [] := by
    refine List.filter_eq_nil_iff.mpr fun e he => ?_
    rw [(hevaluated e he).1]
    nofun
  rw [records, List.filter_append]
  exact (congrArg (· ++ records recorded) hnone).trans (List.nil_append _)

theorem auditsFirst_append {accepted : Prop} {evaluated recorded : List Effect}
    (hevaluated : Evaluations accepted evaluated) (h : AuditsFirst recorded) :
    AuditsFirst (evaluated ++ recorded) := by
  have hnot : ∀ e ∈ evaluated, e.isObservation ≠ true := by
    intro e he
    rw [(hevaluated e he).1]
    nofun
  refine List.pairwise_append.mpr ⟨?_, h, ?_⟩
  · exact List.pairwise_of_forall_mem_list fun a ha _ _ hobs => absurd hobs (hnot a ha)
  · exact fun a ha _ _ hobs => absurd hobs (hnot a ha)

theorem Surroundings.Usable.auditsFirst (h : s.Usable) {accepted : Prop}
    {evaluated : List Effect} (hevaluated : Evaluations accepted evaluated)
    {policy : AuditPolicy} (hpolicy : s.auditPolicy = some policy) (event : AuditEvent)
    (events : List EventFields) :
    AuditsFirst (evaluated ++ s.recorded policy event events) := by
  apply auditsFirst_append hevaluated
  rw [h.recorded_eq hpolicy, h.observe_eq]
  apply auditsFirst_single
  intro o ho
  obtain ⟨e, -, rfl⟩ := List.mem_map.mp ho
  rfl

theorem Surroundings.Usable.accepted_of_evaluate (h : s.Usable) {accepted : Prop}
    {evaluated : List Effect} (hevaluated : Evaluations accepted evaluated)
    {policy : AuditPolicy} (hpolicy : s.auditPolicy = some policy) (event : AuditEvent)
    (events : List EventFields)
    (hmem : .evaluate ∈ evaluated ++ s.recorded policy event events) : accepted := by
  rcases List.mem_append.mp hmem with hmem | hmem
  · exact (hevaluated _ hmem).2
  · rw [h.recorded_eq hpolicy, h.observe_eq] at hmem
    simp at hmem

theorem Surroundings.Usable.failureRecorded (h : s.Usable) {accepted : Prop}
    {evaluated : List Effect} (hevaluated : Evaluations accepted evaluated)
    {policy : AuditPolicy} (hpolicy : s.auditPolicy = some policy) {event : AuditEvent}
    {events : List EventFields} {code : AskLensErrorCode} {message : String}
    (hdescribed : event.Describes code message) (hobserved : FailureEvents code events) :
    FailureRecorded code message (evaluated ++ s.recorded policy event events) := by
  refine ⟨event, hdescribed, ?_⟩
  rw [records_evaluated hevaluated, h.recorded_eq hpolicy]
  rcases hobserved with ⟨ms, rfl⟩ | ⟨plan, ms, ms', hplan, rfl⟩
  · left
    rw [h.observe_rejected]
    exact ⟨_, rfl, rfl, rfl⟩
  · right
    rw [h.observe_pair (acceptedPlan_valid hplan ms) (failedExecution_valid hplan code ms')]
    exact ⟨_, _, rfl, rfl, rfl, rfl⟩

theorem Surroundings.Usable.successRecorded (h : s.Usable) {accepted : Prop}
    {evaluated : List Effect} (hevaluated : Evaluations accepted evaluated)
    {policy : AuditPolicy} (hpolicy : s.auditPolicy = some policy) {event : AuditEvent}
    {events : List EventFields} (hdescribed : event.status = .success)
    (hobserved : SuccessEvents V events) :
    SuccessRecorded (evaluated ++ s.recorded policy event events) := by
  obtain ⟨plan, result, ms, ms', hplan, rfl⟩ := hobserved
  unfold SuccessRecorded
  rw [records_evaluated hevaluated, h.recorded_eq hpolicy,
    h.observe_pair (acceptedPlan_valid hplan ms) (succeededExecution_valid hplan result ms')]
  exact ⟨_, _, _, hdescribed, rfl, rfl, rfl⟩

/-! ## Requests -/

/-- What the caller of a request may rely on. -/
structure RecordedOnce (accepted : Prop)
    (run : Except (Raised R) (QueryResponse R D) × List Effect) : Prop where
  error : ∀ record payload, run.1 = .ok (.error record payload) →
    FailureRecorded payload.code payload.message run.2
  query : ∀ record plan document, run.1 = .ok (.query record plan document) →
    SuccessRecorded run.2
  ordered : AuditsFirst run.2
  evaluated : .evaluate ∈ run.2 → accepted

theorem auditExternalRejection_recorded {policy : AuditPolicy}
    (hpolicy : s.auditPolicy = some policy) (question : String) (exc : RaisedError)
    (events : List EventFields) :
    ∃ event : AuditEvent, event.Describes exc.code exc.publicMessage ∧
      (auditExternalRejection s question exc).2 ++ s.observe events =
        [] ++ s.recorded policy event events := by
  unfold auditExternalRejection
  rw [hpolicy]
  exact ⟨_, ⟨rfl, rfl, rfl⟩, rfl⟩

theorem RequestEnds.recordedOnce (h : s.Usable) {question : String} {accepted : Prop}
    {failure : Option RaisedError} {run : Except (Raised R) (QueryResponse R D) × List Effect}
    (hends : RequestEnds s question accepted failure run) : RecordedOnce accepted run := by
  cases hends with
  | rejected exc record caused =>
    obtain ⟨policy, hpolicy, -⟩ := h.audited
    obtain ⟨event, hdescribed, heffects⟩ := auditExternalRejection_recorded hpolicy question exc
      [rejectedPlan exc.code s.requestMs]
    have hnone : Evaluations accepted [] := evaluations_nil
    rw [heffects]
    refine ⟨fun _ _ heq => ?_, nofun, h.auditsFirst hnone hpolicy _ _,
      h.accepted_of_evaluate hnone hpolicy _ _⟩
    obtain ⟨-, rfl⟩ := QueryResponse.error.inj (Except.ok.inj heq)
    exact h.failureRecorded hnone hpolicy hdescribed (.inl ⟨_, rfl⟩)
  | failed exc record evaluated policy event events caused configured evaluations described
      observed =>
    refine ⟨fun _ _ heq => ?_, nofun, h.auditsFirst evaluations configured _ _,
      h.accepted_of_evaluate evaluations configured _ _⟩
    obtain ⟨-, rfl⟩ := QueryResponse.error.inj (Except.ok.inj heq)
    exact h.failureRecorded evaluations configured described observed
  | answered record plan document evaluated policy event events configured evaluations described
      observed =>
    exact ⟨nofun, fun _ _ _ _ => h.successRecorded evaluations configured described observed,
      h.auditsFirst evaluations configured _ _, h.accepted_of_evaluate evaluations configured _ _⟩
  | silent outcome effects answer done =>
    have hanswer : ∀ record payload, outcome ≠ .ok (.error record payload) := by
      rcases answer with rfl | ⟨e, rfl⟩
      · nofun
      · nofun
    have hquery : ∀ record plan document, outcome ≠ .ok (.query record plan document) := by
      rcases answer with rfl | ⟨e, rfl⟩
      · nofun
      · nofun
    refine ⟨fun _ _ heq => absurd heq (hanswer _ _), fun _ _ _ heq => absurd heq (hquery _ _ _),
      ?_, ?_⟩
    · rcases done with rfl | ⟨evaluated, policy, event, events, configured, evaluations, rfl⟩
      · exact List.Pairwise.nil
      · exact h.auditsFirst evaluations configured _ _
    · rcases done with rfl | ⟨evaluated, policy, event, events, configured, evaluations, rfl⟩
      · nofun
      · exact h.accepted_of_evaluate evaluations configured _ _

/-- Every error response and every query response of a request is audited and observed exactly
once, the audit first, and only accepted plans are evaluated. -/
theorem request_recordedOnce (h : s.Usable) (registry : CatalogRegistry env) (limits : PlanLimits)
    (request : QueryRequest) :
    RecordedOnce (request.PlanAccepted registry limits)
      (executeAskLensQueryRequest s registry limits request) :=
  (request_ends s registry limits request).recordedOnce h

/-- A database audit and an observation sink, and a host whose querysets fail. -/
def unavailable : Surroundings Unit Unit Unit Unit where
  clock := Sample.newYear
  clockAware := true
  principalId := some "7"
  auditPolicy := some ⟨.database, false⟩
  auditSink _ := some ()
  observabilitySink := some fun _ => false
  emitting := false
  connections := ⟨[("default", .autocommit)], by simp⟩
  register _ := .registered
  scope _ := .error .exception
  compile _ _ _ := .error .exception
  evaluate _ := .error .exception
  serialize _ _ := .error .exception
  contextMs := 0
  planningMs := 0
  executionMs := 0
  queryMs := 0
  requestMs := 0

theorem unavailable_usable : unavailable.Usable :=
  ⟨⟨_, rfl, nofun⟩, ⟨_, rfl, fun _ => rfl⟩, rfl, by simp [unavailable]⟩

/-- A request with this plan, whose second reading of the permissions has this outcome. -/
def requestOf (plan : QueryPlan) (executionPermissions : Option Access) : QueryRequest where
  question := "How many orders?"
  providedPlan := some (.mapping plan.dump)
  permissions := some (Access.ofPermissions [])
  executionPermissions := executionPermissions
  parsePresentation := .ok ()
  live := false
  buildQueryGuidance := .ok ()
  planAskLensResponse := .ok .capabilities
  routeQuestionIntent := .ok false
  queryHelp := .ok ()
  buildCapabilitiesPayload := .ok ()
  planQuestion := .error .exception
  fallbackQuestion := false
  buildFallback := .ok ()
  normalizePresentation := .ok ()

/-- A host whose tables answer every query with these rows. -/
def tablesOf (rows : List (Dict ℕ)) : Surroundings Unit Unit ℕ (List (Dict ℕ)) :=
  { unavailable with
    scope := fun _ => .ok ()
    compile := fun resource plan _ =>
      (compilePreparedQuery Sample.environment resource plan Sample.newYear).mapError
        PyException.toRaised
    evaluate := fun _ => .ok rows
    serialize := fun _ rows => .ok rows }

theorem tablesOf_usable (rows : List (Dict ℕ)) : (tablesOf rows).Usable :=
  ⟨unavailable_usable.audited, unavailable_usable.observed, unavailable_usable.outside_sink,
    unavailable_usable.outside_transactions⟩

def statusCounts : List (Dict ℕ) := [[(groupAlias 0, 5), (metricAlias 0, 2)]]

/-- The number of orders of each status, asked for without permissions. -/
def countStatuses : QueryRequest :=
  requestOf (Sample.aggregatePlan ["status"] ["orders"]) (some (Access.ofPermissions []))

def isEvaluated : Except (Raised R) (QueryResponse R D) × List Effect → Bool
  | (.ok (.query _ _ _), effects) => effects.any fun e => !e.isRecord
  | _ => false

theorem any_not_isRecord {effects : List Effect} :
    (effects.any fun e => !e.isRecord) = true ↔ .evaluate ∈ effects := by
  rw [List.any_eq_true]
  constructor
  · rintro ⟨e, he, hrecord⟩
    cases e with
    | evaluate => exact he
    | audit event => cases hrecord
    | observe event => cases hrecord
  · intro hmem
    exact ⟨_, hmem, rfl⟩

theorem isEvaluated_iff {run : Except (Raised R) (QueryResponse R D) × List Effect} :
    isEvaluated run = true ↔
      (∃ record plan document, run.1 = .ok (.query record plan document)) ∧
        .evaluate ∈ run.2 := by
  obtain ⟨outcome, effects⟩ := run
  cases outcome with
  | error e => simp [isEvaluated]
  | ok response =>
    cases response with
    | query record plan document =>
      simp only [isEvaluated, any_not_isRecord]
      simp
    | capabilities => simp [isEvaluated]
    | error record payload => simp [isEvaluated]

/-- The statuses are counted by one query, and without permissions to execute by none. -/
theorem countStatuses_recordedOnce :
    ((∃ record plan document,
        (executeAskLensQueryRequest (tablesOf statusCounts) (countedOrders "orders") Sample.limits
          countStatuses).1 = .ok (.query record plan document)) ∧
      SuccessRecorded (executeAskLensQueryRequest (tablesOf statusCounts) (countedOrders "orders")
        Sample.limits countStatuses).2 ∧
      .evaluate ∈ (executeAskLensQueryRequest (tablesOf statusCounts) (countedOrders "orders")
        Sample.limits countStatuses).2 ∧
      countStatuses.PlanAccepted (countedOrders "orders") Sample.limits) ∧
    FailureRecorded .authorizationDenied
      "The current request is not authorized to execute this query."
      (executeAskLensQueryRequest (tablesOf statusCounts) (countedOrders "orders") Sample.limits
        { countStatuses with executionPermissions := none }).2 := by
  have hevaluated : isEvaluated (executeAskLensQueryRequest (tablesOf statusCounts)
      (countedOrders "orders") Sample.limits countStatuses) = true := by decide +kernel
  obtain ⟨⟨record, plan, document, hanswer⟩, hmem⟩ := isEvaluated_iff.mp hevaluated
  have hrecorded := request_recordedOnce (tablesOf_usable statusCounts) (countedOrders "orders")
    Sample.limits countStatuses
  have hdenied := request_recordedOnce (tablesOf_usable statusCounts) (countedOrders "orders")
    Sample.limits { countStatuses with executionPermissions := none }
  exact ⟨⟨⟨record, plan, document, hanswer⟩, hrecorded.query _ _ _ hanswer, hmem,
    hrecorded.evaluated hmem⟩, hdenied.error _ _ rfl⟩

end AskLens.Execution
