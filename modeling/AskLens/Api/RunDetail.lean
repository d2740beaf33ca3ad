import Mathlib.Data.List.Basic
import AskLens.Execution.RecordedOnce

/-!
# Run detail

The run-detail serializer reads an error back from the text that the built-in
audit sink stored. It keeps one message a code, so an error of another class
with the same code comes back as the generic one.
-/
namespace AskLens.Api

open Python Catalog Planning Execution

variable {R Q V D : Type} {env : Environment}

/-- The structured error of a run. -/
structure SafeError where
  code : AskLensErrorCode
  message : String
deriving DecidableEq, Repr

def safeErrorOf (t : ErrorType) : SafeError := ⟨t.code, t.publicMessage⟩

def safeAuditErrors : List SafeError :=
  [ErrorType.planParseError, .permissionDeniedError, .planValidationError,
    .authorizationDeniedError, .scopeUnavailableError, .budgetExceededError,
    .bindingInvalidError, .compilationError, .executionError, .llmProviderError].map safeErrorOf

def genericAuditError : SafeError := safeErrorOf .executionError

/-- `f"{code}: {message}"`. -/
def SafeError.text (e : SafeError) : String := e.code.text ++ ": " ++ e.message

def getError (run : SemanticQueryRun) : Option SafeError :=
  if run.status = .success ∨ strip run.error = "" then none
  else some ((safeAuditErrors.find? fun e => run.error = e.text).getD genericAuditError)

/-! ## The stored text -/

theorem colon_notMem_text (code : AskLensErrorCode) : ':' ∉ code.text.toList := by
  cases code <;> decide

theorem text_injective_code {a b : AskLensErrorCode} (h : a.text = b.text) : a = b := by
  cases a <;> cases b <;> first | rfl | exact absurd h (by decide)

theorem takeWhile_colon {cs rest : List Char} (h : ':' ∉ cs) :
    (cs ++ ':' :: rest).takeWhile (· ≠ ':') = cs := by
  have hcs : ∀ c ∈ cs, (decide (c ≠ ':')) = true := by
    intro c hc
    simpa using ne_of_mem_of_not_mem hc h
  rw [List.takeWhile_append_of_pos hcs]
  simp

theorem SafeError.toList_text (e : SafeError) :
    e.text.toList = e.code.text.toList ++ ':' :: ' ' :: e.message.toList := by
  unfold SafeError.text
  simp

theorem SafeError.text_injective {a b : SafeError} (h : a.text = b.text) : a = b := by
  have hchars : a.code.text.toList ++ ':' :: ' ' :: a.message.toList =
      b.code.text.toList ++ ':' :: ' ' :: b.message.toList := by
    rw [← a.toList_text, ← b.toList_text, h]
  have hcode : a.code.text.toList = b.code.text.toList := by
    rw [← takeWhile_colon (colon_notMem_text a.code), hchars,
      takeWhile_colon (colon_notMem_text b.code)]
  rw [hcode] at hchars
  have hmessage : a.message.toList = b.message.toList := by
    simpa using List.append_cancel_left hchars
  obtain ⟨code, message⟩ := a
  obtain ⟨code', message'⟩ := b
  have hcodes : code = code' := text_injective_code (String.toList_injective hcode)
  have hmessages : message = message' := String.toList_injective hmessage
  rw [hcodes, hmessages]

theorem strip_text_ne_empty (e : SafeError) : strip e.text ≠ "" := by
  intro h
  obtain ⟨rest, hhead⟩ : ∃ rest, e.code.text.toList = 'a' :: rest := by
    cases e.code <;> exact ⟨_, rfl⟩
  have hnil : stripBy isSpace e.text.toList = [] := by
    have := congrArg String.toList h
    simpa [strip] using this
  rw [e.toList_text, hhead, stripBy_eq, List.rdropWhile_eq_nil_iff] at hnil
  have hspace : isSpace 'a' = true := hnil 'a' (by simp [isSpace, isSpaceCode])
  exact absurd hspace (by decide)

/-! ## Reading it back -/

/-- The code and the message are those of a class of the package, other than `AskLensError`
itself and the catalog errors that inherit the message of `CatalogError`. -/
def Decodable (exc : RaisedError) : Prop :=
  ∃ t : ErrorType, t.source ≠ .askLensError ∧ t.source ≠ .catalogError ∧
    exc.code = t.code ∧ exc.publicMessage = t.publicMessage

theorem decodable_iff_mem {exc : RaisedError} :
    Decodable exc ↔ ⟨exc.code, exc.publicMessage⟩ ∈ safeAuditErrors := by
  constructor
  · rintro ⟨t, hbase, hcatalog, hcode, hmessage⟩
    rw [hcode, hmessage]
    revert hbase hcatalog
    clear hcode hmessage
    cases t <;> decide
  · intro h
    have hlisted : ∀ t ∈ [ErrorType.planParseError, .permissionDeniedError, .planValidationError,
        .authorizationDeniedError, .scopeUnavailableError, .budgetExceededError,
        .bindingInvalidError, .compilationError, .executionError, .llmProviderError],
        t.source ≠ .askLensError ∧ t.source ≠ .catalogError := by decide
    obtain ⟨t, ht, heq⟩ := List.mem_map.mp h
    obtain ⟨hcode, hmessage⟩ := SafeError.mk.inj heq
    exact ⟨t, (hlisted t ht).1, (hlisted t ht).2, hcode.symm, hmessage.symm⟩

theorem find?_text (e : SafeError) :
    safeAuditErrors.find? (fun e' => e.text = e'.text) =
      if e ∈ safeAuditErrors then some e else none := by
  split_ifs with h
  · cases hfind : safeAuditErrors.find? (fun e' => e.text = e'.text) with
    | none => exact absurd (decide_eq_true rfl) (List.find?_eq_none.mp hfind e h)
    | some e' =>
      have htext : e.text = e'.text := by simpa using List.find?_some hfind
      rw [SafeError.text_injective htext]
  · refine List.find?_eq_none.mpr fun e' he' htext => h ?_
    rw [SafeError.text_injective (of_decide_eq_true htext)]
    exact he'

/-- The row of a failed run reads back as its error exactly when the table has that error. -/
theorem getError_row_iff {event : AuditEvent} {exc : RaisedError}
    (h : event.Describes exc.code exc.publicMessage) :
    getError (databaseAuditRow event) = some ⟨exc.code, exc.publicMessage⟩ ↔ Decodable exc := by
  have herror : (databaseAuditRow event).error =
      (⟨exc.code, exc.publicMessage⟩ : SafeError).text := by
    simp [databaseAuditRow, h.errorCode, h.errorMessage, SafeError.text]
  have hstatus : (databaseAuditRow event).status ≠ .success := by
    simp [databaseAuditRow, h.status]
  have hgeneric : genericAuditError ∈ safeAuditErrors := by decide
  unfold getError
  rw [herror, if_neg (not_or.mpr ⟨hstatus, strip_text_ne_empty _⟩), find?_text, decodable_iff_mem]
  split_ifs with hmem
  · simp [hmem]
  · simp only [Option.getD_none, Option.some.injEq, hmem, iff_false]
    intro heq
    exact hmem (heq ▸ hgeneric)

/-! ## Runs -/

theorem audit_notMem_observe (s : Surroundings R Q V D) (events : List Observability.EventFields)
    (event : AuditEvent) : .audit event ∉ s.observe events := by
  unfold Surroundings.observe
  simp

theorem audit_mem_emit {policy : AuditPolicy} {sink : AuditEvent → Option R}
    {event event' : AuditEvent} (h : .audit event ∈ (emitAuditEvent policy sink event').2) :
    event = event' := by
  unfold emitAuditEvent at h
  cases hmode : policy.mode with
  | disabled => simp [hmode] at h
  | database => simpa [hmode] using h
  | custom => simpa [hmode] using h

theorem audit_mem_recorded {s : Surroundings R Q V D} {accepted : Prop} {evaluated : List Effect}
    (hevaluated : Evaluations accepted evaluated) {policy : AuditPolicy}
    {event event' : AuditEvent} {events : List Observability.EventFields}
    (h : .audit event ∈ evaluated ++ s.recorded policy event' events) : event = event' := by
  rcases List.mem_append.mp h with hmem | hmem
  · cases (hevaluated _ hmem).1
  · rcases List.mem_append.mp hmem with hmem | hmem
    · exact audit_mem_emit hmem
    · exact absurd hmem (audit_notMem_observe s events event)

/-- The audit events of an error response describe the error that the request met. -/
theorem RequestEnds.describes {s : Surroundings R Q V D} {question : String} {accepted : Prop}
    {failure : Option RaisedError} {run : Option R} {payload : PublicErrorDocument}
    {effects : List Effect}
    (hends : RequestEnds s question accepted failure (.ok (.error run payload), effects))
    {event : AuditEvent} (hevent : .audit event ∈ effects) :
    ∃ exc : RaisedError, failure = some exc ∧ payload = exc.payload ∧
      event.Describes exc.code exc.publicMessage := by
  cases hends with
  | rejected exc run caused =>
    refine ⟨exc, caused, rfl, ?_⟩
    rcases List.mem_append.mp hevent with hmem | hmem
    · unfold auditExternalRejection at hmem
      cases hpolicy : s.auditPolicy with
      | none =>
        rw [hpolicy] at hmem
        cases hmem
      | some policy =>
        rw [hpolicy] at hmem
        rw [audit_mem_emit hmem]
        exact ⟨rfl, rfl, rfl⟩
    · exact absurd hmem (audit_notMem_observe s _ event)
  | failed exc run evaluated policy event' events caused configured evaluations described
      observed =>
    rw [audit_mem_recorded evaluations hevent]
    exact ⟨exc, caused, rfl, described⟩
  | silent outcome effects answer done =>
    rcases answer with heq | ⟨e, heq⟩
    · cases heq
    · cases heq

theorem FacadeEnds.describes {s : Surroundings R Q V D} {accepted : Prop}
    {exc : PublicAskLensError R} {effects : List Effect}
    (hends : FacadeEnds s accepted (.error (.publicAskLens exc), effects))
    {event : AuditEvent} (hevent : .audit event ∈ effects) :
    event.Describes exc.error.code exc.error.publicMessage := by
  cases hends with
  | failed exc evaluated policy event' events configured marked evaluations described observed =>
    rw [audit_mem_recorded evaluations hevent]
    exact described
  | unrecorded e unmarked => cases hevent

/-- A direct call of `execute_plan` audits the error that it raises. -/
theorem executePlan_describes {s : Surroundings R Q V D} {registry : CatalogRegistry env}
    {limits : PlanLimits} {deferred : Bool} {question : String} {permissions : Option Access}
    {plan : UntrustedPlan} {exc : PublicAskLensError R} {effects : List Effect}
    (h : executePlan s registry limits deferred question permissions plan =
      (.error (.publicAskLens exc), effects))
    {event : AuditEvent} (hevent : .audit event ∈ effects) :
    event.Describes exc.error.code exc.error.publicMessage := by
  unfold executePlan at h
  cases hcontext : buildExecutionContext s permissions with
  | ok context =>
    rw [hcontext] at h
    dsimp only at h
    have hends : FacadeEnds s _ (executePublicPlan s registry limits question plan context) :=
      executePublicPlan_ends (buildExecutionContext_ok hcontext).2
    rw [h] at hends
    exact FacadeEnds.describes hends hevent
  | error e =>
    rw [hcontext] at h
    obtain ⟨raised, rfl⟩ := buildExecutionContext_error hcontext
    simp only [Raised.normalizePublicError] at h
    cases deferred with
    | true =>
      obtain ⟨-, rfl⟩ := Prod.mk.inj h
      cases hevent
    | false =>
      obtain ⟨-, rfl⟩ := Prod.mk.inj h
      exact absurd hevent (audit_notMem_observe s _ event)

/-- The error of a failed run reads back from its audit row as the caller got it, exactly when
its class is neither `AskLensError` itself nor a catalog error with the inherited message. -/
theorem audited_error_iff (s : Surroundings R Q V D) (registry : CatalogRegistry env)
    (limits : PlanLimits) :
    (∀ (request : QueryRequest) (run : Option R) (payload : PublicErrorDocument)
        (effects : List Effect) (event : AuditEvent),
      executeAskLensQueryRequest s registry limits request =
          (.ok (.error run payload), effects) → .audit event ∈ effects →
        ∃ exc, request.failure s registry limits = some exc ∧
          (getError (databaseAuditRow event) = some ⟨payload.code, payload.message⟩ ↔
            Decodable exc)) ∧
      ∀ (deferred : Bool) (question : String) (permissions : Option Access) (plan : UntrustedPlan)
        (exc : PublicAskLensError R) (effects : List Effect) (event : AuditEvent),
      executePlan s registry limits deferred question permissions plan =
          (.error (.publicAskLens exc), effects) → .audit event ∈ effects →
        (getError (databaseAuditRow event) = some ⟨exc.error.code, exc.error.publicMessage⟩ ↔
          Decodable exc.error) := by
  constructor
  · intro request run payload effects event hrun hevent
    have hends := request_ends s registry limits request
    rw [hrun] at hends
    obtain ⟨exc, hcause, rfl, hdescribes⟩ := RequestEnds.describes hends hevent
    exact ⟨exc, hcause, getError_row_iff hdescribes⟩
  · intro deferred question permissions plan exc effects event hrun hevent
    exact getError_row_iff (executePlan_describes hrun hevent)

/-- A host whose default manager raises a catalog error. -/
def invalidManager : Surroundings Unit Unit Unit Unit :=
  { unavailable with scope := fun _ => .error (.askLens (ErrorType.invalidResourceError.raised none)) }

def statusOrders : CatalogRegistry Sample.environment :=
  Sample.registryOf
    (Sample.orderArgs [("status", .config (Sample.fieldConfig "status" "string"))])

def invalidManagerEvent : AuditEvent :=
  buildAuditEvent ⟨.database, false⟩ Sample.newYear (some "7") "How many orders?"
    (some (Sample.listPlan ["status"])) none (some (ErrorType.invalidResourceError.raised none))

theorem invalidManager_run :
    ∃ effects, executeAskLensQueryRequest invalidManager statusOrders Sample.limits
        (requestOf (Sample.listPlan ["status"]) (some (Access.ofPermissions []))) =
      (.ok (.error (some ()) (ErrorType.invalidResourceError.raised none).payload),
        .audit invalidManagerEvent :: effects) := by
  have haccepted : parseAndValidateQueryPlan statusOrders Sample.limits (Access.ofPermissions [])
      (.mapping (Sample.listPlan ["status"]).dump) = .ok (Sample.listPlan ["status"]) := by
    decide +kernel
  have hexecuted : executeValidatedPlan invalidManager statusOrders (Sample.listPlan ["status"]) =
      (.error (.askLens (ErrorType.invalidResourceError.raised none)), []) := rfl
  have hrun : executePublicPlan invalidManager statusOrders Sample.limits "How many orders?"
      (.raw (.mapping (Sample.listPlan ["status"]).dump))
      ⟨Access.ofPermissions [], ⟨.database, false⟩⟩ =
        (.error (.publicAskLens ⟨ErrorType.invalidResourceError.raised none, some (), true, true⟩),
          .audit invalidManagerEvent :: invalidManager.observe
            [acceptedPlan (Sample.listPlan ["status"]) 0,
              failedExecution (Sample.listPlan ["status"]) .bindingInvalid 0]) := by
    simp only [executePublicPlan, UntrustedPlan.payload, haccepted, hexecuted]
    rfl
  have hattempt : QueryRequest.attempt invalidManager statusOrders Sample.limits
      (requestOf (Sample.listPlan ["status"]) (some (Access.ofPermissions []))) = _ :=
    congrArg ((requestOf (Sample.listPlan ["status"]) none).answer invalidManager) hrun
  rw [execute_of_error hattempt]
  exact ⟨_, rfl⟩

theorem invalidManager_audited_error_iff :
    ∃ exc, (requestOf (Sample.listPlan ["status"])
        (some (Access.ofPermissions []))).failure invalidManager statusOrders Sample.limits =
          some exc ∧
      (getError (databaseAuditRow invalidManagerEvent) =
        some ⟨.bindingInvalid, "The semantic catalog contains an invalid binding."⟩ ↔
          Decodable exc) := by
  obtain ⟨effects, hrun⟩ := invalidManager_run
  exact (audited_error_iff invalidManager statusOrders Sample.limits).1 _ _ _ _
    invalidManagerEvent hrun (List.mem_cons_self)

/-- The caller gets a binding error, and the run detail reads an execution error. -/
theorem catalog_error_read_back_as_generic :
    ¬ ∀ (s : Surroundings Unit Unit Unit Unit) (registry : CatalogRegistry Sample.environment)
      (limits : PlanLimits) (request : QueryRequest) (run : Option Unit)
      (payload : PublicErrorDocument) (effects : List Effect) (event : AuditEvent),
      executeAskLensQueryRequest s registry limits request =
          (.ok (.error run payload), effects) → .audit event ∈ effects →
        getError (databaseAuditRow event) = some ⟨payload.code, payload.message⟩ := by
  intro h
  obtain ⟨effects, hrun⟩ := invalidManager_run
  have hread := h _ _ _ _ _ _ _ invalidManagerEvent hrun List.mem_cons_self
  exact absurd hread (by decide +kernel)

end AskLens.Api
