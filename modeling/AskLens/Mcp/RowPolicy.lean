import AskLens.Mcp.Core

/-!
# Rows in tool results

A tool result tells the columns of its query, how many rows it has, and as many
of the first ones as the settings allow where the call asks for them. The client,
the audit trail and the observations depend on nothing else that the database
holds.
-/
namespace AskLens.Mcp

open Python Catalog Checks Compiler AskLens.Planning Execution Results Querying

variable {R Q V : Type} {env : Environment}

/-! ## What is shown -/

/-- How many rows the row policy leaves in a payload. -/
def McpSettings.shownRows (settings : McpSettings) (includeRows : Bool) : ℕ :=
  if includeRows = true ∧ settings.allowRowReturn = true then settings.mcpMaxReturnedRows else 0

/-- How many rows a tool call may show. -/
def AskLensMCPToolSet.shownRows (toolset : AskLensMCPToolSet) (settings : McpSettings) :
    ToolCall → ℕ
  | .executePlan _ _ arguments | .query _ _ arguments =>
    settings.shownRows (toolset.resolveIncludeRows arguments)
  | .capabilities _ | .queryPlanSchema | .describeResource _ | .validatePlan _ => 0

/-- Serialized rows that differ only after the first `shown` ones. -/
structure AgreeUpTo (shown : ℕ) (a b : SerializedRowsPayload) : Prop where
  columns : a.columns = b.columns
  rowCount : a.rowCount = b.rowCount
  empty : a.empty = b.empty
  length : a.data.length = b.data.length
  data : a.data.take shown = b.data.take shown

/-- Two answers of the database to a query: the same failure, or as many rows of which the
serialized documents agree up to `shown`. -/
def AnswersAgree (s : Surroundings R Q V SerializedRowsPayload) (shown : ℕ) (q : CompiledQuery)
    (x y : Except (Raised R) (List (Dict V))) : Prop :=
  x = y ∨ ∃ rows rows' a b, x = .ok rows ∧ y = .ok rows' ∧ rows.length = rows'.length ∧
    s.serialize q.columns (executeCompiledQuery q rows).rows = .ok a ∧
    s.serialize q.columns (executeCompiledQuery q rows').rows = .ok b ∧ AgreeUpTo shown a b

/-- The same surroundings with another database. -/
def withDatabase (s : Surroundings R Q V SerializedRowsPayload)
    (evaluate : CompiledQuery → Except (Raised R) (List (Dict V))) :
    Surroundings R Q V SerializedRowsPayload :=
  { s with evaluate := evaluate }

theorem AgreeUpTo.refl (shown : ℕ) (a : SerializedRowsPayload) : AgreeUpTo shown a a :=
  ⟨rfl, rfl, rfl, rfl, rfl⟩

theorem applyMcpRowPolicy_agree {settings : McpSettings} {includeRows : Bool}
    {a b : SerializedRowsPayload} (h : AgreeUpTo (settings.shownRows includeRows) a b) :
    applyMcpRowPolicy settings includeRows a.data = applyMcpRowPolicy settings includeRows b.data := by
  have hdata := h.data
  unfold McpSettings.shownRows at hdata
  unfold applyMcpRowPolicy
  split_ifs with hshown
  · rw [if_pos hshown] at hdata
    rw [hdata, h.length]
  · rfl

/-! ## Results -/

/-- Results of the facade that differ only in rows which are not shown. -/
structure ResultsAgree (s : Surroundings R Q V SerializedRowsPayload) (shown : ℕ)
    (x y : TimedResult V) : Prop where
  columns : x.result.columns = y.result.columns
  rowCount : x.result.rowCount = y.result.rowCount
  limit : x.result.limit = y.result.limit
  limitScope : x.result.limitScope = y.result.limitScope
  truncated : x.result.truncated = y.result.truncated
  durationMs : x.durationMs = y.durationMs
  documents : x.toDict s = y.toDict s ∨
    ∃ a b, x.toDict s = .ok a ∧ y.toDict s = .ok b ∧ AgreeUpTo shown a b

variable (s : Surroundings R Q V SerializedRowsPayload)

theorem ResultsAgree.refl (shown : ℕ) (x : TimedResult V) : ResultsAgree s shown x x :=
  ⟨rfl, rfl, rfl, rfl, rfl, rfl, .inl rfl⟩

/-- Outcomes of a stage that agree: the same error, or results that agree. -/
def OutcomesAgree {α : Type} (agree : α → α → Prop) (x y : Except (Raised R) α × List Effect) :
    Prop :=
  x.2 = y.2 ∧ ((∃ a b, x.1 = .ok a ∧ y.1 = .ok b ∧ agree a b) ∨
    ∃ e, x.1 = .error e ∧ y.1 = .error e)

variable {s} {shown : ℕ} {evaluate : CompiledQuery → Except (Raised R) (List (Dict V))}

theorem outcomesAgree_ok {α : Type} {agree : α → α → Prop} {a b : α} (h : agree a b)
    (effects : List Effect) :
    OutcomesAgree (R := R) agree (.ok a, effects) (.ok b, effects) :=
  ⟨rfl, .inl ⟨a, b, rfl, rfl, h⟩⟩

theorem outcomesAgree_error {α : Type} (agree : α → α → Prop) (e : Raised R)
    (effects : List Effect) : OutcomesAgree agree (.error e, effects) (.error e, effects) :=
  ⟨rfl, .inr ⟨e, rfl, rfl⟩⟩

theorem executeCompiledQuery_agree {q : CompiledQuery} {rows rows' : List (Dict V)}
    (hlength : rows.length = rows'.length) :
    (executeCompiledQuery q rows).rowCount = (executeCompiledQuery q rows').rowCount ∧
      (executeCompiledQuery q rows).truncated = (executeCompiledQuery q rows').truncated := by
  simp [executeCompiledQuery, hlength]

theorem evaluateCompiledQuery_agree {q : CompiledQuery}
    (h : AnswersAgree s shown q (s.evaluate q) (evaluate q)) :
    (∃ x y, evaluateCompiledQuery s q = .ok x ∧
        evaluateCompiledQuery (withDatabase s evaluate) q = .ok y ∧ ResultsAgree s shown x y) ∨
      ∃ e, evaluateCompiledQuery s q = .error e ∧
        evaluateCompiledQuery (withDatabase s evaluate) q = .error e := by
  unfold evaluateCompiledQuery withDatabase
  dsimp only
  rcases h with h | ⟨rows, rows', a, b, hrows, hrows', hlength, ha, hb, hagree⟩
  · rw [h]
    cases hevaluated : evaluate q with
    | error e => exact .inr ⟨e, rfl, rfl⟩
    | ok rows =>
      dsimp only
      cases hserialized : s.serialize (executeCompiledQuery q rows).columns
          (executeCompiledQuery q rows).rows with
      | error e => exact .inr ⟨e, rfl, rfl⟩
      | ok a => exact .inl ⟨_, _, rfl, rfl, .refl s shown _⟩
  · have hcolumns : ∀ rows : List (Dict V), (executeCompiledQuery q rows).columns = q.columns :=
      fun _ => rfl
    rw [hrows, hrows']
    dsimp only
    rw [hcolumns, ha, hcolumns, hb]
    obtain ⟨hcount, htruncated⟩ := executeCompiledQuery_agree (q := q) hlength
    exact .inl ⟨_, _, rfl, rfl, rfl, hcount, rfl, rfl, htruncated, rfl, .inr ⟨a, b, ha, hb, hagree⟩⟩

variable {registry : CatalogRegistry env}

theorem executeValidatedPlan_agree (registry : CatalogRegistry env) (plan : QueryPlan)
    (h : ∀ q, AnswersAgree s shown q (s.evaluate q) (evaluate q)) :
    OutcomesAgree (ResultsAgree s shown) (executeValidatedPlan s registry plan)
      (executeValidatedPlan (withDatabase s evaluate) registry plan) := by
  have hprepare : prepareQueryPlan (withDatabase s evaluate) registry plan =
      prepareQueryPlan s registry plan := rfl
  unfold executeValidatedPlan
  rw [hprepare]
  cases prepareQueryPlan s registry plan with
  | error e => exact outcomesAgree_error _ e []
  | ok prepared =>
    dsimp only
    have hcompile : (withDatabase s evaluate).compile = s.compile := rfl
    rw [hcompile]
    cases s.compile prepared.1 plan prepared.2 with
    | error e => exact outcomesAgree_error _ _ []
    | ok q =>
      dsimp only
      rcases evaluateCompiledQuery_agree (h q) with ⟨x, y, hx, hy, hagree⟩ | ⟨e, hx, hy⟩
      · rw [hx, hy]
        exact outcomesAgree_ok hagree _
      · rw [hx, hy]
        exact outcomesAgree_error _ _ _

/-- Facade results that agree, of the same plan with the same audit record. -/
structure FacadeResultsAgree (s : Surroundings R Q V SerializedRowsPayload) (shown : ℕ)
    (x y : FacadeResult R V) : Prop extends ResultsAgree s shown x.toTimedResult y.toTimedResult where
  validatedPlan : x.validatedPlan = y.validatedPlan
  auditRecord : x.auditRecord = y.auditRecord

theorem executePublicPlan_agree (registry : CatalogRegistry env) (limits : PlanLimits)
    (question : String) (plan : UntrustedPlan) (context : ExecutionContext)
    (h : ∀ q, AnswersAgree s shown q (s.evaluate q) (evaluate q)) :
    OutcomesAgree (FacadeResultsAgree s shown)
      (executePublicPlan s registry limits question plan context)
      (executePublicPlan (withDatabase s evaluate) registry limits question plan context) := by
  unfold executePublicPlan
  cases parseAndValidateQueryPlan registry limits context.access plan.payload with
  | error e =>
    dsimp only
    cases (PyException.toRaised e : Raised R).normalizePublicError with
    | none => exact outcomesAgree_error _ _ _
    | some exc => exact outcomesAgree_error _ _ _
  | ok p =>
    dsimp only
    obtain ⟨heffects, houtcome⟩ := executeValidatedPlan_agree registry p h
    revert heffects houtcome
    rcases executeValidatedPlan s registry p with ⟨x, effects⟩
    rcases executeValidatedPlan (withDatabase s evaluate) registry p with ⟨y, effects'⟩
    rintro rfl (⟨a, b, rfl, rfl, hagree⟩ | ⟨e, rfl, rfl⟩)
    · have haudit : auditExecution (withDatabase s evaluate) question context (some p) (some b) none =
          auditExecution s question context (some p) (some a) none := by
        unfold auditExecution
        rw [Option.map_some, Option.map_some, ← hagree.rowCount, ← hagree.durationMs]
        rfl
      have hobserved : succeededExecution p b.result s.executionMs =
          succeededExecution p a.result s.executionMs := by
        unfold succeededExecution
        rw [hagree.rowCount, hagree.truncated]
      refine ⟨?_, .inl ⟨_, _, rfl, rfl, ⟨hagree, rfl, ?_⟩⟩⟩
      · dsimp only
        rw [haudit]
        show _ ++ s.observe [_, succeededExecution p a.result s.executionMs] =
          _ ++ s.observe [_, succeededExecution p b.result s.executionMs]
        rw [hobserved]
        rfl
      · rw [haudit]
    · dsimp only
      cases e.normalizePublicError with
      | none => exact outcomesAgree_error _ _ _
      | some exc => exact outcomesAgree_error _ _ _

theorem executePlan_agree (registry : CatalogRegistry env) (limits : PlanLimits) (deferred : Bool)
    (question : String) (permissions : Option Access) (plan : UntrustedPlan)
    (h : ∀ q, AnswersAgree s shown q (s.evaluate q) (evaluate q)) :
    OutcomesAgree (FacadeResultsAgree s shown)
      (executePlan s registry limits deferred question permissions plan)
      (executePlan (withDatabase s evaluate) registry limits deferred question permissions plan) := by
  have hcontext : buildExecutionContext (withDatabase s evaluate) permissions =
      buildExecutionContext s permissions := rfl
  unfold executePlan
  rw [hcontext]
  cases buildExecutionContext s permissions with
  | ok context => exact executePublicPlan_agree registry limits question plan context h
  | error e =>
    dsimp only
    cases e.normalizePublicError with
    | none => exact outcomesAgree_error _ _ _
    | some exc =>
      cases deferred with
      | true => exact outcomesAgree_error _ _ _
      | false => exact outcomesAgree_error _ _ _

/-! ## Answers -/

variable {settings : McpSettings} {includeRows : Bool} {service : PlanningService env}
  {request : ServiceRequest}

/-- The payloads of results that agree are the same after the row policy. -/
theorem respond_agree {x y : FacadeResult R V} (presentation : Option PresentationSpec)
    (h : FacadeResultsAgree s (settings.shownRows includeRows) x y) :
    (PlanningService.respond (withDatabase s evaluate) env request presentation y).map
        (applyMcpResponsePolicy settings includeRows) =
      (PlanningService.respond s env request presentation x).map
        (applyMcpResponsePolicy settings includeRows) := by
  have hdatabase : y.toDict (withDatabase s evaluate) = y.toDict s := rfl
  unfold PlanningService.respond
  rw [hdatabase]
  rcases h.documents with hsame | ⟨a, b, ha, hb, hagree⟩
  · rw [← hsame, ← h.columns, h.validatedPlan, h.auditRecord, h.durationMs, h.limit, h.limitScope,
      h.truncated]
  · rw [ha, hb]
    dsimp only
    rw [← h.columns]
    cases buildPresentationPayload (fun _ => "") env.display presentation x.result.columns
        request.includePresentation with
    | error e => rfl
    | ok presented =>
      simp only [Except.map, applyMcpResponsePolicy]
      rw [← applyMcpRowPolicy_agree hagree, hagree.columns, hagree.rowCount, hagree.empty,
        h.validatedPlan, h.auditRecord, h.durationMs, h.limit, h.limitScope, h.truncated]

/-- What a client and the sinks see of a run. -/
def shownRun (settings : McpSettings) (includeRows : Bool)
    (run : Except (Raised R) (ServiceResponse R SerializedRowsPayload) × List Effect) :
    Except (Raised R) (McpPayload R) × List Effect :=
  (run.1.map (applyMcpResponsePolicy settings includeRows), run.2)

theorem attempt_agree
    (h : ∀ q, AnswersAgree s (settings.shownRows includeRows) q (s.evaluate q) (evaluate q)) :
    shownRun settings includeRows (service.attempt (withDatabase s evaluate) request) =
      shownRun settings includeRows (service.attempt s request) := by
  unfold PlanningService.attempt
  cases request.permissions with
  | none => rfl
  | some permissions =>
    dsimp only
    cases service.plan request permissions with
    | error e => rfl
    | ok planned =>
      cases planned with
      | capabilities payload => rfl
      | plan untrusted presentation =>
        dsimp only
        obtain ⟨heffects, houtcome⟩ := executePlan_agree service.registry service.limits true
          request.question (request.executionPermissions.map .ofPermissions) untrusted h
        revert heffects houtcome
        rcases executePlan s service.registry service.limits true request.question
          (request.executionPermissions.map .ofPermissions) untrusted with ⟨x, effects⟩
        rcases executePlan (withDatabase s evaluate) service.registry service.limits true
          request.question (request.executionPermissions.map .ofPermissions) untrusted
          with ⟨y, effects'⟩
        rintro rfl (⟨a, b, rfl, rfl, hagree⟩ | ⟨e, rfl, rfl⟩)
        · exact Prod.ext (respond_agree presentation hagree) rfl
        · rfl

theorem execute_agree
    (h : ∀ q, AnswersAgree s (settings.shownRows includeRows) q (s.evaluate q) (evaluate q)) :
    shownRun settings includeRows (service.execute (withDatabase s evaluate) request) =
      shownRun settings includeRows (service.execute s request) := by
  have hhandle : ∀ e, service.handle (withDatabase s evaluate) request e =
      service.handle s request e := fun _ => rfl
  have hattempt : shownRun settings includeRows
      (service.attempt (withDatabase s evaluate) request) =
        shownRun settings includeRows (service.attempt s request) := attempt_agree h
  unfold PlanningService.execute PlanningService.answer
  split_ifs
  · rfl
  · revert hattempt
    rcases service.attempt (withDatabase s evaluate) request with ⟨_ | x, effects⟩
    · rcases service.attempt s request with ⟨_ | y, effects'⟩
      · intro hattempt
        simp only [shownRun, Except.map, Prod.mk.injEq, Except.error.injEq] at hattempt
        rw [hattempt.1, hattempt.2]
        simp only [hhandle]
      · intro hattempt
        simp [shownRun, Except.map] at hattempt
    · rcases service.attempt s request with ⟨_ | y, effects'⟩
      · intro hattempt
        simp [shownRun, Except.map] at hattempt
      · exact id

/-! ## Tools -/

/-- Neither the result of a tool call nor what it leaves in the audit trail and the observations
depends on rows that the call does not show. -/
theorem tool_result_conceals_rows (toolset : AskLensMCPToolSet) (caller : Caller) (call : ToolCall)
    (h : ∀ q, AnswersAgree s (toolset.shownRows settings call) q (s.evaluate q) (evaluate q)) :
    toolset.call service (withDatabase s evaluate) settings caller call =
      toolset.call service s settings caller call := by
  have htool : ∀ (request : ServiceRequest) (includeRows : Bool),
      (∀ q, AnswersAgree s (settings.shownRows includeRows) q (s.evaluate q) (evaluate q)) →
        executeTool service (withDatabase s evaluate) settings request includeRows =
          executeTool service s settings request includeRows := by
    intro request includeRows h
    have hshown : ∀ s : Surroundings R Q V SerializedRowsPayload,
        executeTool service s settings request includeRows =
          ((shownRun settings includeRows (service.execute s request)).1.map .outcome,
            (shownRun settings includeRows (service.execute s request)).2) := by
      intro s
      unfold executeTool shownRun
      dsimp only
      cases (service.execute s request).1 with
      | error e => rfl
      | ok response => rfl
    rw [hshown, hshown, execute_agree h]
  cases call with
  | capabilities detail => rfl
  | queryPlanSchema => rfl
  | describeResource resource => rfl
  | validatePlan plan => rfl
  | executePlan plan question arguments => exact htool _ _ h
  | query question providedPlan arguments =>
    unfold AskLensMCPToolSet.call
    split_ifs
    · exact htool _ _ h
    · rfl

/-- A host whose driver returns cells that JSON has, and whose tables hold these rows. -/
def jsonTables (rows : List (Dict (Option PyScalar))) :
    Surroundings Unit Unit (Option PyScalar) SerializedRowsPayload :=
  { unavailable with
    scope := fun _ => .ok ()
    compile := fun resource plan _ =>
      (compilePreparedQuery Sample.environment resource plan Sample.newYear).mapError
        PyException.toRaised
    evaluate := fun _ => .ok rows
    serialize := fun columns rows => .ok
      { columns := columns.map serializeColumn
        data := rows
        rowCount := rows.length
        empty := presentIf (rows = []) true } }

def orderRow (number : ℤ) : Dict (Option PyScalar) := [(selectAlias 0, some (.int none number))]

def rowTools : AskLensMCPToolSet := ⟨false, true, "summary"⟩

def oneRow : McpSettings := ⟨true, 1⟩

def listNumbers : ToolCall :=
  .executePlan (.mapping (Sample.listPlan ["number"]).dump) "MCP submitted QueryPlan"
    ⟨none, true, none⟩

def anyone : Caller := ⟨false, some [], some []⟩

theorem second_row_concealed :
    rowTools.call offline (withDatabase (jsonTables [orderRow 1, orderRow 2])
        fun _ => .ok [orderRow 1, orderRow 3]) oneRow anyone listNumbers =
      rowTools.call offline (jsonTables [orderRow 1, orderRow 2]) oneRow anyone listNumbers := by
  apply tool_result_conceals_rows
  intro q
  refine .inr ⟨_, _, _, _, rfl, rfl, rfl, rfl, rfl, ⟨rfl, ?_, ?_, ?_, ?_⟩⟩
  · simp [executeCompiledQuery]
  · simp [executeCompiledQuery]
  · simp [executeCompiledQuery]
  · have hone : rowTools.shownRows oneRow listNumbers = 1 := rfl
    simp only [hone, executeCompiledQuery, List.map_cons, List.map_nil]
    cases q.limit.toNat <;> rfl

end AskLens.Mcp
