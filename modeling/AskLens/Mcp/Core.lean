import AskLens.Querying.Records
import AskLens.Results.Serialization

/-!
# MCP tools

The tools that a host registers with an MCP server: discovery, validation and
execution of plans, and questions where they are exposed. Rows only leave with a
tool result when the call asks for them and the settings allow it.
-/
namespace AskLens.Mcp

open Python Catalog Checks Compiler AskLens.Planning Execution Results Querying

/-! ## Discovery -/

/-- `summarize_catalog_resource`. -/
structure ResourceSummary where
  name : String
  label : String
  description : String
  defaultDateField : Option String
  timezone : String
  fieldNames : List String
  metricNames : List String
  dateFieldNames : List String
  scopeResource : Option Bool
  examplesEnabled : Option Bool
deriving DecidableEq

/-- The condition on `date_fields`. -/
def isDateField (field : FieldCatalogItem) : Bool :=
  (field.type == .date || field.type == .datetime) && !field.filterOnly.getD false &&
    field.resultVisible.getD true

def summarizeCatalogResource (resource : ResourceCatalogItem) : ResourceSummary where
  name := resource.name
  label := resource.label
  description := resource.description
  defaultDateField := resource.defaultDateField
  timezone := resource.timezone
  fieldNames := resource.fields.map FieldCatalogItem.name
  metricNames := resource.metrics.map MetricCatalogItem.name
  dateFieldNames := (resource.fields.filter isDateField).map FieldCatalogItem.name
  scopeResource := resource.scopeResource
  examplesEnabled := resource.examplesEnabled

/-! ## Rows -/

/-- `MCP_ALLOW_ROW_RETURN` and `MCP_MAX_RETURNED_ROWS`. -/
structure McpSettings where
  allowRowReturn : Bool
  maxReturnedRows : ℤ

def McpSettings.mcpMaxReturnedRows (settings : McpSettings) : ℕ := settings.maxReturnedRows.toNat

def mcpRowReturnPolicy : String :=
  "Rows are omitted by default for MCP tool results because MCP clients often " ++
    "place tool output into an LLM context. To return rows, the tool call must " ++
    "pass include_rows=True and the Django project must set " ++
    "DJANGO_ASKLENS['MCP_ALLOW_ROW_RETURN'] = True."

/-- What the row policy adds to the payload of a query. -/
structure RowNotice where
  rowsOmitted : Bool
  rowReturnDenied : Option Bool
  rowReturnPolicy : Option String
  rowLimit : Option ℕ
  returnedRowCount : Option ℕ
  rowsTruncated : Option Bool
  rowLimitWarning : Option String
deriving DecidableEq

structure McpQueryPayload (R : Type) where
  question : String
  plan : Entries
  columns : List SerializedColumn
  data : List (Dict (Option PyScalar))
  rowCount : ℕ
  empty : Option Bool
  durationMs : ℕ
  limit : ℤ
  limitScope : LimitScope
  truncated : Bool
  runId : Option R
  presentation : Option NormalizedPresentation
  debug : Option Entries
  notice : RowNotice

def rowLimitWarning (returned maxRows : ℕ) : String :=
  s!"Returned {returned} rows in the MCP tool payload, capped by " ++
    "DJANGO_ASKLENS['MCP_MAX_RETURNED_ROWS']=" ++ s!"{maxRows}. " ++
    "The executed query row_count may be higher. Narrow the query or " ++
    "raise the MCP row cap intentionally to return more rows."

/-- `apply_mcp_row_return_limit`. -/
def rowLimitNotice (rows maxRows : ℕ) : RowNotice :=
  let returned := min maxRows rows
  { rowsOmitted := false
    rowReturnDenied := none
    rowReturnPolicy := none
    rowLimit := some maxRows
    returnedRowCount := some returned
    rowsTruncated := some (decide (maxRows < rows))
    rowLimitWarning := if maxRows < rows then some (rowLimitWarning returned maxRows) else none }

def omittedNotice (includeRows : Bool) : RowNotice where
  rowsOmitted := true
  rowReturnDenied := presentIf includeRows true
  rowReturnPolicy := some mcpRowReturnPolicy
  rowLimit := none
  returnedRowCount := none
  rowsTruncated := none
  rowLimitWarning := none

variable {R Q V : Type} {env : Environment}

/-- The rows and the notice of `apply_mcp_row_policy`. -/
def applyMcpRowPolicy (settings : McpSettings) (includeRows : Bool)
    (rows : List (Dict (Option PyScalar))) : List (Dict (Option PyScalar)) × RowNotice :=
  if includeRows = true ∧ settings.allowRowReturn = true then
    (rows.take settings.mcpMaxReturnedRows,
      rowLimitNotice rows.length settings.mcpMaxReturnedRows)
  else ([], omittedNotice includeRows)

/-! ## Responses -/

inductive McpPayload (R : Type) where
  | query (payload : McpQueryPayload R)
  | capabilities (payload : CapabilitiesPayload)
  | error (question : String) (run : Option R) (payload : PublicErrorDocument) (statusCode : ℕ)

def applyMcpResponsePolicy (settings : McpSettings) (includeRows : Bool) :
    ServiceResponse R SerializedRowsPayload → McpPayload R
  | .capabilities payload => .capabilities payload
  | .error question run payload => .error question run payload 400
  | .query payload =>
    let result := payload.result
    let shown := applyMcpRowPolicy settings includeRows result.rows.data
    .query
      { question := payload.question
        plan := payload.plan
        columns := result.rows.columns
        data := shown.1
        rowCount := result.rows.rowCount
        empty := result.rows.empty
        durationMs := result.durationMs
        limit := result.limit
        limitScope := result.limitScope
        truncated := result.truncated
        runId := payload.runId
        presentation := payload.presentation
        debug := payload.debug
        notice := shown.2 }

/-! ## Tools -/

/-- What a request factory derives from the context of a tool call. -/
structure Caller where
  isStaff : Bool
  permissions : Option (List String)
  executionPermissions : Option (List String)

/-- The arguments that execution and questions share; `none` is the default of the tool set. -/
structure QueryArguments where
  includeRows : Option Bool
  includePresentation : Bool
  presentation : Option Entries

inductive ToolCall where
  | capabilities (resourceDetail : Option String)
  | queryPlanSchema
  | describeResource (resource : String)
  | validatePlan (plan : RawPlan)
  | executePlan (plan : RawPlan) (question : String) (arguments : QueryArguments)
  | query (question : String) (providedPlan : Option Entries) (arguments : QueryArguments)

/-- `asklens_validate_plan`. -/
inductive PlanValidation where
  | valid (plan : Entries)
  | invalid (error : PublicErrorDocument)

/-- The results of the tools, less their fixed texts and the plan schema. -/
inductive ToolResult (R : Type) where
  | catalog (resources : List ResourceCatalogItem)
  | summaries (resources : List ResourceSummary)
  | queryPlanSchema
  | resource (resource : ResourceCatalogItem)
  | unavailable
  | invalidArgument
  | disabled
  | validation (outcome : PlanValidation)
  | outcome (payload : McpPayload R)

structure AskLensMCPToolSet where
  exposeQueryTool : Bool
  defaultIncludeRows : Bool
  capabilitiesResourceDetail : String

section

variable (service : PlanningService env)

/-- `asklens_capabilities`. The permissions that it reads may raise. -/
def asklensCapabilities (caller : Caller) (resourceDetail : String) :
    Except (Raised R) (ToolResult R) :=
  if resourceDetail ≠ "summary" ∧ resourceDetail ≠ "full" then .ok .invalidArgument
  else
    match caller.permissions with
    | none => .error .exception
    | some permissions =>
      let catalog := service.registry.toDict (.ofPermissions permissions)
      if resourceDetail = "summary" then .ok (.summaries (catalog.map summarizeCatalogResource))
      else .ok (.catalog catalog)

def asklensDescribeResource (caller : Caller) (resource : String) :
    Except (Raised R) (ToolResult R) :=
  match caller.permissions with
  | none => .error .exception
  | some permissions =>
    match (service.registry.toDict (.ofPermissions permissions)).find? fun item =>
        item.name == resource with
    | some item => .ok (.resource item)
    | none => .ok .unavailable

def asklensValidatePlan (caller : Caller) (plan : RawPlan) : Except (Raised R) PlanValidation :=
  match caller.permissions with
  | none => .error .exception
  | some permissions =>
    match service.validate permissions plan with
    | .ok p => .ok (.valid p.modelDump)
    | .error (.askLens exc) => .ok (.invalid (exc.cls.errorType.raised none).payload)
    | .error e => .error e.toRaised

/-- The request of a tool call; no tool asks for diagnostics. -/
def Caller.request (caller : Caller) (question : String) (providedPlan : Option RawPlan)
    (arguments : QueryArguments) : ServiceRequest where
  question := question
  debug := false
  isStaff := caller.isStaff
  includePresentation := arguments.includePresentation
  providedPlan := providedPlan
  providedPresentation := arguments.presentation
  permissions := caller.permissions
  executionPermissions := caller.executionPermissions

def AskLensMCPToolSet.resolveIncludeRows (toolset : AskLensMCPToolSet)
    (arguments : QueryArguments) : Bool :=
  arguments.includeRows.getD toolset.defaultIncludeRows

variable (s : Surroundings R Q V SerializedRowsPayload) (settings : McpSettings)

/-- `asklens_execute_plan` and `asklens_query`, which differ in their requests. -/
def executeTool (request : ServiceRequest) (includeRows : Bool) :
    Except (Raised R) (ToolResult R) × List Effect :=
  let run := service.execute s request
  (run.1.map fun response => .outcome (applyMcpResponsePolicy settings includeRows response), run.2)

def AskLensMCPToolSet.call (toolset : AskLensMCPToolSet) (caller : Caller) :
    ToolCall → Except (Raised R) (ToolResult R) × List Effect
  | .capabilities detail =>
    (asklensCapabilities service caller (detail.getD toolset.capabilitiesResourceDetail), [])
  | .queryPlanSchema => (.ok .queryPlanSchema, [])
  | .describeResource resource => (asklensDescribeResource service caller resource, [])
  | .validatePlan plan => ((asklensValidatePlan service caller plan).map .validation, [])
  | .executePlan plan question arguments =>
    executeTool service s settings (caller.request question (some plan) arguments)
      (toolset.resolveIncludeRows arguments)
  | .query question providedPlan arguments =>
    if toolset.exposeQueryTool = true then
      executeTool service s settings
        (caller.request question (providedPlan.map .mapping) arguments)
        (toolset.resolveIncludeRows arguments)
    else (.ok .disabled, [])

end

end AskLens.Mcp
