import AskLens.Observability
import AskLens.Python.Calendar

/-!
# Audit

One audit event for each execution, built from trusted metadata and handed to
the configured sink, and the built-in sink that stores it as a row.
-/
namespace AskLens.Execution

open Python Planning Observability

variable {R : Type}

inductive AuditMode where
  | database | disabled | custom
deriving DecidableEq, Repr

structure AuditPolicy where
  mode : AuditMode
  includeContent : Bool
deriving DecidableEq, Repr

inductive AuditStatus where
  | success | failed
deriving DecidableEq, Repr

def AuditStatus.text : AuditStatus → String
  | .success => "success"
  | .failed => "failed"

/-- The opted-in part of an audit event, with the plan that its dump is taken from. -/
structure AuditContent where
  question : String
  plan : Option QueryPlan

structure AuditEvent where
  timestamp : Clock
  principalId : Option String
  resource : Option String
  intent : Option Intent
  status : AuditStatus
  rowCount : ℕ
  durationMs : Option ℕ
  errorCode : Option AskLensErrorCode
  errorMessage : String
  content : Option AuditContent

def buildAuditEvent (policy : AuditPolicy) (timestamp : Clock) (principalId : Option String)
    (question : String) (validatedPlan : Option QueryPlan) (result : Option (ℕ × ℕ))
    (error : Option RaisedError) : AuditEvent where
  timestamp := timestamp
  principalId := principalId
  resource := validatedPlan.map QueryPlan.resource
  intent := validatedPlan.map QueryPlan.intent
  status := if error.isSome then .failed else .success
  rowCount := (result.map Prod.fst).getD 0
  durationMs := result.map Prod.snd
  errorCode := error.map RaisedError.code
  errorMessage := (error.map RaisedError.publicMessage).getD ""
  content :=
    if policy.includeContent then
      some ⟨question, validatedPlan⟩
    else none

/-- What a request does outside: calls of the two sinks, and the evaluation of its query. -/
inductive Effect where
  | audit (event : AuditEvent)
  | observe (event : ObservabilityEvent)
  | evaluate

/-- `_emit_audit_event`: a sink that raises leaves no record. -/
def emitAuditEvent (policy : AuditPolicy) (sink : AuditEvent → Option R) (event : AuditEvent) :
    Option R × List Effect :=
  match policy.mode with
  | .disabled => (none, [])
  | .database | .custom => (sink event, [.audit event])

/-! ## The built-in sink -/

/-- What the `plan` of a run holds: the audited plan, or the metadata left of it. -/
inductive RunPlan where
  | content (plan : Option QueryPlan)
  | metadata (resource : Option String) (intent : Option Intent)

/-- A `SemanticQueryRun`. -/
structure SemanticQueryRun where
  question : String
  plan : RunPlan
  status : AuditStatus
  rowCount : ℕ
  durationMs : Option ℕ
  error : String

/-- `_write_database_audit` up to the insert. -/
def databaseAuditRow (event : AuditEvent) : SemanticQueryRun where
  question := (event.content.map AuditContent.question).getD ""
  plan :=
    match event.content with
    | some content => .content content.plan
    | none => .metadata event.resource event.intent
  status := event.status
  rowCount := event.rowCount
  durationMs := event.durationMs
  error :=
    match event.errorCode with
    | some code => code.text ++ ": " ++ event.errorMessage
    | none => ""

end AskLens.Execution
