import AskLens.Python.Json

/-!
# Exceptions

The typed exceptions of the package with their stable public code and message,
and the computations that may raise them or a built-in exception.
-/
namespace AskLens

open Python Checks

variable {α β : Type}

inductive ErrorClass where
  | duplicateResource | unknownResource | unknownField | invalidResource | invalidMetric
  | planValidation | planParse | budgetExceeded | unknownMetric | permissionDenied
  | unsupportedQuery | resultSerialization
deriving DecidableEq, Repr

def ErrorClass.code : ErrorClass → String
  | .duplicateResource | .invalidResource | .invalidMetric => "asklens.binding.invalid"
  | .unknownResource | .unknownField | .unknownMetric | .permissionDenied =>
    "asklens.member.unavailable"
  | .planValidation | .unsupportedQuery => "asklens.plan.invalid"
  | .planParse => "asklens.parse.invalid"
  | .budgetExceeded => "asklens.budget.exceeded"
  | .resultSerialization => "asklens.execute.failed"

def ErrorClass.publicMessage : ErrorClass → String
  | .duplicateResource | .invalidResource | .invalidMetric =>
    "The semantic catalog contains an invalid binding."
  | .unknownResource | .unknownField | .unknownMetric | .permissionDenied =>
    "A requested query member is unavailable."
  | .planValidation | .unsupportedQuery => "The query plan is invalid."
  | .planParse => "The query plan could not be parsed."
  | .budgetExceeded => "The query plan exceeds an execution limit."
  | .resultSerialization => "The query could not be executed."

/-- `AskLensError`; the diagnostic message stays internal. -/
structure AskLensError where
  cls : ErrorClass
  diagnosticMessage : String
deriving DecidableEq, Repr

/-- What `public_error_payload` returns for an error without a pointer. -/
structure PublicErrorPayload where
  code : String
  message : String
deriving DecidableEq, Repr

def publicErrorPayload (exc : AskLensError) : PublicErrorPayload :=
  ⟨exc.cls.code, exc.cls.publicMessage⟩

inductive PyException where
  | askLens (exc : AskLensError)
  | builtin (exc : BuiltinError)
deriving DecidableEq, Repr

/-- A Python computation that returns a value or raises. -/
abbrev Py := Except PyException

/-- `cls(msg)`. -/
def ErrorClass.exc (cls : ErrorClass) (msg : String) : PyException := .askLens ⟨cls, msg⟩

/-- What a caller of the public facade can observe: the value, the public payload of an
`AskLensError`, or an exception that escapes. -/
inductive PublicOutcome (α : Type) where
  | accepted (value : α)
  | rejected (payload : PublicErrorPayload)
  | escaped (exc : BuiltinError)
deriving DecidableEq

def publicOutcome : Py α → PublicOutcome α
  | .ok value => .accepted value
  | .error (.askLens exc) => .rejected (publicErrorPayload exc)
  | .error (.builtin exc) => .escaped exc

/-! ## Containment -/

/-- The computation returns or raises an `AskLensError`. -/
def Contained (r : Py α) : Prop := (∃ a, r = .ok a) ∨ ∃ exc, r = .error (.askLens exc)

theorem contained_ok (a : α) : Contained (.ok a : Py α) := .inl ⟨a, rfl⟩

theorem contained_exc (cls : ErrorClass) (msg : String) :
    Contained (.error (cls.exc msg) : Py α) :=
  .inr ⟨_, rfl⟩

theorem not_contained_builtin (e : BuiltinError) :
    ¬ Contained (.error (.builtin e) : Py α) := by
  simp [Contained]

theorem contained_iff_not_escaped {r : Py α} :
    Contained r ↔ ∀ e, publicOutcome r ≠ .escaped e := by
  cases r with
  | ok a => simp [Contained, publicOutcome]
  | error e => cases e <;> simp [Contained, publicOutcome]

theorem contained_bind_iff {x : Py α} {f : α → Py β} :
    Contained (x >>= f) ↔ Contained x ∧ ∀ a, x = .ok a → Contained (f a) := by
  cases x with
  | ok a => simp [Contained]
  | error e => simp [Contained]

theorem contained_raiseIf (c : Prop) [Decidable c] (cls : ErrorClass) (msg : String) :
    Contained (raiseIf c (cls.exc msg)) := by
  unfold raiseIf
  split_ifs
  · exact contained_exc cls msg
  · exact contained_ok _

theorem contained_forM {l : List α} {f : α → Py Unit} (h : ∀ a ∈ l, Contained (f a)) :
    Contained (l.forM f) := by
  induction l with
  | nil => exact contained_ok _
  | cons a l ih =>
    rw [forM_cons, contained_bind_iff]
    exact ⟨h a (by simp), fun _ _ => ih fun b hb => h b (by simp [hb])⟩

end AskLens
