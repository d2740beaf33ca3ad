import AskLens.Exceptions

/-!
# Public errors

The exception hierarchy of the package, the public code and message that each
class inherits, and the errors that a request can meet while it runs.
-/
namespace AskLens

inductive AskLensErrorCode where
  | parseInvalid | memberUnavailable | planInvalid | authorizationDenied | scopeUnavailable
  | budgetExceeded | bindingInvalid | compileFailed | executeFailed | providerFailed
deriving DecidableEq, Repr

def AskLensErrorCode.text : AskLensErrorCode → String
  | .parseInvalid => "asklens.parse.invalid"
  | .memberUnavailable => "asklens.member.unavailable"
  | .planInvalid => "asklens.plan.invalid"
  | .authorizationDenied => "asklens.authorization.denied"
  | .scopeUnavailable => "asklens.scope.unavailable"
  | .budgetExceeded => "asklens.budget.exceeded"
  | .bindingInvalid => "asklens.binding.invalid"
  | .compileFailed => "asklens.compile.failed"
  | .executeFailed => "asklens.execute.failed"
  | .providerFailed => "asklens.provider.failed"

/-- The exception classes of the package, less the facade's own `PublicAskLensError`. -/
inductive ErrorType where
  | askLensError
  | catalogError | duplicateResourceError | unknownResourceError | unknownFieldError
  | invalidResourceError | invalidMetricError
  | planValidationError | planParseError | budgetExceededError | unknownMetricError
  | unsupportedQueryError
  | permissionDeniedError | authorizationDeniedError | scopeUnavailableError
  | bindingInvalidError | compilationError
  | executionError | resultSerializationError | presentationHintError
  | llmProviderError
deriving DecidableEq, Repr

namespace ErrorType

def base : ErrorType → Option ErrorType
  | .askLensError => none
  | .duplicateResourceError | .unknownResourceError | .unknownFieldError
  | .invalidResourceError | .invalidMetricError => some .catalogError
  | .planParseError | .budgetExceededError | .unknownMetricError
  | .unsupportedQueryError => some .planValidationError
  | .resultSerializationError => some .executionError
  | .presentationHintError => some .resultSerializationError
  | _ => some .askLensError

/-- The `code` and `public_message` that the body of the class assigns. -/
def declared : ErrorType → Option (AskLensErrorCode × String)
  | .askLensError => some (.executeFailed, "The AskLens request could not be completed.")
  | .catalogError => some (.bindingInvalid, "The semantic catalog contains an invalid binding.")
  | .unknownResourceError | .unknownFieldError | .unknownMetricError | .permissionDeniedError =>
    some (.memberUnavailable, "A requested query member is unavailable.")
  | .planValidationError => some (.planInvalid, "The query plan is invalid.")
  | .planParseError => some (.parseInvalid, "The query plan could not be parsed.")
  | .budgetExceededError => some (.budgetExceeded, "The query plan exceeds an execution limit.")
  | .authorizationDeniedError => some (.authorizationDenied,
      "The current request is not authorized to execute this query.")
  | .scopeUnavailableError => some (.scopeUnavailable,
      "A safe query scope is unavailable for this request.")
  | .bindingInvalidError => some (.bindingInvalid, "The query plan could not be bound safely.")
  | .compilationError => some (.compileFailed, "The query plan could not be compiled.")
  | .executionError => some (.executeFailed, "The query could not be executed.")
  | .llmProviderError => some (.providerFailed,
      "The query provider could not produce a usable response.")
  | .duplicateResourceError | .invalidResourceError | .invalidMetricError
  | .unsupportedQueryError | .resultSerializationError | .presentationHintError => none

/-- The method resolution order, at most three bases deep. -/
def mro (t : ErrorType) : List ErrorType :=
  t :: (t.base.elim [] fun a => a :: (a.base.elim [] fun b => b :: (b.base.elim [] fun c => [c])))

def attributes (t : ErrorType) : AskLensErrorCode × String :=
  (t.mro.findSome? declared).getD (.executeFailed, "The AskLens request could not be completed.")

def code (t : ErrorType) : AskLensErrorCode := t.attributes.1

def publicMessage (t : ErrorType) : String := t.attributes.2

/-- The class of the order that sets the code and the message. -/
def source (t : ErrorType) : ErrorType :=
  (t.mro.find? fun c => c.declared.isSome).getD .askLensError

end ErrorType

/-- The class of an error that registration, planning or compilation raises. -/
def ErrorClass.errorType : ErrorClass → ErrorType
  | .duplicateResource => .duplicateResourceError
  | .unknownResource => .unknownResourceError
  | .unknownField => .unknownFieldError
  | .invalidResource => .invalidResourceError
  | .invalidMetric => .invalidMetricError
  | .planValidation => .planValidationError
  | .planParse => .planParseError
  | .budgetExceeded => .budgetExceededError
  | .unknownMetric => .unknownMetricError
  | .permissionDenied => .permissionDeniedError
  | .unsupportedQuery => .unsupportedQueryError
  | .resultSerialization => .resultSerializationError

/-! ## Raised errors -/

/-- An `AskLensError`: a host may subclass it, so code and message belong to the object. -/
structure RaisedError where
  code : AskLensErrorCode
  publicMessage : String
  pointer : Option String
deriving DecidableEq, Repr

/-- `cls(msg, pointer=pointer)`. -/
def ErrorType.raised (t : ErrorType) (pointer : Option String) : RaisedError :=
  ⟨t.code, t.publicMessage, pointer⟩

def safeJsonPointer (pointer : Option String) : Option String :=
  pointer.filter fun p =>
    p.toList.head? = some '/' && decide (p.length ≤ 200) && p.toList.all fun c => 32 ≤ c.toNat

/-- What `public_error_payload` returns. -/
structure PublicErrorDocument where
  code : AskLensErrorCode
  message : String
  pointer : Option String
deriving DecidableEq, Repr

/-- `public_error_payload`. -/
def RaisedError.payload (exc : RaisedError) : PublicErrorDocument :=
  ⟨exc.code, exc.publicMessage, safeJsonPointer exc.pointer⟩

/-- A `PublicAskLensError` with the marks that the facade leaves on it. -/
structure PublicAskLensError (R : Type) where
  error : RaisedError
  auditRecord : Option R
  auditAttempted : Bool
  observabilityAttempted : Bool

/-- `PublicAskLensError(exc)`: the diagnostic text is gone, and an unsafe pointer. -/
def publicAskLensError {R : Type} (exc : RaisedError) : PublicAskLensError R :=
  ⟨{ exc with pointer := safeJsonPointer exc.pointer }, none, false, false⟩

/-- What a stage of a request can raise; `R` is the type of the audit records. -/
inductive Raised (R : Type) where
  | askLens (exc : RaisedError)
  | publicAskLens (exc : PublicAskLensError R)
  /-- `FieldError` or `KeyError`. -/
  | unresolvedBinding
  /-- Any other exception that is no `AskLensError`. -/
  | exception

variable {R : Type}

/-- `normalize_public_error` where the exception is an `AskLensError`. -/
def Raised.normalizePublicError : Raised R → Option (PublicAskLensError R)
  | .askLens exc => some (publicAskLensError exc)
  | .publicAskLens exc => some exc
  | .unresolvedBinding | .exception => none

/-- The `AskLensError` that the exception is, if it is one. -/
def Raised.error? : Raised R → Option RaisedError
  | .askLens exc => some exc
  | .publicAskLens exc => some exc.error
  | .unresolvedBinding | .exception => none

/-- An `except AskLensError: raise` before an `except Exception` that raises `t`. -/
def Raised.wrap (t : ErrorType) : Raised R → Raised R
  | .unresolvedBinding | .exception => .askLens (t.raised none)
  | e => e

/-- The `except` clauses around `_compile_prepared_query`. -/
def Raised.wrapCompilation : Raised R → Raised R
  | .unresolvedBinding => .askLens (ErrorType.bindingInvalidError.raised none)
  | .exception => .askLens (ErrorType.compilationError.raised none)
  | e => e

/-- The error of registration, planning or compilation as an object. -/
def PyException.toRaised : PyException → Raised R
  | .askLens exc => .askLens (exc.cls.errorType.raised none)
  | .builtin .fieldError | .builtin .keyError => .unresolvedBinding
  | .builtin _ => .exception

end AskLens
