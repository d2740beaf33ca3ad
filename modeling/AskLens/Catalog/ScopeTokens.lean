import AskLens.Catalog.Capabilities
import AskLens.Python.Dict
import Mathlib.Data.List.Sort
import Mathlib.Data.String.Basic

/-!
# Scoped permission tokens

A token `<scope-kind>:<opaque-scope-id>:<permission>` grants a permission within
one scope. The guidance of a resource tells how many scopes the request holds
for it and of which kind, never which ones.
-/
namespace AskLens.Catalog

open Python

/-- The groups of `SCOPED_PERMISSION_RE`. -/
structure ScopedPermission where
  kind : String
  scope : String
  permission : String
deriving DecidableEq

/-- `[A-Za-z][A-Za-z0-9_-]*`. -/
def isScopeKind : List Char → Bool
  | [] => false
  | c :: cs => c.isAlpha && cs.all fun c => c.isAlphanum || c == '_' || c == '-'

/-- What stands before the first colon, and what stands after it. -/
def splitColon : List Char → Option (List Char × List Char)
  | [] => none
  | c :: cs =>
    if c = ':' then some ([], cs) else (splitColon cs).map fun parts => (c :: parts.1, parts.2)

/-- `.+$`: one line, which a newline may end. -/
def permissionLine (cs : List Char) : Option (List Char) :=
  let line := cs.takeWhile (· ≠ '\n')
  let rest := cs.dropWhile (· ≠ '\n')
  if line ≠ [] ∧ (rest = [] ∨ rest = ['\n']) then some line else none

/-- The parts of a token that the expression matches, with the whole text after the scope. -/
def splitToken (token : List Char) : Option (List Char × List Char × List Char) :=
  match splitColon token with
  | none => none
  | some (kind, rest) =>
    match splitColon rest with
    | none => none
    | some (scope, tail) =>
      if isScopeKind kind = true ∧ scope ≠ [] ∧ (permissionLine tail).isSome then
        some (kind, scope, tail)
      else none

/-- `SCOPED_PERMISSION_RE.match`. -/
def scopedPermission? (token : String) : Option ScopedPermission :=
  match splitToken token.toList with
  | none => none
  | some (kind, scope, tail) =>
    (permissionLine tail).map fun line =>
      { kind := String.ofList kind, scope := String.ofList scope, permission := String.ofList line }

/-- `CapabilityScope` with its guidance. -/
structure GuidedScope extends CapabilityScope where
  guidance : String
deriving DecidableEq

/-- `values.add(value)`. -/
def setAdd (values : List String) (value : String) : List String :=
  if value ∈ values then values else values ++ [value]

/-- `scoped_values` and `wildcard_kinds`. -/
structure ScopeTokens where
  scopedValues : Dict (List String)
  wildcardKinds : List String

def ScopeTokens.empty : ScopeTokens := ⟨[], []⟩

/-- `scoped_values.setdefault(kind, set())`. -/
def ScopeTokens.valuesOf (t : ScopeTokens) (kind : String) : List String :=
  (t.scopedValues.get? kind).getD []

/-- The turn of a token that grants the required permission. -/
def ScopeTokens.add (t : ScopeTokens) (m : ScopedPermission) : ScopeTokens :=
  if m.scope = "*" then { t with wildcardKinds := setAdd t.wildcardKinds m.kind }
  else
    { t with scopedValues := t.scopedValues.set m.kind (setAdd (t.valuesOf m.kind) m.scope) }

/-- One turn of the loop over the permission set. -/
def ScopeTokens.scan (required : String) (t : ScopeTokens) (token : String) : ScopeTokens :=
  match scopedPermission? token with
  | none => t
  | some m => if m.permission = required then t.add m else t

/-- The loop over the permission set, in the order of the set. -/
def scanTokens (required : String) (permissions : List String) : ScopeTokens :=
  permissions.foldl (ScopeTokens.scan required) .empty

/-- `sorted(kinds)[0]`. -/
def firstKind? (kinds : List String) : Option String := (kinds.insertionSort (· ≤ ·)).head?

/-- `sum(len(values) for values in scoped_values.values())`. -/
def ScopeTokens.scopeCount (t : ScopeTokens) : ℕ := (t.scopedValues.values.map List.length).sum

def unknownScope : GuidedScope where
  level := .unknown
  kind := none
  guidance := "Use only rows visible through the resource's explicit scope; do not imply " ++
    "broader access than this request has."

/-- The guidance of a request that holds the permission without a scope. -/
def unscopedScope : GuidedScope where
  level := .all
  kind := none
  guidance := "This request has an unscoped permission token for this resource; the resource " ++
    "scope provider still controls rows."

def allScope (kind : String) : GuidedScope where
  level := .all
  kind := some kind
  guidance := s!"This request may query all visible {pluralizeScopeKind kind} for this " ++
    "resource, subject to the resource scope provider."

def singleScope (kind : String) : GuidedScope where
  level := .single
  kind := some kind
  guidance := s!"Visible rows are scoped to one {humanizeScopeKind kind}. Do not suggest " ++
    s!"comparing, grouping, or filtering across {pluralizeScopeKind kind}."

def multipleScope (kind : String) : GuidedScope where
  level := .multiple
  kind := some kind
  guidance := s!"Visible rows may span multiple {pluralizeScopeKind kind}. Cross-scope " ++
    "examples are allowed only when the required fields are exposed in this capabilities payload."

/-- What `infer_capability_scope` returns for the tokens that grant the permission. -/
def ScopeTokens.inferScope (t : ScopeTokens) : GuidedScope :=
  match firstKind? t.wildcardKinds with
  | some kind => allScope kind
  | none =>
    if t.scopeCount = 1 then
      match t.scopedValues.keys with
      | kind :: _ => singleScope kind
      | [] => unknownScope
    else if 1 < t.scopeCount then
      match firstKind? t.scopedValues.keys with
      | some kind => multipleScope kind
      | none => unknownScope
    else unknownScope

def inferCapabilityScope (requiredPermission : Option String) (permissions : List String) :
    GuidedScope :=
  match requiredPermission with
  | none => unknownScope
  | some required =>
    if required ∈ permissions then unscopedScope
    else (scanTokens required permissions).inferScope

end AskLens.Catalog
