import AskLens.Catalog.Registry
import AskLens.Python.Patterns

/-!
# Query guidance

What the capabilities payload says about the members of a visible catalog: the
uses of a field are derived from its catalog item alone.
-/
namespace AskLens.Catalog

open Python

/-- `CapabilityField`. An absent key is `none`. -/
structure CapabilityField where
  name : String
  label : String
  type : FieldType
  nullable : Bool
  relationDepth : ℕ
  canFilter : Bool
  canSelect : Bool
  canGroup : Bool
  canOrder : Bool
  canDateBucket : Bool
  operators : List FilterOperator
  enum : Option EnumCatalogItem
  sensitive : Option Bool
  scopeDimension : Option Bool
deriving DecidableEq

structure CapabilityMetric where
  name : String
  label : String
  resultType : FieldType
deriving DecidableEq

inductive ScopeLevel where
  | unknown | single | multiple | all
deriving DecidableEq

structure CapabilityScope where
  level : ScopeLevel
  kind : Option String
deriving DecidableEq

structure CapabilityResource where
  name : String
  label : String
  synonyms : List String
  fields : List CapabilityField
  metrics : List CapabilityMetric
  dateFields : List CapabilityField
  scope : CapabilityScope
  scopeResource : Option Bool
deriving DecidableEq

/-! ## Scope wording -/

/-- `text.replace("_", " ").replace("-", " ")`. -/
def spaced (s : String) : String :=
  String.ofList (s.toList.map fun c => if c = '_' ∨ c = '-' then ' ' else c)

def humanizeScopeKind (kind : String) : String := spaced kind

def isVowel (c : Char) : Bool := ['a', 'e', 'i', 'o', 'u'].contains c

def pluralizeScopeKind (kind : String) : String :=
  let label := humanizeScopeKind kind
  match label.toList.reverse with
  | 'y' :: c :: rest =>
    if isVowel c then label ++ "s" else String.ofList (c :: rest).reverse ++ "ies"
  | 's' :: _ => label
  | _ => label ++ "s"

def isSingleScopeResource (tables : CaseTables) (resource : CapabilityResource) : Bool :=
  match resource.scope.level, resource.scope.kind with
  | .single, some scopeKind =>
    let kind := tables.lower (humanizeScopeKind scopeKind)
    let plural := tables.lower (pluralizeScopeKind scopeKind)
    let candidates := tables.lower (spaced resource.name) :: tables.lower resource.label ::
      resource.synonyms.map tables.lower
    resource.scopeResource = some true || candidates.contains kind || candidates.contains plural
  | _, _ => false

def isScopeDimensionField (tables : CaseTables) (fieldName fieldLabel scopeKind : String) : Bool :=
  let normalizedKind := tables.lower (humanizeScopeKind scopeKind)
  let normalizedPlural := tables.lower (pluralizeScopeKind scopeKind)
  let lowerName := tables.lower fieldName
  let lowerKind := tables.lower scopeKind
  let labelTokens := findTokens (tables.lower fieldLabel)
  lowerName == lowerKind || lowerName == lowerKind ++ "_id" ||
    startsWith lowerName (lowerKind ++ ".") || labelTokens.contains normalizedKind ||
      labelTokens.contains normalizedPlural

def buildFieldCapability (field : FieldCatalogItem) : CapabilityField :=
  let isFilterOnly := field.filterOnly.getD false
  let isResultVisible := field.resultVisible.getD true
  let canUseInResults := !isFilterOnly && isResultVisible
  { name := field.name
    label := field.label
    type := field.type
    nullable := field.nullable
    relationDepth := field.relationDepth
    canFilter := true
    canSelect := canUseInResults
    canGroup := canUseInResults
    canOrder := canUseInResults
    canDateBucket := canUseInResults && field.type.isDate
    operators := operatorsByFieldType field.type
    enum := field.enum
    sensitive := if field.sensitive = some true then some true else none
    scopeDimension := if field.scopeDimension = some true then some true else none }

def FieldSpec.usableInResults (f : FieldSpec) : Bool := !f.filterOnly && f.resultVisible

section

variable (f : FieldSpec)

@[simp] theorem buildFieldCapability_canSelect :
    (buildFieldCapability f.toDict).canSelect = f.usableInResults := by
  cases h : f.filterOnly <;> cases h' : f.resultVisible <;>
    simp [buildFieldCapability, FieldSpec.toDict, FieldSpec.usableInResults, presentIf, h, h']

@[simp] theorem buildFieldCapability_canGroup :
    (buildFieldCapability f.toDict).canGroup = f.usableInResults :=
  buildFieldCapability_canSelect f

@[simp] theorem buildFieldCapability_canDateBucket :
    (buildFieldCapability f.toDict).canDateBucket = (f.usableInResults && f.type.isDate) := by
  rw [← buildFieldCapability_canSelect f]
  rfl

@[simp] theorem buildFieldCapability_operators :
    (buildFieldCapability f.toDict).operators = operatorsByFieldType f.type := rfl

end

end AskLens.Catalog
