import AskLens.Django.Models
import AskLens.Exceptions

/-!
# Private bindings

`resolve_field_path` walks a binding over the model graph. A relationship edge
is identified by the names that lead to it; joining them with `__` gives the
prefix text of the source, and distinct prefixes have distinct texts.
-/
namespace AskLens.Catalog

open Python Django

abbrev Edge := List String

structure FieldResolution where
  path : String
  field : DjangoField
  relationshipEdges : List Edge
  toManyRelationshipEdges : List Edge
  nullable : Bool
deriving DecidableEq

def FieldResolution.relationDepth (r : FieldResolution) : ℕ := r.relationshipEdges.length

/-- `[edge]` when the test holds. -/
def edgeIf (c : Bool) (edge : Edge) : List Edge := if c then [edge] else []

def dunderJoin (parts : List String) : String := String.intercalate "__" parts

/-- The loop of `resolve_field_path`: the current model, the names already passed, and the
edges and the nullability collected so far. -/
def walkPath (graph : ModelGraph) (label path : String) :
    ModelName → List String → List Edge → List Edge → Bool → List String → Py FieldResolution
  | _, _, _, _, _, [] =>
    .error (ErrorClass.unknownField.exc s!"Unknown field binding for {label}: {pyRepr path}.")
  | model, passed, edges, toMany, nullable, part :: rest =>
    match graph.getField? model part with
    | none =>
      .error (ErrorClass.unknownField.exc s!"Unknown field binding for {label}: {pyRepr path}.")
    | some field =>
      let here := passed ++ [part]
      if rest = [] then
        let terminalIsJoin := field.kind.isManyToMany || field.kind.isForeignObjectRel
        .ok
          { path := path
            field := field
            relationshipEdges := edges ++ edgeIf terminalIsJoin here
            toManyRelationshipEdges :=
              toMany ++ edgeIf (terminalIsJoin && field.kind.isToMany) here
            nullable := nullable || field.null }
      else
        match field.kind.isRelation, field.relatedModel with
        | true, some related =>
          walkPath graph label path related here (edges ++ [here])
            (toMany ++ edgeIf field.kind.isToMany here)
            (nullable || field.null || field.kind.isToMany) rest
        | _, _ =>
          let traversed := dunderJoin here
          .error (ErrorClass.unknownField.exc
            s!"Cannot traverse non-relation field binding {pyRepr traversed} while resolving {pyRepr path} for {label}.")

/-- A walk that is accepted: it goes over relations to its last field. -/
inductive Walk (graph : ModelGraph) (res : FieldResolution) :
    ModelName → List String → List Edge → List Edge → Bool → List String → Prop
  | last {model : ModelName} {passed : List String} {edges toMany : List Edge} {nullable : Bool}
    {part : String} : graph.getField? model part = some res.field →
    res.relationshipEdges = edges ++
      edgeIf (res.field.kind.isManyToMany || res.field.kind.isForeignObjectRel)
        (passed ++ [part]) →
    res.toManyRelationshipEdges = toMany ++
      edgeIf ((res.field.kind.isManyToMany || res.field.kind.isForeignObjectRel) &&
        res.field.kind.isToMany) (passed ++ [part]) →
    res.nullable = (nullable || res.field.null) →
    Walk graph res model passed edges toMany nullable [part]
  | step {model related : ModelName} {passed rest : List String} {edges toMany : List Edge}
    {nullable : Bool} {part : String} {field : DjangoField} :
    graph.getField? model part = some field → field.kind.isRelation = true →
    field.relatedModel = some related → rest ≠ [] →
    Walk graph res related (passed ++ [part]) (edges ++ [passed ++ [part]])
      (toMany ++ edgeIf field.kind.isToMany (passed ++ [part]))
      (nullable || field.null || field.kind.isToMany) rest →
    Walk graph res model passed edges toMany nullable (part :: rest)

theorem walk_of_walkPath {graph : ModelGraph} {label path : String} {model : ModelName}
    {passed parts : List String} {edges toMany : List Edge} {nullable : Bool}
    {res : FieldResolution}
    (h : walkPath graph label path model passed edges toMany nullable parts = .ok res) :
    Walk graph res model passed edges toMany nullable parts := by
  induction parts generalizing model passed edges toMany nullable with
  | nil => cases h
  | cons part rest ih =>
    unfold walkPath at h
    cases hfield : graph.getField? model part with
    | none => simp [hfield] at h
    | some field =>
      simp only [hfield] at h
      by_cases hrest : rest = []
      · rw [if_pos hrest] at h
        obtain rfl := Except.ok.inj h
        rw [hrest]
        exact .last hfield rfl rfl rfl
      · rw [if_neg hrest] at h
        cases hrelation : field.kind.isRelation with
        | false => simp [hrelation] at h
        | true =>
          cases hrelated : field.relatedModel with
          | none => simp [hrelation, hrelated] at h
          | some related =>
            simp only [hrelation, hrelated] at h
            exact .step hfield hrelation hrelated hrest (ih h)

def resolveFieldPath (graph : ModelGraph) (model : ModelName) (path : String) :
    Py FieldResolution :=
  let parts := splitDunder path
  let label := (graph model).label
  if path = "" ∨ parts.contains "" then
    .error (ErrorClass.unknownField.exc
      s!"Invalid empty field binding for {label}: {pyRepr path}.")
  else walkPath graph label path model [] [] [] false parts

def getFieldType (field : DjangoField) : String :=
  match field.kind with
  | .column type => type
  | _ => "relation"

end AskLens.Catalog
