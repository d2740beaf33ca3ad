import AskLens.Exceptions
import AskLens.Django.Models
import AskLens.Python.Calendar
import AskLens.Python.Scalar

/-!
# Query sets

The calls that build a Django query set, as data, and how the ORM resolves the
paths they name.
-/
namespace AskLens.Django

open Python

/-- One relationship that a path joins: the names that lead to it, and whether one row may have
several related rows. -/
structure JoinStep where
  edge : List String
  toMany : Bool
deriving DecidableEq, Repr

/-- The joins of the names `rest` below `passed`, where `none` is a `FieldError`. A generic
foreign key names no table to join. -/
def joinStepsFrom (graph : ModelGraph) : ModelName → List String → List String →
    Option (List JoinStep)
  | _, _, [] => none
  | model, passed, part :: rest =>
    match graph.getField? model part with
    | none => none
    | some field =>
      let here := passed ++ [part]
      if field.kind = .genericForeignKey then none
      else if rest = [] then
        some (if field.kind.joinsAtEnd then [⟨here, field.kind.isToMany⟩] else [])
      else
        match field.kind.isRelation, field.relatedModel with
        | true, some related =>
          (joinStepsFrom graph related here rest).map (⟨here, field.kind.isToMany⟩ :: ·)
        | _, _ => none

theorem joinStepsFrom_step {graph : ModelGraph} {model related : ModelName}
    {passed rest : List String} {part : String} {field : DjangoField}
    (hfield : graph.getField? model part = some field) (hrelation : field.kind.isRelation = true)
    (hrelated : field.relatedModel = some related) (hrest : rest ≠ []) :
    joinStepsFrom graph model passed (part :: rest) =
      (joinStepsFrom graph related (passed ++ [part]) rest).map
        (⟨passed ++ [part], field.kind.isToMany⟩ :: ·) := by
  rw [joinStepsFrom, hfield]
  dsimp only
  rw [if_neg (DjangoField.kind_ne_generic hrelated), if_neg hrest, hrelation, hrelated]

def joinSteps (graph : ModelGraph) (model : ModelName) (path : String) : Option (List JoinStep) :=
  joinStepsFrom graph model [] (splitDunder path)

def resolveReference (graph : ModelGraph) (model : ModelName) (path : String) : Py Unit :=
  match joinSteps graph model path with
  | some _ => .ok ()
  | none => .error (.builtin .fieldError)

inductive Lookup where
  | exact | contains | icontains | gt | gte | lt | lte | in | isnull
deriving DecidableEq, Repr

/-- A value bound into a query. Dates are ordinals and aware datetimes are UTC moments. -/
inductive OrmValue where
  | scalar (v : PyScalar)
  | date (ordinal : ℕ)
  | instant (moment : ℤ)
  | time (t : Time)
deriving DecidableEq

inductive Operand where
  | one (v : OrmValue)
  | many (vs : List OrmValue)
deriving DecidableEq

/-- `Q(path__lookup=operand)`. -/
structure Condition where
  path : String
  lookup : Lookup
  operand : Operand
deriving DecidableEq

/-- One call on the query set; the conditions of one `filter` call share their joins. -/
inductive FilterCall where
  | filter (conditions : List Condition)
  | exclude (condition : Condition)
deriving DecidableEq

inductive TruncKind where
  | day | week | month | quarter | year
deriving DecidableEq, Repr

/-- `F(path)` or `TruncX(path, tzinfo=..)`, with the key of the zone. -/
inductive Expression where
  | f (path : String)
  | trunc (kind : TruncKind) (path : String) (zone : Option String)
deriving DecidableEq

def Expression.path : Expression → String
  | .f path => path
  | .trunc _ path _ => path

inductive AggregateFunction where
  | count | sum | avg | min | max
deriving DecidableEq, Repr

structure Aggregate where
  function : AggregateFunction
  path : String
  distinct : Bool
deriving DecidableEq

/-- Each call checks the aliases against the names of the model before it resolves anything. -/
def checkAliases (graph : ModelGraph) (model : ModelName) (aliases : List String) : Py Unit :=
  if aliases.any fun name => (graph model).fields.keys.contains name then
    .error (.builtin .valueError)
  else .ok ()

end AskLens.Django
