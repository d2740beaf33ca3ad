import AskLens.Python.Dict
import AskLens.Python.Text

/-!
# Django models

The part of `Model._meta` that registration and path resolution read.
-/
namespace AskLens.Django

open Python

abbrev ModelName := String

/-- The classes of the entries that `_meta.get_field` can return. -/
inductive FieldKind where
  /-- A concrete column, with the type label of its field class. -/
  | column (type : String)
  | foreignKey | oneToOne | manyToMany
  /-- The reverse of a foreign key, a one-to-one field or a many-to-many field. -/
  | manyToOneRel | oneToOneRel | manyToManyRel
  | genericRelation | genericForeignKey
deriving DecidableEq, Repr

namespace FieldKind

def isRelation : FieldKind → Bool
  | .column _ => false
  | _ => true

def isManyToMany : FieldKind → Bool
  | .manyToMany | .manyToManyRel => true
  | _ => false

def isOneToMany : FieldKind → Bool
  | .manyToOneRel | .genericRelation => true
  | _ => false

/-- `isinstance(field, ForeignObjectRel)`. -/
def isForeignObjectRel : FieldKind → Bool
  | .manyToOneRel | .oneToOneRel | .manyToManyRel => true
  | _ => false

/-- `isinstance(field, models.Field) and field.concrete`. -/
def isConcrete : FieldKind → Bool
  | .column _ | .foreignKey | .oneToOne => true
  | _ => false

/-- One row may have several related rows. -/
def isToMany (k : FieldKind) : Bool := k.isOneToMany || k.isManyToMany

def joinsAtEnd : FieldKind → Bool
  | .column _ | .foreignKey | .oneToOne => false
  | _ => true

end FieldKind

/-- A field of a model; `model` is the model that declares it. -/
structure DjangoField where
  name : String
  model : ModelName
  kind : FieldKind
  /-- `getattr(field, "null", True)`. -/
  null : Bool
  primaryKey : Bool
  unique : Bool
  relatedModel : Option ModelName
  generic_unrelated : kind = .genericForeignKey → relatedModel = none
deriving DecidableEq, Repr

theorem DjangoField.kind_ne_generic {field : DjangoField} {related : ModelName}
    (h : field.relatedModel = some related) : field.kind ≠ .genericForeignKey := by
  intro hkind
  rw [field.generic_unrelated hkind] at h
  cases h

structure UniqueConstraint where
  fields : List String
  hasCondition : Bool
  hasExpressions : Bool
deriving DecidableEq, Repr

/-- A model; the checks of the framework keep `__` out of the names. -/
structure DjangoModel where
  label : String
  verboseNamePlural : String
  pk : String
  fields : Dict DjangoField
  uniqueTogether : List (List String)
  constraints : List UniqueConstraint
  names_plain : ∀ name ∈ fields.keys, splitDunder name = [name]

abbrev ModelGraph := ModelName → DjangoModel

/-- `model._meta.get_field(name)`, where `none` is `FieldDoesNotExist`. -/
def ModelGraph.getField? (graph : ModelGraph) (model : ModelName) (name : String) :
    Option DjangoField :=
  (graph model).fields.get? name

/-- The unique constraints of one column: the tests shared by row identities and metric keys. -/
def ModelGraph.hasUniqueConstraint (graph : ModelGraph) (model : ModelName) (name : String) :
    Bool :=
  (graph model).uniqueTogether.contains [name] ||
    (graph model).constraints.any fun c =>
      !c.hasCondition && !c.hasExpressions && c.fields == [name]

end AskLens.Django
