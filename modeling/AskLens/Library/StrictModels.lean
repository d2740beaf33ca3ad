import AskLens.Python.Json

/-!
# Strict models

What a strict model of a document accepts: no value is converted to another
class, a model has no members but its own, and the required ones are there.
-/
namespace AskLens.StrictModels

open Python

/-- A model; a member has a name, whether it is required, and the model of its value. -/
inductive Shape where
  /-- Any text; it may hold a lone surrogate. -/
  | anyText
  /-- A text under a constraint. -/
  | text (constraint : String → Bool)
  /-- One of some texts. -/
  | literal (values : List String)
  /-- A fixed boolean. -/
  | constant (b : Bool)
  | boolean
  | integer (least : Option ℤ)
  | float
  | null
  | union (shapes : List Shape)
  | list (minItems : ℕ) (item : Shape)
  /-- A mapping from texts. -/
  | mapping (value : Shape)
  | model (members : List (String × Bool × Shape))

abbrev Member := String × Bool × Shape

def required (name : String) (shape : Shape) : Member := (name, true, shape)

def optional (name : String) (shape : Shape) : Member := (name, false, shape)

def isText : PyObj → Bool
  | .str _ _ => true
  | .surrogates _ => true
  | _ => false

mutual

def Shape.accepts : Shape → PyObj → Bool
  | .anyText, v => isText v
  | .text constraint, .str _ s => constraint s
  | .literal values, .str _ s => values.contains s
  | .constant b, .bool b' => b == b'
  | .boolean, .bool _ => true
  | .integer least, .int _ i => least.all fun n => decide (n ≤ i)
  | .float, .float _ => true
  | .float, .int _ _ => true
  | .null, .null => true
  | .union shapes, v => someAccepts shapes v
  | .list minItems item, .list items =>
    decide (minItems ≤ items.length) && items.all fun v => item.accepts v
  | .mapping value, .dict entries => entries.all fun e => isText e.1 && value.accepts e.2
  | .model members, .dict entries =>
    onlyKeys entries (members.map Prod.fst) && membersHold members entries
  | _, _ => false

def someAccepts : List Shape → PyObj → Bool
  | [], _ => false
  | shape :: rest, v => shape.accepts v || someAccepts rest v

def membersHold : List (String × Bool × Shape) → List (PyObj × PyObj) → Bool
  | [], _ => true
  | (name, isRequired, shape) :: rest, entries =>
    (match lookupKey entries name with
      | none => !isRequired
      | some v => shape.accepts v) && membersHold rest entries

end

/-! ## The models one by one -/

section

variable {shape : Shape} {shapes : List Shape} {members : List Member} {v : PyObj}
  {entries : List (PyObj × PyObj)}

end

/-! ## Documents with optional members -/

/-- The entries of a document; an absent member is `none`. -/
def entriesOf (fields : List (String × Option PyObj)) : List (PyObj × PyObj) :=
  fields.flatMap fun f => (f.2.map fun v => (PyObj.str none f.1, v)).toList

def document (fields : List (String × Option PyObj)) : PyObj := .dict (entriesOf fields)

section

variable {members : List Member} {fields : List (String × Option PyObj)}

end

end AskLens.StrictModels
