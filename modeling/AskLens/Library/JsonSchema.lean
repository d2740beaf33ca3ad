import Mathlib.Algebra.Order.Field.Rat
import Mathlib.Algebra.Order.Ring.Unbundled.Rat
import Mathlib.Data.List.Basic

/-!
# JSON Schema

Documents and the keywords of Draft 2020-12 that constrain structure. A number
keeps how it is written, an integer literal or one with a fraction or exponent,
although a schema only sees its value. A string is a sequence of code points,
lone surrogates included. References are resolved: the place of a `$ref` holds
the schema that it names.
-/
namespace AskLens.JsonSchema

def codePoints (s : String) : List ℕ := s.toList.map Char.toNat

theorem codePoints_inj {s t : String} : codePoints s = codePoints t ↔ s = t := by
  unfold codePoints
  rw [List.map_inj_right fun a b h => Char.toNat_inj.mp h, String.toList_inj]

inductive Json where
  | null
  | bool (b : Bool)
  | integer (i : ℤ)
  /-- A number with a fraction or an exponent: `digits * 10 ^ exponent`. -/
  | decimal (neg : Bool) (digits : ℕ) (exponent : ℤ)
  | string (text : List ℕ)
  | array (items : List Json)
  | object (members : List (List ℕ × Json))

inductive JsonType where
  | null | boolean | integer | number | string | array | object
deriving DecidableEq, Repr

/-- A keyword; a schema is the list of its keywords. -/
inductive Keyword where
  | type (t : JsonType)
  /-- An enumeration of strings. -/
  | enum (values : List String)
  | const (value : String)
  | minimum (least : ℤ)
  | minLength (n : ℕ)
  | minItems (n : ℕ)
  | maxItems (n : ℕ)
  | items (schema : List Keyword)
  | properties (schemas : List (String × List Keyword))
  | required (names : List String)
  /-- `additionalProperties: false`. -/
  | noAdditionalProperties
  | allOf (schemas : List (List Keyword))
  | anyOf (schemas : List (List Keyword))
  | oneOf (schemas : List (List Keyword))
  | ifThen (condition consequence : List Keyword)

abbrev Schema := List Keyword

namespace Json

def value? : Json → Option ℚ
  | .integer i => some i
  | .decimal neg digits exponent => some ((if neg then -1 else 1) * digits * 10 ^ exponent)
  | _ => none

/-- A number with zero fractional part is an integer. -/
def hasType : Json → JsonType → Bool
  | .null, .null => true
  | .bool _, .boolean => true
  | .integer _, .integer => true
  | .decimal neg digits exponent, .integer =>
    (value? (.decimal neg digits exponent)).any fun q => q.den = 1
  | .integer _, .number => true
  | .decimal _ _ _, .number => true
  | .string _, .string => true
  | .array _, .array => true
  | .object _, .object => true
  | _, _ => false

def isString (values : List String) : Json → Bool
  | .string text => values.any fun s => codePoints s == text
  | _ => false

/-- The member of an object. -/
def get? (v : Json) (name : String) : Option Json :=
  match v with
  | .object members => members.lookup (codePoints name)
  | _ => none

def text? : Json → Option (List ℕ)
  | .string text => some text
  | _ => none

def items? : Json → Option (List Json)
  | .array items => some items
  | _ => none

def names? : Json → Option (List (List ℕ))
  | .object members => some (members.map Prod.fst)
  | _ => none

end Json

/-- The names that a schema declares next to `additionalProperties`. -/
def declaredBy (schema : Schema) : List String :=
  schema.flatMap fun keyword =>
    match keyword with
    | .properties schemas => schemas.map Prod.fst
    | _ => []

mutual

def Keyword.holds (declared : List String) : Keyword → Json → Bool
  | .type t, v => v.hasType t
  | .enum values, v => v.isString values
  | .const value, v => v.isString [value]
  | .minimum least, v => v.value?.all fun q => decide ((least : ℚ) ≤ q)
  | .minLength n, v => v.text?.all fun text => decide (n ≤ text.length)
  | .minItems n, v => v.items?.all fun items => decide (n ≤ items.length)
  | .maxItems n, v => v.items?.all fun items => decide (items.length ≤ n)
  | .items schema, v =>
    v.items?.all fun items => items.all fun w => allHold (declaredBy schema) schema w
  | .properties schemas, v => propertiesHold schemas v
  | .required required, v =>
    v.names?.all fun names => required.all fun name => names.contains (codePoints name)
  | .noAdditionalProperties, v =>
    v.names?.all fun names => names.all (declared.map codePoints).contains
  | .allOf schemas, v => eachHolds schemas v
  | .anyOf schemas, v => decide (0 < countHolds schemas v)
  | .oneOf schemas, v => countHolds schemas v == 1
  | .ifThen condition consequence, v =>
    !allHold (declaredBy condition) condition v || allHold (declaredBy consequence) consequence v

def allHold (declared : List String) : List Keyword → Json → Bool
  | [], _ => true
  | keyword :: rest, v => keyword.holds declared v && allHold declared rest v

def propertiesHold : List (String × List Keyword) → Json → Bool
  | [], _ => true
  | (name, schema) :: rest, v =>
    (v.get? name).all (fun member => allHold (declaredBy schema) schema member) &&
      propertiesHold rest v

def eachHolds : List (List Keyword) → Json → Bool
  | [], _ => true
  | schema :: rest, v => allHold (declaredBy schema) schema v && eachHolds rest v

def countHolds : List (List Keyword) → Json → ℕ
  | [], _ => 0
  | schema :: rest, v => (if allHold (declaredBy schema) schema v then 1 else 0) + countHolds rest v

end

attribute [simp] Keyword.holds allHold propertiesHold eachHolds countHolds

def Schema.accepts (schema : Schema) (v : Json) : Bool := allHold (declaredBy schema) schema v

/-! ## The keywords one by one -/

section

variable {declared : List String} {v : Json} {schema : Schema} {schemas : List Schema}

theorem accepts_iff : schema.accepts v = true ↔
    ∀ keyword ∈ schema, keyword.holds (declaredBy schema) v = true := by
  have hall : ∀ keywords : List Keyword, allHold (declaredBy schema) keywords v = true ↔
      ∀ keyword ∈ keywords, keyword.holds (declaredBy schema) v = true := by
    intro keywords
    induction keywords with
    | nil => simp [allHold]
    | cons keyword rest ih => simp [allHold, ih]
  exact hall schema

theorem holds_items (items : List Json) :
    (Keyword.items schema).holds declared (.array items) = true ↔
      ∀ w ∈ items, schema.accepts w = true := by
  rw [Keyword.holds, Json.items?, Option.all_some, List.all_eq_true]
  rfl

theorem holds_properties {properties : List (String × Schema)} :
    (Keyword.properties properties).holds declared v = true ↔
      ∀ e ∈ properties, ∀ w, v.get? e.1 = some w → Schema.accepts e.2 w = true := by
  rw [Keyword.holds]
  induction properties with
  | nil => simp [propertiesHold]
  | cons e rest ih =>
    obtain ⟨name, member⟩ := e
    rw [propertiesHold, Bool.and_eq_true, ih, List.forall_mem_cons]
    refine and_congr_left fun _ => ?_
    cases v.get? name <;> simp [Schema.accepts]

theorem holds_required {names : List String} (members : List (List ℕ × Json)) :
    (Keyword.required names).holds declared (.object members) = true ↔
      ∀ name ∈ names, ∃ w, Json.get? (.object members) name = some w := by
  simp only [Keyword.holds, Json.names?, Option.all_some, Json.get?, List.all_eq_true,
    List.contains_iff_mem]
  refine forall₂_congr fun name _ => ?_
  rw [← Option.isSome_iff_exists, List.lookup_isSome_iff, List.mem_map]
  constructor
  · rintro ⟨e, he, hname⟩
    exact ⟨e, he, beq_iff_eq.mpr hname.symm⟩
  · rintro ⟨e, he, hname⟩
    exact ⟨e, he, (beq_iff_eq.mp hname).symm⟩

theorem holds_noAdditionalProperties (members : List (List ℕ × Json)) :
    Keyword.noAdditionalProperties.holds declared (.object members) = true ↔
      ∀ name ∈ members.map Prod.fst, name ∈ declared.map codePoints := by
  simp only [Keyword.holds, Json.names?, Option.all_some, List.all_eq_true, List.contains_iff_mem]

theorem holds_allOf : (Keyword.allOf schemas).holds declared v = true ↔
    ∀ s ∈ schemas, Schema.accepts s v = true := by
  rw [Keyword.holds]
  induction schemas with
  | nil => simp [eachHolds]
  | cons s rest ih => simp [eachHolds, ih, Schema.accepts]

theorem countHolds_eq_countP (schemas : List Schema) :
    countHolds schemas v = schemas.countP fun s => Schema.accepts s v := by
  induction schemas with
  | nil => rfl
  | cons s rest ih =>
    rw [countHolds, ih, List.countP_cons, Nat.add_comm]
    rfl

theorem holds_anyOf : (Keyword.anyOf schemas).holds declared v = true ↔
    ∃ s ∈ schemas, Schema.accepts s v = true := by
  rw [Keyword.holds, decide_eq_true_eq, countHolds_eq_countP, List.countP_pos_iff]

theorem holds_oneOf : (Keyword.oneOf schemas).holds declared v = true ↔
    (schemas.countP fun s => Schema.accepts s v) = 1 := by
  rw [Keyword.holds, beq_iff_eq, countHolds_eq_countP]

/-- Of two schemas that exclude each other, one of them holds. -/
theorem holds_oneOf_pair {a b : Schema} (h : a.accepts v = true → b.accepts v = false) :
    (Keyword.oneOf [a, b]).holds declared v = true ↔ a.accepts v = true ∨ b.accepts v = true := by
  rw [holds_oneOf, List.countP_cons, List.countP_singleton]
  cases ha : a.accepts v with
  | false => cases b.accepts v <;> simp
  | true => simp [h ha]

theorem holds_ifThen {condition consequence : Schema} :
    (Keyword.ifThen condition consequence).holds declared v = true ↔
      (condition.accepts v = true → consequence.accepts v = true) := by
  simp only [Keyword.holds, Bool.or_eq_true, Bool.not_eq_true', Schema.accepts]
  cases allHold (declaredBy condition) condition v <;> simp

theorem accepts_type {t : JsonType} : Schema.accepts [.type t] v = true ↔ v.hasType t = true := by
  rw [accepts_iff, List.forall_mem_singleton, Keyword.holds]

theorem accepts_array : Schema.accepts [.items schema, .type .array] v = true ↔
    ∃ items, v = .array items ∧ ∀ w ∈ items, schema.accepts w = true := by
  rw [accepts_iff]
  simp only [List.forall_mem_cons, List.not_mem_nil, false_implies, implies_true, and_true]
  constructor
  · rintro ⟨hitems, htype⟩
    cases v with
    | array items => exact ⟨items, rfl, (holds_items items).mp hitems⟩
    | _ => cases htype
  · rintro ⟨items, rfl, h⟩
    exact ⟨(holds_items items).mpr h, rfl⟩

theorem isString_iff {values : List String} :
    v.isString values = true ↔ ∃ s ∈ values, v = .string (codePoints s) := by
  cases v with
  | string text => simp [Json.isString, eq_comm (a := text)]
  | _ => simp [Json.isString]

theorem accepts_names {values : List String} :
    Schema.accepts [.enum values] v = true ↔ ∃ s ∈ values, v = .string (codePoints s) := by
  rw [accepts_iff, List.forall_mem_singleton, Keyword.holds, isString_iff]

theorem accepts_const {value : String} :
    Schema.accepts [.const value] v = true ↔ v = .string (codePoints value) := by
  rw [accepts_iff, List.forall_mem_singleton, Keyword.holds, isString_iff]
  simp only [List.mem_singleton, exists_eq_left]

theorem accepts_enum {values : List String} :
    Schema.accepts [.enum values, .type .string] v = true ↔
      ∃ s ∈ values, v = .string (codePoints s) := by
  rw [accepts_iff, ← isString_iff]
  cases v <;> simp [Keyword.holds, Json.isString, Json.hasType]

end

example : Schema.accepts [.type .integer, .minimum 1] (.decimal false 100 (-1)) = true := by
  decide +kernel

end AskLens.JsonSchema
