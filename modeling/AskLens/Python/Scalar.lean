import AskLens.Python.Str

/-!
# JSON scalars as Python values

A scalar keeps the class of a `str` or `int` instance: Python compares by value,
but dictionary keys of the form `(type(value), value)` tell the classes apart.
-/
namespace AskLens.Python

inductive PyScalar where
  | str (cls : PyClass) (s : PyStr)
  | int (cls : PyClass) (i : ℤ)
  | float (x : Binary64)
  | bool (b : Bool)
deriving DecidableEq

namespace PyScalar

/-- The scalar as an instance of the built-in class, as JSON carries it. -/
def plain : PyScalar → PyScalar
  | .str _ s => .str none s
  | .int _ i => .int none i
  | v => v

def toObj : PyScalar → PyObj
  | .str cls s => s.toObj cls
  | .int cls i => .int cls i
  | .float x => .float x
  | .bool b => .bool b

/-- `type(value).__name__`. -/
def typeName : PyScalar → String
  | .str cls _ => cls.getD "str"
  | .int cls _ => cls.getD "int"
  | .float _ => "float"
  | .bool _ => "bool"

/-- The integer that a boolean or an integer stands for. -/
def asInt? : PyScalar → Option ℤ
  | .int _ i => some i
  | .bool b => some (if b then 1 else 0)
  | _ => none

/-- `a == b`: classes do not matter, and numbers of all kinds compare by value. -/
def pyEq : PyScalar → PyScalar → Bool
  | .str _ s, .str _ s' => s == s'
  | .float x, .float y => x.numEq y
  | .float x, w => (w.asInt?.map x.numEqInt).getD false
  | v, .float y => (v.asInt?.map y.numEqInt).getD false
  | v, w => v.asInt?.isSome && v.asInt? == w.asInt?

theorem sequence?_toObj (v : PyScalar) : sequence? v.toObj = none := by
  cases v with
  | str cls s => cases s <;> rfl
  | _ => rfl

@[simp] theorem plain_plain (v : PyScalar) : v.plain.plain = v.plain := by cases v <;> rfl

theorem pyEq_plain_left (v w : PyScalar) : v.plain.pyEq w = v.pyEq w := by
  cases v <;> cases w <;> rfl

theorem pyEq_refl {v : PyScalar} (h : ∀ x, v = .float x → x.isFinite = true) :
    v.pyEq v = true := by
  cases v with
  | str cls s => simp [pyEq]
  | int cls i => simp [pyEq, asInt?]
  | float x => exact Binary64.numEq_refl_of_isFinite (h x rfl)
  | bool b => simp [pyEq, asInt?]

end PyScalar

end AskLens.Python
