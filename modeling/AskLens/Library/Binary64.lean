import Mathlib.Algebra.Group.Nat.Defs
import Mathlib.Data.Nat.Log
import Mathlib.Data.Rat.Defs

/-!
# IEEE 754 double precision

A finite double is a sign, an integral significand and a binary exponent in
canonical form. Rounding is to nearest with ties to even; the decimal text is
the shortest one that reads back as the same double.
-/

/-- The significand and exponent pairs of finite doubles. -/
def Binary64.Canonical (mant : ℕ) (exp : ℤ) : Prop :=
  mant < 2 ^ 53 ∧ -1074 ≤ exp ∧ exp ≤ 971 ∧ (2 ^ 52 ≤ mant ∨ exp = -1074)

instance (mant : ℕ) (exp : ℤ) : Decidable (Binary64.Canonical mant exp) := by
  unfold Binary64.Canonical
  infer_instance

inductive Binary64 where
  | finite (neg : Bool) (mant : ℕ) (exp : ℤ) (canonical : Binary64.Canonical mant exp)
  | inf (neg : Bool)
  | nan
deriving DecidableEq

namespace Binary64

/-- A significand that does not fit is beyond the largest double. -/
def ofParts (neg : Bool) (mant : ℕ) (exp : ℤ) : Binary64 :=
  if h : Canonical mant exp then .finite neg mant exp h else .inf neg

def zero (neg : Bool) : Binary64 := ofParts neg 0 (-1074)

def isFinite : Binary64 → Bool
  | .finite .. => true
  | _ => false

/-- `num / den` scaled by `2 ^ (-exp)`, as a numerator and a denominator. -/
def scale (num den : ℕ) (exp : ℤ) : ℕ × ℕ :=
  if exp < 0 then (num * 2 ^ exp.natAbs, den) else (num, den * 2 ^ exp.natAbs)

/-- The integer nearest to `num / den`, a tie going to the even one. -/
def divNearestEven (num den : ℕ) : ℕ :=
  let q := num / den
  let r := num % den
  if 2 * r < den then q else if den < 2 * r then q + 1 else if q % 2 = 0 then q else q + 1

/-- The double nearest to `num / den`. -/
def ofRatio (neg : Bool) (num den : ℕ) : Binary64 :=
  if num = 0 then zero neg
  else
    let guess : ℤ := (Nat.log2 num : ℤ) - Nat.log2 den - 52
    let s := scale num den guess
    let exp := max (if s.1 / s.2 < 2 ^ 52 then guess - 1 else guess) (-1074)
    let t := scale num den exp
    let mant := divNearestEven t.1 t.2
    if mant = 2 ^ 53 then ofParts neg (2 ^ 52) (exp + 1) else ofParts neg mant exp

/-- The double nearest to `digits * 10 ^ exp`. The bounds only avoid huge powers. -/
def ofDecimal (neg : Bool) (digits : ℕ) (exp : ℤ) : Binary64 :=
  let top := exp + Nat.log 10 digits
  if digits = 0 then zero neg
  else if 309 < top then .inf neg
  else if top < -330 then zero neg
  else if exp < 0 then ofRatio neg digits (10 ^ exp.natAbs)
  else ofRatio neg (digits * 10 ^ exp.natAbs) 1

/-- The double nearest to an integer; infinite beyond the range. -/
def ofInt (i : ℤ) : Binary64 := ofRatio (i < 0) i.natAbs 1

/-- The magnitude of a finite double as a numerator and a denominator. -/
def ratio (mant : ℕ) (exp : ℤ) : ℕ × ℕ := scale mant 1 (-exp)

/-- Numerical equality: signed zeros are equal and a NaN equals nothing. -/
def numEq : Binary64 → Binary64 → Bool
  | .finite n m e _, .finite n' m' e' _ => (m == 0 && m' == 0) || (n == n' && m == m' && e == e')
  | .inf n, .inf n' => n == n'
  | _, _ => false

def numEqInt : Binary64 → ℤ → Bool
  | .finite n m e _, i =>
    let r := ratio m e
    i.natAbs * r.2 == r.1 && (m == 0 || n == decide (i < 0))
  | _, _ => false

theorem numEq_refl_of_isFinite {x : Binary64} (h : x.isFinite = true) : x.numEq x = true := by
  cases x <;> simp_all [isFinite, numEq]

theorem ratio_fst_le {m k : ℕ} {e : ℤ} (h : e ≤ k) : (ratio m e).1 ≤ m * 2 ^ k := by
  unfold ratio scale
  split_ifs
  · exact Nat.mul_le_mul_left m (Nat.pow_le_pow_right Nat.two_pos (by omega))
  · exact Nat.le_mul_of_pos_right m (Nat.two_pow_pos k)

theorem ratio_snd_pos (m : ℕ) (e : ℤ) : 0 < (ratio m e).2 := by
  unfold ratio scale
  split_ifs
  · exact Nat.one_pos
  · exact Nat.mul_pos Nat.one_pos (Nat.two_pow_pos _)

/-- An integer that equals a double lies within the range of doubles. -/
theorem natAbs_lt_of_numEqInt {x : Binary64} {i : ℤ} (h : x.numEqInt i = true) :
    i.natAbs < 2 ^ 1024 := by
  cases x with
  | finite n m e hcanonical =>
    simp only [numEqInt, Bool.and_eq_true, beq_iff_eq] at h
    obtain ⟨heq, -⟩ := h
    obtain ⟨hmant, -, hexp, -⟩ := hcanonical
    calc i.natAbs ≤ i.natAbs * (ratio m e).2 := Nat.le_mul_of_pos_right _ (ratio_snd_pos m e)
      _ = (ratio m e).1 := heq
      _ ≤ m * 2 ^ 971 := ratio_fst_le (k := 971) hexp
      _ < 2 ^ 53 * 2 ^ 971 := Nat.mul_lt_mul_of_pos_right hmant (Nat.two_pow_pos 971)
      _ = 2 ^ 1024 := by rw [← Nat.pow_add]
  | inf n => cases h
  | nan => cases h

/-- The decimals `digits * 10 ^ exp` next to `num / den`, the nearer one first. -/
def neighbours (num den : ℕ) (exp : ℤ) : List ℕ :=
  let s := if exp < 0 then (num * 10 ^ exp.natAbs, den) else (num, den * 10 ^ exp.natAbs)
  let low := s.1 / s.2
  let r := s.1 % s.2
  if 2 * r < s.2 ∨ (2 * r = s.2 ∧ low % 2 = 0) then [low, low + 1] else [low + 1, low]

/-- The exponent of the leading decimal digit of `num / den`. -/
def leadingExponent (num den : ℕ) : ℤ :=
  if den ≤ num then Nat.log 10 (num / den) else -(Nat.clog 10 ((den + num - 1) / num) : ℤ)

/-- The first decimal of `count, count + 1, ..` digits that reads back as `x`. -/
def shortestFrom (x : Binary64) (neg : Bool) (num den : ℕ) : ℕ → ℕ → Option (ℕ × ℤ)
  | _, 0 => none
  | count, fuel + 1 =>
    let exp := leadingExponent num den - count + 1
    match (neighbours num den exp).find? (fun d => ofDecimal neg d exp = x) with
    | some d => some (d, exp)
    | none => shortestFrom x neg num den (count + 1) fuel

/-- Drop the trailing zeros of a digit string. -/
def trimZeros (digits : ℕ) (exp : ℤ) : ℕ → ℕ × ℤ
  | 0 => (digits, exp)
  | fuel + 1 =>
    if digits ≠ 0 ∧ digits % 10 = 0 then trimZeros (digits / 10) (exp + 1) fuel else (digits, exp)

/-- The shortest decimal that reads back as the double of this magnitude. Seventeen
digits always suffice; the exact expansion stands for a search that found none. -/
def shortest (x : Binary64) (neg : Bool) (mant : ℕ) (exp : ℤ) : ℕ × ℤ :=
  let r := ratio mant exp
  match shortestFrom x neg r.1 r.2 1 17 with
  | some d => trimZeros d.1 d.2 20
  | none => if exp < 0 then (mant * 5 ^ exp.natAbs, exp) else (mant * 2 ^ exp.natAbs, 0)

def zeros (n : ℕ) : List Char := List.replicate n '0'

/-- The layout of `repr(float)`: exponents only below `1e-4` and from `1e16` on. -/
def layout (digits : ℕ) (exp : ℤ) : List Char :=
  let ds := Nat.toDigits 10 digits
  let point : ℤ := ds.length + exp
  if -4 < point ∧ point ≤ 16 then
    if point ≤ 0 then '0' :: '.' :: zeros point.natAbs ++ ds
    else if ds.length ≤ point.natAbs then
      ds ++ zeros (point.natAbs - ds.length) ++ ['.', '0']
    else ds.take point.natAbs ++ '.' :: ds.drop point.natAbs
  else
    let e := point - 1
    let fraction := if ds.length = 1 then [] else '.' :: ds.drop 1
    let width := Nat.toDigits 10 e.natAbs
    let padded := if width.length = 1 then '0' :: width else width
    ds.take 1 ++ fraction ++ 'e' :: (if e < 0 then '-' else '+') :: padded

/-- `float.__repr__`, with the names that JSON uses for the special values. -/
def text : Binary64 → List Char
  | .nan => "NaN".toList
  | .inf false => "Infinity".toList
  | .inf true => "-Infinity".toList
  | .finite neg mant exp h =>
    let sign := if neg then ['-'] else []
    if mant = 0 then sign ++ "0.0".toList
    else
      let d := shortest (.finite neg mant exp h) neg mant exp
      sign ++ layout d.1 d.2

end Binary64
