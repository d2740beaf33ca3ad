import AskLens.Python.Numbers
import Mathlib.Data.List.DropRight

/-!
# Decimal numbers

`decimal.Decimal` objects and their texts: `str(value)`, and `format(value, "f")`,
which never uses an exponent.
-/
namespace AskLens.Python

/-- `decimal.Decimal`; the special values are infinities and NaNs. -/
inductive Decimal where
  | finite (neg : Bool) (coefficient : ℕ) (exponent : ℤ)
  | special
deriving DecidableEq

namespace Decimal

def isFinite : Decimal → Bool
  | .finite .. => true
  | .special => false

/-- The integer that the number equals: `int(value)` when `value == value.to_integral()`. -/
def integral? : Decimal → Option ℤ
  | .finite neg coefficient exponent =>
    let sign : ℤ := if neg then -1 else 1
    if 0 ≤ exponent then some (sign * coefficient * 10 ^ exponent.toNat)
    else if coefficient % 10 ^ exponent.natAbs = 0 then
      some (sign * (coefficient / 10 ^ exponent.natAbs : ℕ))
    else none
  | .special => none

/-! ## Texts -/

def placePoint (digits : List Char) (place : ℤ) : List Char × List Char :=
  if place ≤ 0 then (['0'], List.replicate place.natAbs '0' ++ digits)
  else if (digits.length : ℤ) ≤ place then
    (digits ++ List.replicate (place.toNat - digits.length) '0', [])
  else (digits.take place.toNat, digits.drop place.toNat)

def signText (neg : Bool) : List Char := if neg then ['-'] else []

def fractionText (fraction : List Char) : List Char :=
  if fraction = [] then [] else '.' :: fraction

/-- `"%+d" % exponent`. -/
def exponentText (exponent : ℤ) : List Char :=
  'E' :: (if exponent < 0 then '-' else '+') :: Nat.toDigits 10 exponent.natAbs

/-- The digits of the number before the point, when it has no exponent. -/
def leftDigits (coefficient : ℕ) (exponent : ℤ) : ℤ :=
  exponent + (Nat.toDigits 10 coefficient).length

/-- Where `str(value)` puts the point: behind the first digit when it uses an exponent. -/
def pointPlace (coefficient : ℕ) (exponent : ℤ) : ℤ :=
  if exponent ≤ 0 ∧ -6 < leftDigits coefficient exponent then leftDigits coefficient exponent
  else 1

/-- `str(value)` of a finite number. -/
def text (neg : Bool) (coefficient : ℕ) (exponent : ℤ) : List Char :=
  let place := pointPlace coefficient exponent
  let parts := placePoint (Nat.toDigits 10 coefficient) place
  signText neg ++ (parts.1 ++ (fractionText parts.2 ++
    if leftDigits coefficient exponent = place then []
    else exponentText (leftDigits coefficient exponent - place)))

/-- The digits of `format(value, "f")` before and after the point. -/
def plainParts (coefficient : ℕ) (exponent : ℤ) : List Char × List Char :=
  if coefficient = 0 ∧ 0 < exponent then (['0'], [])
  else placePoint (Nat.toDigits 10 coefficient) (leftDigits coefficient exponent)

/-- `format(value, "f")` of a finite number. -/
def plainText (neg : Bool) (coefficient : ℕ) (exponent : ℤ) : List Char :=
  let parts := plainParts coefficient exponent
  signText neg ++ (parts.1 ++ fractionText parts.2)

/-! ## Numerals -/

def Digits (cs : List Char) : Prop := ∀ c ∈ cs, c.isDigit = true

/-- A number in base ten, with a fraction and an exponent where there is one. -/
def IsNumeral (cs : List Char) : Prop :=
  ∃ neg int fraction exponent, cs = signText neg ++ (int ++ (fractionText fraction ++ exponent)) ∧
    int ≠ [] ∧ Digits int ∧ Digits fraction ∧ (exponent = [] ∨ ∃ e, exponent = exponentText e)

/-- A number in base ten without an exponent, whose fraction ends in no zero. -/
def IsMinimalNumeral (cs : List Char) : Prop :=
  ∃ neg int fraction, cs = signText neg ++ (int ++ fractionText fraction) ∧ int ≠ [] ∧
    Digits int ∧ Digits fraction ∧ fraction.getLast? ≠ some '0'

theorem IsMinimalNumeral.isNumeral {cs : List Char} (h : IsMinimalNumeral cs) : IsNumeral cs := by
  obtain ⟨neg, int, fraction, rfl, hne, hint, hfraction, -⟩ := h
  exact ⟨neg, int, fraction, [], by simp, hne, hint, hfraction, .inl rfl⟩

theorem Digits.append {cs ds : List Char} (hc : Digits cs) (hd : Digits ds) :
    Digits (cs ++ ds) := by
  intro c hmem
  rcases List.mem_append.mp hmem with hmem | hmem
  · exact hc c hmem
  · exact hd c hmem

theorem digits_zeros (n : ℕ) : Digits (List.replicate n '0') := by
  intro c hmem
  rw [List.eq_of_mem_replicate hmem]
  decide

theorem digits_toDigits (n : ℕ) : Digits (Nat.toDigits 10 n) := by
  intro c hmem
  exact Nat.isDigit_of_mem_toDigits (by decide) (by decide) hmem

theorem placePoint_digits {digits : List Char} (h : Digits digits) (place : ℤ) :
    Digits (placePoint digits place).1 ∧ Digits (placePoint digits place).2 := by
  unfold placePoint
  split_ifs
  · refine ⟨digits_zeros 1, (digits_zeros _).append h⟩
  · refine ⟨h.append (digits_zeros _), ?_⟩
    intro c hmem
    cases hmem
  · constructor
    · intro c hmem
      exact h c (List.mem_of_mem_take hmem)
    · intro c hmem
      exact h c (List.mem_of_mem_drop hmem)

theorem placePoint_int_ne_nil {digits : List Char} (h : digits ≠ []) (place : ℤ) :
    (placePoint digits place).1 ≠ [] := by
  unfold placePoint
  split_ifs with hzero hlong
  · exact List.cons_ne_nil _ _
  · exact List.append_ne_nil_of_left_ne_nil h _
  · intro hnil
    rcases List.take_eq_nil_iff.mp hnil with hplace | hdigits
    · omega
    · exact h hdigits

theorem text_isNumeral (neg : Bool) (coefficient : ℕ) (exponent : ℤ) :
    IsNumeral (text neg coefficient exponent) := by
  unfold text
  generalize pointPlace coefficient exponent = place
  obtain ⟨hint, hfraction⟩ := placePoint_digits (digits_toDigits coefficient) place
  have hne : (placePoint (Nat.toDigits 10 coefficient) place).1 ≠ [] :=
    placePoint_int_ne_nil Nat.toDigits_ne_nil place
  refine ⟨neg, _, _, _, rfl, hne, hint, hfraction, ?_⟩
  split_ifs
  · exact .inl rfl
  · exact .inr ⟨_, rfl⟩

theorem plainParts_digits (coefficient : ℕ) (exponent : ℤ) :
    (plainParts coefficient exponent).1 ≠ [] ∧ Digits (plainParts coefficient exponent).1 ∧
      Digits (plainParts coefficient exponent).2 := by
  unfold plainParts
  split_ifs
  · refine ⟨List.cons_ne_nil _ _, digits_zeros 1, ?_⟩
    intro c hmem
    cases hmem
  · obtain ⟨hint, hfraction⟩ := placePoint_digits (digits_toDigits coefficient)
      (leftDigits coefficient exponent)
    exact ⟨placePoint_int_ne_nil Nat.toDigits_ne_nil _, hint, hfraction⟩

/-- `text.rstrip(c)`. -/
def stripRight (c : Char) (cs : List Char) : List Char := cs.rdropWhile (· == c)

/-- `_serialize_aggregate_decimal` of a finite number. -/
def serializeAggregate (neg : Bool) (coefficient : ℕ) (exponent : ℤ) : List Char :=
  if coefficient = 0 then ['0']
  else
    let plain := plainText neg coefficient exponent
    if '.' ∈ plain then stripRight '.' (stripRight '0' plain) else plain

theorem not_mem_of_digits {cs : List Char} (h : Digits cs) : '.' ∉ cs := by
  intro hmem
  exact absurd (h '.' hmem) (by decide)

theorem stripRight_concat_self (c : Char) (cs : List Char) :
    stripRight c (cs ++ [c]) = stripRight c cs :=
  List.rdropWhile_concat_pos _ _ _ (by simp)

theorem stripRight_concat_of_ne {c d : Char} (h : d ≠ c) (cs : List Char) :
    stripRight c (cs ++ [d]) = cs ++ [d] :=
  List.rdropWhile_concat_neg _ _ _ (by simpa using h)

theorem stripRight_append_cons {c d : Char} (hne : c ≠ d) (front fraction : List Char) :
    stripRight d (front ++ c :: fraction) = front ++ c :: stripRight d fraction := by
  induction fraction using List.reverseRecOn with
  | nil => exact stripRight_concat_of_ne hne front
  | append_singleton fraction e ih =>
    have hsplit : front ++ c :: (fraction ++ [e]) = (front ++ c :: fraction) ++ [e] := by simp
    rw [hsplit]
    by_cases hed : e = d
    · rw [hed, stripRight_concat_self, stripRight_concat_self, ih]
    · rw [stripRight_concat_of_ne hed, stripRight_concat_of_ne hed, hsplit]

theorem getLast?_stripRight (c : Char) (cs : List Char) : (stripRight c cs).getLast? ≠ some c := by
  intro hlast
  obtain ⟨front, hfront⟩ := List.getLast?_eq_some_iff.mp hlast
  have hne : cs.rdropWhile (· == c) ≠ [] := by
    intro hnil
    rw [stripRight, hnil] at hfront
    simp at hfront
  have hdrop := List.rdropWhile_last_not (· == c) cs hne
  have hget : (cs.rdropWhile (· == c)).getLast hne = c := by
    rw [← stripRight] at hne
    show (stripRight c cs).getLast hne = c
    simp only [hfront, List.getLast_append_singleton]
  exact hdrop (by simp [hget])

theorem stripRight_of_digit {front cs : List Char} (hne : cs ≠ []) (h : Digits cs) :
    stripRight '.' (front ++ cs) = front ++ cs := by
  obtain ⟨init, last, rfl⟩ := (List.eq_nil_or_concat cs).resolve_left hne
  rw [List.concat_eq_append] at h ⊢
  have hlast : last ≠ '.' := by
    rintro rfl
    exact absurd (h '.' (by simp)) (by decide)
  rw [← List.append_assoc]
  exact stripRight_concat_of_ne hlast _

theorem serializeAggregate_isMinimal (neg : Bool) (coefficient : ℕ) (exponent : ℤ) :
    IsMinimalNumeral (serializeAggregate neg coefficient exponent) := by
  unfold serializeAggregate
  dsimp only
  split_ifs with hzero hpoint
  · exact ⟨false, ['0'], [], rfl, List.cons_ne_nil _ _, digits_zeros 1, digits_zeros 0, by simp⟩
  · obtain ⟨hne, hint, hfraction⟩ := plainParts_digits coefficient exponent
    unfold plainText at hpoint ⊢
    generalize plainParts coefficient exponent = parts at hne hint hfraction hpoint ⊢
    obtain ⟨int, fraction⟩ := parts
    dsimp only at hne hint hfraction hpoint ⊢
    have hsign : '.' ∉ signText neg := by cases neg <;> decide
    have hsome : fraction ≠ [] := by
      rintro rfl
      simp [fractionText, hsign, not_mem_of_digits hint] at hpoint
    have hrest : Digits (stripRight '0' fraction) := fun c hc =>
      hfraction c ((List.rdropWhile_prefix _ _).subset hc)
    have hzeros : stripRight '0' (signText neg ++ (int ++ fractionText fraction)) =
        (signText neg ++ int) ++ '.' :: stripRight '0' fraction := by
      rw [fractionText, if_neg hsome, ← List.append_assoc]
      exact stripRight_append_cons (by decide) _ _
    rw [hzeros]
    by_cases hnil : stripRight '0' fraction = []
    · rw [hnil, stripRight_concat_self, stripRight_of_digit hne hint]
      exact ⟨neg, int, [], by simp [fractionText], hne, hint, digits_zeros 0, by simp⟩
    · have hkeep : stripRight '.' ((signText neg ++ int) ++ '.' :: stripRight '0' fraction) =
          (signText neg ++ int) ++ '.' :: stripRight '0' fraction := by
        rw [← List.singleton_append, ← List.append_assoc]
        exact stripRight_of_digit hnil hrest
      rw [hkeep]
      refine ⟨neg, int, stripRight '0' fraction, ?_, hne, hint, hrest, getLast?_stripRight _ _⟩
      rw [fractionText, if_neg hnil, List.append_assoc]
  · obtain ⟨hne, hint, hfraction⟩ := plainParts_digits coefficient exponent
    unfold plainText at hpoint ⊢
    generalize plainParts coefficient exponent = parts at hne hint hfraction hpoint ⊢
    obtain ⟨int, fraction⟩ := parts
    dsimp only at hne hint hfraction hpoint ⊢
    have hnil : fraction = [] := by
      by_contra hsome
      simp [fractionText, hsome] at hpoint
    exact ⟨neg, int, [], by rw [hnil], hne, hint, digits_zeros 0, by simp⟩

end Decimal

end AskLens.Python
