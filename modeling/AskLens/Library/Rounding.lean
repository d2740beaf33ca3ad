import AskLens.Library.Binary64
import Mathlib.Algebra.Order.Field.Power
import Mathlib.Data.Int.Log
import Mathlib.Data.Rat.Floor
import Mathlib.Tactic.Linarith
import Mathlib.Tactic.Positivity
import Mathlib.Tactic.FieldSimp
import Mathlib.Tactic.Ring

/-!
# Rounding to double precision

Rounding a quotient depends on its value only, and a quotient that is a double
rounds to it. So the decimal text of a double reads back as that double, with or
without trailing zeros.
-/
namespace Binary64

/-! ## Scaling -/

theorem scale_snd_pos {den : ℕ} (h : 0 < den) (num : ℕ) (exp : ℤ) : 0 < (scale num den exp).2 := by
  unfold scale
  split_ifs
  · exact h
  · exact Nat.mul_pos h (Nat.two_pow_pos _)

theorem scale_div (num : ℕ) {den : ℕ} (h : 0 < den) (exp : ℤ) :
    ((scale num den exp).1 : ℚ) / (scale num den exp).2 = (num : ℚ) / den * 2 ^ (-exp) := by
  have hden : (den : ℚ) ≠ 0 := by positivity
  unfold scale
  split_ifs with hexp
  · have hpow : (2 : ℚ) ^ exp.natAbs = 2 ^ (-exp) := by
      rw [← zpow_natCast]
      congr 1
      omega
    push_cast
    rw [hpow]
    ring
  · have hpow : (2 : ℚ) ^ exp.natAbs = 2 ^ exp := by
      rw [← zpow_natCast]
      congr 1
      omega
    push_cast
    rw [hpow, zpow_neg]
    field_simp

/-! ## The exponent -/

/-- The binary logarithms of two numbers leave two candidates for that of their quotient. -/
theorem log_quotient {num den : ℕ} (hnum : num ≠ 0) (hden : den ≠ 0) :
    (Nat.log2 num : ℤ) - Nat.log2 den - 1 ≤ Int.log 2 ((num : ℚ) / den) ∧
      Int.log 2 ((num : ℚ) / den) ≤ (Nat.log2 num : ℤ) - Nat.log2 den := by
  have hpos : (0 : ℚ) < (num : ℚ) / den := by positivity
  have hdenpos : (0 : ℚ) < den := by positivity
  have hlow : ((2 : ℕ) : ℚ) ^ (Nat.log2 num : ℤ) ≤ num := by
    rw [zpow_natCast]
    exact_mod_cast Nat.log2_self_le hnum
  have hhigh : (num : ℚ) < ((2 : ℕ) : ℚ) ^ ((Nat.log2 num : ℤ) + 1) := by
    exact_mod_cast Nat.lt_log2_self (n := num)
  have hlow' : ((2 : ℕ) : ℚ) ^ (Nat.log2 den : ℤ) ≤ den := by
    rw [zpow_natCast]
    exact_mod_cast Nat.log2_self_le hden
  have hhigh' : (den : ℚ) < ((2 : ℕ) : ℚ) ^ ((Nat.log2 den : ℤ) + 1) := by
    exact_mod_cast Nat.lt_log2_self (n := den)
  have htwo : ((2 : ℕ) : ℚ) ≠ 0 := by norm_num
  constructor
  · rw [← Int.zpow_le_iff_le_log Nat.one_lt_two hpos, le_div_iff₀ hdenpos]
    calc ((2 : ℕ) : ℚ) ^ ((Nat.log2 num : ℤ) - Nat.log2 den - 1) * den
        ≤ ((2 : ℕ) : ℚ) ^ ((Nat.log2 num : ℤ) - Nat.log2 den - 1) *
            ((2 : ℕ) : ℚ) ^ ((Nat.log2 den : ℤ) + 1) := by gcongr
      _ = ((2 : ℕ) : ℚ) ^ (Nat.log2 num : ℤ) := by
          rw [← zpow_add₀ htwo]
          congr 1
          ring
      _ ≤ num := hlow
  · apply Int.lt_add_one_iff.mp
    rw [← Int.lt_zpow_iff_log_lt Nat.one_lt_two hpos, div_lt_iff₀ hdenpos]
    calc (num : ℚ) < ((2 : ℕ) : ℚ) ^ ((Nat.log2 num : ℤ) + 1) := hhigh
      _ = ((2 : ℕ) : ℚ) ^ ((Nat.log2 num : ℤ) - Nat.log2 den + 1) *
            ((2 : ℕ) : ℚ) ^ (Nat.log2 den : ℤ) := by
          rw [← zpow_add₀ htwo]
          congr 1
          ring
      _ ≤ ((2 : ℕ) : ℚ) ^ ((Nat.log2 num : ℤ) - Nat.log2 den + 1) * den := by gcongr

def exponent (num den : ℕ) : ℤ :=
  let guess : ℤ := (Nat.log2 num : ℤ) - Nat.log2 den - 52
  let s := scale num den guess
  if s.1 / s.2 < 2 ^ 52 then guess - 1 else guess

theorem exponent_eq {num den : ℕ} (hnum : num ≠ 0) (hden : den ≠ 0) :
    exponent num den = Int.log 2 ((num : ℚ) / den) - 52 := by
  have hpos : (0 : ℚ) < (num : ℚ) / den := by positivity
  obtain ⟨hlow, hhigh⟩ := log_quotient hnum hden
  set guess : ℤ := (Nat.log2 num : ℤ) - Nat.log2 den - 52 with hguess
  have hden' := Nat.pos_of_ne_zero hden
  have hscaled := scale_snd_pos hden' num guess
  have htest : (scale num den guess).1 / (scale num den guess).2 < 2 ^ 52 ↔
      Int.log 2 ((num : ℚ) / den) < guess + 52 := by
    have hscaledQ : (0 : ℚ) < (scale num den guess).2 := by exact_mod_cast hscaled
    have hquotient := scale_div num hden' guess
    rw [Nat.div_lt_iff_lt_mul hscaled, ← Int.lt_zpow_iff_log_lt Nat.one_lt_two hpos]
    have hcast : (scale num den guess).1 < 2 ^ 52 * (scale num den guess).2 ↔
        ((scale num den guess).1 : ℚ) / (scale num den guess).2 < 2 ^ 52 := by
      rw [div_lt_iff₀ hscaledQ]
      exact_mod_cast Iff.rfl
    rw [hcast, hquotient, zpow_neg, ← div_eq_mul_inv, div_lt_iff₀ (by positivity)]
    have hpow : ((2 : ℕ) : ℚ) ^ (guess + 52) = 2 ^ 52 * 2 ^ guess := by
      push_cast
      rw [zpow_add₀ (by norm_num), mul_comm]
      norm_cast
    rw [hpow]
  unfold exponent
  simp only [← hguess, htest]
  split_ifs <;> omega

/-! ## The significand -/

theorem divNearestEven_mul {k : ℕ} (hk : 0 < k) (num den : ℕ) :
    divNearestEven (k * num) (k * den) = divNearestEven num den := by
  have hlt : ∀ a b : ℕ, k * a < k * b ↔ a < b := fun a b => Nat.mul_lt_mul_left hk
  unfold divNearestEven
  simp only [Nat.mul_div_mul_left _ _ hk, Nat.mul_mod_mul_left, Nat.mul_left_comm 2 k, hlt]

theorem divNearestEven_congr {a b c d : ℕ} (hb : 0 < b) (hd : 0 < d)
    (h : (a : ℚ) / b = (c : ℚ) / d) : divNearestEven a b = divNearestEven c d := by
  have hcross : a * d = c * b := by
    have hb' : (b : ℚ) ≠ 0 := by positivity
    have hd' : (d : ℚ) ≠ 0 := by positivity
    exact_mod_cast (div_eq_div_iff hb' hd').mp h
  calc divNearestEven a b = divNearestEven (d * a) (d * b) := (divNearestEven_mul hd a b).symm
    _ = divNearestEven (b * c) (b * d) := by rw [Nat.mul_comm d a, hcross, Nat.mul_comm c, Nat.mul_comm d]
    _ = divNearestEven c d := divNearestEven_mul hb c d

theorem divNearestEven_exact (k : ℕ) {den : ℕ} (h : 0 < den) : divNearestEven (k * den) den = k := by
  unfold divNearestEven
  simp [Nat.mul_div_cancel _ h, h]

/-- The double with this significand, before the carry into the exponent. -/
def carry (neg : Bool) (mant : ℕ) (exp : ℤ) : Binary64 :=
  if mant = 2 ^ 53 then ofParts neg (2 ^ 52) (exp + 1) else ofParts neg mant exp

theorem ofRatio_eq (neg : Bool) {num : ℕ} (h : num ≠ 0) (den : ℕ) :
    ofRatio neg num den = carry neg
      (divNearestEven (scale num den (max (exponent num den) (-1074))).1
        (scale num den (max (exponent num den) (-1074))).2) (max (exponent num den) (-1074)) := by
  unfold ofRatio
  rw [if_neg h]
  rfl

theorem ofRatio_congr (neg : Bool) {a b c d : ℕ} (hb : b ≠ 0) (hd : d ≠ 0)
    (h : (a : ℚ) / b = (c : ℚ) / d) : ofRatio neg a b = ofRatio neg c d := by
  have hzero : a = 0 ↔ c = 0 := by
    have hb' : (b : ℚ) ≠ 0 := by exact_mod_cast hb
    have hd' : (d : ℚ) ≠ 0 := by exact_mod_cast hd
    have hquotient : (a : ℚ) / b = 0 ↔ (c : ℚ) / d = 0 := by rw [h]
    simpa [div_eq_zero_iff, hb', hd', hb, hd] using hquotient
  by_cases ha : a = 0
  · rw [ha, hzero.mp ha]
    rfl
  · have hc : c ≠ 0 := fun hc => ha (hzero.mpr hc)
    have hexponent : exponent a b = exponent c d := by
      rw [exponent_eq ha hb, exponent_eq hc hd, h]
    have hb' := Nat.pos_of_ne_zero hb
    have hd' := Nat.pos_of_ne_zero hd
    rw [ofRatio_eq neg ha, ofRatio_eq neg hc, hexponent]
    congr 1
    apply divNearestEven_congr (scale_snd_pos hb' _ _) (scale_snd_pos hd' _ _)
    rw [scale_div _ hb', scale_div _ hd', h]

theorem log_mul_zpow {b mant : ℕ} (hb : 1 < b) (h : mant ≠ 0) (exp : ℤ) :
    Int.log b ((mant : ℚ) * (b : ℚ) ^ exp) = Nat.log b mant + exp := by
  have hbpos : (0 : ℚ) < b := by positivity
  have hpos : (0 : ℚ) < (mant : ℚ) * (b : ℚ) ^ exp := by positivity
  have hlow : (b : ℚ) ^ (Nat.log b mant : ℤ) ≤ mant := by
    rw [zpow_natCast]
    exact_mod_cast Nat.pow_log_le_self b h
  have hhigh : (mant : ℚ) < (b : ℚ) ^ ((Nat.log b mant : ℤ) + 1) := by
    exact_mod_cast Nat.lt_pow_succ_log_self hb mant
  apply le_antisymm
  · apply Int.lt_add_one_iff.mp
    rw [← Int.lt_zpow_iff_log_lt hb hpos]
    calc (mant : ℚ) * (b : ℚ) ^ exp < (b : ℚ) ^ ((Nat.log b mant : ℤ) + 1) * (b : ℚ) ^ exp := by
          gcongr
      _ = (b : ℚ) ^ ((Nat.log b mant : ℤ) + exp + 1) := by
          rw [← zpow_add₀ hbpos.ne']
          congr 1
          ring
  · rw [← Int.zpow_le_iff_le_log hb hpos]
    calc (b : ℚ) ^ ((Nat.log b mant : ℤ) + exp) =
          (b : ℚ) ^ (Nat.log b mant : ℤ) * (b : ℚ) ^ exp := zpow_add₀ hbpos.ne' _ _
      _ ≤ mant * (b : ℚ) ^ exp := by gcongr

theorem ofRatio_exact (neg : Bool) {mant : ℕ} {exp : ℤ} (h : Canonical mant exp) (hmant : mant ≠ 0)
    {num den : ℕ} (hden : den ≠ 0) (hquotient : (num : ℚ) / den = mant * 2 ^ exp) :
    ofRatio neg num den = .finite neg mant exp h := by
  have hnum : num ≠ 0 := by
    rintro rfl
    have hpos : (0 : ℚ) < mant * 2 ^ exp := by positivity
    rw [← hquotient] at hpos
    simp at hpos
  obtain ⟨hlt, hmin, hmax, hnormal⟩ := h
  have hlog : Nat.log2 mant < 53 := (Nat.log2_lt hmant).mpr hlt
  have hnormal' : 52 ≤ Nat.log2 mant ∨ exp = -1074 := by
    refine hnormal.imp_left fun hge => ?_
    by_contra hno
    have := (Nat.log2_lt hmant).mp (not_le.mp hno)
    omega
  have hexponent : max (exponent num den) (-1074) = exp := by
    have hbinary := log_mul_zpow Nat.one_lt_two hmant exp
    push_cast at hbinary
    rw [exponent_eq hnum hden, hquotient, hbinary, ← Nat.log2_eq_log_two]
    omega
  have hden' := Nat.pos_of_ne_zero hden
  have hscaled := scale_snd_pos hden' num exp
  have hexact : (scale num den exp).1 = mant * (scale num den exp).2 := by
    have hquotient' := scale_div num hden' exp
    have htwo : (2 : ℚ) ^ exp * 2 ^ (-exp) = 1 := by
      rw [← zpow_add₀ (by norm_num)]
      simp
    have hscaled' : ((scale num den exp).2 : ℚ) ≠ 0 := by positivity
    rw [hquotient, mul_assoc, htwo, mul_one, div_eq_iff hscaled'] at hquotient'
    exact_mod_cast hquotient'
  rw [ofRatio_eq neg hnum, hexponent, hexact, divNearestEven_exact mant hscaled, carry,
    if_neg hlt.ne, ofParts, dif_pos ⟨hlt, hmin, hmax, hnormal⟩]

/-! ## Decimals -/

/-- `digits * 10 ^ exp` as a numerator and a denominator. -/
def decimalRatio (digits : ℕ) (exp : ℤ) : ℕ × ℕ :=
  if exp < 0 then (digits, 10 ^ exp.natAbs) else (digits * 10 ^ exp.natAbs, 1)

theorem decimalRatio_snd_ne (digits : ℕ) (exp : ℤ) : (decimalRatio digits exp).2 ≠ 0 := by
  unfold decimalRatio
  split_ifs
  · exact (Nat.pow_pos (by decide)).ne'
  · exact Nat.one_ne_zero

theorem decimalRatio_div (digits : ℕ) (exp : ℤ) :
    ((decimalRatio digits exp).1 : ℚ) / (decimalRatio digits exp).2 = (digits : ℚ) * 10 ^ exp := by
  unfold decimalRatio
  split_ifs with hexp
  · have hpow : (10 : ℚ) ^ exp.natAbs = 10 ^ (-exp) := by
      rw [← zpow_natCast]
      congr 1
      omega
    push_cast
    rw [hpow, zpow_neg, div_inv_eq_mul]
  · have hpow : (10 : ℚ) ^ exp.natAbs = 10 ^ exp := by
      rw [← zpow_natCast]
      congr 1
      omega
    push_cast
    rw [hpow, div_one]

theorem ofDecimal_eq (neg : Bool) {digits : ℕ} (h : digits ≠ 0) (exp : ℤ) :
    ofDecimal neg digits exp =
      if 309 < exp + Nat.log 10 digits then .inf neg
      else if exp + Nat.log 10 digits < -330 then zero neg
      else ofRatio neg (decimalRatio digits exp).1 (decimalRatio digits exp).2 := by
  unfold ofDecimal decimalRatio
  rw [if_neg h]
  congr 2
  split_ifs <;> rfl

theorem ofDecimal_mul_ten (neg : Bool) (digits : ℕ) (exp : ℤ) :
    ofDecimal neg (digits * 10) exp = ofDecimal neg digits (exp + 1) := by
  by_cases h : digits = 0
  · subst h
    rfl
  have hten : digits * 10 ≠ 0 := Nat.mul_ne_zero h (by decide)
  have htop : exp + (Nat.log 10 (digits * 10) : ℤ) = exp + 1 + Nat.log 10 digits := by
    rw [Nat.log_mul_base (by decide) h]
    push_cast
    ring
  have hratio : ofRatio neg (decimalRatio (digits * 10) exp).1 (decimalRatio (digits * 10) exp).2 =
      ofRatio neg (decimalRatio digits (exp + 1)).1 (decimalRatio digits (exp + 1)).2 := by
    apply ofRatio_congr neg (decimalRatio_snd_ne _ _) (decimalRatio_snd_ne _ _)
    rw [decimalRatio_div, decimalRatio_div, zpow_add_one₀ (by norm_num)]
    push_cast
    ring
  rw [ofDecimal_eq neg hten, ofDecimal_eq neg h, htop, hratio]

theorem ofDecimal_mul_pow (neg : Bool) (digits k : ℕ) (exp : ℤ) :
    ofDecimal neg (digits * 10 ^ k) exp = ofDecimal neg digits (exp + k) := by
  induction k generalizing exp with
  | zero => simp
  | succ k ih =>
    rw [Nat.pow_succ, ← Nat.mul_assoc, ofDecimal_mul_ten, ih]
    congr 1
    push_cast
    ring

theorem trimZeros_reads (neg : Bool) (digits : ℕ) (exp : ℤ) (fuel : ℕ) :
    ofDecimal neg (trimZeros digits exp fuel).1 (trimZeros digits exp fuel).2 =
      ofDecimal neg digits exp := by
  induction fuel generalizing digits exp with
  | zero => rfl
  | succ fuel ih =>
    unfold trimZeros
    split_ifs with hzero
    · rw [ih, ← ofDecimal_mul_ten]
      congr 1
      omega
    · rfl

theorem shortestFrom_reads {x : Binary64} {neg : Bool} {num den count fuel : ℕ} {d : ℕ × ℤ}
    (h : shortestFrom x neg num den count fuel = some d) : ofDecimal neg d.1 d.2 = x := by
  induction fuel generalizing count with
  | zero => cases h
  | succ fuel ih =>
    unfold shortestFrom at h
    dsimp only at h
    split at h
    · rename_i found hfound
      cases h
      simpa using List.find?_some hfound
    · exact ih h

theorem two_pow_lt : (2 : ℚ) ^ (1024 : ℤ) < 10 ^ (310 : ℤ) := by
  have hsmall : (2 : ℚ) ^ 53 < 10 ^ 16 := by norm_num
  calc (2 : ℚ) ^ (1024 : ℤ) = (2 ^ 53) ^ 19 * 2 ^ 17 := by
        rw [← pow_mul, ← pow_add]
        rfl
    _ < (10 ^ 16) ^ 19 * 10 ^ 6 := by
        gcongr
        norm_num
    _ = 10 ^ (310 : ℤ) := by
        rw [← pow_mul, ← pow_add]
        rfl

theorem ten_pow_le : (10 : ℚ) ^ (-330 : ℤ) ≤ 2 ^ (-1074 : ℤ) := by
  have hsmall : (2 : ℚ) ^ 53 ≤ 10 ^ 16 := by norm_num
  rw [zpow_neg, zpow_neg]
  apply inv_anti₀ (by positivity)
  calc (2 : ℚ) ^ (1074 : ℤ) = (2 ^ 53) ^ 20 * 2 ^ 14 := by
        rw [← pow_mul, ← pow_add]
        rfl
    _ ≤ (10 ^ 16) ^ 20 * 10 ^ 10 := by
        gcongr
        norm_num
    _ = 10 ^ (330 : ℤ) := by
        rw [← pow_mul, ← pow_add]
        rfl

theorem ofDecimal_exact (neg : Bool) {mant : ℕ} {exp : ℤ} (h : Canonical mant exp)
    (hmant : mant ≠ 0) {digits : ℕ} {e : ℤ} (hdigits : digits ≠ 0)
    (hvalue : (digits : ℚ) * 10 ^ e = mant * 2 ^ exp) :
    ofDecimal neg digits e = .finite neg mant exp h := by
  have hpos : (0 : ℚ) < (digits : ℚ) * (10 : ℕ) ^ e := by positivity
  have hmantQ : (1 : ℚ) ≤ mant := by exact_mod_cast Nat.pos_of_ne_zero hmant
  obtain ⟨hlt, hmin, hmax, -⟩ := id h
  have htop := log_mul_zpow (b := 10) (by decide) hdigits e
  have hhigh : (digits : ℚ) * (10 : ℕ) ^ e < ((10 : ℕ) : ℚ) ^ (310 : ℤ) := by
    have hmantlt : (mant : ℚ) < 2 ^ (53 : ℤ) := by exact_mod_cast hlt
    rw [Nat.cast_ofNat, hvalue]
    calc (mant : ℚ) * 2 ^ exp < 2 ^ (53 : ℤ) * 2 ^ exp := by gcongr
      _ ≤ 2 ^ (53 : ℤ) * 2 ^ (971 : ℤ) := by
          gcongr
          exact one_le_two
      _ = 2 ^ (1024 : ℤ) := by
          rw [← zpow_add₀ two_ne_zero]
          rfl
      _ < 10 ^ (310 : ℤ) := two_pow_lt
  have hlow : ((10 : ℕ) : ℚ) ^ (-330 : ℤ) ≤ (digits : ℚ) * (10 : ℕ) ^ e := by
    rw [Nat.cast_ofNat, hvalue]
    calc (10 : ℚ) ^ (-330 : ℤ) ≤ 2 ^ (-1074 : ℤ) := ten_pow_le
      _ ≤ 2 ^ exp := by
          gcongr
          exact one_le_two
      _ ≤ mant * 2 ^ exp := le_mul_of_one_le_left (by positivity) hmantQ
  have habove := (Int.lt_zpow_iff_log_lt (by decide) hpos).mp hhigh
  have hbelow := (Int.zpow_le_iff_le_log (by decide) hpos).mp hlow
  rw [htop] at habove hbelow
  rw [ofDecimal_eq neg hdigits, if_neg (by omega), if_neg (by omega)]
  apply ofRatio_exact neg h hmant (decimalRatio_snd_ne _ _)
  rw [decimalRatio_div, hvalue]

theorem shortest_reads {neg : Bool} {mant : ℕ} {exp : ℤ} (h : Canonical mant exp)
    (hmant : mant ≠ 0) :
    ofDecimal neg (shortest (.finite neg mant exp h) neg mant exp).1
      (shortest (.finite neg mant exp h) neg mant exp).2 = .finite neg mant exp h := by
  unfold shortest
  dsimp only
  split
  · rename_i d hd
    rw [trimZeros_reads]
    exact shortestFrom_reads hd
  · -- the exact expansion
    split_ifs with hexp
    · have hpow : (10 : ℚ) ^ exp * 5 ^ exp.natAbs = 2 ^ exp := by
        have hfive : (5 : ℚ) ^ exp.natAbs = 5 ^ (-exp) := by
          rw [← zpow_natCast]
          congr 1
          omega
        rw [hfive, zpow_neg, ← div_eq_mul_inv, ← div_zpow]
        norm_num
      apply ofDecimal_exact neg h hmant (Nat.mul_ne_zero hmant (Nat.pow_pos (by decide)).ne')
      push_cast
      rw [mul_assoc, mul_comm ((5 : ℚ) ^ exp.natAbs), hpow]
    · have hpow : (2 : ℚ) ^ exp.natAbs = 2 ^ exp := by
        rw [← zpow_natCast]
        congr 1
        omega
      apply ofDecimal_exact neg h hmant (Nat.mul_ne_zero hmant (Nat.pow_pos (by decide)).ne')
      push_cast
      rw [hpow, mul_one]

end Binary64
