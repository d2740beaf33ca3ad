import AskLens.Python.DecimalValues
import AskLens.Python.Decimals
import AskLens.Python.Slug
import Mathlib.Tactic.Ring
import Mathlib.Tactic.FieldSimp

/-!
# Plain texts of decimals

A plain text writes a number of hundredths, thousandths and so on. Trimming it
brings the fraction to lowest terms, which a number has in one way only.
-/
namespace AskLens.Python

/-! ## Digits -/

theorem digitChar_eq {d : ℕ} (h : d < 10) : digitChar d = Nat.digitChar d := by
  interval_cases d <;> rfl

theorem toDigits_mul_add {n d : ℕ} (hn : 0 < n) (hd : d < 10) :
    Nat.toDigits 10 (10 * n + d) = Nat.toDigits 10 n ++ [digitChar d] := by
  rw [← Nat.toDigits_append_toDigits (by decide) hn hd, Nat.toDigits_of_lt_base hd,
    digitChar_eq hd]

theorem pad_zero (width : ℕ) : pad width 0 = List.replicate width '0' := by
  induction width with
  | zero => rfl
  | succ width ih =>
    rw [pad, Nat.zero_div, ih, List.replicate_succ']
    rfl

/-- The digits of a number are those of its leading part and the padded rest. -/
theorem toDigits_append_pad {n width r : ℕ} (hn : 0 < n) (hr : r < 10 ^ width) :
    Nat.toDigits 10 (n * 10 ^ width + r) = Nat.toDigits 10 n ++ pad width r := by
  induction width generalizing r with
  | zero =>
    obtain rfl : r = 0 := by omega
    simp [pad]
  | succ width ih =>
    have hdiv : r / 10 < 10 ^ width := by
      rw [pow_succ] at hr
      omega
    have hpos : 0 < n * 10 ^ width + r / 10 := by positivity
    have hsplit : n * 10 ^ (width + 1) + r = 10 * (n * 10 ^ width + r / 10) + r % 10 := by
      rw [pow_succ, ← Nat.mul_assoc]
      generalize n * 10 ^ width = k
      omega
    rw [hsplit, toDigits_mul_add hpos (Nat.mod_lt _ (by decide)), ih hdiv, pad, List.append_assoc]

/-- A number that is shorter than the width is padded with zeros. -/
theorem pad_eq_zeros_append {width n : ℕ} (hn : 0 < n) (h : n < 10 ^ width) :
    pad width n = List.replicate (width - (Nat.toDigits 10 n).length) '0' ++ Nat.toDigits 10 n := by
  induction width generalizing n with
  | zero => omega
  | succ width ih =>
    have hsplit : n = 10 * (n / 10) + n % 10 := by omega
    have hdigit : n % 10 < 10 := Nat.mod_lt _ (by decide)
    rw [pad]
    by_cases hten : n / 10 = 0
    · have hlt : n < 10 := by omega
      rw [hten, pad_zero, Nat.toDigits_of_lt_base hlt, Nat.mod_eq_of_lt hlt, digitChar_eq hlt]
      simp
    · have hdiv : n / 10 < 10 ^ width := by
        rw [pow_succ] at h
        omega
      have hdigits : Nat.toDigits 10 n = Nat.toDigits 10 (n / 10) ++ [digitChar (n % 10)] := by
        conv_lhs => rw [hsplit]
        exact toDigits_mul_add (by omega) hdigit
      rw [ih (by omega) hdiv, hdigits, List.length_append, List.length_singleton,
        Nat.add_sub_add_right, List.append_assoc]

theorem readDigits_append_pad (cs : List Char) {width r : ℕ} (h : r < 10 ^ width) :
    readDigits (cs ++ pad width r) = (readDigits cs).map (· * 10 ^ width + r) := by
  induction width generalizing r with
  | zero =>
    obtain rfl : r = 0 := by omega
    cases hcs : readDigits cs <;> simp [pad, hcs]
  | succ width ih =>
    have hdiv : r / 10 < 10 ^ width := by
      rw [pow_succ] at h
      omega
    have hdigit := asciiDigit_digitChar (Nat.mod_lt r (show 0 < 10 by omega))
    rw [pad, ← List.append_assoc, readDigits_append_digit, ih hdiv, hdigit]
    cases readDigits cs with
    | none => rfl
    | some n =>
      simp only [Option.map_some, Option.bind_some, Option.some.injEq]
      rw [pow_succ, ← Nat.mul_assoc]
      generalize n * 10 ^ width = k
      omega

theorem readDigits_toDigits (n : ℕ) : readDigits (Nat.toDigits 10 n) = some n := by
  induction n using Nat.strongRecOn with
  | ind n ih =>
    by_cases hlt : n < 10
    · rw [Nat.toDigits_of_lt_base hlt, ← digitChar_eq hlt]
      simp [readDigits, asciiDigit_digitChar hlt]
    · have hsplit : n = 10 * (n / 10) + n % 10 := by omega
      have hdigit := asciiDigit_digitChar (Nat.mod_lt n (show 0 < 10 by omega))
      conv_lhs => rw [hsplit, toDigits_mul_add (by omega) (Nat.mod_lt n (by decide))]
      rw [readDigits_append_digit, ih (n / 10) (by omega), hdigit]
      simp only [Option.map_some, Option.bind_some, Option.some.injEq]
      omega

namespace Decimal

/-! ## Fixed-point texts -/

/-- The text of `m / 10 ^ scale` with `scale` digits behind the point. -/
def fixedText (neg : Bool) (m scale : ℕ) : List Char :=
  signText neg ++ (Nat.toDigits 10 (m / 10 ^ scale) ++ fractionText (pad scale (m % 10 ^ scale)))

theorem placePoint_scale {m : ℕ} (hm : 0 < m) (scale : ℕ) :
    placePoint (Nat.toDigits 10 m) (-scale + (Nat.toDigits 10 m).length) =
      (Nat.toDigits 10 (m / 10 ^ scale), pad scale (m % 10 ^ scale)) := by
  have hbase : 0 < 10 ^ scale := by positivity
  unfold placePoint
  split_ifs with hzero hlong
  · have hlength : (Nat.toDigits 10 m).length ≤ scale := by omega
    have hscale : scale ≠ 0 := by
      have : (Nat.toDigits 10 m).length ≠ 0 := by simp
      omega
    have hlt : m < 10 ^ scale :=
      (Nat.length_toDigits_le_iff (by decide) (by omega)).mp hlength
    rw [Nat.div_eq_of_lt hlt, Nat.mod_eq_of_lt hlt, pad_eq_zeros_append hm hlt, Nat.toDigits_zero]
    congr 3
    omega
  · obtain rfl : scale = 0 := by omega
    simp [pad]
  · have hlength : scale < (Nat.toDigits 10 m).length := by omega
    have hle : 10 ^ scale ≤ m := by
      by_contra hlt
      have hpos : 0 < scale := by
        rcases Nat.eq_zero_or_pos scale with rfl | hpos
        · simp at hlt
          omega
        · exact hpos
      have := (Nat.length_toDigits_le_iff (by decide) hpos).mpr (Nat.lt_of_not_le hlt)
      omega
    have hdigits : Nat.toDigits 10 m =
        Nat.toDigits 10 (m / 10 ^ scale) ++ pad scale (m % 10 ^ scale) := by
      rw [← toDigits_append_pad (Nat.div_pos hle hbase) (Nat.mod_lt m hbase), Nat.div_add_mod']
    have hplace : (-(scale : ℤ) + (Nat.toDigits 10 m).length).toNat =
        (Nat.toDigits 10 (m / 10 ^ scale)).length := by
      have hsum := congrArg List.length hdigits
      rw [List.length_append, pad_length] at hsum
      omega
    rw [hplace, hdigits, List.take_left, List.drop_left]

/-- `format(value, "f")` writes a whole number of units of the last place. -/
theorem plainText_eq_fixedText (neg : Bool) {coefficient : ℕ} (h : coefficient ≠ 0)
    (exponent : ℤ) : plainText neg coefficient exponent =
      fixedText neg (coefficient * 10 ^ exponent.toNat) (-exponent).toNat := by
  have hpos : 0 < coefficient := Nat.pos_of_ne_zero h
  unfold plainText plainParts leftDigits fixedText
  simp only [if_neg (show ¬ (coefficient = 0 ∧ 0 < exponent) by simp [h])]
  by_cases hexponent : 0 ≤ exponent
  · obtain ⟨e, rfl⟩ := Int.eq_ofNat_of_zero_le hexponent
    have hlong : ((Nat.toDigits 10 coefficient).length : ℤ) ≤
        e + (Nat.toDigits 10 coefficient).length := by omega
    have hsome : (Nat.toDigits 10 coefficient).length ≠ 0 := by simp
    have hzeros : Nat.toDigits 10 (coefficient * 10 ^ e) =
        Nat.toDigits 10 coefficient ++ List.replicate e '0' := by
      rw [← pad_zero, ← toDigits_append_pad hpos (by positivity), Nat.add_zero]
    unfold placePoint
    rw [if_neg (by omega), if_pos hlong]
    have hshift : ((e : ℤ) + (Nat.toDigits 10 coefficient).length).toNat -
        (Nat.toDigits 10 coefficient).length = e := by omega
    simp [hshift, hzeros, pad]
  · obtain ⟨scale, rfl⟩ : ∃ scale : ℕ, exponent = -scale := ⟨exponent.natAbs, by omega⟩
    have htoNat : (-(scale : ℤ)).toNat = 0 := by omega
    simp [placePoint_scale hpos, htoNat]

/-! ## Trimming -/

/-- The fraction in lowest terms, as far as there are digits behind the point. -/
def lowestTerms : ℕ → ℕ → ℕ × ℕ
  | m, 0 => (m, 0)
  | m, scale + 1 => if m % 10 = 0 then lowestTerms (m / 10) scale else (m, scale + 1)

theorem lowestTerms_lowest (m scale : ℕ) :
    (lowestTerms m scale).2 = 0 ∨ (lowestTerms m scale).1 % 10 ≠ 0 := by
  induction scale generalizing m with
  | zero => exact .inl rfl
  | succ scale ih =>
    unfold lowestTerms
    split_ifs with hzero
    · exact ih (m / 10)
    · exact .inr hzero

theorem lowestTerms_pos {m : ℕ} (h : 0 < m) (scale : ℕ) : 0 < (lowestTerms m scale).1 := by
  induction scale generalizing m with
  | zero => exact h
  | succ scale ih =>
    unfold lowestTerms
    split_ifs with hzero
    · apply ih
      omega
    · exact h

/-- Every step takes one digit off the number and one off the scale. -/
theorem lowestTerms_mul (m scale : ℕ) :
    ∃ k, (lowestTerms m scale).1 * 10 ^ k = m ∧ (lowestTerms m scale).2 + k = scale := by
  induction scale generalizing m with
  | zero => exact ⟨0, by simp [lowestTerms]⟩
  | succ scale ih =>
    unfold lowestTerms
    split_ifs with hzero
    · obtain ⟨k, hm, hscale⟩ := ih (m / 10)
      refine ⟨k + 1, ?_, by omega⟩
      rw [pow_succ, ← Nat.mul_assoc, hm]
      omega
    · exact ⟨0, by simp⟩

/-- What `_serialize_aggregate_decimal` does with a plain text. -/
def trimFraction (plain : List Char) : List Char :=
  if '.' ∈ plain then stripRight '.' (stripRight '0' plain) else plain

theorem serializeAggregate_eq {neg : Bool} {coefficient : ℕ} {exponent : ℤ}
    (h : coefficient ≠ 0) : serializeAggregate neg coefficient exponent =
      trimFraction (plainText neg coefficient exponent) := if_neg h

theorem fixedText_zero (neg : Bool) (m : ℕ) :
    fixedText neg m 0 = signText neg ++ Nat.toDigits 10 m := by
  simp [fixedText, fractionText, pad]

/-- The last digit of a fixed-point text stands alone behind the point or behind other digits. -/
theorem fixedText_succ (neg : Bool) (m scale : ℕ) :
    fixedText neg m (scale + 1) =
      (if scale = 0 then fixedText neg (m / 10) 0 ++ ['.'] else fixedText neg (m / 10) scale) ++
        [digitChar (m % 10)] := by
  have hint : m / 10 ^ (scale + 1) = m / 10 / 10 ^ scale := by
    rw [pow_succ', Nat.div_div_eq_div_mul]
  have hfraction : m % 10 ^ (scale + 1) / 10 = m / 10 % 10 ^ scale := by
    rw [pow_succ', Nat.mod_mul_right_div_self]
  have hdigit : m % 10 ^ (scale + 1) % 10 = m % 10 := by
    rw [pow_succ', Nat.mod_mul_right_mod]
  have hpad : pad (scale + 1) (m % 10 ^ (scale + 1)) =
      pad scale (m / 10 % 10 ^ scale) ++ [digitChar (m % 10)] := by
    rw [pad, hfraction, hdigit]
  unfold fixedText
  rw [hpad, hint]
  cases scale with
  | zero => simp [fractionText, pad]
  | succ scale =>
    have hsome : pad (scale + 1) (m / 10 % 10 ^ (scale + 1)) ≠ [] := by simp [pad]
    simp [fractionText, hsome]

theorem signText_not_point (neg : Bool) : '.' ∉ signText neg := by
  cases neg <;> decide

theorem point_mem_fixedText (neg : Bool) (m scale : ℕ) :
    '.' ∈ fixedText neg m scale ↔ scale ≠ 0 := by
  cases scale with
  | zero =>
    have hint : '.' ∉ Nat.toDigits 10 m := not_mem_of_digits (digits_toDigits m)
    simp [fixedText, fractionText, pad, signText_not_point, hint]
  | succ scale =>
    have hsome : pad (scale + 1) (m % 10 ^ (scale + 1)) ≠ [] := by simp [pad]
    simp [fixedText, fractionText, hsome]

theorem digitChar_ne_zero {d : ℕ} (h : d < 10) (hne : d ≠ 0) : digitChar d ≠ '0' := by
  interval_cases d
  · exact absurd rfl hne
  all_goals decide

theorem digitChar_ne_point {d : ℕ} (h : d < 10) : digitChar d ≠ '.' := by
  interval_cases d <;> decide

theorem trimFraction_fixedText (neg : Bool) (m scale : ℕ) :
    trimFraction (fixedText neg m scale) =
      fixedText neg (lowestTerms m scale).1 (lowestTerms m scale).2 := by
  induction scale generalizing m with
  | zero =>
    unfold trimFraction lowestTerms
    rw [if_neg (by simp [point_mem_fixedText])]
  | succ scale ih =>
    have hdigit : m % 10 < 10 := Nat.mod_lt _ (by decide)
    unfold trimFraction lowestTerms
    rw [if_pos (by simp [point_mem_fixedText])]
    split_ifs with hzero
    · -- a zero at the end is stripped
      have hlast : digitChar (m % 10) = '0' := by rw [hzero]; rfl
      rw [fixedText_succ, hlast, stripRight_concat_self]
      cases scale with
      | zero =>
        rw [if_pos rfl, stripRight_concat_of_ne (by decide), stripRight_concat_self,
          fixedText_zero, stripRight_of_digit Nat.toDigits_ne_nil (digits_toDigits _)]
        rw [lowestTerms, fixedText_zero]
      | succ scale =>
        rw [if_neg (Nat.succ_ne_zero scale), ← ih, trimFraction,
          if_pos (by simp [point_mem_fixedText])]
    · rw [fixedText_succ, stripRight_concat_of_ne (digitChar_ne_zero hdigit hzero),
        stripRight_concat_of_ne (digitChar_ne_point hdigit)]

/-- The number of units of the last place, and its scale, that the text shows. -/
def shown (coefficient : ℕ) (exponent : ℤ) : ℕ × ℕ :=
  lowestTerms (coefficient * 10 ^ exponent.toNat) (-exponent).toNat

theorem serializeAggregate_eq_fixedText (neg : Bool) {coefficient : ℕ} (h : coefficient ≠ 0)
    (exponent : ℤ) : serializeAggregate neg coefficient exponent =
      fixedText neg (shown coefficient exponent).1 (shown coefficient exponent).2 := by
  rw [serializeAggregate_eq h, plainText_eq_fixedText neg h, trimFraction_fixedText, shown]

/-! ## Numbers -/

/-- The number that a finite decimal is. -/
def value (neg : Bool) (coefficient : ℕ) (exponent : ℤ) : ℚ :=
  (if neg then -1 else 1) * coefficient * (10 : ℚ) ^ exponent

theorem value_zero (neg : Bool) (exponent : ℤ) : value neg 0 exponent = 0 := by
  simp [value]

theorem value_eq_zero_iff {neg : Bool} {coefficient : ℕ} {exponent : ℤ} :
    value neg coefficient exponent = 0 ↔ coefficient = 0 := by
  cases neg <;> simp [value, zpow_ne_zero]

theorem value_shown (neg : Bool) (coefficient : ℕ) (exponent : ℤ) :
    value neg (shown coefficient exponent).1 (-(shown coefficient exponent).2) =
      value neg coefficient exponent := by
  obtain ⟨k, hm, hscale⟩ :=
    lowestTerms_mul (coefficient * 10 ^ exponent.toNat) (-exponent).toNat
  have hten : (10 : ℚ) ≠ 0 := by norm_num
  have hexponent : exponent = (exponent.toNat : ℤ) - (shown coefficient exponent).2 - k := by
    unfold shown
    omega
  have hcast : ((shown coefficient exponent).1 : ℚ) * 10 ^ k = coefficient * 10 ^ exponent.toNat := by
    unfold shown
    exact_mod_cast hm
  have hscaled : (coefficient : ℚ) * (10 : ℚ) ^ exponent =
      (shown coefficient exponent).1 * (10 : ℚ) ^ (-(shown coefficient exponent).2 : ℤ) := by
    conv_lhs => rw [hexponent]
    rw [zpow_sub₀ hten, zpow_sub₀ hten, zpow_neg, zpow_natCast, zpow_natCast, zpow_natCast]
    field_simp
    rw [← hcast, mul_comm]
  unfold value
  rw [mul_assoc, mul_assoc, hscaled]

/-! ## Lowest terms -/

theorem lowest_unique {m n scale scale' : ℕ} (h : m * 10 ^ scale' = n * 10 ^ scale)
    (hm : scale = 0 ∨ m % 10 ≠ 0) (hn : scale' = 0 ∨ n % 10 ≠ 0) : m = n ∧ scale = scale' := by
  have hle : ∀ {m n scale scale' : ℕ}, m * 10 ^ scale' = n * 10 ^ scale →
      (scale' = 0 ∨ n % 10 ≠ 0) → scale' ≤ scale := by
    intro m n scale scale' h hn
    by_contra hlt
    obtain ⟨k, rfl⟩ := Nat.exists_eq_add_of_lt (Nat.lt_of_not_le hlt)
    have hpow : 10 ^ (scale + k + 1) = 10 * 10 ^ k * 10 ^ scale := by ring
    rw [hpow, ← Nat.mul_assoc] at h
    have hsame := Nat.eq_of_mul_eq_mul_right (by positivity) h
    rcases hn with hzero | hdigit
    · omega
    · apply hdigit
      rw [← hsame, ← Nat.mul_assoc, Nat.mul_right_comm, Nat.mul_mod_left]
  have heq : scale = scale' := Nat.le_antisymm (hle h.symm hm) (hle h hn)
  subst heq
  exact ⟨Nat.eq_of_mul_eq_mul_right (by positivity) h, rfl⟩

theorem value_fixed_unique {neg neg' : Bool} {m n scale scale' : ℕ} (hm : 0 < m) (hn : 0 < n)
    (hmlow : scale = 0 ∨ m % 10 ≠ 0) (hnlow : scale' = 0 ∨ n % 10 ≠ 0)
    (h : value neg m (-scale) = value neg' n (-scale')) :
    neg = neg' ∧ m = n ∧ scale = scale' := by
  have hpos : ∀ {k : ℕ} (e : ℤ), 0 < k → (0 : ℚ) < k * (10 : ℚ) ^ e := fun e hk =>
    mul_pos (Nat.cast_pos.mpr hk) (zpow_pos (by norm_num) e)
  have hm' := hpos (-scale) hm
  have hn' := hpos (-scale') hn
  have hsign : ∀ (neg : Bool) (q : ℚ), 0 < q → ((if neg then -1 else 1) * q < 0 ↔ neg = true) := by
    intro neg q hq
    cases neg with
    | true => simpa using hq
    | false => simpa using hq.le
  unfold value at h
  rw [mul_assoc, mul_assoc] at h
  have hneg : neg = neg' := by
    rw [Bool.eq_iff_iff, ← hsign neg _ hm', h, hsign neg' _ hn']
  subst hneg
  have habs : (m : ℚ) * (10 : ℚ) ^ (-scale : ℤ) = n * (10 : ℚ) ^ (-scale' : ℤ) := by
    cases neg with
    | true => simpa using h
    | false => simpa using h
  have hcross : m * 10 ^ scale' = n * 10 ^ scale := by
    rw [zpow_neg, zpow_neg, zpow_natCast, zpow_natCast] at habs
    field_simp at habs
    rw [Nat.mul_comm n]
    exact_mod_cast habs
  exact ⟨rfl, lowest_unique hcross hmlow hnlow⟩

theorem serializeAggregate_congr {neg neg' : Bool} {coefficient coefficient' : ℕ}
    {exponent exponent' : ℤ}
    (h : value neg coefficient exponent = value neg' coefficient' exponent') :
    serializeAggregate neg coefficient exponent =
      serializeAggregate neg' coefficient' exponent' := by
  by_cases hzero : coefficient = 0
  · have hzero' : coefficient' = 0 := by
      rwa [← value_eq_zero_iff, h, value_eq_zero_iff] at hzero
    simp [serializeAggregate, hzero, hzero']
  · have hzero' : coefficient' ≠ 0 := by
      intro hzero'
      apply hzero
      rwa [← value_eq_zero_iff, ← h, value_eq_zero_iff] at hzero'
    have hpos : ∀ {c : ℕ} (e : ℤ), c ≠ 0 → 0 < (shown c e).1 := by
      intro c e hc
      apply lowestTerms_pos
      have := Nat.pos_of_ne_zero hc
      positivity
    rw [← value_shown, ← value_shown neg'] at h
    have hlow : ∀ (c : ℕ) (e : ℤ), (shown c e).2 = 0 ∨ (shown c e).1 % 10 ≠ 0 :=
      fun c e => lowestTerms_lowest _ _
    obtain ⟨rfl, hm, hscale⟩ := value_fixed_unique (hpos exponent hzero) (hpos exponent' hzero')
      (hlow coefficient exponent) (hlow coefficient' exponent') h
    rw [serializeAggregate_eq_fixedText _ hzero, serializeAggregate_eq_fixedText _ hzero', hm,
      hscale]

/-! ## Reading -/

def IsPlainChar (c : Char) : Prop := c.isDigit = true ∨ c = '.' ∨ c = '-'

theorem plainChar_forall {P : Char → Prop} (hdigit : ∀ d : Fin 10, P (Char.ofNat (48 + d)))
    (hpoint : P '.') (hminus : P '-') {c : Char} (h : IsPlainChar c) : P c := by
  rcases h with h | rfl | rfl
  · obtain ⟨hlow, hhigh⟩ : 48 ≤ c.toNat ∧ c.toNat ≤ 57 := by
      rw [Char.isDigit, Bool.and_eq_true, decide_eq_true_eq, decide_eq_true_eq] at h
      exact h
    have hc := hdigit ⟨c.toNat - 48, by omega⟩
    have hnat : 48 + (c.toNat - 48) = c.toNat := by omega
    simp only [hnat, Char.ofNat_toNat] at hc
    exact hc
  · exact hpoint
  · exact hminus

theorem toAsciiDigit_plain (unicode : Unicode) {c : Char} (h : IsPlainChar c) :
    toAsciiDigit unicode c = c := by
  have hother : ∀ c : Char, c.toNat < 128 → c.isDigit = false → toAsciiDigit unicode c = c := by
    intro c hc hdigit
    rw [toAsciiDigit, unicode.digitValue_other c hc hdigit]
  apply plainChar_forall (P := fun c => toAsciiDigit unicode c = c) ?_ ?_ ?_ h
  · intro d
    rw [toAsciiDigit, unicode.digitValue_ascii d]
    rfl
  · exact hother '.' (by decide) rfl
  · exact hother '-' (by decide) rfl

theorem clean_plain (unicode : Unicode) {cs : List Char} (h : ∀ c ∈ cs, IsPlainChar c) :
    ((stripBy isSpace cs).filter (· != '_')).map (toAsciiDigit unicode) = cs := by
  have hspace : ∀ c ∈ cs, isSpace c = false := fun c hc =>
    plainChar_forall (P := fun c => isSpace c = false) (by decide) (by decide) (by decide) (h c hc)
  have hunderscore : ∀ c ∈ cs, (c != '_') = true := fun c hc =>
    plainChar_forall (P := fun c => (c != '_') = true) (by decide) (by decide) (by decide) (h c hc)
  rw [stripBy_eq_self hspace, List.filter_eq_self.mpr hunderscore,
    List.map_congr_left fun c hc => toAsciiDigit_plain unicode (h c hc), List.map_id']

theorem digits_pad (width n : ℕ) : Digits (pad width n) := by
  induction width generalizing n with
  | zero => simp [pad, Digits]
  | succ width ih =>
    apply (ih (n / 10)).append
    intro c hc
    obtain rfl := List.mem_singleton.mp hc
    have hdigit : n % 10 < 10 := Nat.mod_lt n (by decide)
    interval_cases n % 10 <;> rfl

theorem fixedText_parts (neg : Bool) (m scale : ℕ) : ∃ int fraction,
    fixedText neg m scale = signText neg ++ (int ++ fractionText fraction) ∧
      int ≠ [] ∧ Digits int ∧ Digits fraction ∧ fraction.length = scale ∧
      readDigits (int ++ fraction) = some m := by
  have hread : readDigits (Nat.toDigits 10 (m / 10 ^ scale) ++ pad scale (m % 10 ^ scale)) =
      some m := by
    rw [readDigits_append_pad _ (Nat.mod_lt m (by positivity)), readDigits_toDigits,
      Option.map_some, Nat.div_add_mod']
  exact ⟨_, _, rfl, Nat.toDigits_ne_nil, digits_toDigits _, digits_pad _ _, pad_length _ _, hread⟩

theorem takeWhile_digits {cs rest : List Char} (h : Digits cs)
    (hrest : ∀ c, rest.head? = some c → isAsciiDigit c = false) :
    (cs ++ rest).takeWhile isAsciiDigit = cs ∧ (cs ++ rest).dropWhile isAsciiDigit = rest := by
  have hdigits : ∀ c ∈ cs, isAsciiDigit c = true := by
    intro c hc
    have hdigit : c.isDigit = true := h c hc
    rw [Char.isDigit, Bool.and_eq_true, decide_eq_true_eq, decide_eq_true_eq] at hdigit
    have hrange : 48 ≤ c.toNat ∧ c.toNat ≤ 57 := hdigit
    simp [isAsciiDigit, asciiDigit, hrange]
  rw [List.takeWhile_append_of_pos hdigits, List.dropWhile_append_of_pos hdigits]
  cases rest with
  | nil => simp
  | cons c rest => simp [hrest c rfl]

theorem split_numeral (neg : Bool) {int : List Char} (fraction : List Char) (hne : int ≠ [])
    (hint : Digits int) :
    dropSign (signText neg ++ (int ++ fractionText fraction)) = int ++ fractionText fraction ∧
      ((signText neg ++ (int ++ fractionText fraction)).head? == some '-') = neg := by
  obtain ⟨c, cs, rfl⟩ := List.exists_cons_of_ne_nil hne
  have hdigit : c.isDigit = true := hint c (by simp)
  have hplus : c ≠ '+' := by
    rintro rfl
    cases hdigit
  have hminus : c ≠ '-' := by
    rintro rfl
    cases hdigit
  cases neg with
  | true => exact ⟨rfl, rfl⟩
  | false =>
    constructor
    · show dropSign (c :: (cs ++ fractionText fraction)) = _
      unfold dropSign
      split
      · rename_i heq
        exact absurd (List.cons.inj heq).1 hplus
      · rename_i heq
        exact absurd (List.cons.inj heq).1 hminus
      · rfl
    · simpa [signText] using hminus

theorem split_point {int fraction : List Char} (hint : Digits int) (hfraction : Digits fraction) :
    (int ++ fractionText fraction).takeWhile isAsciiDigit = int ∧
      (int ++ fractionText fraction).dropWhile isAsciiDigit = fractionText fraction ∧
      (if (fractionText fraction).head? = some '.'
        then ((fractionText fraction).drop 1).takeWhile isAsciiDigit else []) = fraction ∧
      (if (fractionText fraction).head? = some '.'
        then ((fractionText fraction).drop 1).dropWhile isAsciiDigit
        else fractionText fraction) = [] := by
  have hpoint : ∀ c, (fractionText fraction).head? = some c → isAsciiDigit c = false := by
    intro c hc
    unfold fractionText at hc
    split_ifs at hc with hnil
    · cases hc
    · obtain rfl := Option.some.inj hc
      decide
  obtain ⟨htake, hdrop⟩ := takeWhile_digits hint hpoint
  refine ⟨htake, hdrop, ?_⟩
  by_cases hnil : fraction = []
  · simp [fractionText, hnil]
  · have hend : ∀ c, ([] : List Char).head? = some c → isAsciiDigit c = false := by simp
    have hrest := takeWhile_digits hfraction hend
    rw [List.append_nil] at hrest
    simp [fractionText, hnil, hrest]

theorem numeral_plain {neg : Bool} {int fraction : List Char} (hint : Digits int)
    (hfraction : Digits fraction) :
    ∀ c ∈ signText neg ++ (int ++ fractionText fraction), IsPlainChar c := by
  intro c hc
  rw [List.mem_append, List.mem_append] at hc
  rcases hc with hc | hc | hc
  · cases neg with
    | true => exact .inr (.inr (List.mem_singleton.mp hc))
    | false => cases hc
  · exact .inl (hint c hc)
  · unfold fractionText at hc
    split_ifs at hc with hnil
    · cases hc
    · rcases List.mem_cons.mp hc with rfl | hc
      · exact .inr (.inl rfl)
      · exact .inl (hfraction c hc)

/-- The sign, the coefficient and the exponent of a plain numeral. -/
theorem decimalParts_numeral (unicode : Unicode) {neg : Bool} {int fraction : List Char} {m : ℕ}
    (hne : int ≠ []) (hint : Digits int) (hfraction : Digits fraction)
    (hread : readDigits (int ++ fraction) = some m) :
    decimalParts unicode (String.ofList (signText neg ++ (int ++ fractionText fraction))) =
      (neg, m, -(fraction.length : ℤ)) := by
  obtain ⟨hsign, hneg⟩ := split_numeral neg fraction hne hint
  obtain ⟨htake, hdrop, hbehind, hend⟩ := split_point hint hfraction
  unfold decimalParts
  simp only [String.toList_ofList, clean_plain unicode (numeral_plain hint hfraction), hsign,
    hneg, htake, hdrop, hbehind, hend, hread, Option.getD_some, readExponent]
  simp

theorem decimalKind_numeral (unicode : Unicode) {neg : Bool} {int fraction : List Char} {m : ℕ}
    (hne : int ≠ []) (hint : Digits int) (hfraction : Digits fraction)
    (hread : readDigits (int ++ fraction) = some m)
    (hrange : decimalInRange m (-(fraction.length : ℤ)) = true) :
    decimalKind unicode (String.ofList (signText neg ++ (int ++ fractionText fraction))) =
      .finite := by
  obtain ⟨hsign, -⟩ := split_numeral neg fraction hne hint
  obtain ⟨htake, hdrop, hbehind, hend⟩ := split_point hint hfraction
  have hfinite : readDecimal (int ++ fractionText fraction) = .finite := by
    have hsome : int ++ fraction ≠ [] := List.append_ne_nil_of_left_ne_nil hne _
    unfold readDecimal
    simp only [htake, hdrop, hbehind, hend, hread, readExponent]
    rw [zero_sub, if_pos ⟨hsome, hrange⟩]
  -- no name of a special value begins with a digit
  obtain ⟨c, cs, hcs⟩ := List.exists_cons_of_ne_nil hne
  have hdigit : c.isDigit = true := hint c (by simp [hcs])
  obtain ⟨hi, hs, hn⟩ : 'i' ≠ c.toLower ∧ 's' ≠ c.toLower ∧ 'n' ≠ c.toLower := by
    apply plainChar_forall
      (P := fun c => 'i' ≠ c.toLower ∧ 's' ≠ c.toLower ∧ 'n' ≠ c.toLower)
      (by decide) (by decide) (by decide) (.inl hdigit)
  unfold decimalKind
  simp only [String.toList_ofList, clean_plain unicode (numeral_plain hint hfraction), hsign]
  rw [hfinite, hcs]
  simp [List.isPrefixOf, hs, hn, hi.symm]

/-! ## Aggregate texts -/

theorem length_toDigits_scale {n : ℕ} (h : 0 < n) (k : ℕ) :
    (Nat.toDigits 10 (n * 10 ^ k)).length = (Nat.toDigits 10 n).length + k := by
  have happend := toDigits_append_pad h (show 0 < 10 ^ k by positivity)
  rw [Nat.add_zero] at happend
  rw [happend, List.length_append, pad_length]

/-- What is shown of a decimal within the limits is within the limits. -/
theorem shown_inRange {coefficient : ℕ} {exponent : ℤ} (hpos : 0 < coefficient)
    (h : decimalInRange coefficient exponent = true) :
    decimalInRange (shown coefficient exponent).1 (-((shown coefficient exponent).2 : ℤ)) =
      true := by
  obtain ⟨k, hm, hscale⟩ :=
    lowestTerms_mul (coefficient * 10 ^ exponent.toNat) (-exponent).toNat
  have hshown : 0 < (lowestTerms (coefficient * 10 ^ exponent.toNat) (-exponent).toNat).1 :=
    lowestTerms_pos (by positivity) _
  have hlength := congrArg (fun n => (Nat.toDigits 10 n).length) hm
  simp only [length_toDigits_scale hshown, length_toDigits_scale hpos] at hlength
  simp only [decimalInRange, Bool.and_eq_true, decide_eq_true_eq] at h ⊢
  unfold shown
  omega

theorem serializeAggregate_numeral (neg : Bool) (coefficient : ℕ) (exponent : ℤ) :
    ∃ neg' int fraction m,
      serializeAggregate neg coefficient exponent =
        signText neg' ++ (int ++ fractionText fraction) ∧
      int ≠ [] ∧ Digits int ∧ Digits fraction ∧ readDigits (int ++ fraction) = some m ∧
      value neg' m (-(fraction.length : ℤ)) = value neg coefficient exponent ∧
      (decimalInRange coefficient exponent = true →
        decimalInRange m (-(fraction.length : ℤ)) = true) := by
  by_cases hzero : coefficient = 0
  · refine ⟨false, ['0'], [], 0, ?_, List.cons_ne_nil _ _, digits_zeros 1, digits_zeros 0, rfl, ?_,
      fun _ => by decide⟩
    · simp [serializeAggregate, hzero, signText, fractionText]
    · rw [hzero, value_zero, value_zero]
  · obtain ⟨int, fraction, htext, hne, hint, hfraction, hlength, hread⟩ :=
      fixedText_parts neg (shown coefficient exponent).1 (shown coefficient exponent).2
    refine ⟨neg, int, fraction, _, ?_, hne, hint, hfraction, hread, ?_, ?_⟩
    · rw [serializeAggregate_eq_fixedText neg hzero, htext]
    · rw [hlength, value_shown]
    · rw [hlength]
      exact shown_inRange (Nat.pos_of_ne_zero hzero)

theorem decimalParts_serializeAggregate (unicode : Unicode) (neg : Bool) (coefficient : ℕ)
    (exponent : ℤ) : ∃ neg' coefficient' exponent',
      decimalParts unicode (String.ofList (serializeAggregate neg coefficient exponent)) =
        (neg', coefficient', exponent') ∧
      value neg' coefficient' exponent' = value neg coefficient exponent ∧
      (decimalInRange coefficient exponent = true →
        decimalKind unicode (String.ofList (serializeAggregate neg coefficient exponent)) =
          .finite) := by
  obtain ⟨neg', int, fraction, m, htext, hne, hint, hfraction, hread, hvalue, hrange⟩ :=
    serializeAggregate_numeral neg coefficient exponent
  refine ⟨neg', m, -(fraction.length : ℤ), ?_, hvalue, fun h => ?_⟩
  · rw [htext, decimalParts_numeral unicode hne hint hfraction hread]
  · rw [htext, decimalKind_numeral unicode hne hint hfraction hread (hrange h)]

theorem serializeAggregate_injective (unicode : Unicode) {neg neg' : Bool}
    {coefficient coefficient' : ℕ} {exponent exponent' : ℤ}
    (h : serializeAggregate neg coefficient exponent =
      serializeAggregate neg' coefficient' exponent') :
    value neg coefficient exponent = value neg' coefficient' exponent' := by
  obtain ⟨n, c, e, hparts, hvalue, -⟩ :=
    decimalParts_serializeAggregate unicode neg coefficient exponent
  obtain ⟨n', c', e', hparts', hvalue', -⟩ :=
    decimalParts_serializeAggregate unicode neg' coefficient' exponent'
  rw [← h, hparts] at hparts'
  cases hparts'
  rw [← hvalue, hvalue']

theorem serializeAggregate_ne_negative_zero (unicode : Unicode) (neg : Bool) (coefficient : ℕ)
    (exponent : ℤ) : serializeAggregate neg coefficient exponent ≠ ['-', '0'] := by
  intro h
  obtain ⟨n, c, e, hparts, hvalue, -⟩ :=
    decimalParts_serializeAggregate unicode neg coefficient exponent
  have hminus : ['-', '0'] = signText true ++ (['0'] ++ fractionText []) := rfl
  have hint : Digits ['0'] := digits_zeros 1
  have hnone : Digits [] := digits_zeros 0
  rw [h, hminus, decimalParts_numeral unicode (List.cons_ne_nil _ _) hint hnone
    (show readDigits (['0'] ++ []) = some 0 from rfl)] at hparts
  obtain ⟨rfl, rfl, rfl⟩ : true = n ∧ 0 = c ∧ -(0 : ℤ) = e := by simpa using hparts
  rw [value_zero, eq_comm, value_eq_zero_iff] at hvalue
  rw [serializeAggregate, if_pos hvalue] at h
  simp at h

end Decimal

end AskLens.Python
