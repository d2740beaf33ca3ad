import AskLens.Library.Rounding
import AskLens.Python.Scanning
import Mathlib.Tactic.IntervalCases

/-!
# Texts of numbers

The decoder reads what the encoder writes for an integer and for a float, up to
the character that ends the number.
-/
namespace AskLens.Python

/-! ## Digits -/

def DigitText (t : PyText) : Prop := ∀ c ∈ t, isDigit c = true

theorem DigitText.append {s t : PyText} (hs : DigitText s) (ht : DigitText t) :
    DigitText (s ++ t) := by
  intro c hc
  rcases List.mem_append.mp hc with hc | hc
  · exact hs c hc
  · exact ht c hc

theorem digitText_zeros (n : ℕ) : DigitText (List.replicate n 0x30) := by
  intro c hc
  rw [List.eq_of_mem_replicate hc]
  rfl

def digitCodes (n : ℕ) : PyText := (Nat.toDigits 10 n).map Char.toNat

theorem digitText_digitCodes (n : ℕ) : DigitText (digitCodes n) := by
  intro c hc
  obtain ⟨d, hd, rfl⟩ := List.mem_map.mp hc
  have hdigit := Nat.isDigit_of_mem_toDigits (by decide) (by decide) hd
  simp only [Char.isDigit, Bool.and_eq_true, decide_eq_true_eq] at hdigit
  exact isDigit_iff.mpr ⟨hdigit.1, hdigit.2⟩

theorem digitCodes_ne_nil (n : ℕ) : digitCodes n ≠ [] := by
  simp [digitCodes, Nat.toDigits_ne_nil]

theorem digitsValue_digitCodes (n : ℕ) : digitsValue (digitCodes n) = n := by
  have hvalue := Nat.ofDigitChars_ten_toDigits (n := n)
  unfold Nat.ofDigitChars at hvalue
  unfold digitsValue digitCodes
  rw [List.foldl_map]
  simp only [Nat.mul_comm _ 10]
  exact hvalue

theorem digitCodes_head {n : ℕ} (h : n ≠ 0) : (digitCodes n).head? ≠ some 0x30 := by
  induction n using Nat.strongRecOn with
  | ind n ih =>
    by_cases hlt : n < 10
    · interval_cases n
      · exact absurd rfl h
      all_goals decide
    · have hsplit : Nat.toDigits 10 n = Nat.toDigits 10 (n / 10) ++ [(n % 10).digitChar] :=
        Nat.toDigits_of_base_le (by decide) (by omega)
      have hcodes : digitCodes n = digitCodes (n / 10) ++ [((n % 10).digitChar).toNat] := by
        unfold digitCodes
        rw [hsplit, List.map_append]
        rfl
      rw [hcodes, List.head?_append_of_ne_nil _ (digitCodes_ne_nil _)]
      exact ih (n / 10) (by omega) (by omega)

theorem digitsValue_append_digits (s t : PyText) :
    digitsValue (s ++ t) = digitsValue s * 10 ^ t.length + digitsValue t := by
  induction t using List.reverseRecOn with
  | nil => simp [digitsValue]
  | append_singleton t c ih =>
    rw [← List.append_assoc, digitsValue_append, ih, digitsValue_append, List.length_append,
      List.length_singleton, Nat.pow_succ]
    ring

theorem digitsValue_zeros (n : ℕ) : digitsValue (List.replicate n 0x30) = 0 := by
  induction n with
  | zero => rfl
  | succ n ih =>
    rw [List.replicate_succ', digitsValue_append, ih]

theorem span_digits {ds rest : PyText} (hds : DigitText ds)
    (hrest : ∀ c, rest.head? = some c → isDigit c = false) :
    (ds ++ rest).span isDigit = (ds, rest) := by
  rw [List.span_eq_takeWhile_dropWhile]
  have hstop : rest.takeWhile isDigit = [] ∧ rest.dropWhile isDigit = rest := by
    cases rest with
    | nil => exact ⟨rfl, rfl⟩
    | cons c rest => simp [hrest c rfl]
  rw [List.takeWhile_append_of_pos hds, List.dropWhile_append_of_pos hds, hstop.1, hstop.2,
    List.append_nil]

/-! ## Reading a number -/

def EndsNumber (rest : PyText) : Prop :=
  ∀ c, rest.head? = some c → isDigit c = false ∧ c ≠ 0x2E ∧ c ≠ 0x65 ∧ c ≠ 0x45

/-- The digits before the point: no zero in front of another digit. -/
structure IntegerPart (int : PyText) : Prop where
  digits : DigitText int
  ne_nil : int ≠ []
  leading : int = [0x30] ∨ int.head? ≠ some 0x30

def signCode (neg : Bool) : PyText := if neg = true then [0x2D] else []

def fractionCodes (fraction : PyText) : PyText :=
  if fraction = [] then [] else 0x2E :: fraction

/-- `e`, a sign and digits. -/
def exponentCodes : Option (Bool × PyText) → PyText
  | none => []
  | some (neg, digits) => 0x65 :: (if neg then 0x2D else 0x2B) :: digits

def exponentValue : Option (Bool × PyText) → Option ℤ
  | none => none
  | some (neg, digits) => some (if neg then -(digitsValue digits : ℤ) else digitsValue digits)

structure NumberParts (fraction : PyText) (exponent : Option (Bool × PyText)) : Prop where
  fraction : DigitText fraction
  exponent : ∀ e, exponent = some e → DigitText e.2 ∧ e.2 ≠ []

theorem scanExponent_codes {fraction : PyText} {exponent : Option (Bool × PyText)} {rest : PyText}
    (h : NumberParts fraction exponent) (hrest : EndsNumber rest) :
    scanExponent (exponentCodes exponent ++ rest) = (exponentValue exponent, rest) := by
  cases exponent with
  | none =>
    cases rest with
    | nil => rfl
    | cons c rest =>
      obtain ⟨-, -, he, hE⟩ := hrest c rfl
      simp [exponentCodes, exponentValue, scanExponent, he, hE]
  | some e =>
    obtain ⟨neg, digits⟩ := e
    obtain ⟨hdigits, hne⟩ := h.exponent _ rfl
    dsimp only at hdigits hne
    have hspan := span_digits hdigits fun c hc => (hrest c hc).1
    cases neg with
    | false =>
      simp [-List.span_eq_takeWhile_dropWhile, exponentCodes, exponentValue, scanExponent, hspan, hne]
    | true =>
      simp [-List.span_eq_takeWhile_dropWhile, exponentCodes, exponentValue, scanExponent, hspan, hne]

theorem exponentCodes_head (exponent : Option (Bool × PyText)) {rest : PyText}
    (hrest : EndsNumber rest) :
    ∀ c, (exponentCodes exponent ++ rest).head? = some c → isDigit c = false ∧ c ≠ 0x2E := by
  intro c hc
  cases exponent with
  | none => exact ⟨(hrest c hc).1, (hrest c hc).2.1⟩
  | some e =>
    obtain rfl : 0x65 = c := by simpa [exponentCodes] using hc
    exact ⟨rfl, by decide⟩

theorem scanFraction_codes {fraction : PyText} {exponent : Option (Bool × PyText)} {rest : PyText}
    (h : NumberParts fraction exponent) (hrest : EndsNumber rest) :
    scanFraction (fractionCodes fraction ++ (exponentCodes exponent ++ rest)) =
      (fraction, exponentCodes exponent ++ rest) := by
  have hhead := exponentCodes_head exponent hrest
  have hspan := span_digits h.fraction fun c hc => (hhead c hc).1
  unfold fractionCodes
  split_ifs with hfraction
  · subst hfraction
    cases hcodes : exponentCodes exponent ++ rest with
    | nil => rfl
    | cons c tail =>
      have hpoint := (hhead c (by rw [hcodes]; rfl)).2
      simp [scanFraction, hpoint]
  · simp [-List.span_eq_takeWhile_dropWhile, scanFraction, hspan, hfraction]

theorem finishNumber_float (neg : Bool) (int : PyText) {fraction : PyText}
    {exponent : Option (Bool × PyText)} {rest : PyText} (h : NumberParts fraction exponent)
    (hrest : EndsNumber rest) (hfloat : fraction ≠ [] ∨ exponent ≠ none) :
    finishNumber neg int (fractionCodes fraction ++ (exponentCodes exponent ++ rest)) =
      .ok (.float (Binary64.ofDecimal neg (digitsValue (int ++ fraction))
        ((exponentValue exponent).getD 0 - fraction.length)), rest) := by
  have hvalue : exponentValue exponent = none ↔ exponent = none := by
    cases exponent <;> simp [exponentValue]
  unfold finishNumber
  rw [scanFraction_codes h hrest]
  dsimp only
  rw [scanExponent_codes h hrest, if_neg]
  rw [hvalue]
  tauto

theorem finishNumber_int (neg : Bool) {int rest : PyText} (hrest : EndsNumber rest)
    (hlength : int.length ≤ maxStrDigits) :
    finishNumber neg int rest =
      .ok (.int none (if neg then -(digitsValue int : ℤ) else digitsValue int), rest) := by
  have hparts : NumberParts [] none := ⟨fun c hc => (nomatch hc), fun e he => (nomatch he)⟩
  have hfraction := scanFraction_codes hparts hrest
  have hexponent := scanExponent_codes hparts hrest
  simp only [fractionCodes, exponentCodes, if_true, List.nil_append] at hfraction hexponent
  unfold finishNumber
  rw [hfraction]
  dsimp only
  rw [hexponent]
  simp [exponentValue, Nat.not_lt.mpr hlength]

theorem scanNumber_codes (neg : Bool) {int tail : PyText} (hint : IntegerPart int)
    (htail : ∀ c, tail.head? = some c → isDigit c = false) :
    scanNumber (signCode neg ++ (int ++ tail)) = finishNumber neg int tail := by
  obtain ⟨c, ds, rfl⟩ := List.exists_cons_of_ne_nil hint.ne_nil
  have hc := isDigit_iff.mp (hint.digits c List.mem_cons_self)
  have hds : DigitText ds := fun d hd => hint.digits d (List.mem_cons_of_mem _ hd)
  have hspan := span_digits hds htail
  have hsign : c ≠ 0x2D := by
    rintro rfl
    exact absurd hc.1 (by decide)
  have hbody : scanNumber (signCode neg ++ (c :: ds ++ tail)) =
      if c = 0x30 then finishNumber neg [c] (ds ++ tail)
      else if isDigit c then finishNumber neg (c :: ds) tail
      else .error .jsonDecodeError := by
    cases neg with
    | false => simp [-List.span_eq_takeWhile_dropWhile, scanNumber, signCode, hsign, hspan]
    | true => simp [-List.span_eq_takeWhile_dropWhile, scanNumber, signCode, hspan]
  rw [hbody]
  split_ifs with hzero hdigit
  · rcases hint.leading with h | h
    · obtain ⟨-, rfl⟩ := List.cons.inj h
      rfl
    · exact absurd (by rw [hzero]; rfl) h
  · rfl
  · exact absurd (hint.digits c List.mem_cons_self) hdigit

/-! ## Floats -/

/-- The parts of a float, and the decimal that they read as. -/
structure Reads (int fraction : PyText) (exponent : Option (Bool × PyText)) (digits : ℕ) (exp : ℤ) :
    Prop where
  integer : IntegerPart int
  parts : NumberParts fraction exponent
  float : fraction ≠ [] ∨ exponent ≠ none
  value : ∀ neg, Binary64.ofDecimal neg (digitsValue (int ++ fraction))
    ((exponentValue exponent).getD 0 - fraction.length) = Binary64.ofDecimal neg digits exp

theorem codes_zeros (n : ℕ) : (Binary64.zeros n).map Char.toNat = List.replicate n 0x30 := by
  simp [Binary64.zeros]

theorem integerPart_digitCodes {n : ℕ} (h : n ≠ 0) : IntegerPart (digitCodes n) :=
  ⟨digitText_digitCodes n, digitCodes_ne_nil n, .inr (digitCodes_head h)⟩

theorem integerPart_take {n : ℕ} (h : n ≠ 0) {k : ℕ} (hk : 0 < k) :
    IntegerPart ((digitCodes n).take k) := by
  obtain ⟨c, ds, hcodes⟩ := List.exists_cons_of_ne_nil (digitCodes_ne_nil n)
  have hdigits := digitText_digitCodes n
  have hhead := digitCodes_head h
  obtain ⟨k, rfl⟩ := Nat.exists_eq_succ_of_ne_zero hk.ne'
  rw [hcodes] at hdigits hhead ⊢
  refine ⟨fun d hd => hdigits d (List.mem_of_mem_take hd), by simp, .inr ?_⟩
  simpa using hhead

theorem numberParts_fraction {fraction : PyText} (h : DigitText fraction) :
    NumberParts fraction none :=
  ⟨h, fun _ he => (nomatch he)⟩

theorem length_digitCodes (n : ℕ) : (digitCodes n).length = (Nat.toDigits 10 n).length :=
  List.length_map _

theorem reads_small {digits k : ℕ} {exp : ℤ}
    (hexp : exp = -((k : ℤ) + (digitCodes digits).length)) :
    Reads [0x30] (List.replicate k 0x30 ++ digitCodes digits) none digits exp where
  integer := ⟨digitText_zeros 1, by simp, .inl rfl⟩
  parts := numberParts_fraction ((digitText_zeros k).append (digitText_digitCodes digits))
  float := .inl (by simp [digitCodes_ne_nil])
  value neg := by
    have hzero : digitsValue [0x30] = 0 := rfl
    rw [digitsValue_append_digits, digitsValue_append_digits, digitsValue_zeros,
      digitsValue_digitCodes, hzero, hexp]
    simp only [exponentValue, Option.getD_none, List.length_append, List.length_replicate]
    congr 1
    · omega
    · push_cast
      omega

theorem reads_large {digits k : ℕ} (h : digits ≠ 0) :
    Reads (digitCodes digits ++ List.replicate k 0x30) [0x30] none digits k where
  integer := by
    refine ⟨(digitText_digitCodes digits).append (digitText_zeros k), by simp [digitCodes_ne_nil],
      .inr ?_⟩
    rw [List.head?_append_of_ne_nil _ (digitCodes_ne_nil digits)]
    exact digitCodes_head h
  parts := numberParts_fraction (digitText_zeros 1)
  float := .inl (by simp)
  value neg := by
    have hzero : digitsValue [0x30] = 0 := rfl
    have hvalue : digitsValue (digitCodes digits ++ List.replicate k 0x30 ++ [0x30]) =
        digits * 10 ^ (k + 1) := by
      rw [digitsValue_append_digits, digitsValue_append_digits, digitsValue_zeros,
        digitsValue_digitCodes, hzero, Nat.pow_succ]
      simp [Nat.mul_assoc]
    rw [hvalue, Binary64.ofDecimal_mul_pow]
    congr 1
    simp [exponentValue]

theorem reads_split {digits k : ℕ} (h : digits ≠ 0) (hk : 0 < k)
    (hlength : k < (digitCodes digits).length) :
    Reads ((digitCodes digits).take k) ((digitCodes digits).drop k) none digits
      (k - (digitCodes digits).length) where
  integer := integerPart_take h hk
  parts := numberParts_fraction fun c hc =>
    digitText_digitCodes digits c (List.mem_of_mem_drop hc)
  float := .inl (by simp [hlength])
  value neg := by
    rw [List.take_append_drop, digitsValue_digitCodes]
    congr 1
    simp only [exponentValue, Option.getD_none, List.length_drop]
    omega

def exponentDigits (n : ℕ) : PyText :=
  if (digitCodes n).length = 1 then 0x30 :: digitCodes n else digitCodes n

theorem digitsValue_exponentDigits (n : ℕ) : digitsValue (exponentDigits n) = n := by
  unfold exponentDigits
  split_ifs
  · exact digitsValue_digitCodes n
  · exact digitsValue_digitCodes n

theorem reads_exponent {digits : ℕ} (h : digits ≠ 0) (e : ℤ) :
    Reads ((digitCodes digits).take 1) ((digitCodes digits).drop 1)
      (some (decide (e < 0), exponentDigits e.natAbs)) digits
      (e + 1 - (digitCodes digits).length) where
  integer := integerPart_take h Nat.one_pos
  parts := by
    refine ⟨fun c hc => digitText_digitCodes digits c (List.mem_of_mem_drop hc), fun x hx => ?_⟩
    obtain rfl := Option.some.inj hx
    unfold exponentDigits
    split_ifs
    · exact ⟨(digitText_zeros 1).append (digitText_digitCodes _), by simp⟩
    · exact ⟨digitText_digitCodes _, digitCodes_ne_nil _⟩
  float := .inr (by simp)
  value neg := by
    have hvalue : (exponentValue (some (decide (e < 0), exponentDigits e.natAbs))).getD 0 = e := by
      simp only [exponentValue, digitsValue_exponentDigits, Option.getD_some, decide_eq_true_eq]
      split_ifs <;> omega
    have hpos := List.length_pos_of_ne_nil (digitCodes_ne_nil digits)
    rw [List.take_append_drop, digitsValue_digitCodes, hvalue]
    congr 1
    rw [List.length_drop]
    omega

theorem fractionCodes_of_ne {fraction : PyText} (h : fraction ≠ []) :
    fractionCodes fraction = 0x2E :: fraction := if_neg h

theorem codes_digits (n : ℕ) : (Nat.toDigits 10 n).map Char.toNat = digitCodes n := rfl

theorem codes_exponent (digits : ℕ) (e : ℤ) :
    ((Nat.toDigits 10 digits).take 1 ++
        (if (Nat.toDigits 10 digits).length = 1 then [] else '.' :: (Nat.toDigits 10 digits).drop 1) ++
        'e' :: (if e < 0 then '-' else '+') ::
          (if (Nat.toDigits 10 e.natAbs).length = 1 then '0' :: Nat.toDigits 10 e.natAbs
            else Nat.toDigits 10 e.natAbs)).map Char.toNat =
      (digitCodes digits).take 1 ++ (fractionCodes ((digitCodes digits).drop 1) ++
        exponentCodes (some (decide (e < 0), exponentDigits e.natAbs))) := by
  have hpos := List.length_pos_of_ne_nil (digitCodes_ne_nil digits)
  have hfraction : ((if (Nat.toDigits 10 digits).length = 1 then []
      else '.' :: (Nat.toDigits 10 digits).drop 1 : List Char)).map Char.toNat =
      fractionCodes ((digitCodes digits).drop 1) := by
    have hdrop : (digitCodes digits).drop 1 = [] ↔ (Nat.toDigits 10 digits).length = 1 := by
      rw [List.drop_eq_nil_iff, ← length_digitCodes]
      omega
    unfold fractionCodes
    simp only [hdrop]
    split_ifs
    · rfl
    · rw [List.map_cons, List.map_drop]
      rfl
  have hexponent : ((if (Nat.toDigits 10 e.natAbs).length = 1 then '0' :: Nat.toDigits 10 e.natAbs
      else Nat.toDigits 10 e.natAbs : List Char)).map Char.toNat = exponentDigits e.natAbs := by
    unfold exponentDigits
    rw [length_digitCodes]
    split_ifs
    · rfl
    · rfl
  have hsign : (if e < 0 then '-' else '+').toNat = if decide (e < 0) then 0x2D else 0x2B := by
    by_cases he : e < 0
    · simp [he]
    · simp [he]
  rw [List.map_append, List.map_append, hfraction, List.map_cons, List.map_cons, hexponent, hsign,
    List.append_assoc, List.map_take]
  rfl

theorem layout_reads {digits : ℕ} (h : digits ≠ 0) (exp : ℤ) :
    ∃ int fraction exponent, Reads int fraction exponent digits exp ∧
      (Binary64.layout digits exp).map Char.toNat =
        int ++ (fractionCodes fraction ++ exponentCodes exponent) := by
  have hpos := List.length_pos_of_ne_nil (digitCodes_ne_nil digits)
  have hlength := length_digitCodes digits
  unfold Binary64.layout
  dsimp only
  by_cases hplain : -4 < (((Nat.toDigits 10 digits).length : ℤ) + exp) ∧
      (((Nat.toDigits 10 digits).length : ℤ) + exp) ≤ 16
  · rw [if_pos hplain]
    split_ifs with hsmall hlarge
    · refine ⟨_, _, none, reads_small (k := ((digitCodes digits).length + exp).natAbs) ?_, ?_⟩
      · omega
      · rw [fractionCodes_of_ne (by simp [digitCodes_ne_nil]), hlength]
        simp [exponentCodes, codes_zeros, codes_digits]
    · obtain ⟨k, rfl⟩ := Int.eq_ofNat_of_zero_le (show 0 ≤ exp by omega)
      refine ⟨_, _, none, reads_large (k := k) h, ?_⟩
      have hk : (((Nat.toDigits 10 digits).length : ℤ) + k).natAbs -
          (Nat.toDigits 10 digits).length = k := by omega
      rw [hk, fractionCodes_of_ne (by simp)]
      simp [exponentCodes, codes_zeros, codes_digits]
    · have hreads := reads_split (k := ((digitCodes digits).length + exp).natAbs) h (by omega)
        (by omega)
      have hexp : ((((digitCodes digits).length + exp).natAbs : ℕ) : ℤ) -
          (digitCodes digits).length = exp := by omega
      rw [hexp] at hreads
      refine ⟨_, _, none, hreads, ?_⟩
      rw [fractionCodes_of_ne (by simp; omega), hlength]
      simp [exponentCodes, codes_digits, List.map_take, List.map_drop]
  · rw [if_neg hplain, codes_exponent]
    have hreads := reads_exponent h ((Nat.toDigits 10 digits).length + exp - 1)
    have hexp : ((Nat.toDigits 10 digits).length + exp - 1 : ℤ) + 1 - (digitCodes digits).length =
        exp := by omega
    rw [hexp] at hreads
    exact ⟨_, _, _, hreads, rfl⟩

/-! ## Numbers as they are written -/

/-- A text that is read as this number, up to what ends it. -/
structure WritesNumber (text : PyText) (v : PyObj) : Prop where
  read : ∀ rest, EndsNumber rest → scanNumber (text ++ rest) = .ok (v, rest)
  /-- A digit, possibly behind a sign. -/
  head : ∃ neg c rest, text = signCode neg ++ c :: rest ∧ isDigit c = true

theorem head_of_integerPart (neg : Bool) {int tail : PyText} (h : IntegerPart int) :
    ∃ neg' c rest, signCode neg ++ (int ++ tail) = signCode neg' ++ c :: rest ∧ isDigit c = true := by
  obtain ⟨c, ds, rfl⟩ := List.exists_cons_of_ne_nil h.ne_nil
  exact ⟨neg, c, ds ++ tail, rfl, h.digits c List.mem_cons_self⟩

/-- The parts of a float are read as the decimal of their digits. -/
theorem Reads.writesNumber {int fraction : PyText} {exponent : Option (Bool × PyText)} {digits : ℕ}
    {exp : ℤ} (h : Reads int fraction exponent digits exp) (neg : Bool) :
    WritesNumber (signCode neg ++ (int ++ (fractionCodes fraction ++ exponentCodes exponent)))
      (.float (Binary64.ofDecimal neg digits exp)) where
  read rest hrest := by
    have htail : ∀ c, (fractionCodes fraction ++ (exponentCodes exponent ++ rest)).head? = some c →
        isDigit c = false := by
      unfold fractionCodes
      split_ifs
      · exact fun c hc => (exponentCodes_head exponent hrest c hc).1
      · intro c hc
        obtain rfl : 0x2E = c := by simpa using hc
        rfl
    rw [List.append_assoc, List.append_assoc, List.append_assoc, scanNumber_codes neg h.integer htail,
      finishNumber_float neg int h.parts hrest h.float, h.value neg]
  head := head_of_integerPart neg h.integer

theorem codes_sign (neg : Bool) :
    (if neg then ['-'] else [] : List Char).map Char.toNat = signCode neg := by
  cases neg <;> rfl

theorem writesNumber_zero (neg : Bool) :
    WritesNumber (signCode neg ++ [0x30, 0x2E, 0x30]) (.float (Binary64.zero neg)) where
  read rest hrest := by
    have hint : IntegerPart [0x30] := ⟨digitText_zeros 1, by simp, .inl rfl⟩
    have hparts : NumberParts [0x30] none := numberParts_fraction (digitText_zeros 1)
    have htext : signCode neg ++ [0x30, 0x2E, 0x30] ++ rest =
        signCode neg ++ ([0x30] ++ (fractionCodes [0x30] ++ (exponentCodes none ++ rest))) := by
      rw [List.append_assoc]
      rfl
    rw [htext, scanNumber_codes neg hint, finishNumber_float neg [0x30] hparts hrest (.inl (by simp))]
    · rfl
    · intro c hc
      obtain rfl : 0x2E = c := by simpa [fractionCodes] using hc
      rfl
  head := ⟨neg, 0x30, [0x2E, 0x30], rfl, rfl⟩

theorem writesNumber_float {x : Binary64} (h : x.isFinite = true) :
    WritesNumber (x.text.map Char.toNat) (.float x) := by
  cases x with
  | inf neg => cases h
  | nan => cases h
  | finite neg mant exp hcanonical =>
    unfold Binary64.text
    dsimp only
    by_cases hzero : mant = 0
    · rw [if_pos hzero]
      have hexp : exp = -1074 := by
        obtain ⟨-, -, -, hnormal⟩ := hcanonical
        omega
      subst hzero hexp
      rw [List.map_append, codes_sign]
      have hvalue : Binary64.finite neg 0 (-1074) hcanonical = Binary64.zero neg := by
        unfold Binary64.zero Binary64.ofParts
        rw [dif_pos hcanonical]
      rw [hvalue]
      exact writesNumber_zero neg
    · rw [if_neg hzero]
      have hreads : Binary64.ofDecimal neg
          (Binary64.shortest (.finite neg mant exp hcanonical) neg mant exp).1
          (Binary64.shortest (.finite neg mant exp hcanonical) neg mant exp).2 =
            .finite neg mant exp hcanonical := Binary64.shortest_reads hcanonical hzero
      have hdigits : (Binary64.shortest (.finite neg mant exp hcanonical) neg mant exp).1 ≠ 0 := by
        intro hno
        rw [hno] at hreads
        have hcontra : Binary64.zero neg = .finite neg mant exp hcanonical := hreads
        unfold Binary64.zero Binary64.ofParts at hcontra
        split_ifs at hcontra
        exact hzero (Binary64.finite.inj hcontra).2.1.symm
      obtain ⟨int, fraction, exponent, hlayout, htext⟩ := layout_reads hdigits
        (Binary64.shortest (.finite neg mant exp hcanonical) neg mant exp).2
      rw [List.map_append, codes_sign, htext]
      have hwrites := hlayout.writesNumber neg
      rw [hreads] at hwrites
      exact hwrites

theorem writesNumber_int {i : ℤ} {text : PyText} (h : intText i = .ok text) :
    WritesNumber text (.int none i) := by
  have hprintable := intText_ok h
  have hlength : (digitCodes i.natAbs).length ≤ maxStrDigits := by
    rw [length_digitCodes]
    exact hprintable
  have hint : IntegerPart (digitCodes i.natAbs) := by
    by_cases hzero : i.natAbs = 0
    · rw [hzero]
      exact ⟨digitText_zeros 1, digitCodes_ne_nil 0, .inl rfl⟩
    · exact integerPart_digitCodes hzero
  have htext : text = signCode (decide (i < 0)) ++ (digitCodes i.natAbs ++ []) := by
    unfold intText at h
    rw [if_pos hprintable] at h
    obtain rfl := Except.ok.inj h
    rw [List.map_append, List.append_nil]
    congr 1
    by_cases hneg : i < 0
    · simp [signCode, hneg]
    · simp [signCode, hneg]
  constructor
  · intro rest hrest
    rw [htext, List.append_nil, List.append_assoc,
      scanNumber_codes _ hint fun c hc => (hrest c hc).1, finishNumber_int _ hrest hlength,
      digitsValue_digitCodes]
    congr 3
    by_cases hneg : i < 0
    · simp only [hneg, decide_true, if_true]
      omega
    · simp only [hneg, decide_false]
      simp
      omega
  · rw [htext]
    exact head_of_integerPart _ hint

end AskLens.Python
