import AskLens.Python.Numbers
import AskLens.Python.Slug

/-!
# UUID texts

The canonical text of a UUID is read back as the same number, and what is read
fits into 128 bits.
-/
namespace AskLens.Python

/-! ## Hexadecimal digits -/

/-- The lower-case digits that `hexDigit` writes. -/
def IsHexChar (c : Char) : Prop := ∃ d, d < 16 ∧ c = hexDigit d

theorem hexDigit_forall {P : Char → Prop} (h : ∀ d : Fin 16, P (hexDigit d)) {c : Char}
    (hc : IsHexChar c) : P c := by
  obtain ⟨d, hd, rfl⟩ := hc
  exact h ⟨d, hd⟩

@[simp] theorem padHex_length (width n : ℕ) : (padHex width n).length = width := by
  induction width generalizing n with
  | zero => rfl
  | succ width ih => simp [padHex, ih]

theorem isHexChar_of_mem_padHex {width n : ℕ} {c : Char} (h : c ∈ padHex width n) :
    IsHexChar c := by
  induction width generalizing n with
  | zero => simp [padHex] at h
  | succ width ih =>
    rw [padHex, List.mem_append] at h
    rcases h with h | h
    · exact ih h
    · exact ⟨n % 16, Nat.mod_lt n (by omega), List.mem_singleton.mp h⟩

/-- The digits of a number split into the digits of its parts. -/
theorem padHex_add (a b n : ℕ) : padHex (a + b) n = padHex a (n / 16 ^ b) ++ padHex b n := by
  induction b generalizing n with
  | zero => simp [padHex]
  | succ b ih =>
    have hdiv : n / 16 / 16 ^ b = n / 16 ^ (b + 1) := by
      rw [Nat.div_div_eq_div_mul, pow_succ, mul_comm]
    rw [← Nat.add_assoc, padHex, ih, hdiv, padHex, List.append_assoc]

def hexValueOf (cs : List Char) (acc : ℕ) : ℕ :=
  cs.foldl (fun n c => n * 16 + (hexDigitValue c).getD 0) acc

theorem hexDigitValue_hexDigit {d : ℕ} (h : d < 16) : hexDigitValue (hexDigit d) = some d := by
  interval_cases d <;> rfl

theorem readHexDigits_some {cs : List Char} (h : ∀ c ∈ cs, IsHexChar c) (acc : ℕ) :
    readHexDigits (some acc) cs = some (hexValueOf cs acc) := by
  induction cs generalizing acc with
  | nil => rfl
  | cons c cs ih =>
    have hrest := fun m => ih (fun d hd => h d (by simp [hd])) m
    obtain ⟨d, hd, rfl⟩ := h c (by simp)
    have hvalue := hexDigitValue_hexDigit hd
    have hne : hexDigit d ≠ '_' := by interval_cases d <;> decide
    rw [readHexDigits]
    · simp only [hvalue, Option.bind_some, Option.getD_some, hrest, hexValueOf, List.foldl_cons]
    · intro n c' cs' _ hc'
      exact absurd hc' hne

theorem readHexDigits_none {cs : List Char} (h : ∀ c ∈ cs, IsHexChar c) (hne : cs ≠ []) :
    readHexDigits none cs = some (hexValueOf cs 0) := by
  cases cs with
  | nil => exact absurd rfl hne
  | cons c cs =>
    have hrest := readHexDigits_some fun d hd => h d (List.mem_cons_of_mem c hd)
    obtain ⟨d, hd, rfl⟩ := h c (by simp)
    have hvalue := hexDigitValue_hexDigit hd
    rw [readHexDigits]
    · simp only [hvalue, Option.bind_some, Option.getD_none, hrest, hexValueOf, List.foldl_cons,
        Option.getD_some]
    · intro n c' cs' hnone
      cases hnone

theorem hexValueOf_padHex (width n acc : ℕ) :
    hexValueOf (padHex width n) acc = acc * 16 ^ width + n % 16 ^ width := by
  induction width generalizing n with
  | zero => simp [padHex, hexValueOf, Nat.mod_one]
  | succ width ih =>
    have hdigit := hexDigitValue_hexDigit (Nat.mod_lt n (show 0 < 16 by omega))
    have hfold : hexValueOf (padHex (width + 1) n) acc =
        hexValueOf (padHex width (n / 16)) acc * 16 + n % 16 := by
      simp [padHex, hexValueOf, List.foldl_append, hdigit]
    have hmod : n % 16 ^ (width + 1) = n / 16 % 16 ^ width * 16 + n % 16 := by
      rw [pow_succ, mul_comm, Nat.mod_mul]
      omega
    rw [hfold, ih, hmod, pow_succ, Nat.add_mul, Nat.mul_assoc, Nat.add_assoc]

/-! ## The canonical text -/

theorem toAsciiDigit_hexChar (unicode : Unicode) {c : Char} (h : IsHexChar c) :
    toAsciiDigit unicode c = c := by
  obtain ⟨d, hd, rfl⟩ := h
  unfold toAsciiDigit
  by_cases hdigit : d < 10
  · have hc : hexDigit d = Char.ofNat (48 + d) := by simp [hexDigit, hdigit]
    have hvalue := unicode.digitValue_ascii ⟨d, hdigit⟩
    rw [hc, hvalue]
    rfl
  · have hnone : unicode.digitValue (hexDigit d) = none := by
      apply unicode.digitValue_other
      · interval_cases d <;> decide
      · interval_cases d <;> rfl
    rw [hnone]

theorem removeAll_eq_self {c : Char} {old cs : List Char} (h : c ∉ cs) :
    removeAll (c :: old) cs 0 = cs := by
  induction cs with
  | nil => rfl
  | cons d cs ih =>
    obtain ⟨hd, hcs⟩ : c ≠ d ∧ c ∉ cs := by simpa using h
    rw [removeAll, if_neg (by simp [List.isPrefixOf, hd]), ih hcs]

theorem dropHexPrefix_eq_self {cs : List Char} (h : ∀ c ∈ cs, IsHexChar c) :
    dropHexPrefix cs = cs := by
  unfold dropHexPrefix
  split
  · rename_i x cs
    have hx : ¬ (x = 'x' ∨ x = 'X') :=
      hexDigit_forall (P := fun x => ¬ (x = 'x' ∨ x = 'X')) (by decide) (h x (by simp))
    rw [if_neg hx]
  · rfl

theorem parseHexInt_padHex (unicode : Unicode) (width n : ℕ) :
    parseHexInt unicode (padHex (width + 1) n) = some (n % 16 ^ (width + 1)) := by
  have hchars : ∀ c ∈ padHex (width + 1) n, IsHexChar c := fun c => isHexChar_of_mem_padHex
  have hstrip : stripBy isSpace (padHex (width + 1) n) = padHex (width + 1) n :=
    stripBy_eq_self fun c hc =>
      hexDigit_forall (P := fun c => isSpace c = false) (by decide) (hchars c hc)
  have hascii : (padHex (width + 1) n).map (toAsciiDigit unicode) = padHex (width + 1) n :=
    (List.map_congr_left fun c hc => toAsciiDigit_hexChar unicode (hchars c hc)).trans
      (List.map_id' _)
  have hplus : (padHex (width + 1) n).head? ≠ some '+' := by
    intro hhead
    have hmem := List.mem_of_mem_head? hhead
    exact hexDigit_forall (P := fun c => c ≠ '+') (by decide) (hchars _ hmem) rfl
  have hne : padHex (width + 1) n ≠ [] := by simp [padHex]
  rw [parseHexInt, hstrip, hascii, if_neg hplus, dropHexPrefix_eq_self hchars, readHexDigits_none hchars hne,
    hexValueOf_padHex, Nat.zero_mul, Nat.zero_add]

theorem formatUuid_chars {n : ℕ} {c : Char} (h : c ∈ (formatUuid n).toList) :
    c = '-' ∨ IsHexChar c := by
  simp only [formatUuid, String.toList_ofList, List.mem_append, List.mem_cons] at h
  rcases h with h | rfl | h | rfl | h | rfl | h | rfl | h
  all_goals first
    | exact .inl rfl
    | exact .inr (isHexChar_of_mem_padHex h)

theorem uuidHex_formatUuid (n : ℕ) : uuidHex (formatUuid n) = padHex 32 n := by
  have hexcept {x : Char} (hhex : ∀ d : Fin 16, hexDigit d ≠ x) (hdash : x ≠ '-') :
      x ∉ (formatUuid n).toList := by
    intro hx
    rcases formatUuid_chars hx with rfl | hx
    · exact hdash rfl
    · exact hexDigit_forall (P := fun c => c ≠ x) hhex hx rfl
  have hstrip : stripBy isBrace (formatUuid n).toList = (formatUuid n).toList := by
    refine stripBy_eq_self fun c hc => ?_
    rcases formatUuid_chars hc with rfl | hc
    · rfl
    · exact hexDigit_forall (P := fun c => isBrace c = false) (by decide) hc
  have hkeep (w m : ℕ) : (padHex w m).filter (· != '-') = padHex w m := by
    rw [List.filter_eq_self]
    intro c hc
    exact hexDigit_forall (P := fun c => (c != '-') = true) (by decide)
      (isHexChar_of_mem_padHex hc)
  have hsplit : padHex 32 n = padHex 8 (n / 16 ^ 24) ++ (padHex 4 (n / 16 ^ 20) ++
      (padHex 4 (n / 16 ^ 16) ++ (padHex 4 (n / 16 ^ 12) ++ padHex 12 n))) := by
    rw [padHex_add 8 24, padHex_add 4 20, padHex_add 4 16, padHex_add 4 12]
  have hurn : removeAll "urn:".toList (formatUuid n).toList 0 = (formatUuid n).toList :=
    removeAll_eq_self (hexcept (by decide) (by decide))
  have huuid : removeAll "uuid:".toList (formatUuid n).toList 0 = (formatUuid n).toList :=
    removeAll_eq_self (hexcept (by decide) (by decide))
  rw [uuidHex, hurn, huuid, hstrip, formatUuid, String.toList_ofList, hsplit]
  simp only [List.filter_append, List.filter_cons, hkeep]
  rfl

theorem readUuid_formatUuid (unicode : Unicode) {n : ℕ} (h : n < 16 ^ 32) :
    readUuid unicode (formatUuid n) = some n := by
  rw [readUuid, uuidHex_formatUuid, if_pos (padHex_length 32 n), parseHexInt_padHex,
    Nat.mod_eq_of_lt h]

/-! ## The range of UUIDs -/

theorem hexValue_lt {c d : ℕ} (h : hexValue c = some d) : d < 16 := by
  unfold hexValue at h
  split_ifs at h with hdigit hlower hupper
  · have hc := isDigit_iff.mp hdigit
    obtain rfl := Option.some.inj h
    omega
  · have hc : (0x61 : ℕ) ≤ c ∧ c ≤ (0x66 : ℕ) := hlower
    obtain rfl := Option.some.inj h
    omega
  · have hc : (0x41 : ℕ) ≤ c ∧ c ≤ (0x46 : ℕ) := hupper
    obtain rfl := Option.some.inj h
    omega

theorem readHexDigits_lt {acc : Option ℕ} {cs : List Char} {n : ℕ}
    (h : readHexDigits acc cs = some n) : n < (acc.getD 0 + 1) * 16 ^ cs.length := by
  have hstep : ∀ m d k : ℕ, d < 16 → (m * 16 + d + 1) * 16 ^ k ≤ (m + 1) * 16 ^ (k + 1) := by
    intro m d k hd
    rw [pow_succ, Nat.mul_comm (16 ^ k) 16, ← Nat.mul_assoc]
    exact Nat.mul_le_mul_right _ (by omega)
  fun_induction readHexDigits acc cs with
  | case1 acc =>
    subst h
    simp
  | case2 m c cs ih =>
    obtain ⟨d, hd, hread⟩ := Option.bind_eq_some_iff.mp h
    calc n < (m * 16 + d + 1) * 16 ^ cs.length := ih d hread
      _ ≤ (m + 1) * 16 ^ (cs.length + 1) := hstep m d _ (hexValue_lt hd)
      _ ≤ (m + 1) * 16 ^ (cs.length + 2) :=
        Nat.mul_le_mul_left _ (Nat.pow_le_pow_right (by omega) (by omega))
  | case3 acc c cs _ ih =>
    obtain ⟨d, hd, hread⟩ := Option.bind_eq_some_iff.mp h
    calc n < (acc.getD 0 * 16 + d + 1) * 16 ^ cs.length := ih d hread
      _ ≤ (acc.getD 0 + 1) * 16 ^ (cs.length + 1) := hstep _ d _ (hexValue_lt hd)

theorem dropHexPrefix_suffix (cs : List Char) : dropHexPrefix cs <:+ cs := by
  unfold dropHexPrefix
  split
  · split_ifs
    · exact (List.drop_suffix _ _).trans ⟨['0', _], rfl⟩
    · exact ⟨['0', _], rfl⟩
    · exact List.suffix_refl _
  · exact List.suffix_refl _

theorem length_stripBy_le (p : Char → Bool) (cs : List Char) :
    (stripBy p cs).length ≤ cs.length := by
  rw [stripBy_eq]
  exact (List.rdropWhile_prefix p _).length_le.trans (List.dropWhile_sublist p).length_le

theorem parseHexInt_lt {unicode : Unicode} {cs : List Char} {n : ℕ}
    (h : parseHexInt unicode cs = some n) : n < 16 ^ cs.length := by
  unfold parseHexInt at h
  extract_lets digits at h
  have hdigits : digits.length ≤ cs.length := by
    rw [List.length_map]
    exact length_stripBy_le isSpace cs
  have hbody : (if digits.head? = some '+' then digits.drop 1 else digits).length ≤ cs.length := by
    split_ifs
    · exact (List.drop_suffix 1 digits).length_le.trans hdigits
    · exact hdigits
  have hread := readHexDigits_lt h
  rw [Option.getD_none, Nat.zero_add, Nat.one_mul] at hread
  exact hread.trans_le (Nat.pow_le_pow_right (by omega)
    ((dropHexPrefix_suffix _).length_le.trans hbody))

theorem readUuid_lt {unicode : Unicode} {text : String} {n : ℕ}
    (h : readUuid unicode text = some n) : n < 16 ^ 32 := by
  unfold readUuid at h
  split_ifs at h with hlength
  rw [← hlength]
  exact parseHexInt_lt h

end AskLens.Python
