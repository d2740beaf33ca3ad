import AskLens.Python.Json
import Mathlib.Data.List.Induction
import Mathlib.Data.List.TakeDrop
import Mathlib.Data.List.TakeWhile

/-!
# Which errors the `json` module raises

A decoded value can be encoded within the depth that decoding it took. Apart
from `JSONDecodeError`, decoding fails only on an integer literal that is too
long or on a nesting that is too deep, and both are visible in the text.
-/
namespace AskLens.Python

open Checks

/-! ## Encoding -/

def Encodable (depth : ℕ) (v : PyObj) : Prop := ∃ text, encode depth v = .ok text

theorem intText_error {i : ℤ} {e : BuiltinError} (h : intText i = .error e) : e = .valueError := by
  unfold intText at h
  split_ifs at h
  simpa using h.symm

theorem intText_ok {i : ℤ} {text : PyText} (h : intText i = .ok text) : Printable i := by
  unfold intText at h
  split at h
  · assumption
  · cases h

theorem encodeScalar_error {v : PyObj} {e : BuiltinError} (h : encodeScalar v = .error e) :
    e = .valueError ∨ e = .typeError := by
  cases v with
  | int cls i => exact .inl (intText_error h)
  | cycle => exact .inl (by simpa [encodeScalar] using h.symm)
  | _ => simp_all [encodeScalar]

theorem encodeKey_error {v : PyObj} {e : BuiltinError} (h : encodeKey v = .error e) :
    e = .valueError ∨ e = .typeError := by
  cases v with
  | int cls i =>
    rcases bind_eq_error.mp h with h | ⟨text, -, h⟩
    · exact .inl (intText_error h)
    · cases h
  | _ => simp_all [encodeKey, encodeScalar]

theorem encode_error {depth : ℕ} {v : PyObj} {e : BuiltinError} (h : encode depth v = .error e) :
    e = .valueError ∨ e = .typeError ∨ e = .recursionError := by
  have hscalar : ∀ {v : PyObj}, encodeScalar v = .error e →
      e = .valueError ∨ e = .typeError ∨ e = .recursionError :=
    fun h => (encodeScalar_error h).imp_right .inl
  induction depth generalizing v with
  | zero =>
    rw [encode] at h
    split_ifs at h
    · exact .inr (.inr (by simpa using h.symm))
    · exact hscalar h
  | succ depth ih =>
    have hitems : ∀ {items : List PyObj}, items.mapM (encode depth) = .error e →
        e = .valueError ∨ e = .typeError ∨ e = .recursionError := by
      intro items h
      obtain ⟨_, item, _, -, -, h⟩ := mapM_eq_error.mp h
      exact ih h
    cases v with
    | list items =>
      rcases bind_eq_error.mp h with h | ⟨_, -, h⟩
      · exact hitems h
      · cases h
    | tuple items =>
      rcases bind_eq_error.mp h with h | ⟨_, -, h⟩
      · exact hitems h
      · cases h
    | dict entries =>
      rcases bind_eq_error.mp h with h | ⟨_, -, h⟩
      · obtain ⟨_, entry, _, -, -, h⟩ := mapM_eq_error.mp h
        rcases bind_eq_error.mp h with h | ⟨_, -, h⟩
        · exact (encodeKey_error h).imp_right .inl
        · rcases bind_eq_error.mp h with h | ⟨_, -, h⟩
          · exact ih h
          · cases h
      · cases h
    | _ => exact hscalar h

theorem Encodable.item {depth : ℕ} {v : PyObj} {items : List PyObj} (h : Encodable depth v)
    (hitems : sequence? v = some items) : ∃ d, ∀ item ∈ items, Encodable d item := by
  obtain ⟨text, htext⟩ := h
  cases depth with
  | zero => cases v <;> simp_all [sequence?, encode, isContainer]
  | succ depth =>
    refine ⟨depth, fun item hitem => ?_⟩
    cases v with
    | list as =>
      obtain rfl : as = items := by simpa [sequence?] using hitems
      obtain ⟨parts, hparts, -⟩ := bind_eq_ok.mp htext
      obtain ⟨part, -, hpart⟩ := exists_result_of_mapM hparts hitem
      exact ⟨part, hpart⟩
    | tuple as =>
      obtain rfl : as = items := by simpa [sequence?] using hitems
      obtain ⟨parts, hparts, -⟩ := bind_eq_ok.mp htext
      obtain ⟨part, -, hpart⟩ := exists_result_of_mapM hparts hitem
      exact ⟨part, hpart⟩
    | _ => simp [sequence?] at hitems

theorem Encodable.value {depth : ℕ} {entries : List (PyObj × PyObj)}
    (h : Encodable depth (.dict entries)) : ∃ d, ∀ entry ∈ entries, Encodable d entry.2 := by
  obtain ⟨text, htext⟩ := h
  cases depth with
  | zero => simp [encode, isContainer] at htext
  | succ depth =>
    refine ⟨depth, fun entry hentry => ?_⟩
    obtain ⟨parts, hparts, -⟩ := bind_eq_ok.mp htext
    obtain ⟨part, -, hpart⟩ := exists_result_of_mapM hparts hentry
    obtain ⟨key, -, hpart⟩ := bind_eq_ok.mp hpart
    obtain ⟨value, hvalue, -⟩ := bind_eq_ok.mp hpart
    exact ⟨value, hvalue⟩

theorem Encodable.printable {depth : ℕ} {cls : PyClass} {i : ℤ}
    (h : Encodable depth (.int cls i)) : Printable i := by
  obtain ⟨text, htext⟩ := h
  cases depth with
  | zero => exact intText_ok htext
  | succ depth => exact intText_ok htext

theorem mem_of_lookupKey {entries : List (PyObj × PyObj)} {key : String} {v : PyObj}
    (h : lookupKey entries key = some v) : ∃ entry ∈ entries, entry.2 = v := by
  induction entries with
  | nil => simp [lookupKey] at h
  | cons entry rest ih =>
    obtain ⟨k, w⟩ := entry
    have hrest : lookupKey rest key = some v → ∃ entry ∈ (k, w) :: rest, entry.2 = v := by
      intro h
      obtain ⟨entry, hentry, hv⟩ := ih h
      exact ⟨entry, by simp [hentry], hv⟩
    unfold lookupKey at h
    split at h
    · contradiction
    · rename_i hcons
      obtain ⟨⟨-, rfl⟩, rfl⟩ := by simpa using hcons
      split_ifs at h
      · exact ⟨(k, w), by simp, by simpa using h⟩
      · exact hrest h
    · rename_i hcons
      obtain ⟨rfl, rfl⟩ := List.cons.inj hcons
      exact hrest h

theorem Encodable.lookup {depth : ℕ} {entries : List (PyObj × PyObj)} {key : String} {v : PyObj}
    (h : Encodable depth (.dict entries)) (hv : lookupKey entries key = some v) :
    ∃ d, Encodable d v := by
  obtain ⟨d, hd⟩ := h.value
  obtain ⟨entry, hentry, rfl⟩ := mem_of_lookupKey hv
  exact ⟨d, hd entry hentry⟩

/-! ## Decoding -/

/-- Where an object or an array begins, also inside a string. -/
def isOpening (c : CodePoint) : Bool := c == 0x5B || c == 0x7B

def openings (t : PyText) : ℕ := t.countP isOpening

def LongRun (t : PyText) : Prop :=
  ∃ run, run <:+: t ∧ (∀ c ∈ run, isDigit c = true) ∧ maxStrDigits < run.length

/-- What reading a value of some depth may lead to, when `calls` nested calls are left. -/
def Scanned (calls depth : ℕ) (t : PyText) : Except BuiltinError (PyObj × PyText) → Prop
  | .ok (v, rest) => rest <:+ t ∧ Encodable depth v
  | .error e => e = .jsonDecodeError ∨ (e = .valueError ∧ LongRun t) ∨
    (e = .recursionError ∧ calls < openings t)

theorem openings_mono {s t : PyText} (h : s <:+ t) : openings s ≤ openings t :=
  h.sublist.countP_le

theorem LongRun.mono {s t : PyText} (h : s <:+ t) (hs : LongRun s) : LongRun t := by
  obtain ⟨run, hrun, hdigits, hlong⟩ := hs
  exact ⟨run, hrun.trans h.isInfix, hdigits, hlong⟩

theorem Scanned.mono {calls depth : ℕ} {s t : PyText} {r : Except BuiltinError (PyObj × PyText)}
    (h : s <:+ t) (hs : Scanned calls depth s r) : Scanned calls depth t r := by
  cases r with
  | ok result => exact ⟨hs.1.trans h, hs.2⟩
  | error e =>
    rcases hs with hs | ⟨he, hlong⟩ | ⟨he, hdepth⟩
    · exact .inl hs
    · exact .inr (.inl ⟨he, hlong.mono h⟩)
    · exact .inr (.inr ⟨he, lt_of_lt_of_le hdepth (openings_mono h)⟩)

theorem scanned_decodeError {calls depth : ℕ} {t : PyText} :
    Scanned calls depth t (.error .jsonDecodeError) :=
  .inl rfl

theorem skipSpace_suffix (t : PyText) : skipSpace t <:+ t := List.dropWhile_suffix _

theorem scanString_suffix {t acc s rest : PyText} (h : scanString t acc = some (s, rest)) :
    rest <:+ t := by
  fun_induction scanString t acc
  case case2 =>
    obtain ⟨-, rfl⟩ := by simpa using h
    exact List.suffix_cons _ _
  all_goals first
    | cases h
    | (rename_i ih
       exact (ih h).trans (by simp [List.suffix_cons_iff]))

theorem span_append (p : CodePoint → Bool) (t : PyText) : (t.span p).1 ++ (t.span p).2 = t := by
  rw [List.span_eq_takeWhile_dropWhile]
  exact List.takeWhile_append_dropWhile

theorem span_suffix (p : CodePoint → Bool) (t : PyText) : (t.span p).2 <:+ t :=
  ⟨_, span_append p t⟩

theorem span_all (p : CodePoint → Bool) (t : PyText) : ∀ c ∈ (t.span p).1, p c = true := by
  intro c hc
  rw [List.span_eq_takeWhile_dropWhile] at hc
  exact List.mem_takeWhile_imp hc

theorem scanFraction_suffix (t : PyText) : (scanFraction t).2 <:+ t := by
  unfold scanFraction
  split
  · dsimp only
    split_ifs
    · exact List.suffix_refl _
    · exact (span_suffix _ _).trans (List.suffix_cons _ _)
  · exact List.suffix_refl _

theorem scanExponent_suffix (t : PyText) : (scanExponent t).2 <:+ t := by
  unfold scanExponent
  split
  · exact List.suffix_refl _
  · rename_i e rest
    dsimp only
    split_ifs
    all_goals first
      | exact List.suffix_refl _
      | exact (span_suffix _ _).trans ((List.drop_suffix _ _).trans (List.suffix_cons _ _))
      | exact (span_suffix _ _).trans (List.suffix_cons _ _)

theorem digitsValue_append (ds : PyText) (c : CodePoint) :
    digitsValue (ds ++ [c]) = digitsValue ds * 10 + (c - 0x30) := by
  simp [digitsValue]

theorem digitsValue_lt {ds : List ℕ} (h : ∀ c ∈ ds, isDigit c = true) :
    digitsValue ds < 10 ^ ds.length := by
  induction ds using List.reverseRecOn with
  | nil => simp [digitsValue]
  | append_singleton ds c ih =>
    have hds : digitsValue ds < 10 ^ ds.length := ih fun d hd => h d (by simp [hd])
    have hc : isDigit c = true := h c (by simp)
    have hvalue : c - 0x30 ≤ 9 := by
      have := isDigit_iff.mp hc
      exact Nat.sub_le_of_le_add (by omega)
    rw [digitsValue_append, List.length_append, List.length_singleton, Nat.pow_succ]
    omega

theorem printable_digitsValue {ds : PyText} {i : ℤ} (h : ∀ c ∈ ds, isDigit c = true)
    (hlength : ds.length ≤ maxStrDigits) (hi : i.natAbs = digitsValue ds) : Printable i := by
  rw [Printable, hi, Nat.length_toDigits_le_iff (by decide) (by decide)]
  exact lt_of_lt_of_le (digitsValue_lt h) (Nat.pow_le_pow_right (by decide) hlength)

theorem encodable_scalar {depth : ℕ} {v : PyObj} (hscalar : isContainer v = false)
    (h : ∃ text, encodeScalar v = .ok text) : Encodable depth v := by
  obtain ⟨text, htext⟩ := h
  refine ⟨text, ?_⟩
  cases depth with
  | zero => simpa [encode, hscalar] using htext
  | succ depth => cases v <;> simp_all [encode, isContainer]

theorem finishNumber_scanned {calls depth : ℕ} {neg : Bool} {digits rest : PyText}
    (hdigits : ∀ c ∈ digits, isDigit c = true) :
    Scanned calls depth (digits ++ rest) (finishNumber neg digits rest) := by
  have hrest : rest <:+ digits ++ rest := List.suffix_append _ _
  unfold finishNumber
  dsimp only
  split
  · split
    · rename_i hlong
      exact .inr (.inl ⟨rfl, digits, List.infix_append [] _ _, hdigits, hlong⟩)
    · rename_i hlong
      refine ⟨hrest, encodable_scalar rfl ⟨_, if_pos ?_⟩⟩
      exact printable_digitsValue hdigits (by omega) (by split_ifs <;> simp)
  · exact ⟨(scanExponent_suffix _).trans ((scanFraction_suffix _).trans hrest),
      encodable_scalar rfl ⟨_, rfl⟩⟩

theorem scanNumber_scanned {calls depth : ℕ} (t : PyText) : Scanned calls depth t (scanNumber t) := by
  have hbody : (if t.head? = some 0x2D then t.drop 1 else t) <:+ t := by
    split_ifs
    · exact List.drop_suffix _ _
    · exact List.suffix_refl _
  unfold scanNumber
  dsimp only
  split
  · exact scanned_decodeError
  · rename_i c rest heq
    rw [heq] at hbody
    split_ifs with hzero hdigit
    · have h (neg : Bool) : Scanned calls depth ([c] ++ rest) (finishNumber neg [c] rest) :=
        finishNumber_scanned (by simp [hzero, isDigit])
      exact (h _).mono hbody
    · have h (neg : Bool) :
          Scanned calls depth (c :: (rest.span isDigit).1 ++ (rest.span isDigit).2)
            (finishNumber neg (c :: (rest.span isDigit).1) (rest.span isDigit).2) :=
        finishNumber_scanned (by simpa [hdigit] using span_all isDigit rest)
      simp only [List.cons_append, span_append] at h
      exact (h _).mono hbody
    · exact scanned_decodeError

theorem matchWord_suffix {word : String} {t rest : PyText} (h : matchWord word t = some rest) :
    rest <:+ t := by
  unfold matchWord at h
  dsimp only at h
  split_ifs at h
  obtain rfl := Option.some.inj h
  exact List.drop_suffix _ _

theorem encodable_ofText {depth : ℕ} (t : PyText) : Encodable depth (.ofText t) := by
  unfold PyObj.ofText
  split
  · exact encodable_scalar rfl ⟨_, rfl⟩
  · exact encodable_scalar rfl ⟨_, rfl⟩

theorem scanScalar_scanned {calls depth : ℕ} (t : PyText) :
    Scanned calls depth t (scanScalar t) := by
  have hword : ∀ {word : String} {rest : PyText} {v : PyObj}, matchWord word t = some rest →
      isContainer v = false → (∃ text, encodeScalar v = .ok text) →
      Scanned calls depth t (.ok (v, rest)) :=
    fun h hv htext => ⟨matchWord_suffix h, encodable_scalar hv htext⟩
  unfold scanScalar
  split
  · exact hword ‹_› rfl ⟨_, rfl⟩
  split
  · exact hword ‹_› rfl ⟨_, rfl⟩
  split
  · exact hword ‹_› rfl ⟨_, rfl⟩
  split
  · exact hword ‹_› rfl ⟨_, rfl⟩
  split
  · exact hword ‹_› rfl ⟨_, rfl⟩
  split
  · exact hword ‹_› rfl ⟨_, rfl⟩
  split
  · split
    · rename_i h
      exact ⟨(scanString_suffix h).trans (List.suffix_cons _ _), encodable_ofText _⟩
    · exact scanned_decodeError
  · exact scanNumber_scanned t

theorem encodable_list {depth : ℕ} {items : List PyObj} (h : ∀ v ∈ items, Encodable depth v) :
    Encodable (depth + 1) (.list items) := by
  obtain ⟨parts, hparts⟩ := mapM_ok_iff.mpr h
  exact ⟨_, bind_eq_ok.mpr ⟨parts, hparts, rfl⟩⟩

theorem encodeKey_ofText (t : PyText) : ∃ text, encodeKey (.ofText t) = .ok text := by
  unfold PyObj.ofText
  split
  · exact ⟨_, rfl⟩
  · exact ⟨_, rfl⟩

theorem encodable_dict {depth : ℕ} {entries : List (PyObj × PyObj)}
    (h : ∀ e ∈ entries, (∃ key, encodeKey e.1 = .ok key) ∧ Encodable depth e.2) :
    Encodable (depth + 1) (.dict entries) := by
  have hentry : ∀ entry ∈ entries, ∃ text,
      (do
        let key ← encodeKey entry.1
        let value ← encode depth entry.2
        Except.ok (key ++ 0x3A :: value)) = .ok text := by
    intro entry hentry
    obtain ⟨⟨key, hkey⟩, value, hvalue⟩ := h entry hentry
    exact ⟨_, bind_eq_ok.mpr ⟨key, hkey, bind_eq_ok.mpr ⟨value, hvalue, rfl⟩⟩⟩
  obtain ⟨parts, hparts⟩ := mapM_ok_iff.mpr hentry
  exact ⟨_, bind_eq_ok.mpr ⟨parts, hparts, rfl⟩⟩

theorem encodable_members {depth : ℕ} {members : List (PyText × PyObj)}
    (h : ∀ m ∈ members, Encodable depth m.2) :
    Encodable (depth + 1) (.dict (members.map fun m => (PyObj.ofText m.1, m.2))) := by
  apply encodable_dict
  intro entry hentry
  obtain ⟨m, hm, rfl⟩ := List.mem_map.mp hentry
  exact ⟨encodeKey_ofText m.1, h m hm⟩

theorem encodable_dict_nil {depth : ℕ} : Encodable (depth + 1) (.dict []) := ⟨_, rfl⟩

theorem mem_setMember {members : List (PyText × PyObj)} {key : PyText} {value : PyObj}
    {m : PyText × PyObj} (h : m ∈ setMember members key value) : m.2 = value ∨ m ∈ members := by
  induction members with
  | nil =>
    obtain rfl : m = (key, value) := by simpa [setMember] using h
    exact .inl rfl
  | cons entry rest ih =>
    obtain ⟨k, v⟩ := entry
    rw [setMember] at h
    split_ifs at h
    · rcases List.mem_cons.mp h with rfl | h
      · exact .inl rfl
      · exact .inr (by simp [h])
    · rcases List.mem_cons.mp h with rfl | h
      · exact .inr (by simp)
      · exact (ih h).imp_right fun h => by simp [h]

section

variable {depth : ℕ} {element : Scanner}

theorem scanItems_scanned (helement : ∀ t, Scanned depth depth t (element t)) {fuel : ℕ}
    {t : PyText} {acc : List PyObj} (hacc : ∀ v ∈ acc, Encodable depth v) :
    Scanned depth (depth + 1) t (scanItems element fuel t acc) := by
  induction fuel generalizing t acc with
  | zero => exact scanned_decodeError
  | succ fuel ih =>
    have h := helement t
    rw [scanItems]
    cases hitem : element t with
    | error e =>
      rw [hitem] at h
      exact h
    | ok result =>
      obtain ⟨item, rest⟩ := result
      rw [hitem] at h
      have hspace : skipSpace rest <:+ t := (skipSpace_suffix rest).trans h.1
      have hitems : ∀ v ∈ item :: acc, Encodable depth v := by
        simpa using ⟨h.2, hacc⟩
      rw [ok_bind]
      dsimp only
      split
      · rename_i rest' heq
        rw [heq] at hspace
        have hrest : skipSpace rest' <:+ t :=
          (skipSpace_suffix rest').trans ((List.suffix_cons _ _).trans hspace)
        exact (ih hitems).mono hrest
      · rename_i rest' heq
        rw [heq] at hspace
        refine ⟨(List.suffix_cons _ _).trans hspace, encodable_list fun v hv => ?_⟩
        exact hitems v (List.mem_reverse.mp hv)
      · exact scanned_decodeError

theorem scanMembers_scanned (helement : ∀ t, Scanned depth depth t (element t)) {fuel : ℕ}
    {t : PyText} {acc : List (PyText × PyObj)} (hacc : ∀ m ∈ acc, Encodable depth m.2) :
    Scanned depth (depth + 1) t (scanMembers element fuel t acc) := by
  induction fuel generalizing t acc with
  | zero => exact scanned_decodeError
  | succ fuel ih =>
    unfold scanMembers
    split
    · rename_i rest
      split
      · exact scanned_decodeError
      · rename_i key rest' hkey
        have hrest' : rest' <:+ 0x22 :: rest :=
          (scanString_suffix hkey).trans (List.suffix_cons _ _)
        split
        · rename_i body hbody
          have hcolon : skipSpace body <:+ 0x22 :: rest := by
            have hspace := (skipSpace_suffix rest').trans hrest'
            rw [hbody] at hspace
            exact (skipSpace_suffix body).trans ((List.suffix_cons _ _).trans hspace)
          have h := (helement (skipSpace body)).mono hcolon
          cases hvalue : element (skipSpace body) with
          | error e =>
            rw [hvalue] at h
            exact h
          | ok result =>
            obtain ⟨value, after⟩ := result
            rw [hvalue] at h
            have hspace : skipSpace after <:+ 0x22 :: rest := (skipSpace_suffix after).trans h.1
            have hmembers : ∀ m ∈ setMember acc key value, Encodable depth m.2 := by
              intro m hm
              rcases mem_setMember hm with hm | hm
              · rw [hm]
                exact h.2
              · exact hacc m hm
            rw [ok_bind]
            dsimp only
            split
            · rename_i tail heq
              rw [heq] at hspace
              have htail : skipSpace tail <:+ 0x22 :: rest :=
                (skipSpace_suffix tail).trans ((List.suffix_cons _ _).trans hspace)
              exact (ih hmembers).mono htail
            · rename_i tail heq
              rw [heq] at hspace
              exact ⟨(List.suffix_cons _ _).trans hspace, encodable_members hmembers⟩
            · exact scanned_decodeError
        · exact scanned_decodeError
    · exact scanned_decodeError

end

theorem Scanned.nested {depth : ℕ} {c : CodePoint} {body t : PyText}
    {r : Except BuiltinError (PyObj × PyText)} (h : Scanned depth (depth + 1) body r)
    (hbody : body <:+ t) (hc : isOpening c = true) :
    Scanned (depth + 1) (depth + 1) (c :: t) r := by
  have hsuffix : body <:+ c :: t := hbody.trans (List.suffix_cons _ _)
  cases r with
  | ok result => exact ⟨h.1.trans hsuffix, h.2⟩
  | error e =>
    rcases h with h | ⟨he, hlong⟩ | ⟨he, hdepth⟩
    · exact .inl h
    · exact .inr (.inl ⟨he, hlong.mono hsuffix⟩)
    · have hopenings : openings (c :: t) = openings t + 1 := List.countP_cons_of_pos hc
      have := openings_mono hbody
      exact .inr (.inr ⟨he, by omega⟩)

theorem scanOnce_scanned {depth : ℕ} (t : PyText) : Scanned depth depth t (scanOnce depth t) := by
  induction depth generalizing t with
  | zero =>
    unfold scanOnce
    split
    · exact .inr (.inr ⟨rfl, by simp [openings, isOpening]⟩)
    · exact .inr (.inr ⟨rfl, by simp [openings, isOpening]⟩)
    · exact scanScalar_scanned t
  | succ depth ih =>
    unfold scanOnce
    split
    · rename_i rest
      have hrest := skipSpace_suffix rest
      split
      · rename_i rest' heq
        rw [heq] at hrest
        exact ⟨(List.suffix_cons _ _).trans (hrest.trans (List.suffix_cons _ _)),
          encodable_list (by simp)⟩
      · exact (scanItems_scanned ih (by simp)).nested hrest rfl
    · rename_i rest
      have hrest := skipSpace_suffix rest
      split
      · rename_i rest' heq
        rw [heq] at hrest
        exact ⟨(List.suffix_cons _ _).trans (hrest.trans (List.suffix_cons _ _)),
          encodable_dict_nil⟩
      · exact (scanMembers_scanned ih (by simp)).nested hrest rfl
    · exact scanScalar_scanned t

theorem loads_ok {interp : Interpreter} {t : PyText} {v : PyObj} (h : loads interp t = .ok v) :
    Encodable interp.recursionLimit v := by
  unfold loads at h
  split_ifs at h
  have hscan := @scanOnce_scanned interp.recursionLimit (skipSpace t)
  obtain ⟨⟨value, rest⟩, hresult, h⟩ := bind_eq_ok.mp h
  rw [hresult] at hscan
  dsimp only at h
  split_ifs at h
  obtain rfl := Except.ok.inj h
  exact hscan.2

/-- Decoding fails beyond `JSONDecodeError` only on a long run of digits or on many brackets. -/
theorem loads_error {interp : Interpreter} {t : PyText} {e : BuiltinError}
    (h : loads interp t = .error e) :
    e = .jsonDecodeError ∨ (e = .valueError ∧ LongRun t) ∨
      (e = .recursionError ∧ interp.recursionLimit < openings t) := by
  unfold loads at h
  split_ifs at h
  · exact .inl (by simpa using h.symm)
  · have hscan := (@scanOnce_scanned interp.recursionLimit (skipSpace t)).mono (skipSpace_suffix t)
    rcases bind_eq_error.mp h with h | ⟨⟨value, rest⟩, -, h⟩
    · rw [h] at hscan
      exact hscan
    · dsimp only at h
      split_ifs at h
      exact .inl (by simpa using h.symm)

end AskLens.Python
