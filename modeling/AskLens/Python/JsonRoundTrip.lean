import AskLens.Python.NumberTexts
import AskLens.Python.Str

/-!
# Reading what was written

`json.loads` reads every value that it can return back from the text that
`json.dumps` writes for it.
-/
namespace AskLens.Python

open Checks

/-- A value that decoding may return. -/
inductive Decoded : PyObj → Prop
  | null : Decoded .null
  | bool (b : Bool) : Decoded (.bool b)
  | int (i : ℤ) : Decoded (.int none i)
  | float (x : Binary64) : Decoded (.float x)
  | text (t : PyText) : Decoded (.ofText t)
  | list (items : List PyObj) (items_decoded : ∀ v ∈ items, Decoded v) : Decoded (.list items)
  | dict (members : List (PyText × PyObj)) (distinct : (members.map Prod.fst).Nodup)
      (values_decoded : ∀ m ∈ members, Decoded m.2) :
      Decoded (.dict (members.map fun m => (PyObj.ofText m.1, m.2)))

/-! ## Strings -/

theorem hexValue_hexDigit {d : ℕ} (h : d < 16) : hexValue (hexDigit d).toNat = some d := by
  interval_cases d <;> rfl

theorem scanString_plain {c : CodePoint} (hquote : c ≠ 0x22) (hback : c ≠ 0x5C)
    (hcontrol : ¬ c < 0x20) (tail acc : PyText) :
    scanString (c :: tail) acc = scanString tail (c :: acc) := by
  rw [scanString.eq_def]
  simp only [hquote, hback, hcontrol, if_false]

theorem scanString_short {e d : CodePoint} (he : e ≠ 0x75) (h : unescape e = some d)
    (tail acc : PyText) : scanString (0x5C :: e :: tail) acc = scanString tail (d :: acc) := by
  rw [scanString.eq_def]
  simp [he, h]

theorem scanString_unit {h1 h2 h3 h4 u : CodePoint} (h : hex4 h1 h2 h3 h4 = some u)
    (hhigh : isHighSurrogate u = false) (tail acc : PyText) :
    scanString (0x5C :: 0x75 :: h1 :: h2 :: h3 :: h4 :: tail) acc = scanString tail (u :: acc) := by
  rw [scanString.eq_def]
  simp only [h, hhigh, Bool.false_eq_true, false_and, if_false]
  simp
  split
  · rfl
  · rfl

theorem hex4_control {c : ℕ} (h : c < 0x20) :
    hex4 0x30 0x30 (hexDigit (c / 16)).toNat (hexDigit (c % 16)).toNat = some c ∧
      isHighSurrogate c = false := by
  have hhigh := hexValue_hexDigit (show c / 16 < 16 by omega)
  have hlow := hexValue_hexDigit (Nat.mod_lt c (show 0 < 16 by decide))
  have hzero : hexValue 0x30 = some 0 := rfl
  constructor
  · simp only [hex4, hhigh, hlow, hzero, Option.bind_eq_bind, Option.bind_some]
    congr 1
    omega
  · have hno : ¬ 0xD800 ≤ c := by omega
    simp [isHighSurrogate, hno]

theorem scanString_escape (c : CodePoint) (tail acc : PyText) :
    scanString (escapeCodePoint c ++ tail) acc = scanString tail (c :: acc) := by
  unfold escapeCodePoint
  split_ifs with hquote hback hn hr ht hf hb hcontrol
  · rw [hquote]
    exact scanString_short (e := 0x22) (by decide) rfl tail acc
  · rw [hback]
    exact scanString_short (e := 0x5C) (by decide) rfl tail acc
  · rw [hn]
    exact scanString_short (e := 0x6E) (by decide) rfl tail acc
  · rw [hr]
    exact scanString_short (e := 0x72) (by decide) rfl tail acc
  · rw [ht]
    exact scanString_short (e := 0x74) (by decide) rfl tail acc
  · rw [hf]
    exact scanString_short (e := 0x66) (by decide) rfl tail acc
  · rw [hb]
    exact scanString_short (e := 0x62) (by decide) rfl tail acc
  · obtain ⟨hhex, hhigh⟩ := hex4_control hcontrol
    exact scanString_unit hhex hhigh tail acc
  · exact scanString_plain hquote hback hcontrol tail acc

/-- A text is read back up to its closing quote, lone surrogates included. -/
theorem scanString_encodeText (t rest acc : PyText) :
    scanString (t.flatMap escapeCodePoint ++ 0x22 :: rest) acc = some (acc.reverse ++ t, rest) := by
  induction t generalizing acc with
  | nil =>
    rw [List.flatMap_nil, List.nil_append, List.append_nil, scanString.eq_def]
    rfl
  | cons c t ih =>
    rw [List.flatMap_cons, List.append_assoc, scanString_escape, ih, List.reverse_cons,
      List.append_assoc]
    rfl

theorem ofString_of_toString? {t : PyText} {s : String} (h : t.toString? = some s) :
    PyText.ofString s = t := by
  unfold PyText.toString? at h
  split_ifs at h with hvalid
  obtain rfl := Option.some.inj h
  rw [List.all_eq_true] at hvalid
  have hcodes : ∀ c ∈ t, (Char.ofNat c).toNat = c := fun c hc =>
    toNat_ofNat (by simpa using hvalid c hc)
  rw [PyText.ofString, String.toList_ofList, List.map_map]
  exact (List.map_congr_left hcodes).trans (List.map_id t)

theorem encodeScalar_ofText (t : PyText) : encodeScalar (.ofText t) = .ok (encodeText t) := by
  unfold PyObj.ofText
  cases h : t.toString? with
  | none => rfl
  | some s =>
    have hs := ofString_of_toString? h
    simp only [encodeScalar, hs]

/-! ## Scalars -/

def isBlank (c : CodePoint) : Bool := c == 0x20 || c == 0x09 || c == 0x0A || c == 0x0D

def StartsValue (text : PyText) : Prop :=
  ∃ c tail, text = c :: tail ∧ isBlank c = false ∧ c ≠ 0x5D ∧ c ≠ 0x7D ∧ c ≠ 0xFEFF

/-- A text that is read as this value within the calls that are left. -/
structure WritesValue (depth : ℕ) (text : PyText) (v : PyObj) : Prop where
  starts : StartsValue text
  read : ∀ rest, EndsNumber rest → scanOnce depth (text ++ rest) = .ok (v, rest)

theorem skipSpace_of_starts {text : PyText} (h : StartsValue text) (rest : PyText) :
    skipSpace (text ++ rest) = text ++ rest := by
  obtain ⟨c, tail, rfl, hblank, -⟩ := h
  exact List.dropWhile_cons_of_neg (by simpa [isBlank] using hblank)

theorem scanOnce_scalar {c : CodePoint} (hlist : c ≠ 0x5B) (hdict : c ≠ 0x7B) (depth : ℕ)
    (tail : PyText) : scanOnce depth (c :: tail) = scanScalar (c :: tail) := by
  cases depth with
  | zero =>
    rw [scanOnce.eq_def]
    simp [hlist, hdict]
  | succ depth =>
    rw [scanOnce.eq_def]
    simp [hlist, hdict]

theorem scanScalar_null (rest : PyText) :
    scanScalar (PyText.ofString "null" ++ rest) = .ok (.null, rest) := rfl

theorem scanScalar_bool (b : Bool) (rest : PyText) :
    scanScalar (PyText.ofString (if b then "true" else "false") ++ rest) = .ok (.bool b, rest) := by
  cases b <;> rfl

theorem scanScalar_nan (rest : PyText) :
    scanScalar ("NaN".toList.map Char.toNat ++ rest) = .ok (.float .nan, rest) := rfl

theorem scanScalar_infinity (rest : PyText) :
    scanScalar ("Infinity".toList.map Char.toNat ++ rest) = .ok (.float (.inf false), rest) := rfl

theorem scanScalar_negInfinity (rest : PyText) :
    scanScalar ("-Infinity".toList.map Char.toNat ++ rest) = .ok (.float (.inf true), rest) := rfl

theorem matchWord_of_head (word : String) {w : CodePoint} {ws : PyText}
    (hword : PyText.ofString word = w :: ws) {c : CodePoint} (h : w ≠ c) (tail : PyText) :
    matchWord word (c :: tail) = none := by
  unfold matchWord
  simp [hword, List.isPrefixOf, h]

theorem scanScalar_other {c : CodePoint} {tail : PyText} (hn : c ≠ 0x6E) (ht : c ≠ 0x74)
    (hf : c ≠ 0x66) (hN : c ≠ 0x4E) (hI : c ≠ 0x49)
    (hminus : matchWord "-Infinity" (c :: tail) = none) (hquote : c ≠ 0x22) :
    scanScalar (c :: tail) = scanNumber (c :: tail) := by
  unfold scanScalar
  rw [matchWord_of_head "null" rfl hn.symm, matchWord_of_head "true" rfl ht.symm,
    matchWord_of_head "false" rfl hf.symm, matchWord_of_head "NaN" rfl hN.symm,
    matchWord_of_head "Infinity" rfl hI.symm, hminus]
  dsimp only
  split
  · rename_i heq
    exact absurd (List.cons.inj heq).1 hquote
  · rfl

theorem ne_of_isDigit {c d : CodePoint} (hc : isDigit c = true) (hd : isDigit d = false) :
    c ≠ d := by
  rintro rfl
  rw [hc] at hd
  cases hd

theorem scanScalar_number (neg : Bool) {c : CodePoint} (hc : isDigit c = true) (tail : PyText) :
    scanScalar (signCode neg ++ c :: tail) = scanNumber (signCode neg ++ c :: tail) := by
  cases neg with
  | false =>
    apply scanScalar_other (ne_of_isDigit hc rfl) (ne_of_isDigit hc rfl) (ne_of_isDigit hc rfl)
      (ne_of_isDigit hc rfl) (ne_of_isDigit hc rfl)
    · exact matchWord_of_head _ rfl (ne_of_isDigit hc rfl).symm tail
    · exact ne_of_isDigit hc rfl
  | true =>
    apply scanScalar_other (by decide) (by decide) (by decide) (by decide) (by decide)
    · have hI : (0x49 : CodePoint) ≠ c := (ne_of_isDigit hc rfl).symm
      simp [matchWord, PyText.ofString, List.isPrefixOf, hI]
    · decide

theorem WritesNumber.writesValue {text : PyText} {v : PyObj} (h : WritesNumber text v) (depth : ℕ) :
    WritesValue depth text v := by
  obtain ⟨neg, c, tail, rfl, hc⟩ := h.head
  have hread := h.read
  have hstart : ∃ d ds, signCode neg ++ c :: tail = d :: ds ∧ (d = c ∨ d = 0x2D) := by
    cases neg with
    | false => exact ⟨c, tail, rfl, .inl rfl⟩
    | true => exact ⟨0x2D, c :: tail, rfl, .inr rfl⟩
  obtain ⟨d, ds, hcons, hd⟩ := hstart
  have hne : ∀ x, isDigit x = false → x ≠ 0x2D → d ≠ x := by
    intro x hx hminus
    rcases hd with rfl | rfl
    · exact ne_of_isDigit hc hx
    · exact hminus.symm
  constructor
  · refine ⟨d, ds, hcons, ?_, hne _ rfl (by decide), hne _ rfl (by decide), hne _ rfl (by decide)⟩
    simp [isBlank, hne 0x20 rfl (by decide), hne 0x09 rfl (by decide), hne 0x0A rfl (by decide),
      hne 0x0D rfl (by decide)]
  · intro rest hrest
    have hscan := hread rest hrest
    rw [List.append_assoc, List.cons_append] at hscan
    rw [hcons, List.cons_append, scanOnce_scalar (hne _ rfl (by decide)) (hne _ rfl (by decide)),
      ← List.cons_append, ← hcons, List.append_assoc, List.cons_append, scanScalar_number neg hc,
      hscan]

theorem scanScalar_text (t rest : PyText) :
    scanScalar (0x22 :: (t.flatMap escapeCodePoint ++ 0x22 :: rest)) = .ok (.ofText t, rest) := by
  have hscan := scanString_encodeText t rest []
  unfold scanScalar
  rw [matchWord_of_head "null" rfl (by decide),
    matchWord_of_head "true" rfl (by decide),
    matchWord_of_head "false" rfl (by decide),
    matchWord_of_head "NaN" rfl (by decide),
    matchWord_of_head "Infinity" rfl (by decide),
    matchWord_of_head "-Infinity" rfl (by decide)]
  simp only [hscan]
  rfl

theorem encodeText_append (t rest : PyText) :
    encodeText t ++ rest = 0x22 :: (t.flatMap escapeCodePoint ++ 0x22 :: rest) := by
  simp [encodeText]

theorem writesValue_text (depth : ℕ) (t : PyText) : WritesValue depth (encodeText t) (.ofText t) := by
  constructor
  · exact ⟨0x22, _, rfl, rfl, by decide, by decide, by decide⟩
  · intro rest hrest
    rw [encodeText_append, scanOnce_scalar (by decide) (by decide), scanScalar_text]

theorem writesValue_word {word : String} {v : PyObj} {c : CodePoint} {cs : PyText} (depth : ℕ)
    (hword : word.toList.map Char.toNat = c :: cs) (hblank : isBlank c = false)
    (hopen : c ≠ 0x5B ∧ c ≠ 0x7B) (hclose : c ≠ 0x5D ∧ c ≠ 0x7D) (hbom : c ≠ 0xFEFF)
    (hread : ∀ rest, scanScalar (word.toList.map Char.toNat ++ rest) = .ok (v, rest)) :
    WritesValue depth (word.toList.map Char.toNat) v := by
  constructor
  · exact ⟨c, cs, hword, hblank, hclose.1, hclose.2, hbom⟩
  · intro rest hrest
    have hscan := hread rest
    rw [hword, List.cons_append] at hscan ⊢
    rw [scanOnce_scalar hopen.1 hopen.2, hscan]

theorem writesValue_scalar {v : PyObj} (h : Decoded v) (hscalar : isContainer v = false)
    {text : PyText} (htext : encodeScalar v = .ok text) (depth : ℕ) : WritesValue depth text v := by
  cases h with
  | null =>
    obtain rfl := Except.ok.inj htext
    exact writesValue_word depth rfl rfl (by decide) (by decide) (by decide) scanScalar_null
  | bool b =>
    obtain rfl := Except.ok.inj htext
    cases b with
    | false =>
      exact writesValue_word depth rfl rfl (by decide) (by decide) (by decide)
        (scanScalar_bool false)
    | true =>
      exact writesValue_word depth rfl rfl (by decide) (by decide) (by decide)
        (scanScalar_bool true)
  | int i => exact (writesNumber_int htext).writesValue depth
  | float x =>
    obtain rfl := Except.ok.inj htext
    cases hfinite : x.isFinite with
    | true => exact (writesNumber_float hfinite).writesValue depth
    | false =>
      cases x with
      | finite neg mant exp canonical => cases hfinite
      | nan =>
        exact writesValue_word depth rfl rfl (by decide) (by decide) (by decide) scanScalar_nan
      | inf neg =>
        cases neg with
        | false =>
          exact writesValue_word depth rfl rfl (by decide) (by decide) (by decide)
            scanScalar_infinity
        | true =>
          exact writesValue_word depth rfl rfl (by decide) (by decide) (by decide)
            scanScalar_negInfinity
  | text t =>
    rw [encodeScalar_ofText] at htext
    obtain rfl := Except.ok.inj htext
    exact writesValue_text depth t
  | list items items_decoded => cases hscalar
  | dict members distinct values_decoded => cases hscalar

/-! ## Containers -/

theorem joinComma_cons (part : PyText) (rest : List PyText) :
    joinComma (part :: rest) = part ++ if rest = [] then [] else 0x2C :: joinComma rest := by
  cases rest with
  | nil => simp [joinComma]
  | cons next rest => simp [joinComma]

theorem endsNumber_cons {c : CodePoint} (hdigit : isDigit c = false)
    (hother : c ≠ 0x2E ∧ c ≠ 0x65 ∧ c ≠ 0x45) (rest : PyText) : EndsNumber (c :: rest) := by
  intro d hd
  obtain rfl : c = d := by simpa using hd
  exact ⟨hdigit, hother⟩

theorem EndsNumber.bracket {c : CodePoint} (h : c = 0x2C ∨ c = 0x5D ∨ c = 0x7D) (rest : PyText) :
    EndsNumber (c :: rest) := by
  rcases h with rfl | rfl | rfl
  · exact endsNumber_cons rfl (by decide) rest
  · exact endsNumber_cons rfl (by decide) rest
  · exact endsNumber_cons rfl (by decide) rest

theorem skipSpace_of_not_blank {c : CodePoint} (h : isBlank c = false) (rest : PyText) :
    skipSpace (c :: rest) = c :: rest :=
  List.dropWhile_cons_of_neg (by simpa [isBlank] using h)

theorem StartsValue.append {text : PyText} (h : StartsValue text) (tail : PyText) :
    StartsValue (text ++ tail) := by
  obtain ⟨c, ds, rfl, hc⟩ := h
  exact ⟨c, ds ++ tail, rfl, hc⟩

theorem startsValue_joinComma {parts : List PyText} (h : ∀ part ∈ parts, StartsValue part)
    (hne : parts ≠ []) : StartsValue (joinComma parts) := by
  obtain ⟨part, rest, rfl⟩ := List.exists_cons_of_ne_nil hne
  rw [joinComma_cons]
  exact (h part List.mem_cons_self).append _

theorem scanItems_joined {depth : ℕ} {parts : List PyText} {items : List PyObj}
    (h : List.Forall₂ (WritesValue depth) parts items) (hne : parts ≠ []) (rest : PyText)
    (acc : List PyObj) {fuel : ℕ} (hfuel : items.length ≤ fuel) :
    scanItems (scanOnce depth) fuel (joinComma parts ++ 0x5D :: rest) acc =
      .ok (.list (acc.reverse ++ items), rest) := by
  induction h generalizing acc fuel with
  | nil => exact absurd rfl hne
  | @cons part item parts items hpart hparts ih =>
    obtain ⟨fuel, rfl⟩ := Nat.exists_eq_succ_of_ne_zero (n := fuel) (by
      rw [List.length_cons] at hfuel
      omega)
    have hclose : EndsNumber (0x5D :: rest) := .bracket (.inr (.inl rfl)) rest
    rw [joinComma_cons, scanItems]
    by_cases hlast : parts = []
    · subst hlast
      obtain rfl := List.forall₂_nil_left_iff.mp hparts
      rw [if_pos rfl, List.append_nil, hpart.read _ hclose, ok_bind]
      dsimp only
      rw [skipSpace_of_not_blank rfl]
      simp
    · have hcomma : EndsNumber (0x2C :: (joinComma parts ++ 0x5D :: rest)) :=
        .bracket (.inl rfl) _
      rw [if_neg hlast, List.append_assoc, List.cons_append, hpart.read _ hcomma, ok_bind]
      dsimp only
      rw [skipSpace_of_not_blank rfl]
      have hstarts : StartsValue (joinComma parts) := by
        apply startsValue_joinComma _ hlast
        intro part hmem
        obtain ⟨item, -, hwrites⟩ := forall₂_mem_left hparts hmem
        exact hwrites.starts
      have hlength : items.length ≤ fuel := by simpa using hfuel
      have hread := ih hlast (item :: acc) hlength
      simp [skipSpace_of_starts hstarts, hread]

structure WritesMember (depth : ℕ) (text : PyText) (m : PyText × PyObj) : Prop where
  value : ∃ part, text = encodeText m.1 ++ 0x3A :: part ∧ WritesValue depth part m.2

theorem WritesMember.starts {depth : ℕ} {text : PyText} {m : PyText × PyObj}
    (h : WritesMember depth text m) : StartsValue text := by
  obtain ⟨part, rfl, -⟩ := h.value
  exact ⟨0x22, _, rfl, rfl, by decide, by decide, by decide⟩

theorem setMember_of_not_mem {members : List (PyText × PyObj)} {key : PyText} (value : PyObj)
    (h : key ∉ members.map Prod.fst) : setMember members key value = members ++ [(key, value)] := by
  induction members with
  | nil => rfl
  | cons m members ih =>
    rw [List.map_cons, List.mem_cons, not_or] at h
    rw [setMember, if_neg (Ne.symm h.1), ih h.2]
    rfl

theorem scanMembers_last {depth : ℕ} {key part : PyText} {v : PyObj}
    (h : WritesValue depth part v) (fuel : ℕ) (rest : PyText) (acc : List (PyText × PyObj)) :
    scanMembers (scanOnce depth) (fuel + 1) (encodeText key ++ 0x3A :: (part ++ 0x7D :: rest)) acc =
      .ok (.dict ((setMember acc key v).map fun m => (PyObj.ofText m.1, m.2)), rest) := by
  have hread := h.read _ (.bracket (.inr (.inr rfl)) rest)
  rw [encodeText_append, scanMembers.eq_def]
  simp only [scanString_encodeText]
  rw [skipSpace_of_not_blank rfl]
  simp [skipSpace_of_starts h.starts, hread, ok_bind, skipSpace_of_not_blank (c := 0x7D) rfl]

theorem scanMembers_next {depth : ℕ} {key part : PyText} {v : PyObj}
    (h : WritesValue depth part v) (fuel : ℕ) (rest : PyText) (acc : List (PyText × PyObj)) :
    scanMembers (scanOnce depth) (fuel + 1) (encodeText key ++ 0x3A :: (part ++ 0x2C :: rest)) acc =
      scanMembers (scanOnce depth) fuel (skipSpace rest) (setMember acc key v) := by
  have hread := h.read _ (.bracket (.inl rfl) rest)
  rw [encodeText_append, scanMembers.eq_def]
  simp only [scanString_encodeText]
  rw [skipSpace_of_not_blank rfl]
  simp [skipSpace_of_starts h.starts, hread, ok_bind, skipSpace_of_not_blank (c := 0x2C) rfl]

/-- The members of an object are read one after the other, their keys being distinct. -/
theorem scanMembers_joined {depth : ℕ} {parts : List PyText} {members : List (PyText × PyObj)}
    (h : List.Forall₂ (WritesMember depth) parts members) (hne : parts ≠ []) (rest : PyText)
    (acc : List (PyText × PyObj)) (hdistinct : ((acc ++ members).map Prod.fst).Nodup) {fuel : ℕ}
    (hfuel : members.length ≤ fuel) :
    scanMembers (scanOnce depth) fuel (joinComma parts ++ 0x7D :: rest) acc =
      .ok (.dict ((acc ++ members).map fun m => (PyObj.ofText m.1, m.2)), rest) := by
  induction h generalizing acc fuel with
  | nil => exact absurd rfl hne
  | @cons text m parts members hmember hparts ih =>
    obtain ⟨fuel, rfl⟩ := Nat.exists_eq_succ_of_ne_zero (n := fuel) (by
      rw [List.length_cons] at hfuel
      omega)
    obtain ⟨part, rfl, hpart⟩ := hmember.value
    have hfresh : m.1 ∉ acc.map Prod.fst := by
      rw [List.map_append, List.nodup_append] at hdistinct
      intro hmem
      exact hdistinct.2.2 _ hmem _ List.mem_cons_self rfl
    have hset := setMember_of_not_mem m.2 hfresh
    have hgrown : acc ++ m :: members = (acc ++ [(m.1, m.2)]) ++ members := by simp
    rw [joinComma_cons]
    by_cases hlast : parts = []
    · subst hlast
      obtain rfl := List.forall₂_nil_left_iff.mp hparts
      rw [if_pos rfl, List.append_nil, List.append_assoc, List.cons_append,
        scanMembers_last hpart, hset]
    · have hstarts : StartsValue (joinComma parts) := by
        apply startsValue_joinComma _ hlast
        intro text hmem
        obtain ⟨member, -, hwrites⟩ := forall₂_mem_left hparts hmem
        exact hwrites.starts
      rw [hgrown] at hdistinct ⊢
      rw [if_neg hlast, List.append_assoc, List.append_assoc, List.cons_append, List.cons_append,
        scanMembers_next hpart, skipSpace_of_starts hstarts, hset]
      exact ih hlast _ hdistinct (by simpa using hfuel)

theorem length_le_joinComma (parts : List PyText) :
    parts.length ≤ (joinComma parts).length + 1 := by
  induction parts with
  | nil => exact Nat.zero_le _
  | cons part rest ih =>
    rw [joinComma_cons, List.length_append, List.length_cons]
    split_ifs with hlast
    · rw [hlast, List.length_nil]
      omega
    · rw [List.length_cons]
      omega

theorem scanOnce_items {body : PyText} (h : StartsValue body) (depth : ℕ) :
    scanOnce (depth + 1) (0x5B :: body) =
      scanItems (scanOnce depth) (body.length + 1) body [] := by
  have hskip := skipSpace_of_starts h []
  rw [List.append_nil] at hskip
  obtain ⟨c, tail, rfl, -, hclose, -⟩ := h
  rw [scanOnce.eq_def]
  simp only [hskip]
  split
  · rename_i heq
    exact absurd (List.cons.inj heq).1 hclose
  · rfl

theorem scanOnce_members {body : PyText} (h : StartsValue body) (depth : ℕ) :
    scanOnce (depth + 1) (0x7B :: body) =
      scanMembers (scanOnce depth) (body.length + 1) body [] := by
  have hskip := skipSpace_of_starts h []
  rw [List.append_nil] at hskip
  obtain ⟨c, tail, rfl, -, -, hclose, -⟩ := h
  rw [scanOnce.eq_def]
  simp only [hskip]
  split
  · rename_i heq
    exact absurd (List.cons.inj heq).1 hclose
  · rfl

theorem writesValue_list {depth : ℕ} {parts : List PyText} {items : List PyObj}
    (h : List.Forall₂ (WritesValue depth) parts items) :
    WritesValue (depth + 1) (0x5B :: (joinComma parts ++ [0x5D])) (.list items) := by
  constructor
  · exact ⟨0x5B, _, rfl, rfl, by decide, by decide, by decide⟩
  · intro rest hrest
    rw [List.cons_append, List.append_assoc, List.singleton_append]
    by_cases hempty : parts = []
    · subst hempty
      obtain rfl := List.forall₂_nil_left_iff.mp h
      rfl
    · have hstarts : StartsValue (joinComma parts) := by
        apply startsValue_joinComma _ hempty
        intro part hmem
        obtain ⟨item, -, hwrites⟩ := forall₂_mem_left h hmem
        exact hwrites.starts
      have hfuel : items.length ≤ (joinComma parts ++ 0x5D :: rest).length + 1 := by
        have hlength := h.length_eq
        have hparts := length_le_joinComma parts
        rw [List.length_append]
        omega
      rw [scanOnce_items (hstarts.append _), scanItems_joined h hempty rest [] hfuel]
      rfl

theorem writesValue_dict {depth : ℕ} {parts : List PyText} {members : List (PyText × PyObj)}
    (h : List.Forall₂ (WritesMember depth) parts members)
    (hdistinct : (members.map Prod.fst).Nodup) :
    WritesValue (depth + 1) (0x7B :: (joinComma parts ++ [0x7D]))
      (.dict (members.map fun m => (PyObj.ofText m.1, m.2))) := by
  constructor
  · exact ⟨0x7B, _, rfl, rfl, by decide, by decide, by decide⟩
  · intro rest hrest
    rw [List.cons_append, List.append_assoc, List.singleton_append]
    by_cases hempty : parts = []
    · subst hempty
      obtain rfl := List.forall₂_nil_left_iff.mp h
      rfl
    · have hstarts : StartsValue (joinComma parts) := by
        apply startsValue_joinComma _ hempty
        intro text hmem
        obtain ⟨member, -, hwrites⟩ := forall₂_mem_left h hmem
        exact hwrites.starts
      have hfuel : members.length ≤ (joinComma parts ++ 0x7D :: rest).length + 1 := by
        have hlength := h.length_eq
        have hparts := length_le_joinComma parts
        rw [List.length_append]
        omega
      rw [scanOnce_members (hstarts.append _),
        scanMembers_joined h hempty rest [] (by simpa using hdistinct) hfuel]
      rfl

theorem encodeKey_text (t : PyText) : encodeKey (.ofText t) = .ok (encodeText t) := by
  have h := encodeScalar_ofText t
  unfold PyObj.ofText at h ⊢
  cases hs : t.toString? with
  | none => rfl
  | some s =>
    rw [hs] at h
    exact h

theorem isContainer_ofText (t : PyText) : isContainer (.ofText t) = false := by
  unfold PyObj.ofText
  cases t.toString? with
  | none => rfl
  | some s => rfl

theorem encode_ofText {depth : ℕ} (t : PyText) :
    encode depth (.ofText t) = encodeScalar (.ofText t) := by
  unfold PyObj.ofText
  cases t.toString? with
  | none => cases depth <;> rfl
  | some s => cases depth <;> rfl

/-- The parts that a container was encoded to are the texts of what it holds. -/
theorem writesValue_parts {depth : ℕ} {items : List PyObj} {parts : List PyText}
    (ih : ∀ {v : PyObj} {text : PyText}, Decoded v → encode depth v = .ok text →
      WritesValue depth text v)
    (hitems : ∀ v ∈ items, Decoded v) (h : items.mapM (encode depth) = .ok parts) :
    List.Forall₂ (WritesValue depth) parts items := by
  have hpairs := (List.forall₂_and_left _ _).mpr ⟨hitems, mapM_eq_ok.mp h⟩
  apply List.Forall₂.flip
  exact hpairs.imp fun v text hv => ih hv.1 hv.2

theorem writesMember_parts {depth : ℕ} {members : List (PyText × PyObj)} {parts : List PyText}
    (ih : ∀ {v : PyObj} {text : PyText}, Decoded v → encode depth v = .ok text →
      WritesValue depth text v)
    (hvalues : ∀ m ∈ members, Decoded m.2)
    (h : ((members.map fun m => (PyObj.ofText m.1, m.2)).mapM fun entry => do
      let key ← encodeKey entry.1
      let value ← encode depth entry.2
      Except.ok (key ++ 0x3A :: value)) = .ok parts) :
    List.Forall₂ (WritesMember depth) parts members := by
  have hpairs := (List.forall₂_and_left _ _).mpr
    ⟨hvalues, List.forall₂_map_left_iff.mp (mapM_eq_ok.mp h)⟩
  apply List.Forall₂.flip
  refine hpairs.imp fun m text hm => ⟨?_⟩
  obtain ⟨hv, hentry⟩ := hm
  obtain ⟨key, hkey, hentry⟩ := bind_eq_ok.mp hentry
  obtain ⟨value, hvalue, hentry⟩ := bind_eq_ok.mp hentry
  rw [encodeKey_text] at hkey
  obtain rfl := Except.ok.inj hkey
  obtain rfl := Except.ok.inj hentry
  exact ⟨value, rfl, ih hv hvalue⟩

/-- The induction is on the calls that are left, which bound the depth of the value. -/
theorem writesValue_encode {depth : ℕ} {v : PyObj} {text : PyText} (hv : Decoded v)
    (h : encode depth v = .ok text) : WritesValue depth text v := by
  induction depth generalizing v text with
  | zero =>
    rw [encode] at h
    split_ifs at h with hcontainer
    exact writesValue_scalar hv (by simpa using hcontainer) h 0
  | succ depth ih =>
    cases hv with
    | list items hitems =>
      obtain ⟨parts, hparts, h⟩ := bind_eq_ok.mp h
      obtain rfl := Except.ok.inj h
      exact writesValue_list (writesValue_parts ih hitems hparts)
    | dict members distinct hvalues =>
      obtain ⟨parts, hparts, h⟩ := bind_eq_ok.mp h
      obtain rfl := Except.ok.inj h
      exact writesValue_dict (writesMember_parts ih hvalues hparts) distinct
    | text t =>
      apply writesValue_scalar (.text t) (isContainer_ofText t)
      rw [← h]
      exact (encode_ofText t).symm
    | null => exact writesValue_scalar .null rfl h _
    | bool b => exact writesValue_scalar (.bool b) rfl h _
    | int i => exact writesValue_scalar (.int i) rfl h _
    | float x => exact writesValue_scalar (.float x) rfl h _

/-- `json.loads(json.dumps(v)) == v` for what `json.loads` may return. -/
theorem loads_dumps {interp : Interpreter} {v : PyObj} {text : PyText} (hv : Decoded v)
    (h : dumps interp v = .ok text) : loads interp text = .ok v := by
  obtain ⟨hstarts, hread⟩ := writesValue_encode hv h
  have hscan := hread [] (by simp [EndsNumber])
  have hskip := skipSpace_of_starts hstarts []
  rw [List.append_nil] at hscan hskip
  obtain ⟨c, tail, rfl, -, -, -, hbom⟩ := hstarts
  have hhead : ¬ (c :: tail).head? = some 0xFEFF := by simpa using hbom
  rw [loads, if_neg hhead, hskip, hscan]
  rfl

end AskLens.Python
