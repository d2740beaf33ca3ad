import AskLens.Contracts.QueryPlanSchema
import AskLens.Planning.RoundTrip

/-!
# Values of a decoded document

What the parser reads of names and filter values beside what the schema admits.
-/
namespace AskLens.Contracts

open Python Catalog Planning JsonSchema Checks

/-! ## Decoded documents -/

mutual

/-- What `json.loads` makes of a document. -/
def toPy : Json → PyObj
  | .null => .null
  | .bool b => .bool b
  | .integer i => .int none i
  | .decimal neg digits exponent => .float (Binary64.ofDecimal neg digits exponent)
  | .string text => .ofText text
  | .array items => .list (toPyItems items)
  | .object members => .dict (toPyMembers members)

def toPyItems : List Json → List PyObj
  | [] => []
  | v :: rest => toPy v :: toPyItems rest

def toPyMembers : List (List ℕ × Json) → Entries
  | [] => []
  | (name, v) :: rest => (.ofText name, toPy v) :: toPyMembers rest

end

/-- A text without a lone surrogate. -/
def Ordinary (text : List ℕ) : Prop := ∃ s, text = codePoints s

theorem ofText_codePoints (s : String) : PyObj.ofText (codePoints s) = .str none s := by
  have hround : PyText.toString? (codePoints s) = some s := toString?_eq_some.mpr rfl
  rw [PyObj.ofText, hround]

theorem ofText_of_not_ordinary {text : List ℕ} (h : ¬ Ordinary text) :
    PyObj.ofText text = .surrogates text := by
  have hnone : PyText.toString? text = none := by
    refine Option.eq_none_iff_forall_ne_some.mpr fun s hs => ?_
    exact h ⟨s, toString?_eq_some.mp hs⟩
  rw [PyObj.ofText, hnone]

theorem ofText_eq_text {text : List ℕ} {s : String} :
    PyStr.ofText text = .text s ↔ text = codePoints s := by
  rw [codePoints, ← PyText.ofString, ← toString?_eq_some]
  cases h : PyText.toString? text with
  | none => simp [PyStr.ofText_of_lone h]
  | some t => simp [PyStr.ofText_of_toString? h]

theorem ofText_eq_empty {text : List ℕ} : PyStr.ofText text = .text "" ↔ text = [] :=
  ofText_eq_text

/-- A text is decoded to a string, with lone surrogates or without. -/
theorem toPy_string (text : List ℕ) :
    (∃ s, toPy (.string text) = .str none s) ∨ toPy (.string text) = .surrogates text := by
  rw [toPy]
  by_cases hordinary : Ordinary text
  · obtain ⟨s, rfl⟩ := hordinary
    exact .inl ⟨s, ofText_codePoints s⟩
  · exact .inr (ofText_of_not_ordinary hordinary)

theorem sequence?_ofText (text : List ℕ) : sequence? (.ofText text) = none := by
  unfold PyObj.ofText
  cases PyText.toString? text <;> rfl

theorem toPyItems_eq_map (items : List Json) : toPyItems items = items.map toPy := by
  induction items with
  | nil => rfl
  | cons v rest ih => rw [toPyItems, ih, List.map_cons]

theorem lookupKey_toPyMembers (members : List (List ℕ × Json)) (name : String) :
    lookupKey (toPyMembers members) name = (members.lookup (codePoints name)).map toPy := by
  induction members with
  | nil => rfl
  | cons member rest ih =>
    obtain ⟨key, v⟩ := member
    rw [toPyMembers, List.lookup_cons]
    by_cases hordinary : Ordinary key
    · obtain ⟨k, rfl⟩ := hordinary
      rw [ofText_codePoints, lookupKey, ih]
      by_cases hkey : k = name
      · subst hkey
        simp
      · have hne : (codePoints name == codePoints k) = false := by
          simpa [codePoints_inj] using fun h => hkey h.symm
        rw [if_neg hkey, hne]
    · have hne : (codePoints name == key) = false := by
        simpa using fun h => hordinary ⟨name, h.symm⟩
      rw [ofText_of_not_ordinary hordinary, hne]
      exact ih

theorem forbidExtra_toPyMembers (env : Environment) (allowed : List String)
    (members : List (List ℕ × Json)) :
    (∃ u, forbidExtra env allowed (toPyMembers members) = .ok u) ↔
      ∀ name ∈ members.map Prod.fst, name ∈ allowed.map codePoints := by
  induction members with
  | nil => simp [toPyMembers, forbidExtra]
  | cons member rest ih =>
    obtain ⟨key, v⟩ := member
    rw [toPyMembers, List.map_cons, List.forall_mem_cons]
    by_cases hordinary : Ordinary key
    · obtain ⟨k, rfl⟩ := hordinary
      rw [ofText_codePoints, forbidExtra]
      by_cases hkey : k ∈ allowed
      · rw [if_pos (List.contains_iff_mem.mpr hkey), ih]
        exact (and_iff_right (List.mem_map_of_mem hkey)).symm
      · rw [if_neg (by simpa using hkey)]
        refine iff_of_false (by simp [fail, under]) fun h => hkey ?_
        obtain ⟨a, ha, heq⟩ := List.mem_map.mp h.1
        exact codePoints_inj.mp heq ▸ ha
    · rw [ofText_of_not_ordinary hordinary]
      refine iff_of_false (by simp [forbidExtra, fail]) fun h => hordinary ?_
      obtain ⟨a, -, heq⟩ := List.mem_map.mp h.1
      exact ⟨a, heq.symm⟩

/-! ## What is accepted -/

section

variable {α β : Type} {members : List (List ℕ × Json)} {v : Json}

def Accepts (x : Parse α) : Prop := ∃ a, x = .ok a

theorem accepts_bind {x : Parse α} {f : α → Parse β} :
    Accepts (x >>= f) ↔ ∃ a, x = .ok a ∧ Accepts (f a) := by
  unfold Accepts
  constructor
  · rintro ⟨b, h⟩
    obtain ⟨a, hx, hf⟩ := bind_eq_ok.mp h
    exact ⟨a, hx, b, hf⟩
  · rintro ⟨a, hx, b, hf⟩
    exact ⟨b, bind_eq_ok.mpr ⟨a, hx, hf⟩⟩

/-- When what follows does not look at the value, only its presence counts. -/
theorem accepts_bind_of_forall {x : Parse α} {f : α → Parse β} {P : Prop}
    (h : ∀ a, Accepts (f a) ↔ P) : Accepts (x >>= f) ↔ Accepts x ∧ P := by
  rw [accepts_bind]
  simp only [h]
  exact ⟨fun ⟨a, ha, hP⟩ => ⟨⟨a, ha⟩, hP⟩, fun ⟨⟨a, ha⟩, hP⟩ => ⟨a, ha, hP⟩⟩

theorem accepts_under {part : String} {x : Parse α} : Accepts (under part x) ↔ Accepts x := by
  unfold Accepts
  simp only [under_eq_ok]

theorem accepts_map {x : Parse α} {f : α → β} : Accepts (x.map f) ↔ Accepts x := by
  unfold Accepts
  cases x <;> simp [Except.map]

theorem accepts_ok (a : α) : Accepts (.ok a : Parse α) := ⟨a, rfl⟩

theorem not_accepts_fail (msg : String) : ¬ Accepts (fail msg : Parse α) := by
  rintro ⟨a, h⟩
  cases h

theorem accepts_required {name : String} {parse : PyObj → Parse α} :
    Accepts (required (toPyMembers members) name parse) ↔
      ∃ w, Json.get? (.object members) name = some w ∧ Accepts (parse (toPy w)) := by
  rw [required, accepts_under, lookupKey_toPyMembers]
  show _ ↔ ∃ w, members.lookup (codePoints name) = some w ∧ _
  cases members.lookup (codePoints name) with
  | none => simp [not_accepts_fail]
  | some w => simp

theorem accepts_optional {name : String} {parse : PyObj → Parse α} :
    Accepts (optional (toPyMembers members) name parse) ↔
      ∀ w, Json.get? (.object members) name = some w → Accepts (parse (toPy w)) := by
  unfold Planning.optional
  rw [lookupKey_toPyMembers]
  show _ ↔ ∀ w, members.lookup (codePoints name) = some w → _
  cases members.lookup (codePoints name) with
  | none => simp [accepts_ok]
  | some w =>
    simp only [Option.map_some, Option.some.injEq, forall_eq']
    rw [accepts_map, accepts_under]

theorem accepts_parseItems {item : PyObj → Parse α} {items : List Json} {i : ℕ} :
    Accepts (parseItems item i (toPyItems items)) ↔ ∀ w ∈ items, Accepts (item (toPy w)) := by
  induction items generalizing i with
  | nil => simp [toPyItems, parseItems, accepts_ok]
  | cons w rest ih =>
    rw [toPyItems, parseItems, List.forall_mem_cons,
      accepts_bind_of_forall fun a => accepts_bind_of_forall fun as => iff_true_intro (accepts_ok _),
      accepts_under, ih, and_true]

theorem accepts_parseTuple {item : PyObj → Parse α} :
    Accepts (parseTuple item (toPy v)) ↔
      ∃ items, v = .array items ∧ ∀ w ∈ items, Accepts (item (toPy w)) := by
  cases v with
  | array items => simp [parseTuple, toPy, sequence?, accepts_parseItems]
  | string text =>
    rw [parseTuple, toPy, sequence?_ofText]
    simp [not_accepts_fail]
  | _ => simp [parseTuple, toPy, sequence?, not_accepts_fail]

theorem parseStr_string (text : List ℕ) :
    parseStr (toPy (.string text)) = .ok (PyStr.ofText text) := by
  rw [toPy, PyObj.ofText]
  cases h : PyText.toString? text with
  | none => rfl
  | some s => rw [PyStr.ofText_of_toString? h, parseStr]

theorem parseStr_eq_ok {s : PyStr} :
    parseStr (toPy v) = .ok s ↔ ∃ text, v = .string text ∧ s = PyStr.ofText text := by
  cases v with
  | string text => simp [parseStr_string, eq_comm]
  | _ => simp [toPy, parseStr, fail]

theorem accepts_validateNonEmptyString {label : String} {s : PyStr} :
    Accepts (validateNonEmptyString label s) ↔ s.strip ≠ .text "" := by
  unfold validateNonEmptyString valueError
  split_ifs with h
  · simp [h, not_accepts_fail]
  · simp [h, accepts_ok]

theorem accepts_parseName {label : String} :
    Accepts (parseName label (toPy v)) ↔
      ∃ text, v = .string text ∧ (PyStr.ofText text).strip ≠ .text "" := by
  rw [parseName, accepts_bind]
  simp only [accepts_validateNonEmptyString, parseStr_eq_ok]
  constructor
  · rintro ⟨_, ⟨text, rfl, rfl⟩, hstrip⟩
    exact ⟨text, rfl, hstrip⟩
  · rintro ⟨text, rfl, hstrip⟩
    exact ⟨_, ⟨text, rfl, rfl⟩, hstrip⟩

theorem accepts_parseLiteral {values : List α} {name : α → String} :
    Accepts (parseLiteral values name (toPy v)) ↔
      ∃ s ∈ values.map name, v = .string (codePoints s) := by
  cases v with
  | string text =>
    rw [toPy]
    by_cases hordinary : Ordinary text
    · obtain ⟨s, rfl⟩ := hordinary
      simp only [ofText_codePoints, parseLiteral, Json.string.injEq, codePoints_inj]
      cases hfind : values.find? fun a => name a == s with
      | none =>
        have hnone := List.find?_eq_none.mp hfind
        refine iff_of_false (not_accepts_fail _) ?_
        rintro ⟨t, ht, rfl⟩
        obtain ⟨a, ha, rfl⟩ := List.mem_map.mp ht
        exact hnone a ha (beq_self_eq_true _)
      | some a =>
        have hname : name a = s := by simpa using List.find?_some hfind
        have hmem : a ∈ values := List.mem_of_find?_eq_some hfind
        exact iff_of_true (accepts_ok a) ⟨s, hname ▸ List.mem_map_of_mem hmem, rfl⟩
    · rw [ofText_of_not_ordinary hordinary]
      refine iff_of_false (not_accepts_fail _) ?_
      rintro ⟨s, -, heq⟩
      exact hordinary ⟨s, Json.string.inj heq⟩
  | _ => simp [toPy, parseLiteral, not_accepts_fail]

end

/-! ## Where the two differ -/

/-- The member, if it is a text, is not only white space. -/
def Visible (member : Option Json) : Prop :=
  ∀ text, member = some (.string text) → (PyStr.ofText text).strip ≠ .text ""

/-- The member, if it is a number, is written as an integer. -/
def NoDecimal (member : Option Json) : Prop :=
  ∀ neg digits exponent, member ≠ some (.decimal neg digits exponent)

/-- The items of a member that is an array. -/
def Each (member : Option Json) (P : Json → Prop) : Prop :=
  ∀ items, member = some (.array items) → ∀ w ∈ items, P w

/-! ## Names and scalars -/

section

variable {v : Json}

theorem nameSchema_accepts : nameSchema.accepts v = true ↔ ∃ text, v = .string text ∧ text ≠ [] := by
  rw [accepts_iff]
  cases v with
  | string text =>
    simp only [nameSchema, List.forall_mem_cons, List.not_mem_nil, false_implies, implies_true,
      Keyword.holds, Json.hasType, Json.text?, Option.all_some, and_true, decide_eq_true_eq,
      Json.string.injEq, exists_eq_left']
    exact List.length_pos_iff
  | _ => simp [nameSchema, Keyword.holds, Json.hasType]

/-- A name is read exactly when the schema admits it and it is visible. -/
theorem accepts_parseName_iff {label : String} :
    Accepts (parseName label (toPy v)) ↔ nameSchema.accepts v = true ∧ Visible (some v) := by
  rw [accepts_parseName, nameSchema_accepts]
  constructor
  · rintro ⟨text, rfl, hstrip⟩
    refine ⟨⟨text, rfl, fun hempty => ?_⟩, fun text' htext => ?_⟩
    · rw [ofText_eq_empty.mpr hempty] at hstrip
      exact hstrip rfl
    · obtain rfl : text = text' := by simpa using htext
      exact hstrip
  · rintro ⟨⟨text, rfl, -⟩, hvisible⟩
    exact ⟨text, rfl, hvisible text rfl⟩

theorem jsonScalarSchema_accepts : jsonScalarSchema.accepts v = true ↔
    v.hasType .string = true ∨ v.hasType .integer = true ∨ v.hasType .number = true ∨
      v.hasType .boolean = true := by
  rw [jsonScalarSchema, accepts_iff, List.forall_mem_singleton, holds_anyOf]
  simp only [List.mem_cons, exists_eq_or_imp, List.not_mem_nil, or_false, exists_eq_left,
    accepts_type]

theorem parseScalar_string (text : List ℕ) :
    parseScalar (toPy (.string text)) = .ok (.str none (PyStr.ofText text)) := by
  have hread := parseStr_string text
  rcases toPy_string text with ⟨s, h⟩ | h
  · rw [h] at hread ⊢
    simp [parseScalar, hread, under, Except.map]
  · rw [h] at hread ⊢
    simp [parseScalar, hread, under, Except.map]

theorem accepts_parseScalar :
    Accepts (parseScalar (toPy v)) ↔ jsonScalarSchema.accepts v = true := by
  rw [jsonScalarSchema_accepts]
  cases v with
  | string text => simp [parseScalar_string, Json.hasType, accepts_ok]
  | _ => simp [Json.hasType, toPy, parseScalar, parseStr, under, Except.map, fail, Accepts]

theorem parseScalar_eq_str {cls : PyClass} {s : PyStr} :
    parseScalar (toPy v) = .ok (.str cls s) ↔
      cls = none ∧ ∃ text, v = .string text ∧ s = PyStr.ofText text := by
  cases v with
  | string text => simp [parseScalar_string, eq_comm]
  | _ => simp [toPy, parseScalar, parseStr, under, Except.map, fail]

theorem parseScalar_eq_bool {b : Bool} : parseScalar (toPy v) = .ok (.bool b) ↔ v = .bool b := by
  cases v with
  | string text => simp [parseScalar_string]
  | _ => simp [toPy, parseScalar, parseStr, under, Except.map, fail]

theorem parseScalar_eq_int {cls : PyClass} {n : ℤ} :
    parseScalar (toPy v) = .ok (.int cls n) ↔ cls = none ∧ v = .integer n := by
  cases v with
  | string text => simp [parseScalar_string]
  | _ => simp [toPy, parseScalar, parseStr, under, Except.map, fail, eq_comm]

/-! ## Values -/

theorem jsonValueSchema_accepts : jsonValueSchema.accepts v = true ↔
    jsonScalarSchema.accepts v = true ∨
      ∃ items, v = .array items ∧ ∀ w ∈ items, jsonScalarSchema.accepts w = true := by
  rw [jsonValueSchema, accepts_iff, List.forall_mem_singleton, holds_anyOf]
  simp only [List.mem_cons, exists_eq_or_imp, List.not_mem_nil, or_false, exists_eq_left,
    accepts_array]

theorem isnullValueSchema_accepts : isnullValueSchema.accepts v = true ↔ ∃ b, v = .bool b := by
  rw [isnullValueSchema, accepts_type]
  cases v <;> simp [Json.hasType]

theorem inValueSchema_accepts : inValueSchema.accepts v = true ↔
    ∃ items, v = .array items ∧ items ≠ [] ∧ ∀ w ∈ items, jsonScalarSchema.accepts w = true := by
  rw [inValueSchema, accepts_iff]
  simp only [List.forall_mem_cons, List.not_mem_nil, false_implies, implies_true, and_true]
  cases v with
  | array items =>
    rw [holds_items]
    simp only [Keyword.holds, Json.hasType, Json.items?, Option.all_some, decide_eq_true_eq,
      and_true, Json.array.injEq, exists_eq_left', Nat.one_le_iff_ne_zero, ne_eq, List.length_eq_zero_iff]
    exact and_comm
  | _ => simp [Keyword.holds, Json.hasType]

theorem dateRangeValueSchema_accepts : dateRangeValueSchema.accepts v = true ↔
    ∃ a b, v = .array [a, b] ∧ nameSchema.accepts a = true ∧ nameSchema.accepts b = true := by
  rw [dateRangeValueSchema, accepts_iff]
  simp only [List.forall_mem_cons, List.not_mem_nil, false_implies, implies_true, and_true]
  cases v with
  | array items =>
    rw [holds_items]
    simp only [Keyword.holds, Json.hasType, Json.items?, Option.all_some, decide_eq_true_eq,
      and_true, Json.array.injEq]
    constructor
    · rintro ⟨hitems, hmost, hleast⟩
      obtain ⟨a, b, rfl⟩ := List.length_eq_two.mp (Nat.le_antisymm hmost hleast)
      exact ⟨a, b, rfl, hitems a (by simp), hitems b (by simp)⟩
    · rintro ⟨a, b, rfl, ha, hb⟩
      refine ⟨?_, le_rfl, le_rfl⟩
      simpa using ⟨ha, hb⟩
  | _ => simp [Keyword.holds, Json.hasType]

theorem relativeValueSchema_accepts {n : ℤ} :
    relativeValueSchema.accepts (.integer n) = true ↔ 1 ≤ n := by
  rw [relativeValueSchema, accepts_iff]
  simp only [List.forall_mem_cons, List.not_mem_nil, false_implies, implies_true, and_true,
    Keyword.holds, Json.hasType, Json.value?, Option.all_some, decide_eq_true_eq]
  exact Int.cast_le

theorem parseJsonValue_eq_scalar {scalar : PyScalar} :
    parseJsonValue (toPy v) = .ok (.scalar scalar) ↔ parseScalar (toPy v) = .ok scalar := by
  cases v with
  | array items =>
    simp only [toPy, parseJsonValue, sequence?]
    cases (toPyItems items).mapM parseScalar <;> simp [parseScalar, parseStr, under, Except.map, fail]
  | string text =>
    rw [toPy, parseJsonValue, sequence?_ofText]
    cases parseScalar (.ofText text) <;> simp [Except.map]
  | _ => simp [toPy, parseJsonValue, sequence?, parseScalar, parseStr, under, Except.map, fail]

theorem parseJsonValue_eq_list {scalars : List PyScalar} :
    parseJsonValue (toPy v) = .ok (.list scalars) ↔
      ∃ items, v = .array items ∧ (toPyItems items).mapM parseScalar = .ok scalars := by
  cases v with
  | array items =>
    simp only [toPy, parseJsonValue, sequence?, Json.array.injEq, exists_eq_left']
    cases (toPyItems items).mapM parseScalar <;> simp [parseScalar, parseStr, under, Except.map, fail]
  | string text =>
    rw [toPy, parseJsonValue, sequence?_ofText]
    cases parseScalar (.ofText text) <;> simp [Except.map]
  | _ => simp [toPy, parseJsonValue, sequence?, parseScalar, parseStr, under, Except.map, fail]

def ReadsValue (op : FilterOperator) (v : Json) : Prop :=
  ∃ value, parseJsonValue (toPy v) = .ok value ∧ validateFilterValue op value = none

theorem readsValue_isnull : ReadsValue .isnull v ↔ ∃ b, v = .bool b := by
  constructor
  · rintro ⟨value, hparse, hvalid⟩
    obtain ⟨b, rfl⟩ := validateFilterValue_eq_none.mp hvalid
    exact ⟨b, parseScalar_eq_bool.mp (parseJsonValue_eq_scalar.mp hparse)⟩
  · rintro ⟨b, rfl⟩
    exact ⟨.scalar (.bool b), rfl, rfl⟩

theorem readsValue_in : ReadsValue .in v ↔
    ∃ items, v = .array items ∧ items ≠ [] ∧ ∀ w ∈ items, Accepts (parseScalar (toPy w)) := by
  constructor
  · rintro ⟨value, hparse, hvalid⟩
    obtain ⟨scalar, scalars, rfl⟩ := validateFilterValue_eq_none.mp hvalid
    obtain ⟨items, rfl, hitems⟩ := parseJsonValue_eq_list.mp hparse
    refine ⟨items, rfl, ?_, ?_⟩
    · rintro rfl
      cases (mapM_eq_ok.mp hitems)
    · have hall := mapM_ok_iff.mp ⟨scalar :: scalars, hitems⟩
      rwa [toPyItems_eq_map, List.forall_mem_map] at hall
  · rintro ⟨items, rfl, hne, hitems⟩
    obtain ⟨scalars, hscalars⟩ : ∃ scalars, (toPyItems items).mapM parseScalar = .ok scalars := by
      rw [mapM_ok_iff, toPyItems_eq_map, List.forall_mem_map]
      exact hitems
    refine ⟨.list scalars, parseJsonValue_eq_list.mpr ⟨items, rfl, hscalars⟩, ?_⟩
    have hlength := (mapM_eq_ok.mp hscalars).length_eq
    rw [toPyItems_eq_map, List.length_map] at hlength
    cases scalars with
    | nil => exact absurd (List.length_eq_zero_iff.mp hlength) hne
    | cons scalar rest => rfl

theorem readsValue_dateRange : ReadsValue .dateRange v ↔
    ∃ s t, v = .array [.string s, .string t] ∧ s ≠ [] ∧ t ≠ [] := by
  constructor
  · rintro ⟨value, hparse, hvalid⟩
    obtain ⟨c, s, d, t, rfl, hs, ht⟩ := validateFilterValue_eq_none.mp hvalid
    obtain ⟨items, rfl, hitems⟩ := parseJsonValue_eq_list.mp hparse
    rw [mapM_eq_ok, toPyItems_eq_map, List.forall₂_map_left_iff] at hitems
    cases hitems with
    | cons ha hrest =>
      cases hrest with
      | cons hb hnil =>
        cases hnil
        obtain ⟨-, text, rfl, rfl⟩ := parseScalar_eq_str.mp ha
        obtain ⟨-, text', rfl, rfl⟩ := parseScalar_eq_str.mp hb
        exact ⟨text, text', rfl, mt ofText_eq_empty.mpr hs, mt ofText_eq_empty.mpr ht⟩
  · rintro ⟨s, t, rfl, hs, ht⟩
    refine ⟨.list [.str none (.ofText s), .str none (.ofText t)],
      parseJsonValue_eq_list.mpr ⟨_, rfl, ?_⟩, ?_⟩
    · rw [mapM_eq_ok, toPyItems, toPyItems, toPyItems]
      exact .cons (parseScalar_string s) (.cons (parseScalar_string t) .nil)
    · exact validateFilterValue_eq_none.mpr ⟨none, _, none, _, rfl,
        mt ofText_eq_empty.mp hs, mt ofText_eq_empty.mp ht⟩

theorem readsValue_relative {op : FilterOperator} (hop : op = .lastNDays ∨ op = .lastNMonths) :
    ReadsValue op v ↔ ∃ n, v = .integer n ∧ 1 ≤ n := by
  have hvalid : ∀ value, validateFilterValue op value = none ↔
      ∃ cls n, value = .scalar (.int cls n) ∧ 1 ≤ n := by
    rcases hop with rfl | rfl <;> exact fun value => validateFilterValue_eq_none
  simp only [ReadsValue, hvalid]
  constructor
  · rintro ⟨_, hparse, cls, n, rfl, hn⟩
    obtain ⟨-, rfl⟩ := parseScalar_eq_int.mp (parseJsonValue_eq_scalar.mp hparse)
    exact ⟨n, rfl, hn⟩
  · rintro ⟨n, rfl, hn⟩
    exact ⟨_, rfl, none, n, rfl, hn⟩

theorem readsValue_containment {op : FilterOperator} (hop : op = .contains ∨ op = .icontains) :
    ReadsValue op v ↔ ∃ text, v = .string text ∧ text ≠ [] := by
  have hvalid : ∀ value, validateFilterValue op value = none ↔
      ∃ cls s, value = .scalar (.str cls s) ∧ s ≠ "" := by
    rcases hop with rfl | rfl <;> exact fun value => validateFilterValue_eq_none
  simp only [ReadsValue, hvalid]
  constructor
  · rintro ⟨_, hparse, cls, s, rfl, hs⟩
    obtain ⟨-, text, rfl, rfl⟩ := parseScalar_eq_str.mp (parseJsonValue_eq_scalar.mp hparse)
    exact ⟨text, rfl, mt ofText_eq_empty.mpr hs⟩
  · rintro ⟨text, rfl, htext⟩
    exact ⟨_, parseJsonValue_eq_scalar.mpr (parseScalar_string text), none, _, rfl,
      mt ofText_eq_empty.mp htext⟩

def IsComparison (op : FilterOperator) : Prop :=
  op ∈ [.eq, .neq, .gt, .gte, .lt, .lte]

theorem readsValue_comparison {op : FilterOperator} (hop : IsComparison op) :
    ReadsValue op v ↔ Accepts (parseScalar (toPy v)) := by
  have hvalid : ∀ value, validateFilterValue op value = none ↔ ∃ scalar, value = .scalar scalar := by
    simp only [IsComparison, List.mem_cons, List.not_mem_nil, or_false] at hop
    rcases hop with rfl | rfl | rfl | rfl | rfl | rfl <;>
      exact fun value => validateFilterValue_eq_none
  simp only [ReadsValue, hvalid]
  constructor
  · rintro ⟨_, hparse, scalar, rfl⟩
    exact ⟨scalar, parseJsonValue_eq_scalar.mp hparse⟩
  · rintro ⟨scalar, hscalar⟩
    exact ⟨.scalar scalar, parseJsonValue_eq_scalar.mpr hscalar, scalar, rfl⟩

/-! ## The clauses of a filter -/

def valueSchemaOf : FilterOperator → Schema
  | .isnull => isnullValueSchema
  | .in => inValueSchema
  | .dateRange => dateRangeValueSchema
  | .lastNDays | .lastNMonths => relativeValueSchema
  | .contains | .icontains => containmentValueSchema
  | .eq | .neq | .gt | .gte | .lt | .lte => jsonScalarSchema

/-- The amount of a relative filter is written as an integer. -/
def PlainValue (op : FilterOperator) (v : Json) : Prop :=
  op = .lastNDays ∨ op = .lastNMonths → NoDecimal (some v)

theorem plainValue_of_absolute {op : FilterOperator} (hdays : op ≠ .lastNDays)
    (hmonths : op ≠ .lastNMonths) : PlainValue op v := by
  rintro (hop | hop)
  · exact absurd hop hdays
  · exact absurd hop hmonths

theorem nameSchema_accepts_string {text : List ℕ} :
    nameSchema.accepts (.string text) = true ↔ text ≠ [] := by
  rw [nameSchema_accepts]
  simp only [Json.string.injEq, exists_eq_left']

theorem jsonValueSchema_of_items {items : List Json}
    (h : ∀ w ∈ items, jsonScalarSchema.accepts w = true) :
    jsonValueSchema.accepts (.array items) = true :=
  jsonValueSchema_accepts.mpr (.inr ⟨items, rfl, h⟩)

theorem jsonScalarSchema_string (text : List ℕ) : jsonScalarSchema.accepts (.string text) = true :=
  jsonScalarSchema_accepts.mpr (.inl rfl)

theorem each_array {items : List Json} {P : Json → Prop} :
    Each (some (.array items)) P ↔ ∀ w ∈ items, P w := by
  simp only [Each, Option.some.injEq, Json.array.injEq, forall_eq']

theorem readsValue_in_iff : ReadsValue .in v ↔
    (jsonValueSchema.accepts v = true ∧ inValueSchema.accepts v = true) ∧ PlainValue .in v := by
  rw [readsValue_in, inValueSchema_accepts]
  simp only [accepts_parseScalar]
  constructor
  · rintro ⟨items, rfl, hne, hitems⟩
    exact ⟨⟨jsonValueSchema_of_items hitems, items, rfl, hne, hitems⟩,
      plainValue_of_absolute (by decide) (by decide)⟩
  · rintro ⟨⟨-, hitems⟩, -⟩
    exact hitems

theorem readsValue_dateRange_iff : ReadsValue .dateRange v ↔
    (jsonValueSchema.accepts v = true ∧ dateRangeValueSchema.accepts v = true) ∧
      PlainValue .dateRange v := by
  rw [readsValue_dateRange, dateRangeValueSchema_accepts]
  constructor
  · rintro ⟨s, t, rfl, hs, ht⟩
    refine ⟨⟨jsonValueSchema_of_items ?_, _, _, rfl, nameSchema_accepts_string.mpr hs,
      nameSchema_accepts_string.mpr ht⟩, plainValue_of_absolute (by decide) (by decide)⟩
    simp [jsonScalarSchema_string]
  · rintro ⟨⟨-, a, b, rfl, ha, hb⟩, -⟩
    obtain ⟨s, rfl, hs⟩ := nameSchema_accepts.mp ha
    obtain ⟨t, rfl, ht⟩ := nameSchema_accepts.mp hb
    exact ⟨s, t, rfl, hs, ht⟩

theorem relativeValueSchema_noDecimal :
    (relativeValueSchema.accepts v = true ∧ NoDecimal (some v)) ↔ ∃ n, v = .integer n ∧ 1 ≤ n := by
  constructor
  · rintro ⟨hschema, hplain⟩
    have htype : v.hasType .integer = true := by
      refine accepts_iff.mp hschema (.type .integer) ?_
      simp [relativeValueSchema]
    cases v with
    | integer n => exact ⟨n, rfl, relativeValueSchema_accepts.mp hschema⟩
    | decimal neg digits exponent => exact absurd rfl (hplain neg digits exponent)
    | _ => cases htype
  · rintro ⟨n, rfl, hn⟩
    refine ⟨relativeValueSchema_accepts.mpr hn, ?_⟩
    rintro neg digits exponent ⟨⟩

theorem readsValue_relative_iff {op : FilterOperator} (hop : op = .lastNDays ∨ op = .lastNMonths) :
    ReadsValue op v ↔ (jsonValueSchema.accepts v = true ∧ relativeValueSchema.accepts v = true) ∧
      PlainValue op v := by
  rw [readsValue_relative hop, ← relativeValueSchema_noDecimal]
  constructor
  · rintro ⟨hschema, hplain⟩
    obtain ⟨n, rfl, -⟩ := relativeValueSchema_noDecimal.mp ⟨hschema, hplain⟩
    exact ⟨⟨jsonValueSchema_accepts.mpr (.inl (jsonScalarSchema_accepts.mpr (.inr (.inl rfl)))),
      hschema⟩, fun _ => hplain⟩
  · rintro ⟨⟨-, hschema⟩, hplain⟩
    exact ⟨hschema, hplain hop⟩

theorem readsValue_containment_iff {op : FilterOperator} (hop : op = .contains ∨ op = .icontains) :
    ReadsValue op v ↔ (jsonValueSchema.accepts v = true ∧ nameSchema.accepts v = true) ∧
      PlainValue op v := by
  rw [readsValue_containment hop]
  constructor
  · rintro ⟨text, rfl, htext⟩
    refine ⟨⟨jsonValueSchema_accepts.mpr (.inl (jsonScalarSchema_string _)),
      nameSchema_accepts_string.mpr htext⟩, ?_⟩
    rintro - neg digits exponent ⟨⟩
  · rintro ⟨⟨-, hname⟩, -⟩
    exact nameSchema_accepts.mp hname

theorem readsValue_comparison_iff {op : FilterOperator} (hop : IsComparison op) :
    ReadsValue op v ↔ (jsonValueSchema.accepts v = true ∧ jsonScalarSchema.accepts v = true) ∧
      PlainValue op v := by
  rw [readsValue_comparison hop, accepts_parseScalar]
  constructor
  · intro hscalar
    refine ⟨⟨jsonValueSchema_accepts.mpr (.inl hscalar), hscalar⟩, ?_⟩
    rintro (rfl | rfl) <;> simp [IsComparison] at hop
  · rintro ⟨⟨-, hscalar⟩, -⟩
    exact hscalar

theorem readsValue_isnull_iff : ReadsValue .isnull v ↔
    (jsonValueSchema.accepts v = true ∧ isnullValueSchema.accepts v = true) ∧
      PlainValue .isnull v := by
  rw [readsValue_isnull, isnullValueSchema_accepts]
  constructor
  · rintro ⟨b, rfl⟩
    have hscalar : jsonScalarSchema.accepts (.bool b) = true :=
      jsonScalarSchema_accepts.mpr (.inr (.inr (.inr rfl)))
    exact ⟨⟨jsonValueSchema_accepts.mpr (.inl hscalar), b, rfl⟩,
      plainValue_of_absolute (by decide) (by decide)⟩
  · rintro ⟨⟨-, h⟩, -⟩
    exact h

/-- A value is read exactly when both of its schemas admit it and it is plain. -/
theorem readsValue_iff {op : FilterOperator} : ReadsValue op v ↔
    (jsonValueSchema.accepts v = true ∧ (valueSchemaOf op).accepts v = true) ∧ PlainValue op v := by
  cases op with
  | isnull => exact readsValue_isnull_iff
  | «in» => exact readsValue_in_iff
  | dateRange => exact readsValue_dateRange_iff
  | lastNDays => exact readsValue_relative_iff (.inl rfl)
  | lastNMonths => exact readsValue_relative_iff (.inr rfl)
  | contains => exact readsValue_containment_iff (.inl rfl)
  | icontains => exact readsValue_containment_iff (.inr rfl)
  | _ => exact readsValue_comparison_iff (by simp [IsComparison])

end

end AskLens.Contracts
