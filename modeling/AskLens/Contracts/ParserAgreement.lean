import AskLens.Contracts.DecodedValues
import AskLens.Sample
import Mathlib.Data.Set.List

/-!
# The parser beside the schema

`parse_query_plan` and the published schema describe one grammar twice. They
differ in two ways: the parser strips names before it looks whether they are
empty, and it wants integers to be written as integers.
-/
namespace AskLens.Contracts

open Python Catalog Planning JsonSchema Checks

/-! ## Where the two differ -/

structure PlainFilter (v : Json) : Prop where
  field : Visible (v.get? "field")
  amount : v.get? "op" = some (.string (codePoints "last_n_days")) ∨
    v.get? "op" = some (.string (codePoints "last_n_months")) → NoDecimal (v.get? "value")

/-- No name of the document is only white space, and its limit and the amounts of its relative
filters are written as integers. -/
structure PlainDocument (v : Json) : Prop where
  resource : Visible (v.get? "resource")
  filters : Each (v.get? "filters") PlainFilter
  groupBy : Each (v.get? "group_by") fun w => Visible (w.get? "field")
  metrics : Each (v.get? "metrics") fun w => Visible (w.get? "metric")
  select : Each (v.get? "select") fun w => Visible (some w)
  orderBy : Each (v.get? "order_by") fun w => Visible (w.get? "field") ∧ Visible (w.get? "metric")
  limit : NoDecimal (v.get? "limit")


/-! ## Members of an object -/

section

variable {α β : Type} {members : List (List ℕ × Json)} {v : Json} {key : String}
  {parse : PyObj → Parse α} {schema : Schema} {Q : Json → Prop}

theorem accepts_modelEntries {model : String} {f : Entries → Parse α} :
    Accepts (modelEntries model (toPy v) >>= f) ↔
      ∃ members, v = .object members ∧ Accepts (f (toPyMembers members)) := by
  cases v with
  | object members => simp [toPy, modelEntries]
  | string text =>
    rcases toPy_string text with ⟨s, h⟩ | h
    · simp [h, modelEntries, fail, Accepts]
    · simp [h, modelEntries, fail, Accepts]
  | _ => simp [toPy, modelEntries, fail, Accepts]

/-- A model and an object schema agree when they agree on objects. -/
theorem accepts_model_iff {model : String} {f : Entries → Parse α}
    (htype : Keyword.type .object ∈ schema)
    (h : ∀ members, Accepts (f (toPyMembers members)) ↔
      schema.accepts (.object members) = true ∧ Q (.object members)) :
    Accepts (modelEntries model (toPy v) >>= f) ↔ schema.accepts v = true ∧ Q v := by
  rw [accepts_modelEntries]
  constructor
  · rintro ⟨members, rfl, hf⟩
    exact (h members).mp hf
  · rintro ⟨hschema, hplain⟩
    have hobject := accepts_iff.mp hschema _ htype
    cases v with
    | object members => exact ⟨members, rfl, (h members).mpr ⟨hschema, hplain⟩⟩
    | _ => cases hobject

/-- The model forbids the members that the schema does not declare. -/
theorem accepts_forbidExtra {env : Environment} {allowed declared : List String}
    (h : ∀ name, name ∈ allowed ↔ name ∈ declared) :
    Accepts (forbidExtra env allowed (toPyMembers members)) ↔
      Keyword.noAdditionalProperties.holds declared (.object members) = true := by
  rw [holds_noAdditionalProperties, Accepts, forbidExtra_toPyMembers]
  simp only [List.mem_map, h]

theorem accepts_required_iff
    (hparse : ∀ w, Accepts (parse (toPy w)) ↔ schema.accepts w = true ∧ Q w) :
    Accepts (required (toPyMembers members) key parse) ↔
      (∃ w, Json.get? (.object members) key = some w) ∧
        (∀ w, Json.get? (.object members) key = some w → schema.accepts w = true) ∧
          ∀ w, Json.get? (.object members) key = some w → Q w := by
  rw [accepts_required]
  simp only [hparse]
  cases Json.get? (.object members) key <;> simp

theorem accepts_optional_iff
    (hparse : ∀ w, Accepts (parse (toPy w)) ↔ schema.accepts w = true ∧ Q w) :
    Accepts (optional (toPyMembers members) key parse) ↔
      (∀ w, Json.get? (.object members) key = some w → schema.accepts w = true) ∧
        ∀ w, Json.get? (.object members) key = some w → Q w := by
  rw [accepts_optional]
  simp only [hparse, forall_and]

theorem visible_iff {member : Option Json} :
    Visible member ↔ ∀ w, member = some w → Visible (some w) := by
  cases member <;> simp [Visible]

theorem each_iff {member : Option Json} :
    Each member Q ↔ ∀ w, member = some w → Each (some w) Q := by
  cases member <;> simp [Each]

theorem noDecimal_iff {member : Option Json} :
    NoDecimal member ↔ ∀ w, member = some w → NoDecimal (some w) := by
  cases member <;> simp [NoDecimal]

theorem accepts_parseTuple_iff
    (hparse : ∀ w, Accepts (parse (toPy w)) ↔ schema.accepts w = true ∧ Q w) :
    Accepts (parseTuple parse (toPy v)) ↔
      Schema.accepts [.items schema, .type .array] v = true ∧ Each (some v) Q := by
  rw [accepts_parseTuple, accepts_array]
  simp only [hparse, forall_and]
  constructor
  · rintro ⟨items, rfl, hschema, hplain⟩
    exact ⟨⟨items, rfl, hschema⟩, each_array.mpr hplain⟩
  · rintro ⟨⟨items, rfl, hschema⟩, hplain⟩
    exact ⟨items, rfl, hschema, each_array.mp hplain⟩

/-! ## Metrics and groups -/

theorem accepts_parseMetricSpec {env : Environment} : Accepts (parseMetricSpec env (toPy v)) ↔
    metricSpecSchema.accepts v = true ∧ Visible (v.get? "metric") := by
  have htype : Keyword.type .object ∈ metricSpecSchema := by simp [metricSpecSchema]
  have hnames : ∀ name, name ∈ ["metric"] ↔ name ∈ declaredBy metricSpecSchema := by
    simp [declaredBy, metricSpecSchema]
  refine accepts_model_iff (Q := fun w => Visible (w.get? "metric")) htype fun members => ?_
  rw [accepts_bind_of_forall fun a => accepts_bind_of_forall fun _ => iff_true_intro (accepts_ok _),
    accepts_required_iff fun w => accepts_parseName_iff, accepts_forbidExtra hnames, accepts_iff,
    visible_iff]
  simp only [metricSpecSchema, List.forall_mem_cons, List.not_mem_nil, false_implies, implies_true,
    and_true, holds_properties, holds_required]
  simp only [Keyword.holds, Json.hasType]
  tauto

theorem toPy_eq_null : toPy v = .null ↔ v = .null := by
  cases v with
  | string text =>
    rcases toPy_string text with ⟨s, h⟩ | h
    · simp [h]
    · simp [h]
  | _ => simp [toPy]

theorem accepts_parseOptional : Accepts (parseOptional parse (toPy v)) ↔
    v = .null ∨ Accepts (parse (toPy v)) := by
  by_cases hnull : v = .null
  · subst hnull
    exact iff_of_true (accepts_ok _) (.inl rfl)
  · have hne : toPy v ≠ .null := fun h => hnull (toPy_eq_null.mp h)
    have heq : parseOptional parse (toPy v) = (parse (toPy v)).map some := by
      unfold parseOptional
      split
      · exact absurd (by assumption) hne
      · rfl
    rw [heq, accepts_map, or_iff_right hnull]

theorem hasType_null : v.hasType .null = true ↔ v = .null := by
  cases v <;> simp [Json.hasType]

theorem accepts_dateTrunc : Accepts (parseOptional
      (parseLiteral supportedDateTruncs DateTrunc.name) (toPy v)) ↔
    Schema.accepts [.anyOf [dateTruncSchema, [.type .null]]] v = true ∧ True := by
  rw [accepts_parseOptional, accepts_parseLiteral, accepts_iff, List.forall_mem_singleton,
    holds_anyOf, and_true]
  simp only [List.mem_cons, exists_eq_or_imp, List.not_mem_nil, or_false, exists_eq_left,
    accepts_type, dateTruncSchema, accepts_enum, hasType_null, supportedDateTruncs, List.map,
    DateTrunc.name]
  exact or_comm

theorem accepts_parseGroupBySpec {env : Environment} : Accepts (parseGroupBySpec env (toPy v)) ↔
    groupBySpecSchema.accepts v = true ∧ Visible (v.get? "field") := by
  have htype : Keyword.type .object ∈ groupBySpecSchema := by simp [groupBySpecSchema]
  have hnames : ∀ name, name ∈ ["field", "date_trunc"] ↔ name ∈ declaredBy groupBySpecSchema := by
    simp [declaredBy, groupBySpecSchema, or_comm]
  refine accepts_model_iff (Q := fun w => Visible (w.get? "field")) htype fun members => ?_
  rw [accepts_bind_of_forall fun a => accepts_bind_of_forall fun o =>
      accepts_bind_of_forall fun _ => iff_true_intro (accepts_ok _),
    accepts_required_iff fun w => accepts_parseName_iff,
    accepts_optional_iff fun w => accepts_dateTrunc, accepts_forbidExtra hnames, accepts_iff,
    visible_iff]
  simp only [groupBySpecSchema, List.forall_mem_cons, List.not_mem_nil, false_implies, implies_true,
    and_true, holds_properties, holds_required]
  simp only [Keyword.holds, Json.hasType]
  tauto

/-! ## Ordering -/

theorem optional_eq_ok {o : Option α} : optional (toPyMembers members) key parse = .ok o ↔
    (Json.get? (.object members) key = none ∧ o = none) ∨
      ∃ w a, Json.get? (.object members) key = some w ∧ parse (toPy w) = .ok a ∧ o = some a := by
  unfold Planning.optional
  rw [lookupKey_toPyMembers]
  show _ ↔ (members.lookup (codePoints key) = none ∧ _) ∨
    ∃ w a, members.lookup (codePoints key) = some w ∧ _
  cases members.lookup (codePoints key) with
  | none => simp [eq_comm]
  | some w =>
    simp only [Option.map_some, reduceCtorEq, false_and, false_or, Option.some.injEq,
      exists_and_left, exists_eq_left']
    cases parse (toPy w) <;> simp [under, Except.map, eq_comm]

theorem parseTarget_eq_none {label : String} :
    parseOptional (parseName label) (toPy v) = .ok none ↔ v = .null := by
  constructor
  · intro h
    by_contra hnull
    have hne : toPy v ≠ .null := fun h => hnull (toPy_eq_null.mp h)
    unfold parseOptional at h
    split at h
    · exact hne (by assumption)
    · cases hname : parseName label (toPy v) <;> simp [hname, Except.map] at h
  · rintro rfl
    rfl

theorem parseTarget_eq_some {label : String} {name : PyStr} :
    parseOptional (parseName label) (toPy v) = .ok (some name) ↔
      parseName label (toPy v) = .ok name := by
  unfold parseOptional
  split
  · rename_i hnull
    simp [hnull, parseName, parseStr, fail]
  · cases parseName label (toPy v) <;> simp [Except.map]

theorem optional_target_none {label : String} :
    (∃ o, optional (toPyMembers members) key (parseOptional (parseName label)) = .ok o ∧
        o.join = none) ↔
      ∀ w, Json.get? (.object members) key = some w → w.hasType .null = true := by
  simp only [optional_eq_ok, hasType_null]
  constructor
  · rintro ⟨o, ⟨hget, rfl⟩ | ⟨w, a, hget, hparse, rfl⟩, hjoin⟩ u hu
    · simp [hget] at hu
    · obtain rfl : w = u := by simpa [hget] using hu
      obtain rfl : a = none := by simpa using hjoin
      exact parseTarget_eq_none.mp hparse
  · intro h
    cases hget : Json.get? (.object members) key with
    | none => exact ⟨none, .inl ⟨rfl, rfl⟩, rfl⟩
    | some w => exact ⟨some none, .inr ⟨w, none, rfl, parseTarget_eq_none.mpr (h w hget), rfl⟩, rfl⟩

theorem optional_target_some {label : String} :
    (∃ o name, optional (toPyMembers members) key (parseOptional (parseName label)) = .ok o ∧
        o.join = some name) ↔
      ∃ w, Json.get? (.object members) key = some w ∧ nameSchema.accepts w = true ∧
        Visible (some w) := by
  have hread : ∀ w, (nameSchema.accepts w = true ∧ Visible (some w)) ↔
      ∃ name, parseName label (toPy w) = .ok name := fun _ => accepts_parseName_iff.symm
  simp only [hread, optional_eq_ok]
  constructor
  · rintro ⟨o, name, ⟨hget, rfl⟩ | ⟨w, a, hget, hparse, rfl⟩, hjoin⟩
    · cases hjoin
    · obtain rfl : a = some name := by simpa using hjoin
      exact ⟨w, hget, name, parseTarget_eq_some.mp hparse⟩
  · rintro ⟨w, hget, name, hname⟩
    exact ⟨some (some name), name, .inr ⟨w, some name, hget, parseTarget_eq_some.mpr hname, rfl⟩, rfl⟩

theorem accepts_direction :
    Accepts (parseLiteral supportedOrderDirections OrderDirection.name (toPy v)) ↔
      orderDirectionSchema.accepts v = true ∧ True := by
  rw [accepts_parseLiteral, orderDirectionSchema, accepts_enum, and_true]
  rfl

structure SingleTarget (v : Json) (field metric : String) : Prop where
  named : ∃ w, v.get? field = some w ∧ nameSchema.accepts w = true
  null : ∀ w, v.get? metric = some w → w.hasType .null = true

theorem SingleTarget.asymm {field metric : String} (h : SingleTarget v field metric) :
    ¬ SingleTarget v metric field := by
  intro h'
  obtain ⟨w, hget, hname⟩ := h.named
  have hnull := hasType_null.mp (h'.null w hget)
  obtain ⟨text, rfl, -⟩ := nameSchema_accepts.mp hname
  cases hnull

theorem singleTarget_iff {field metric : String} :
    (SingleTarget (.object members) field metric ∧ Visible (Json.get? (.object members) field)) ↔
      (∃ o name, optional (toPyMembers members) field
          (parseOptional (parseName "order_by target")) = .ok o ∧ o.join = some name) ∧
        ∃ o, optional (toPyMembers members) metric
          (parseOptional (parseName "order_by target")) = .ok o ∧ o.join = none := by
  rw [optional_target_some, optional_target_none]
  constructor
  · rintro ⟨⟨⟨w, hget, hname⟩, hnull⟩, hvisible⟩
    exact ⟨⟨w, hget, hname, hget ▸ hvisible⟩, hnull⟩
  · rintro ⟨⟨w, hget, hname, hvisible⟩, hnull⟩
    exact ⟨⟨⟨w, hget, hname⟩, hnull⟩, hget ▸ hvisible⟩

/-- An order is read when the rest is and exactly one target is named. -/
theorem accepts_parseOrderBySpec_object {env : Environment} :
    Accepts (parseOrderBySpec env (toPy (.object members))) ↔
      Accepts (optional (toPyMembers members) "direction"
          (parseLiteral supportedOrderDirections OrderDirection.name)) ∧
        Accepts (forbidExtra env ["field", "metric", "direction"] (toPyMembers members)) ∧
          ((SingleTarget (.object members) "field" "metric" ∧
              Visible (Json.get? (.object members) "field")) ∨
            (SingleTarget (.object members) "metric" "field" ∧
              Visible (Json.get? (.object members) "metric"))) := by
  rw [singleTarget_iff, singleTarget_iff]
  simp only [parseOrderBySpec, toPy, modelEntries, ok_bind, accepts_bind]
  constructor
  · rintro ⟨f, hf, m, hm, d, hd, u, hu, hmatch⟩
    refine ⟨⟨d, hd⟩, ⟨u, hu⟩, ?_⟩
    cases hfield : f.join with
    | none =>
      cases hmetric : m.join with
      | none => simp [hfield, hmetric, valueError, not_accepts_fail] at hmatch
      | some name => exact .inr ⟨⟨m, name, hm, hmetric⟩, f, hf, hfield⟩
    | some name =>
      cases hmetric : m.join with
      | none => exact .inl ⟨⟨f, name, hf, hfield⟩, m, hm, hmetric⟩
      | some other => simp [hfield, hmetric, valueError, not_accepts_fail] at hmatch
  · rintro ⟨⟨d, hd⟩, ⟨u, hu⟩, ⟨⟨f, name, hf, hfield⟩, m, hm, hmetric⟩ |
      ⟨⟨m, name, hm, hmetric⟩, f, hf, hfield⟩⟩
    all_goals
      refine ⟨f, hf, m, hm, d, hd, u, hu, ?_⟩
      simp only [hfield, hmetric]
      exact accepts_ok _

theorem accepts_singleTarget (field metric : String) :
    Schema.accepts [.properties [(field, nameSchema), (metric, [.type .null])], .required [field]]
        (.object members) = true ↔ SingleTarget (.object members) field metric := by
  rw [accepts_iff]
  simp only [List.forall_mem_cons, List.not_mem_nil, false_implies, implies_true, and_true,
    holds_properties, holds_required, accepts_type]
  constructor
  · rintro ⟨⟨hname, hnull⟩, w, hget⟩
    exact ⟨⟨w, hget, hname w hget⟩, hnull⟩
  · rintro ⟨⟨w, hget, hname⟩, hnull⟩
    refine ⟨⟨fun u hu => ?_, hnull⟩, w, hget⟩
    obtain rfl : w = u := by simpa [hget] using hu
    exact hname

theorem accepts_singleTarget_swap (field metric : String) :
    Schema.accepts [.properties [(metric, [.type .null]), (field, nameSchema)], .required [field]]
        (.object members) = true ↔ SingleTarget (.object members) field metric := by
  rw [← accepts_singleTarget, accepts_iff, accepts_iff]
  simp only [List.forall_mem_cons, List.not_mem_nil, false_implies, implies_true, and_true,
    holds_properties, holds_required]
  exact and_congr_left fun _ => and_comm

theorem SingleTarget.accepts_named {field metric : String} (h : SingleTarget v field metric) {w : Json}
    (hw : v.get? field = some w) : optionalNameSchema.accepts w = true := by
  obtain ⟨u, hget, hname⟩ := h.named
  obtain rfl : u = w := by simpa [hget] using hw
  obtain ⟨text, rfl, -⟩ := nameSchema_accepts.mp hname
  rw [optionalNameSchema, accepts_iff, List.forall_mem_singleton, holds_anyOf]
  exact ⟨[.type .string], by simp, accepts_type.mpr rfl⟩

theorem SingleTarget.accepts_null {field metric : String} (h : SingleTarget v field metric) {w : Json}
    (hw : v.get? metric = some w) : optionalNameSchema.accepts w = true := by
  rw [optionalNameSchema, accepts_iff, List.forall_mem_singleton, holds_anyOf]
  exact ⟨[.type .null], by simp, accepts_type.mpr (h.null w hw)⟩

theorem SingleTarget.visible_null {field metric : String} (h : SingleTarget v field metric) :
    Visible (v.get? metric) := by
  intro text hget
  cases hasType_null.mp (h.null _ hget)

theorem accepts_orderBySpecSchema : orderBySpecSchema.accepts (.object members) = true ↔
    (∀ w, Json.get? (.object members) "direction" = some w → orderDirectionSchema.accepts w = true) ∧
      Keyword.noAdditionalProperties.holds (declaredBy orderBySpecSchema) (.object members) = true ∧
        (SingleTarget (.object members) "field" "metric" ∨
          SingleTarget (.object members) "metric" "field") := by
  have hone : ∀ declared, (Keyword.oneOf
      [[.properties [("field", nameSchema), ("metric", [.type .null])], .required ["field"]],
        [.properties [("field", [.type .null]), ("metric", nameSchema)], .required ["metric"]]]).holds
          declared (.object members) = true ↔
        SingleTarget (.object members) "field" "metric" ∨
          SingleTarget (.object members) "metric" "field" := by
    intro declared
    have hdisjoint : Schema.accepts
          [.properties [("field", nameSchema), ("metric", [.type .null])], .required ["field"]]
          (.object members) = true →
        Schema.accepts
          [.properties [("field", [.type .null]), ("metric", nameSchema)], .required ["metric"]]
          (.object members) = false := by
      rw [accepts_singleTarget, ← Bool.not_eq_true, accepts_singleTarget_swap]
      exact SingleTarget.asymm
    rw [holds_oneOf_pair hdisjoint, accepts_singleTarget, accepts_singleTarget_swap]
  rw [accepts_iff]
  simp only [orderBySpecSchema, List.forall_mem_cons, List.not_mem_nil, false_implies, implies_true,
    and_true, holds_properties, hone]
  constructor
  · rintro ⟨hextra, htarget, ⟨hdirection, -, -⟩, -⟩
    exact ⟨hdirection, hextra, htarget⟩
  · rintro ⟨hdirection, hextra, htarget⟩
    refine ⟨hextra, htarget, ⟨hdirection, ?_, ?_⟩, rfl⟩
    · intro w hw
      exact htarget.elim (·.accepts_named hw) (·.accepts_null hw)
    · intro w hw
      exact htarget.elim (·.accepts_null hw) (·.accepts_named hw)

theorem accepts_parseOrderBySpec {env : Environment} : Accepts (parseOrderBySpec env (toPy v)) ↔
    orderBySpecSchema.accepts v = true ∧
      (Visible (v.get? "field") ∧ Visible (v.get? "metric")) := by
  have htype : Keyword.type .object ∈ orderBySpecSchema := by simp [orderBySpecSchema]
  have hnames : ∀ name, name ∈ ["field", "metric", "direction"] ↔
      name ∈ declaredBy orderBySpecSchema := by
    intro name
    simp only [declaredBy, orderBySpecSchema, List.flatMap_cons, List.flatMap_nil, List.map_cons,
      List.map_nil, List.append_nil, List.nil_append, List.mem_cons, List.not_mem_nil]
    tauto
  refine accepts_model_iff (Q := fun w => Visible (w.get? "field") ∧ Visible (w.get? "metric"))
    htype fun members => ?_
  refine accepts_parseOrderBySpec_object.trans ?_
  rw [accepts_optional_iff fun w => accepts_direction, accepts_forbidExtra hnames,
    accepts_orderBySpecSchema]
  constructor
  · rintro ⟨⟨hdirection, -⟩, hextra, ⟨htarget, hvisible⟩ | ⟨htarget, hvisible⟩⟩
    · exact ⟨⟨hdirection, hextra, .inl htarget⟩, hvisible, htarget.visible_null⟩
    · exact ⟨⟨hdirection, hextra, .inr htarget⟩, htarget.visible_null, hvisible⟩
  · rintro ⟨⟨hdirection, hextra, htarget⟩, hfield, hmetric⟩
    exact ⟨⟨hdirection, fun _ _ => trivial⟩, hextra,
      htarget.imp (⟨·, hfield⟩) (⟨·, hmetric⟩)⟩

/-! ## Filters -/

theorem parseOperator_eq_ok {op : FilterOperator} :
    parseLiteral supportedFilterOperators operatorName (toPy v) = .ok op ↔
      v = .string (codePoints (operatorName op)) := by
  constructor
  · intro h
    obtain ⟨s, -, rfl⟩ := accepts_parseLiteral.mp ⟨op, h⟩
    rw [toPy, ofText_codePoints] at h
    simp only [parseLiteral] at h
    split at h
    · rename_i a hfind
      obtain rfl := Except.ok.inj h
      have hname : operatorName a = s := by simpa using List.find?_some hfind
      rw [hname]
    · cases h
  · rintro rfl
    rw [toPy, ofText_codePoints]
    exact parseLiteral_operator op

theorem filterOperatorSchema_accepts : filterOperatorSchema.accepts v = true ↔
    ∃ op, v = .string (codePoints (operatorName op)) := by
  rw [filterOperatorSchema, accepts_enum]
  constructor
  · rintro ⟨s, hs, rfl⟩
    have hmem : s ∈ supportedFilterOperators.map operatorName := hs
    obtain ⟨op, -, rfl⟩ := List.mem_map.mp hmem
    exact ⟨op, rfl⟩
  · rintro ⟨op, rfl⟩
    refine ⟨operatorName op, ?_, rfl⟩
    cases op <;> simp [operatorName]

theorem accepts_operatorClause {condition : Keyword} {value : Schema} {o w : Json}
    (hop : Json.get? (.object members) "op" = some o)
    (hvalue : Json.get? (.object members) "value" = some w) :
    (operatorClause condition value).accepts (.object members) = true ↔
      (Schema.accepts [condition] o = true → value.accepts w = true) := by
  rw [operatorClause, accepts_iff, List.forall_mem_singleton, holds_ifThen, accepts_iff, accepts_iff]
  simp only [List.forall_mem_cons, List.not_mem_nil, false_implies, implies_true, and_true,
    holds_properties, holds_required, hop, hvalue, Option.some.injEq, forall_eq', exists_eq']

theorem accepts_operatorClauses {op : FilterOperator} {w : Json} {declared : List String}
    (hop : Json.get? (.object members) "op" = some (.string (codePoints (operatorName op))))
    (hvalue : Json.get? (.object members) "value" = some w) :
    (Keyword.allOf
      [operatorClause (.const "isnull") isnullValueSchema,
        operatorClause (.const "in") inValueSchema,
        operatorClause (.const "date_range") dateRangeValueSchema,
        operatorClause (.enum ["last_n_days", "last_n_months"]) relativeValueSchema,
        operatorClause (.enum ["contains", "icontains"]) containmentValueSchema,
        operatorClause (.enum ["eq", "neq", "gt", "gte", "lt", "lte"]) jsonScalarSchema]).holds
      declared (.object members) = true ↔ (valueSchemaOf op).accepts w = true := by
  rw [holds_allOf]
  simp only [List.forall_mem_cons, List.not_mem_nil, false_implies, implies_true, and_true,
    accepts_operatorClause hop hvalue, accepts_const, accepts_names, Json.string.injEq,
    codePoints_inj]
  cases op <;> simp [operatorName, valueSchemaOf]

theorem required_toPyMembers_eq_ok {a : α} : required (toPyMembers members) key parse = .ok a ↔
    ∃ w, Json.get? (.object members) key = some w ∧ parse (toPy w) = .ok a := by
  rw [required, under_eq_ok, lookupKey_toPyMembers]
  show _ ↔ ∃ w, members.lookup (codePoints key) = some w ∧ _
  cases members.lookup (codePoints key) <;> simp [fail]

theorem accepts_parseFilterSpec_object {env : Environment} :
    Accepts (parseFilterSpec env (toPy (.object members))) ↔
      Accepts (required (toPyMembers members) "field" (parseName "filter field")) ∧
        Accepts (forbidExtra env ["field", "op", "value"] (toPyMembers members)) ∧
          ∃ op w, Json.get? (.object members) "op" = some (.string (codePoints (operatorName op))) ∧
            Json.get? (.object members) "value" = some w ∧ ReadsValue op w := by
  simp only [parseFilterSpec, toPy, modelEntries, ok_bind, accepts_bind]
  constructor
  · rintro ⟨field, hfield, op, hop, value, hvalue, u, hu, hmatch⟩
    obtain ⟨o, ho, hop⟩ := required_toPyMembers_eq_ok.mp hop
    obtain ⟨w, hw, hvalue⟩ := required_toPyMembers_eq_ok.mp hvalue
    obtain rfl := parseOperator_eq_ok.mp hop
    refine ⟨⟨field, hfield⟩, ⟨u, hu⟩, op, w, ho, hw, value, hvalue, ?_⟩
    cases hvalid : validateFilterValue op value with
    | none => rfl
    | some msg => simp [hvalid, valueError, not_accepts_fail] at hmatch
  · rintro ⟨⟨field, hfield⟩, ⟨u, hu⟩, op, w, ho, hw, value, hvalue, hvalid⟩
    refine ⟨field, hfield, op, required_toPyMembers_eq_ok.mpr ⟨_, ho, parseOperator_eq_ok.mpr rfl⟩,
      value, required_toPyMembers_eq_ok.mpr ⟨w, hw, hvalue⟩, u, hu, ?_⟩
    simp only [hvalid]
    exact accepts_ok _

theorem plainFilter_iff {op : FilterOperator} {w : Json}
    (hop : Json.get? (.object members) "op" = some (.string (codePoints (operatorName op))))
    (hvalue : Json.get? (.object members) "value" = some w) :
    PlainFilter (.object members) ↔
      Visible (Json.get? (.object members) "field") ∧ PlainValue op w := by
  have hrelative : (Json.get? (.object members) "op" = some (.string (codePoints "last_n_days")) ∨
      Json.get? (.object members) "op" = some (.string (codePoints "last_n_months"))) ↔
        op = .lastNDays ∨ op = .lastNMonths := by
    rw [hop]
    simp only [Option.some.injEq, Json.string.injEq, codePoints_inj]
    cases op <;> simp [operatorName]
  constructor
  · rintro ⟨hfield, hamount⟩
    rw [hvalue] at hamount
    exact ⟨hfield, fun h => hamount (hrelative.mpr h)⟩
  · rintro ⟨hfield, hamount⟩
    exact ⟨hfield, fun h => hvalue ▸ hamount (hrelative.mp h)⟩

theorem accepts_filterSpecSchema : filterSpecSchema.accepts (.object members) = true ↔
    ((∃ w, Json.get? (.object members) "field" = some w) ∧
        ∀ w, Json.get? (.object members) "field" = some w → nameSchema.accepts w = true) ∧
      Keyword.noAdditionalProperties.holds (declaredBy filterSpecSchema) (.object members) = true ∧
        ∃ op w, Json.get? (.object members) "op" = some (.string (codePoints (operatorName op))) ∧
          Json.get? (.object members) "value" = some w ∧ jsonValueSchema.accepts w = true ∧
            (valueSchemaOf op).accepts w = true := by
  rw [accepts_iff]
  simp only [filterSpecSchema, List.forall_mem_cons, List.not_mem_nil, false_implies, implies_true,
    and_true, holds_properties, holds_required]
  constructor
  · rintro ⟨hextra, hclauses, ⟨hname, hoperator, hjson⟩, ⟨hfield, ⟨o, ho⟩, w, hw⟩, -⟩
    obtain ⟨op, rfl⟩ := filterOperatorSchema_accepts.mp (hoperator o ho)
    exact ⟨⟨hfield, hname⟩, hextra, op, w, ho, hw, hjson w hw,
      (accepts_operatorClauses ho hw).mp hclauses⟩
  · rintro ⟨⟨hfield, hname⟩, hextra, op, w, ho, hw, hjson, hvalue⟩
    refine ⟨hextra, (accepts_operatorClauses ho hw).mpr hvalue, ⟨hname, ?_, ?_⟩,
      ⟨hfield, ⟨_, ho⟩, w, hw⟩, rfl⟩
    · intro u hu
      obtain rfl : .string (codePoints (operatorName op)) = u := by simpa [ho] using hu
      exact filterOperatorSchema_accepts.mpr ⟨op, rfl⟩
    · intro u hu
      obtain rfl : w = u := by simpa [hw] using hu
      exact hjson

theorem accepts_parseFilterSpec {env : Environment} : Accepts (parseFilterSpec env (toPy v)) ↔
    filterSpecSchema.accepts v = true ∧ PlainFilter v := by
  have htype : Keyword.type .object ∈ filterSpecSchema := by simp [filterSpecSchema]
  have hnames : ∀ name, name ∈ ["field", "op", "value"] ↔ name ∈ declaredBy filterSpecSchema := by
    simp [declaredBy, filterSpecSchema]
  refine accepts_model_iff (Q := PlainFilter) htype fun members => ?_
  refine accepts_parseFilterSpec_object.trans ?_
  rw [accepts_required_iff fun w => accepts_parseName_iff, accepts_forbidExtra hnames,
    accepts_filterSpecSchema, ← visible_iff]
  constructor
  · rintro ⟨⟨hfield, hname, hvisible⟩, hextra, op, w, ho, hw, hreads⟩
    obtain ⟨⟨hjson, hvalue⟩, hplain⟩ := readsValue_iff.mp hreads
    exact ⟨⟨⟨hfield, hname⟩, hextra, op, w, ho, hw, hjson, hvalue⟩,
      (plainFilter_iff ho hw).mpr ⟨hvisible, hplain⟩⟩
  · rintro ⟨⟨⟨hfield, hname⟩, hextra, op, w, ho, hw, hjson, hvalue⟩, hplain⟩
    obtain ⟨hvisible, hplain⟩ := (plainFilter_iff ho hw).mp hplain
    exact ⟨⟨hfield, hname, hvisible⟩, hextra, op, w, ho, hw,
      readsValue_iff.mpr ⟨⟨hjson, hvalue⟩, hplain⟩⟩

/-! ## Selections and limits -/

theorem parseItems_parseStr {items : List Json} {names : List PyStr} {i : ℕ} :
    parseItems parseStr i (toPyItems items) = .ok names ↔
      ∃ texts : List (List ℕ), items = texts.map .string ∧ names = texts.map PyStr.ofText := by
  induction items generalizing i names with
  | nil => simp [toPyItems, parseItems, eq_comm]
  | cons w rest ih =>
    rw [toPyItems, parseItems, bind_eq_ok]
    simp only [under_eq_ok, parseStr_eq_ok, bind_eq_ok, ih]
    constructor
    · rintro ⟨_, ⟨text, rfl, rfl⟩, _, ⟨texts, rfl, rfl⟩, hok⟩
      obtain rfl := Except.ok.inj hok
      exact ⟨text :: texts, rfl, rfl⟩
    · rintro ⟨texts, hitems, rfl⟩
      cases texts with
      | nil => cases hitems
      | cons text texts =>
        rw [List.map_cons, List.cons.injEq] at hitems
        exact ⟨_, ⟨text, hitems.1, rfl⟩, _, ⟨texts, hitems.2, rfl⟩, rfl⟩

theorem parseTuple_parseStr {names : List PyStr} :
    parseTuple parseStr (toPy v) = .ok names ↔
      ∃ texts : List (List ℕ), v = .array (texts.map .string) ∧
        names = texts.map PyStr.ofText := by
  cases v with
  | array items => simp only [toPy, parseTuple, sequence?, parseItems_parseStr, Json.array.injEq]
  | string text => simp [toPy, parseTuple, sequence?_ofText, fail]
  | _ => simp [toPy, parseTuple, sequence?, fail]

/-- Whether the items are stripped one by one or at the end, the same selections are read. -/
theorem accepts_parseSelect_iff_parseTuple : Accepts (parseSelect (toPy v)) ↔
    Accepts (parseTuple (parseName "select field") (toPy v)) := by
  have hstripped : ∀ names : List PyStr,
      Accepts (names.mapM (validateNonEmptyString "select field")) ↔
        ∀ s ∈ names, s.strip ≠ .text "" := by
    intro names
    rw [Accepts, mapM_ok_iff]
    exact forall₂_congr fun s _ => accepts_validateNonEmptyString
  rw [parseSelect, accepts_bind, accepts_parseTuple]
  simp only [hstripped, parseTuple_parseStr, accepts_parseName]
  constructor
  · rintro ⟨_, ⟨texts, rfl, rfl⟩, htexts⟩
    refine ⟨_, rfl, fun w hw => ?_⟩
    obtain ⟨text, htext, rfl⟩ := List.mem_map.mp hw
    exact ⟨text, rfl, htexts _ (List.mem_map_of_mem htext)⟩
  · rintro ⟨items, rfl, hitems⟩
    have hrange : items ∈ Set.range (List.map Json.string) := by
      rw [Set.range_list_map]
      intro w hw
      obtain ⟨text, rfl, -⟩ := hitems w hw
      exact ⟨text, rfl⟩
    obtain ⟨texts, rfl⟩ := hrange
    refine ⟨_, ⟨texts, rfl, rfl⟩, fun s hs => ?_⟩
    obtain ⟨text, htext, rfl⟩ := List.mem_map.mp hs
    obtain ⟨text', heq, hstrip⟩ := hitems _ (List.mem_map_of_mem htext)
    rwa [Json.string.inj heq]

theorem accepts_parseSelect : Accepts (parseSelect (toPy v)) ↔
    Schema.accepts [.items nameSchema, .type .array] v = true ∧
      Each (some v) fun w => Visible (some w) :=
  accepts_parseSelect_iff_parseTuple.trans (accepts_parseTuple_iff fun _ => accepts_parseName_iff)

theorem parseStrictInt_eq_ok {n : ℤ} : parseStrictInt (toPy v) = .ok n ↔ v = .integer n := by
  cases v with
  | string text =>
    rcases toPy_string text with ⟨s, h⟩ | h
    · simp [h, parseStrictInt, fail]
    · simp [h, parseStrictInt, fail]
  | _ => simp [toPy, parseStrictInt, fail]

theorem accepts_parseLimit : Accepts (parseLimit (toPy v)) ↔
    Schema.accepts [.minimum 1, .type .integer] v = true ∧ NoDecimal (some v) := by
  refine Iff.trans ?_ relativeValueSchema_noDecimal.symm
  rw [parseLimit, accepts_bind]
  simp only [parseStrictInt_eq_ok]
  refine exists_congr fun n => and_congr_right fun _ => ?_
  split_ifs with hlimit
  · exact iff_of_false (not_accepts_fail _) (by omega)
  · exact iff_of_true (accepts_ok _) (by omega)

/-! ## Plans -/

theorem accepts_intent : Accepts (parseLiteral supportedIntents Intent.name (toPy v)) ↔
    intentSchema.accepts v = true ∧ True := by
  rw [accepts_parseLiteral, intentSchema, accepts_enum, and_true]
  rfl

/-- The model admits an object exactly when the schema does and the document is plain. -/
theorem accepts_parseQueryPlanModel {env : Environment} :
    Accepts (parseQueryPlanModel env (toPyMembers members)) ↔
      queryPlanSchema.accepts (.object members) = true ∧ PlainDocument (.object members) := by
  have hnames : ∀ name, name ∈ ["resource", "intent", "filters", "group_by", "metrics", "select",
      "order_by", "limit"] ↔ name ∈ declaredBy queryPlanSchema := by
    intro name
    simp only [declaredBy, queryPlanSchema, List.flatMap_cons, List.flatMap_nil, List.map_cons,
      List.map_nil, List.append_nil, List.nil_append, List.mem_cons, List.not_mem_nil]
    tauto
  unfold parseQueryPlanModel
  rw [accepts_bind_of_forall fun _ => accepts_bind_of_forall fun _ => accepts_bind_of_forall fun _ =>
      accepts_bind_of_forall fun _ => accepts_bind_of_forall fun _ => accepts_bind_of_forall fun _ =>
      accepts_bind_of_forall fun _ => accepts_bind_of_forall fun _ => accepts_bind_of_forall fun _ =>
      iff_true_intro (accepts_ok _),
    accepts_required_iff fun w => accepts_parseName_iff,
    accepts_required_iff fun w => accepts_intent,
    accepts_optional_iff fun w => accepts_parseTuple_iff fun w => accepts_parseFilterSpec,
    accepts_optional_iff fun w => accepts_parseTuple_iff fun w => accepts_parseGroupBySpec,
    accepts_optional_iff fun w => accepts_parseTuple_iff fun w => accepts_parseMetricSpec,
    accepts_optional_iff fun w => accepts_parseSelect,
    accepts_optional_iff fun w => accepts_parseTuple_iff fun w => accepts_parseOrderBySpec,
    accepts_optional_iff fun w => accepts_parseLimit,
    accepts_forbidExtra hnames, accepts_iff]
  simp only [queryPlanSchema, List.forall_mem_cons, List.not_mem_nil, false_implies, implies_true,
    and_true, holds_properties, holds_required]
  constructor
  · rintro ⟨⟨hresource, hname, hvisible⟩, ⟨hgiven, hintent⟩, ⟨hfilters, hplain⟩, ⟨hgroups, hgroup⟩,
      ⟨hmetrics, hmetric⟩, ⟨hselect, hselected⟩, ⟨horders, horder⟩, ⟨hlimit, hinteger⟩, hextra⟩
    exact ⟨⟨hextra, ⟨hfilters, hgroups, hintent, hlimit, hmetrics, horders, hname, hselect⟩,
        ⟨hresource, hgiven⟩, rfl⟩,
      visible_iff.mpr hvisible, each_iff.mpr hplain, each_iff.mpr hgroup, each_iff.mpr hmetric,
      each_iff.mpr hselected, each_iff.mpr horder, noDecimal_iff.mpr hinteger⟩
  · rintro ⟨⟨hextra, ⟨hfilters, hgroups, hintent, hlimit, hmetrics, horders, hname, hselect⟩,
      ⟨hresource, hgiven⟩, -⟩, hplain⟩
    exact ⟨⟨hresource, hname, visible_iff.mp hplain.resource⟩, ⟨hgiven, hintent⟩,
      ⟨hfilters, each_iff.mp hplain.filters⟩, ⟨hgroups, each_iff.mp hplain.groupBy⟩,
      ⟨hmetrics, each_iff.mp hplain.metrics⟩, ⟨hselect, each_iff.mp hplain.select⟩,
      ⟨horders, each_iff.mp hplain.orderBy⟩, ⟨hlimit, noDecimal_iff.mp hplain.limit⟩, hextra⟩

end

/-! ## Raw plans -/

/-- The raw plan is the document: the mapping itself, or a text or bytes that decode to it. -/
inductive Carries (env : Environment) : RawPlan → Json → Prop where
  | mapping (members : List (List ℕ × Json)) :
    Carries env (.mapping (toPyMembers members)) (.object members)
  | text {t : PyText} {doc : Json} (hdecoded : loads env.interp t = .ok (toPy doc)) :
    Carries env (.text t) doc
  | bytes {b : List UInt8} {t : PyText} {doc : Json} (hutf : decodeUtf8 b = some t)
    (hdecoded : loads env.interp t = .ok (toPy doc)) : Carries env (.bytes b) doc

theorem parsePlanText_carries {env : Environment} {t : PyText} {doc : Json}
    (h : loads env.interp t = .ok (toPy doc)) {entries : Entries} :
    parsePlanText env t = .ok entries ↔ toPy doc = .dict entries := by
  unfold parsePlanText
  rw [h]
  cases toPy doc <;> simp

theorem toPy_eq_dict {doc : Json} {entries : Entries} : toPy doc = .dict entries ↔
    ∃ members, doc = .object members ∧ entries = toPyMembers members := by
  cases doc with
  | object members => simp [toPy, eq_comm]
  | string text =>
    rcases toPy_string text with ⟨s, h⟩ | h
    · simp [h]
    · simp [h]
  | _ => simp [toPy]

theorem parsePlanPayload_carries {env : Environment} {raw : RawPlan} {doc : Json}
    (h : Carries env raw doc) {entries : Entries} : parsePlanPayload env raw = .ok entries ↔
      ∃ members, doc = .object members ∧ entries = toPyMembers members := by
  rw [← toPy_eq_dict]
  cases h with
  | mapping members => simp [parsePlanPayload, toPy]
  | text hdecoded => exact parsePlanText_carries hdecoded
  | bytes hutf hdecoded =>
    simp only [parsePlanPayload, hutf]
    exact parsePlanText_carries hdecoded

/-- The parser and the schema accept the same plain documents. -/
theorem parseQueryPlan_accepts_iff {env : Environment} {raw : RawPlan} {doc : Json}
    (hcarries : Carries env raw doc) :
    (∃ plan, parseQueryPlan env raw = .ok plan) ↔
      queryPlanSchema.accepts doc = true ∧ PlainDocument doc := by
  simp only [parseQueryPlan, bind_eq_ok, parsePlanPayload_carries hcarries]
  constructor
  · rintro ⟨plan, entries, ⟨members, rfl, rfl⟩, hmodel⟩
    split at hmodel
    · exact accepts_parseQueryPlanModel.mp ⟨_, by assumption⟩
    · cases hmodel
  · rintro ⟨hschema, hplain⟩
    have hobject : doc.hasType .object = true := by
      refine accepts_iff.mp hschema (.type .object) ?_
      simp [queryPlanSchema]
    cases doc with
    | object members =>
      obtain ⟨plan, hplan⟩ := accepts_parseQueryPlanModel.mpr ⟨hschema, hplain⟩
      exact ⟨plan, _, ⟨members, rfl, rfl⟩, by rw [hplan]⟩
    | _ => cases hobject

/-- The paid orders of the last seven days, the latest first. -/
def planMembers (resource : String) (limit : Json) : List (List ℕ × Json) :=
  [(codePoints "resource", .string (codePoints resource)),
    (codePoints "intent", .string (codePoints "list")),
    (codePoints "select", .array [.string (codePoints "number")]),
    (codePoints "filters", .array
      [.object [(codePoints "field", .string (codePoints "status")),
        (codePoints "op", .string (codePoints "in")),
        (codePoints "value", .array [.string (codePoints "paid")])],
      .object [(codePoints "field", .string (codePoints "day")),
        (codePoints "op", .string (codePoints "last_n_days")), (codePoints "value", .integer 7)]]),
    (codePoints "order_by", .array [.object [(codePoints "field", .string (codePoints "day")),
      (codePoints "direction", .string (codePoints "desc"))]]),
    (codePoints "limit", limit)]

theorem planMembers_accepts_iff :
    (∃ plan, parseQueryPlan Sample.environment
        (.mapping (toPyMembers (planMembers "orders" (.integer 10)))) = .ok plan) ↔
      queryPlanSchema.accepts (.object (planMembers "orders" (.integer 10))) = true ∧
        PlainDocument (.object (planMembers "orders" (.integer 10))) :=
  parseQueryPlan_accepts_iff (.mapping _)

/-- A lone surrogate is no difference. -/
example : (parseQueryPlan Sample.environment (.mapping (toPyMembers
    [(codePoints "resource", .string (codePoints "orders")),
      (codePoints "intent", .string (codePoints "list")),
      (codePoints "select", .array [.string [0xD800]])]))).isOk = true := by decide +kernel

/-- The schema admits the document and the parser refuses it. -/
def PassesSchemaOnly (members : List (List ℕ × Json)) : Prop :=
  Carries Sample.environment (.mapping (toPyMembers members)) (.object members) ∧
    queryPlanSchema.accepts (.object members) = true ∧
      ¬ ∃ plan, parseQueryPlan Sample.environment (.mapping (toPyMembers members)) = .ok plan

/-- A resource of white space and the limit `10.0`. -/
theorem plans_of_the_schema_only :
    PassesSchemaOnly (planMembers "  " (.integer 10)) ∧
      PassesSchemaOnly (planMembers "orders" (.decimal false 100 (-1))) := by
  refine ⟨⟨.mapping _, by decide +kernel, ?_⟩, ⟨.mapping _, by decide +kernel, ?_⟩⟩
  all_goals
    rintro ⟨plan, h⟩
    cases h

end AskLens.Contracts
