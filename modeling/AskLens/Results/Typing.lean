import AskLens.Compiler.Paths
import AskLens.Execution.Reference
import AskLens.Results.Serialization
import Mathlib.Data.Multiset.Fold

/-!
# Well-typed results

Registration fixes the type and the nullability of every column. Where the
database stores values of the types of its fields, and the aggregate functions
keep to their documented types, each value that a query returns fits its column.
-/
namespace AskLens.Results

open Python Django Catalog Planning Compiler Execution LeftJoin Checks

/-! ## Typed states -/

/-- The finite values of Django's own fields of a type. No such field stores enums: they are
registered over strings and integers. -/
def HasType : FieldType → CellValue → Prop
  | .string, .scalar (.str ..) => True
  | .boolean, .scalar (.bool _) => True
  | .integer, .scalar (.int ..) => True
  | .float, .scalar (.float x) => x.isFinite = true
  | .decimal, .decimal d => d.isFinite = true
  | .date, .date _ => True
  | .datetime, .datetime _ => True
  | .time, .time _ => True
  | .uuid, .uuid .. => True
  | _, _ => False

/-- Sums keep the type of their values; a sum of integers may be an integral decimal. -/
def IsSum (type : FieldType) (value : CellValue) : Prop :=
  HasType type value ∨ type = .integer ∧ ∃ d i, value = .decimal d ∧ d.integral? = some i

def avgType : FieldType → FieldType
  | .integer => .float
  | type => type

section

variable {graph : ModelGraph} {R V : Type}

/-- Stored values have the type of their field, and what an enum field of the resource reads is
registered. -/
structure TypedState (resource : SemanticResource) (db : Database graph resource.model R V)
    (cell : V → CellValue) : Prop where
  columns : ∀ model name field, graph.getField? model name = some field →
    ∀ type : FieldType, field.kind = .column type.name →
      ∀ r, db.stored model r → ∀ v, db.value model name r = some v → HasType type (cell v)
  enums : ∀ f ∈ resource.fields.values, ∀ d, f.enum = some d → ∀ model name,
    (referenceAt graph resource.model f.binding).target = .column model name →
      ∀ r, db.stored model r → ∀ v, db.value model name r = some v →
        ∃ s, cell v = .scalar s ∧ ∃ value ∈ d.values, s.pyEq value.value = true

/-- What the functions of the backend return on values of one type. -/
structure TypedBackend (b : Backend V) (cell : V → CellValue) : Prop where
  number : ∀ n, ∃ i, cell (b.number n) = .scalar (.int none i)
  sum : ∀ type : FieldType, isNumericType type.name = true → ∀ values, values ≠ 0 →
    (∀ v ∈ values, HasType type (cell v)) → IsSum type (cell (b.sum values))
  avg : ∀ type : FieldType, isNumericType type.name = true → ∀ values, values ≠ 0 →
    (∀ v ∈ values, HasType type (cell v)) → HasType (avgType type) (cell (b.avg values))
  trunc : ∀ type : FieldType, type.isDate = true → ∀ kind zone v, HasType type (cell v) →
    HasType type (cell (b.trunc kind zone v))

end

/-! ## Values that fit their column -/

theorem fits_of_normalizePresent {column : ResultColumn} {value : CellValue} {v : PyScalar}
    (h : normalizePresent value column = .ok v) : Fits column (some value) := by
  refine ⟨some v, ?_⟩
  show (normalizePresent value column).map some = _
  rw [h]
  rfl

theorem fits_none {column : ResultColumn} (h : column.nullable = true) : Fits column none :=
  ⟨none, if_pos h⟩

/-- In a nullable column only the values that are there have to fit. -/
theorem fits_of_some {column : ResultColumn} (hnullable : column.nullable = true)
    {value : Option CellValue} (h : ∀ v, value = some v → Fits column (some v)) :
    Fits column value := by
  cases value with
  | none => exact fits_none hnullable
  | some v => exact h v rfl

theorem fits_of_hasType {column : ResultColumn} {value : CellValue}
    (h : HasType column.type value) : Fits column (some value) := by
  suffices hpresent : ∃ v, normalizePresent value column = .ok v by
    obtain ⟨v, hv⟩ := hpresent
    exact fits_of_normalizePresent hv
  unfold HasType at h
  unfold normalizePresent
  split at h
  case h_10 => cases h
  all_goals
    rename_i htype
    rw [htype]
  case h_4 => exact ⟨_, finiteFloat_of_isFinite h column⟩
  case h_5 d =>
    cases d with
    | finite neg coefficient exponent => exact ⟨_, rfl⟩
    | special => cases h
  all_goals exact ⟨_, rfl⟩

theorem fits_of_isSum {column : ResultColumn} {value : CellValue}
    (h : IsSum column.type value) : Fits column (some value) := by
  rcases h with htyped | ⟨hinteger, d, i, rfl, hintegral⟩
  · exact fits_of_hasType htyped
  · apply fits_of_normalizePresent (v := .int none i)
    unfold normalizePresent
    rw [hinteger]
    dsimp only
    rw [hintegral]

theorem fits_enum {column : ResultColumn} {type : FieldType} {s value : PyScalar}
    (henum : column.type = .enum) (htype : type = .integer ∨ type = .string)
    (h : HasType type (.scalar s)) (hmem : value ∈ column.enumValues)
    (hsame : s.pyEq value = true) : Fits column (some (.scalar s)) := by
  have hany : column.enumValues.any s.pyEq = true := List.any_eq_true.mpr ⟨value, hmem, hsame⟩
  have hcell : enumCell s column = .ok s := if_pos hany
  apply fits_of_normalizePresent (v := s)
  unfold normalizePresent
  rw [henum]
  rcases htype with rfl | rfl
  · cases s with
    | int cls i => exact hcell
    | _ => cases h
  · cases s with
    | str cls text => exact hcell
    | _ => cases h

/-! ## Reading columns -/

theorem kind_of_getFieldType {field : DjangoField} {type : FieldType}
    (h : getFieldType field = type.name) : field.kind = .column type.name := by
  unfold getFieldType at h
  cases hkind : field.kind with
  | column label =>
    rw [hkind] at h
    rw [show label = type.name from h]
  | _ =>
    rw [hkind] at h
    cases type <;> exact absurd h (by decide)

section

variable {graph : ModelGraph} {resource : SemanticResource} {R V : Type}
  {db : Database graph resource.model R V} {cell : V → CellValue} {path : String}
  {res : FieldResolution} {calls : List FilterCall} {paths : List String} {c : QueryRow R}

/-- The row joins everything that the paths cross. -/
def Joins (db : Database graph resource.model R V) (calls : List FilterCall)
    (paths : List String) (c : QueryRow R) : Prop :=
  db.joinTree.IsRow db.table.zipIdx (queryAliases graph resource.model calls paths) c

theorem stored_of_resolve (hres : resolveFieldPath graph resource.model path = .ok res)
    (hcolumn : ∃ type, res.field.kind = .column type) (hpath : path ∈ paths)
    (hrow : Joins db calls paths c) {v : V} (hv : db.readExpression calls path c = some v) :
    ∃ m name, (referenceAt graph resource.model path).target = .column m name ∧
      graph.getField? m name = some res.field ∧
        ∃ r, db.stored m r ∧ db.value m name r = some v := by
  obtain ⟨hops, m, name, hreference, hfield⟩ :=
    referenceFrom_of_walkPath (walkPath_of_resolve hres) hcolumn
  refine ⟨m, name, ?_, hfield, stored_of_readExpression hpath hrow hreference hv⟩
  rw [referenceAt, hreference, Option.getD_some]

theorem TypedState.read (h : TypedState resource db cell)
    (hres : resolveFieldPath graph resource.model path = .ok res) {type : FieldType}
    (htype : getFieldType res.field = type.name) (hpath : path ∈ paths)
    (hrow : Joins db calls paths c) {v : V} (hv : db.readExpression calls path c = some v) :
    HasType type (cell v) := by
  have hkind := kind_of_getFieldType htype
  obtain ⟨m, name, -, hfield, r, hr, hvalue⟩ := stored_of_resolve hres ⟨_, hkind⟩ hpath hrow hv
  exact h.columns m name res.field hfield type hkind r hr v hvalue

/-- A field is bound to a column, of its own type or, when it is an enum, of a type of tokens. -/
theorem bindingType_of_typeMatches {f : FieldSpec} (h : f.TypeMatches (getFieldType res.field)) :
    ∃ type : FieldType, getFieldType res.field = type.name ∧
      (f.type = type ∨ f.type = .enum ∧ (type = .integer ∨ type = .string)) := by
  rcases h.binding with hsame | ⟨henum, hinteger | hstring⟩
  · exact ⟨f.type, hsame.symm, .inl rfl⟩
  · exact ⟨.integer, hinteger, .inr ⟨henum, .inl rfl⟩⟩
  · exact ⟨.string, hstring, .inr ⟨henum, .inr rfl⟩⟩

/-- What a registered field reads fits its column, unless it is null. -/
theorem fits_present (h : TypedState resource db cell) {f : FieldSpec}
    (hmem : f ∈ resource.fields.values)
    (hres : resolveFieldPath graph resource.model f.binding = .ok res)
    (hmatches : f.TypeMatches (getFieldType res.field)) (hpath : f.binding ∈ paths)
    (hrow : Joins db calls paths c) {v : V} (hv : db.readExpression calls f.binding c = some v) :
    Fits (fieldColumn f) (some (cell v)) := by
  obtain ⟨type, htype, hcolumn⟩ := bindingType_of_typeMatches hmatches
  have htyped := h.read hres htype hpath hrow hv
  rcases hmatches.enum with ⟨henum, d, hd, -⟩ | ⟨hplain, -⟩
  · obtain ⟨m, name, htarget, -, r, hr, hvalue⟩ :=
      stored_of_resolve hres ⟨_, kind_of_getFieldType htype⟩ hpath hrow hv
    obtain ⟨s, hs, value, hvalue, hsame⟩ := h.enums f hmem d hd m name htarget r hr v hvalue
    rw [hs] at htyped ⊢
    have htoken : type = .integer ∨ type = .string := by
      rcases hcolumn with rfl | ⟨-, htoken⟩
      · rw [henum] at htyped
        cases htyped
      · exact htoken
    refine fits_enum henum htoken htyped ?_ hsame
    show value.value ∈ (f.enum.map fun d => d.values.map EnumValue.value).getD []
    rw [hd]
    exact List.mem_map_of_mem hvalue
  · have hsame : f.type = type := hcolumn.resolve_right fun hother => hplain hother.1
    apply fits_of_hasType
    show HasType f.type (cell v)
    rw [hsame]
    exact htyped

theorem nullable_of_read (hgraph : ReverseNullable graph) (hdb : ReferentialIntegrity db)
    {f : FieldSpec} {key : String} (hf : f.Registered graph resource.model key)
    (hpath : f.binding ∈ paths) (hrow : Joins db calls paths c)
    (hv : db.readExpression calls f.binding c = none) : f.nullable = true := by
  obtain ⟨res, hres, -, -, -, hmatches, hnullable⟩ := hf.resolution
  obtain ⟨type, htype, -⟩ := bindingType_of_typeMatches hmatches
  apply hnullable
  by_contra hnull
  rw [Bool.not_eq_true] at hnull
  have hsome := readExpression_isSome hgraph hdb hres ⟨_, kind_of_getFieldType htype⟩ hnull
    hpath hrow
  rw [hv] at hsome
  cases hsome

theorem fits_field (h : TypedState resource db cell) (hgraph : ReverseNullable graph)
    (hdb : ReferentialIntegrity db) {f : FieldSpec} {key : String}
    (hmem : f ∈ resource.fields.values) (hf : f.Registered graph resource.model key)
    (hpath : f.binding ∈ paths) (hrow : Joins db calls paths c) :
    Fits (fieldColumn f) ((db.readExpression calls f.binding c).map cell) := by
  cases hv : db.readExpression calls f.binding c with
  | none => exact fits_none (nullable_of_read hgraph hdb hf hpath hrow hv)
  | some v =>
    obtain ⟨res, hres, -, -, -, hmatches, -⟩ := hf.resolution
    exact fits_present h hmem hres hmatches hpath hrow hv

theorem fits_group {b : Backend V} (h : TypedState resource db cell) (hb : TypedBackend b cell)
    (hgraph : ReverseNullable graph) (hdb : ReferentialIntegrity db) {f : FieldSpec} {key : String}
    (hmem : f ∈ resource.fields.values) (hf : f.Registered graph resource.model key)
    (hpath : f.binding ∈ paths) (hrow : Joins db calls paths c) {dateTrunc : Option DateTrunc}
    (hdate : dateTrunc.isSome = true → f.type.isDate = true) (zone : ZoneInfo) :
    Fits (fieldColumn f) (((buildDateTruncExpression f.binding dateTrunc f.type zone).apply b
      (db.readExpression calls f.binding c)).map cell) := by
  cases dateTrunc with
  | none => exact fits_field h hgraph hdb hmem hf hpath hrow
  | some trunc =>
    cases hv : db.readExpression calls f.binding c with
    | none => exact fits_none (nullable_of_read hgraph hdb hf hpath hrow hv)
    | some v =>
      obtain ⟨res, hres, -, -, -, hmatches, -⟩ := hf.resolution
      obtain ⟨type, htype, hcolumn⟩ := bindingType_of_typeMatches hmatches
      have hsame : f.type = type := by
        apply hcolumn.resolve_right
        rintro ⟨henum, -⟩
        have hdated := hdate rfl
        rw [henum] at hdated
        cases hdated
      have htyped := h.read hres htype hpath hrow hv
      rw [← hsame] at htyped
      apply fits_of_hasType
      exact hb.trunc f.type (hdate rfl) _ _ v htyped

/-! ## Metrics -/

theorem toOneOnly_of_ne_count {m : Metric}
    (h : validateMetricCardinality graph resource.model m res = .ok ()) (hop : m.op ≠ .count) :
    m.cardinalityPolicy = .toOneOnly := by
  obtain ⟨_, -, h⟩ := bind_eq_ok.mp h
  cases hpolicy : m.cardinalityPolicy with
  | toOneOnly => rfl
  | _ =>
    rw [hpolicy] at h
    obtain ⟨_, hcount, -⟩ := bind_eq_ok.mp h
    rw [raiseIf_eq_ok, not_not] at hcount
    exact absurd hcount hop

theorem typeName_injective {t t' : FieldType} (h : t.name = t'.name) : t = t' := by
  cases t <;> cases t' <;> first | rfl | exact absurd h (by decide)

theorem fieldType_of_isNumericType {label : String} (h : isNumericType label = true) :
    ∃ type : FieldType, label = type.name := by
  have hmem : label ∈ ["decimal", "float", "integer"] := by simpa [isNumericType] using h
  simp only [List.mem_cons, List.not_mem_nil, or_false] at hmem
  rcases hmem with rfl | rfl | rfl
  · exact ⟨.decimal, rfl⟩
  · exact ⟨.float, rfl⟩
  · exact ⟨.integer, rfl⟩

/-- The type of the binding of a metric that is no count, and with it the type of the metric. -/
theorem bindingType_of_metric {m : Metric} {label : String}
    (h : validateMetricResultType m label = .ok ()) (hop : m.op ≠ .count) :
    ∃ type : FieldType, label = type.name ∧
      (m.op = .sum ∨ m.op = .avg → isNumericType type.name = true) ∧
        m.resultType = if m.op = .avg then avgType type else type := by
  unfold validateMetricResultType at h
  cases hm : m.op with
  | count => exact absurd hm hop
  | sum =>
    rw [hm] at h
    obtain ⟨_, hnumeric, hresult⟩ := bind_eq_ok.mp h
    rw [raiseIf_eq_ok, Bool.not_eq_false] at hnumeric
    simp only [raiseIf_eq_ok, reduceCtorEq, false_and, if_false, not_not] at hresult
    exact ⟨m.resultType, hresult.symm, fun _ => hresult ▸ hnumeric, by simp⟩
  | avg =>
    rw [hm] at h
    obtain ⟨_, hnumeric, hresult⟩ := bind_eq_ok.mp h
    rw [raiseIf_eq_ok, Bool.not_eq_false] at hnumeric
    obtain ⟨type, rfl⟩ := fieldType_of_isNumericType hnumeric
    simp only [raiseIf_eq_ok, true_and, not_not] at hresult
    refine ⟨type, rfl, fun _ => hnumeric, ?_⟩
    rw [if_pos rfl]
    apply typeName_injective
    rw [hresult]
    cases type <;> rfl
  | min =>
    rw [hm] at h
    rw [raiseIf_eq_ok, not_not] at h
    exact ⟨m.resultType, h.symm, by simp, by simp⟩
  | max =>
    rw [hm] at h
    rw [raiseIf_eq_ok, not_not] at h
    exact ⟨m.resultType, h.symm, by simp, by simp⟩

variable [LinearOrder V] {b : Backend V}

/-- An aggregate of values of one type has the type of its function. -/
theorem fits_aggregate (hb : TypedBackend b cell) {column : ResultColumn} {op : MetricOp}
    {type : FieldType} (hop : op ≠ .count)
    (hnumeric : op = .sum ∨ op = .avg → isNumericType type.name = true)
    (hcolumn : column.type = if op = .avg then avgType type else type)
    (hnullable : column.nullable = true) {present : List V}
    (hpresent : ∀ v ∈ present, HasType type (cell v)) :
    Fits column (((aggregateByOperator op).apply b present).map cell) := by
  have hbag : present ≠ [] → (present : Multiset V) ≠ 0 := fun h => by simpa using h
  have hmem : ∀ v ∈ (present : Multiset V), HasType type (cell v) := fun v hv =>
    hpresent v (Multiset.mem_coe.mp hv)
  apply fits_of_some hnullable
  intro value hvalue
  obtain ⟨v, hv, rfl⟩ := Option.map_eq_some_iff.mp hvalue
  cases op with
  | count => exact absurd rfl hop
  | sum =>
    rw [if_neg (by simp)] at hcolumn
    rw [aggregateByOperator, AggregateFunction.apply] at hv
    split_ifs at hv with hnil
    obtain rfl := Option.some.inj hv
    apply fits_of_isSum
    rw [hcolumn]
    exact hb.sum type (hnumeric (.inl rfl)) present (hbag hnil) hmem
  | avg =>
    rw [if_pos rfl] at hcolumn
    rw [aggregateByOperator, AggregateFunction.apply] at hv
    split_ifs at hv with hnil
    obtain rfl := Option.some.inj hv
    apply fits_of_hasType
    rw [hcolumn]
    exact hb.avg type (hnumeric (.inr rfl)) present (hbag hnil) hmem
  | min =>
    apply fits_of_hasType
    rw [hcolumn, if_neg (by simp)]
    exact hpresent v (List.min?_eq_some_iff.mp hv).1
  | max =>
    apply fits_of_hasType
    rw [hcolumn, if_neg (by simp)]
    exact hpresent v (List.max?_eq_some_iff.mp hv).1

/-- What a registered metric computes on joined rows fits its column. -/
theorem fits_metric (h : TypedState resource db cell) (hb : TypedBackend b cell) {m : Metric}
    {key : String} (hm : m.Registered graph resource.model key) (unicode : Unicode)
    {rows : List (QueryRow R)} (hrows : ∀ c ∈ rows, Joins db calls paths c)
    (hpath : (buildAggregate m).path ∈ paths) :
    Fits (metricColumn unicode m) (((buildAggregate m).evaluate b
      (rows.map (db.readExpression calls (buildAggregate m).path))).map cell) := by
  obtain ⟨res, -, hres, -, -, -, -, hresult, hcardinality⟩ := hm.resolution
  by_cases hop : m.op = .count
  · have hinteger : m.resultType = .integer := by
      unfold validateMetricResultType at hresult
      rw [hop, raiseIf_eq_ok, not_not] at hresult
      exact hresult
    have hfunction : (buildAggregate m).function = .count := by
      unfold buildAggregate
      rw [hop]
      split <;> rfl
    rw [Aggregate.evaluate, hfunction]
    apply fits_of_hasType
    show HasType m.resultType _
    obtain ⟨i, hi⟩ := hb.number _
    rw [hinteger, hi]
    trivial
  · have hpolicy := toOneOnly_of_ne_count hcardinality hop
    have haggregate : buildAggregate m = ⟨aggregateByOperator m.op, m.binding, false⟩ := by
      rw [buildAggregate, hpolicy]
    obtain ⟨type, htype, hnumeric, hcolumn⟩ := bindingType_of_metric hresult hop
    rw [haggregate] at hpath ⊢
    rw [Aggregate.evaluate]
    apply fits_aggregate hb hop hnumeric hcolumn (by simpa [metricColumn] using hop)
    intro v hv
    rw [if_neg (by simp), List.reduceOption_mem_iff] at hv
    obtain ⟨c, hc, hread⟩ := List.mem_map.mp hv
    exact h.read hres htype hpath (hrows c hc) hread

end

/-! ## Rows -/

def cellRow {V : Type} (cell : V → CellValue) (row : Dict (Option V)) : Dict (Option CellValue) :=
  row.map fun e => (e.1, e.2.map cell)

theorem cellRow_zip {V : Type} (cell : V → CellValue) (names : List String)
    (values : List (Option V)) :
    cellRow cell (names.zip values) = names.zip (values.map (Option.map cell)) := by
  rw [cellRow, List.zip_map_right]
  rfl

/-- The values stand under the aliases of the query and fit its columns, one by one. -/
def RowFits {V : Type} (q : CompiledQuery) (cell : V → CellValue) (raw : Dict (Option V)) : Prop :=
  ∃ values, raw = (aliases q).zip values ∧
    List.Forall₂ (fun column value => Fits column (value.map cell)) q.columns values

theorem RowFits.normalizeRow {V : Type} {q : CompiledQuery} {cell : V → CellValue}
    {raw : Dict (Option V)} {names : List String} (h : RowFits q cell raw) (hq : Renames q names)
    (hnodup : (q.columns.map ResultColumn.key).Nodup) :
    ∃ cells, cellRow cell (Execution.normalizeRow q.keyMap raw) =
        (q.columns.map ResultColumn.key).zip cells ∧ List.Forall₂ Fits q.columns cells := by
  obtain ⟨values, rfl, hfits⟩ := h
  refine ⟨values.map (Option.map cell), ?_, List.forall₂_map_right_iff.mpr hfits⟩
  have hlength : values.length = names.length := by
    rw [← hq.columns, List.length_map]
    exact hfits.length_eq.symm
  rw [hq.columns] at hnodup ⊢
  rw [hq.keyMap, normalizeRow_zip hq.aliases_nodup hnodup hq.length hlength, cellRow_zip]

theorem sliced_subset {α : Type} {q : CompiledQuery} {rows : List α} : q.sliced rows ⊆ rows := by
  unfold CompiledQuery.sliced
  cases q.stop with
  | none => exact List.Subset.refl _
  | some stop => exact List.take_subset _ _

theorem forall₂_map_map {α β γ : Type} {P : β → γ → Prop} {f : α → β} {g : α → γ} {l : List α}
    (h : ∀ a ∈ l, P (f a) (g a)) : List.Forall₂ P (l.map f) (l.map g) :=
  List.forall₂_map_left_iff.mpr (List.forall₂_map_right_iff.mpr (List.forall₂_same.mpr h))

section

variable {env : Environment} {resource : SemanticResource} {p : QueryPlan} {now : Clock}
  {q : CompiledQuery} {R V : Type} {db : Database env.graph resource.model R V} {b : Backend V}
  {cell : V → CellValue}

theorem field_of_get? (hr : resource.Registered env) {name : String} {f : FieldSpec}
    (h : resource.fields.get? name = some f) :
    f ∈ resource.fields.values ∧ f.Registered env.graph resource.model name :=
  ⟨List.mem_map_of_mem (f := Prod.snd) (Dict.mem_of_get? h),
    hr.fields_registered _ (Dict.mem_of_get? h)⟩

theorem rowFits_listRow (hr : resource.Registered env) (hlist : p.intent = .list)
    (hcompiled : compilePreparedQuery env resource p now = .ok q)
    (h : TypedState resource db cell) (hgraph : ReverseNullable env.graph)
    (hdb : ReferentialIntegrity db) {c : QueryRow R} (hc : c ∈ q.rows db b) :
    RowFits q cell (q.listRow db b c) := by
  obtain ⟨-, fields, hquery⟩ := isListQuery_of_compiled hlist hcompiled
  have hvalues : q.values.values = fields.map fun f => Expression.f f.binding := by
    rw [hquery.values]
    exact values_enumerateAliases _ _
  have haliases : aliases q = q.values.keys := by
    rw [aliases, hquery.annotations]
    exact List.append_nil _
  refine ⟨q.output db b c, by rw [haliases]; rfl, ?_⟩
  rw [CompiledQuery.output, hvalues, hquery.columns, List.map_map]
  apply forall₂_map_map
  intro f hf
  obtain ⟨name, -, hname⟩ := exists_of_mem_mapM hquery.selected hf
  obtain ⟨hmem, hregistered⟩ := field_of_get? hr (fieldAt_ok.mp hname)
  apply fits_field h hgraph hdb hmem hregistered _ (isRow_of_mem_rows hc)
  rw [CompiledQuery.readPaths, List.append_assoc, hvalues, List.map_map]
  exact List.mem_append_left _ (List.mem_map_of_mem hf)

theorem fits_output {limits : PlanLimits} {access : Access} (hr : resource.Registered env)
    (haccepted : Accepted env resource limits access p) {groupFields : List FieldSpec}
    (hgroups : p.groupBy.mapM (fun g => fieldAt resource g.field) = .ok groupFields)
    (hvalues : q.values.values = (groupFields.zip p.groupBy).map fun e =>
      buildDateTruncExpression e.1.binding e.2.dateTrunc e.1.type resource.timezone)
    (h : TypedState resource db cell) (hb : TypedBackend b cell)
    (hgraph : ReverseNullable env.graph) (hdb : ReferentialIntegrity db) {c : QueryRow R}
    (hc : c ∈ q.rows db b) :
    List.Forall₂ (fun column value => Fits column (value.map cell)) (groupFields.map fieldColumn)
      (q.output db b c) := by
  have hforall := (mapM_eq_ok.mp hgroups).flip
  have hfields : (groupFields.zip p.groupBy).map Prod.fst = groupFields :=
    List.map_fst_zip hforall.length_eq.le
  rw [CompiledQuery.output, hvalues, List.map_map]
  nth_rewrite 1 [← hfields]
  rw [List.map_map]
  apply forall₂_map_map
  rintro ⟨f, g⟩ he
  have hfield : resource.fields.get? g.field = some f :=
    fieldAt_ok.mp ((List.forall₂_iff_zip.mp hforall).2 he)
  obtain ⟨hmem, hregistered⟩ := field_of_get? hr hfield
  obtain ⟨f', ⟨hf', -⟩, hdate⟩ := haccepted.groupBy g (List.of_mem_zip he).2
  obtain rfl : f' = f := Option.some.inj (hf'.symm.trans hfield)
  have hpath := buildDateTruncExpression_path f'.binding g.dateTrunc f'.type resource.timezone
  have hread : f'.binding ∈ q.readPaths := by
    rw [CompiledQuery.readPaths, List.append_assoc, hvalues, List.map_map]
    apply List.mem_append_left
    exact List.mem_map.mpr ⟨(f', g), he, hpath⟩
  have hfits : Fits (fieldColumn f') _ := fits_group h hb hgraph hdb hmem hregistered hread
    (isRow_of_mem_rows hc) hdate resource.timezone
  simpa only [Function.comp_apply, hpath] using hfits

variable [LinearOrder V]

theorem rowFits_aggregateRow {limits : PlanLimits} {access : Access}
    (hr : resource.Registered env) (haccepted : Accepted env resource limits access p)
    (haggregate : p.intent = .aggregate)
    (hcompiled : compilePreparedQuery env resource p now = .ok q)
    (h : TypedState resource db cell) (hb : TypedBackend b cell)
    (hgraph : ReverseNullable env.graph) (hdb : ReferentialIntegrity db) {g : List (Option V)}
    (hg : g ∈ q.groups db b) : RowFits q cell (q.aggregateRow db b g) := by
  obtain ⟨-, groupFields, metrics, hquery⟩ := isAggregateQuery_of_compiled haggregate hcompiled
  have hvalues := congrArg Dict.values hquery.values
  have hannotations := congrArg Dict.values hquery.annotations
  rw [values_enumerateAliases] at hvalues hannotations
  have hlength : groupFields.length = p.groupBy.length :=
    (mapM_eq_ok.mp hquery.grouped).length_eq.symm
  have hkeys : List.Forall₂ (fun column value => Fits column (value.map cell))
      (groupFields.map fieldColumn) g := by
    unfold CompiledQuery.groups at hg
    rw [hquery.ungrouped] at hg
    split_ifs at hg with hempty
    · rw [decide_eq_true_eq] at hempty
      rw [hempty] at hlength
      obtain rfl := List.length_eq_zero_iff.mp hlength
      rw [List.mem_singleton.mp hg]
      exact .nil
    · obtain ⟨c, hc, rfl⟩ := List.mem_map.mp (List.mem_dedup.mp hg)
      exact fits_output hr haccepted hquery.grouped hvalues h hb hgraph hdb hc
  have hcells : List.Forall₂ (fun column value => Fits column (value.map cell))
      (metrics.map (metricColumn env.unicode))
      (q.annotations.values.map (q.metricValue db b g)) := by
    rw [hannotations, List.map_map]
    apply forall₂_map_map
    intro m hm
    obtain ⟨spec, -, hspec⟩ := exists_of_mem_mapM hquery.computed hm
    have hregistered := hr.metrics_registered _ (Dict.mem_of_get? (metricAt_ok.mp hspec))
    apply fits_metric h hb hregistered
    · intro c hc
      exact isRow_of_mem_rows (List.mem_filter.mp hc).1
    · rw [CompiledQuery.readPaths, hannotations, List.map_map]
      apply List.mem_append_left
      exact List.mem_append_right _ (List.mem_map_of_mem hm)
  refine ⟨g ++ q.annotations.values.map (q.metricValue db b g), ?_, ?_⟩
  · have hsize : q.values.keys.length = g.length := by
      have hcount := congrArg List.length hvalues
      have hpaired := hkeys.length_eq
      rw [Dict.values, List.length_map, List.length_map, List.length_zip] at hcount
      rw [List.length_map] at hpaired
      rw [Dict.keys, List.length_map]
      omega
    have hpairs : q.annotations.keys.zip (q.annotations.values.map (q.metricValue db b g)) =
        q.annotations.map fun e => (e.1, q.metricValue db b g e.2) := by
      rw [Dict.keys, Dict.values, List.map_map, List.zip_map']
      rfl
    rw [aliases, List.zip_append hsize, hpairs]
    rfl
  · rw [hquery.columns]
    exact List.rel_append hkeys hcells

theorem rowFits_of_answers {limits : PlanLimits} {access : Access} (hr : resource.Registered env)
    (haccepted : Accepted env resource limits access p)
    (hcompiled : compilePreparedQuery env resource p now = .ok q)
    (h : TypedState resource db cell) (hb : TypedBackend b cell)
    (hgraph : ReverseNullable env.graph) (hdb : ReferentialIntegrity db)
    {rawRows : List (Dict (Option V))} (hanswers : q.Answers db b rawRows) {raw : Dict (Option V)}
    (hraw : raw ∈ rawRows) : RowFits q cell raw := by
  unfold CompiledQuery.Answers at hanswers
  cases hintent : p.intent with
  | list =>
    obtain ⟨hshape, -⟩ := compiledList hintent hcompiled
    rw [hshape.limitScope] at hanswers
    obtain ⟨rows, harrangement, rfl⟩ := hanswers
    obtain ⟨c, hc, rfl⟩ := List.mem_map.mp hraw
    apply rowFits_listRow hr hintent hcompiled h hgraph hdb
    exact harrangement.perm.subset (sliced_subset hc)
  | aggregate =>
    obtain ⟨hshape, -⟩ := compiledAggregate hintent hcompiled
    rw [hshape.limitScope] at hanswers
    obtain ⟨groups, harrangement, rfl⟩ := hanswers
    obtain ⟨g, hg, rfl⟩ := List.mem_map.mp hraw
    apply rowFits_aggregateRow hr haccepted hintent hcompiled h hb hgraph hdb
    exact harrangement.perm.subset (sliced_subset hg)

end

/-! ## Results -/

def serializeQueryResult {V : Type} (cell : V → CellValue) (result : QueryResult (Option V)) :
    Py SerializedRowsPayload :=
  serializeRows result.columns (result.rows.map (cellRow cell))

/-- Over a typed state, the result of an accepted plan with distinct column keys serializes, each
cell in the form of its column, and null only in nullable columns. -/
theorem accepted_wellTyped {env : Environment} {registry : CatalogRegistry env}
    {limits : PlanLimits} {access : Access} {raw : RawPlan} {p : QueryPlan}
    {resource : SemanticResource} {now : Clock} {q : CompiledQuery} {R V : Type} [LinearOrder V]
    {db : Database env.graph resource.model R V} {b : Backend V} {cell : V → CellValue}
    {rawRows : List (Dict (Option V))}
    (haccepted : parseAndValidateQueryPlan registry limits access raw = .ok p)
    (hresource : registry.get p.resource = .ok resource)
    (hcompiled : compilePreparedQuery env resource p now = .ok q)
    (hnodup : (q.columns.map ResultColumn.key).Nodup) (hgraph : ReverseNullable env.graph)
    (hdb : ReferentialIntegrity db) (hstate : TypedState resource db cell)
    (hbackend : TypedBackend b cell) (hanswers : q.Answers db b rawRows) :
    ∃ payload, serializeQueryResult cell (executeCompiledQuery q rawRows) = .ok payload ∧
      WellTyped q.columns payload := by
  obtain ⟨r, hr, hregistered, h⟩ := parseAndValidateQueryPlan_ok haccepted
  obtain rfl : r = resource := Except.ok.inj (hr.symm.trans hresource)
  apply serializeRows_wellTyped hnodup
  intro row hrow
  obtain ⟨normalized, hnormalized, rfl⟩ := List.mem_map.mp hrow
  obtain ⟨raw, hraw, rfl⟩ := List.mem_map.mp (List.mem_of_mem_take hnormalized)
  have hfits := rowFits_of_answers hregistered h hcompiled hstate hbackend hgraph hdb hanswers hraw
  exact hfits.normalizeRow (compiled_renames hregistered hcompiled) hnodup

/-! ## A typed state -/

/-- Numbers stand for cells of the types of the sample models, and for a float. -/
def sampleCell (n : ℕ) : CellValue :=
  if n % 4 = 0 then .scalar (.int none n)
  else if n % 4 = 1 then .scalar (.str none "open")
  else if n % 4 = 2 then .date ⟨2024, 1, 1, by decide, by decide, by decide⟩
  else .scalar (.float (Binary64.zero false))

/-- The number of a cell that the column of a field stores. -/
def sampleCode : FieldKind → ℕ
  | .column "string" => 1
  | .column "date" => 2
  | _ => 0

/-- One row of every model, each related to the others. -/
def oneRow (root : ModelName) : Database Sample.shop root Unit ℕ where
  table := [()]
  stored := fun _ _ => True
  related := fun _ _ => [()]
  value := fun model name _ =>
    some (((Sample.shop.getField? model name).map fun field => sampleCode field.kind).getD 0)
  key := fun _ => 0
  toOne := fun _ _ _ => le_rfl
  table_stored := fun _ _ => trivial
  related_stored := fun _ _ _ _ _ _ => trivial
  value_some := fun _ _ _ _ _ _ _ _ => rfl
  identifies := fun _ _ _ _ _ _ _ _ _ _ _ _ => rfl

/-- A sum is the greatest of its values, and every average the float. -/
def typedBackend : Backend ℕ :=
  { Sample.backend with
    number := fun n => 4 * n
    sum := fun values => values.fold max 0
    avg := fun _ => 3 }

theorem fold_max_mem {values : Multiset ℕ} (h : values ≠ 0) : values.fold max 0 ∈ values := by
  induction values using Multiset.induction_on with
  | empty => exact absurd rfl h
  | cons a rest ih =>
    rw [Multiset.fold_cons_left, Multiset.mem_cons]
    by_cases hrest : rest = 0
    · rw [hrest, Multiset.fold_zero]
      exact .inl (Nat.max_zero a)
    · rcases max_choice a (rest.fold max 0) with hmax | hmax
      · exact .inl hmax
      · exact .inr (hmax.symm ▸ ih hrest)

theorem typedBackend_typed : TypedBackend typedBackend sampleCell where
  number n := ⟨_, if_pos (Nat.mul_mod_right 4 n)⟩
  sum type _ values hne hall := .inl (hall _ (fold_max_mem hne))
  avg type hnumeric values hne hall := by
    have hfloat : (Binary64.zero false).isFinite = true := by decide
    obtain ⟨v, hv⟩ := Multiset.exists_mem_of_ne_zero hne
    have htyped := hall v hv
    cases type with
    | decimal =>
      unfold sampleCell at htyped
      split_ifs at htyped <;> cases htyped
    | float => exact hfloat
    | integer => exact hfloat
    | _ => cases hnumeric
  trunc _ _ _ _ _ h := h

theorem shop_labels {model name label : String} {field : DjangoField}
    (hfield : Sample.shop.getField? model name = some field) (hkind : field.kind = .column label) :
    label = "integer" ∨ label = "string" ∨ label = "date" := by
  have hkinds := Sample.shop_fields (P := fun field => field.kind ∈ [FieldKind.column "integer",
    .column "string", .column "date", .foreignKey, .manyToOneRel]) (by decide) hfield
  simpa [hkind] using hkinds

theorem oneRow_typed {resource : SemanticResource}
    (h : ∀ f ∈ resource.fields.values, f.enum = none) :
    TypedState resource (oneRow resource.model) sampleCell where
  columns model name field hfield type hkind r _ v hv := by
    have hvalue : (oneRow resource.model).value model name r = some (sampleCode field.kind) := by
      show some (((Sample.shop.getField? model name).map _).getD 0) = _
      rw [hfield]
      rfl
    rw [hvalue] at hv
    obtain rfl := Option.some.inj hv
    have hlabel := shop_labels hfield hkind
    rw [hkind]
    cases type <;> trivial
  enums f hf d hd := by
    rw [h f hf] at hd
    cases hd

theorem oneRow_integrity (root : ModelName) : ReferentialIntegrity (oneRow root) := by
  intro model name field _ _ _ r _
  exact List.cons_ne_nil _ _

theorem countedOrders_wellTyped :
    ∃ resource q rawRows payload,
      (countedOrders "orders").get "orders" = .ok resource ∧
      compilePreparedQuery Sample.environment resource (Sample.aggregatePlan ["status"] ["orders"])
        Sample.newYear = .ok q ∧
      q.Answers (oneRow resource.model) typedBackend rawRows ∧
      serializeQueryResult sampleCell (executeCompiledQuery q rawRows) = .ok payload ∧
      WellTyped q.columns payload := by
  have hvalid : Sample.validated (countedOrders "orders") Sample.limits
      (Sample.aggregatePlan ["status"] ["orders"]) =
        .ok (Sample.aggregatePlan ["status"] ["orders"]) := by decide +kernel
  have hsome : ((compiledSample (countedOrders "orders")
      (Sample.aggregatePlan ["status"] ["orders"])).any fun e =>
        (e.1.fields.values.all fun f => f.enum.isNone) &&
          decide (e.2.columns.map ResultColumn.key).Nodup) = true := by decide +kernel
  obtain ⟨⟨resource, q⟩, h, hchecks⟩ := (Option.any_eq_true _ _).mp hsome
  obtain ⟨hresource, hq⟩ := compiledSample_ok h
  rw [Bool.and_eq_true, List.all_eq_true, decide_eq_true_eq] at hchecks
  have hplain : ∀ f ∈ resource.fields.values, f.enum = none := fun f hf =>
    Option.isNone_iff_eq_none.mp (hchecks.1 f hf)
  obtain ⟨rawRows, hanswers⟩ := exists_answers q (oneRow resource.model) typedBackend
  obtain ⟨payload, hpayload, htyped⟩ := accepted_wellTyped hvalid hresource hq hchecks.2
    shop_reverseNullable (oneRow_integrity resource.model) (oneRow_typed hplain)
    typedBackend_typed hanswers
  exact ⟨resource, q, rawRows, payload, hresource, hq, hanswers, hpayload, htyped⟩

end AskLens.Results
