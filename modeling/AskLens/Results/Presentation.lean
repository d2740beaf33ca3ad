import AskLens.Planning.Help
import AskLens.Planning.Presentation
import AskLens.Results.Serialization

/-!
# Presentations of results

A hint is checked against the columns of the completed result. What a response
carries is either the hint, resolved to its columns, or a plain table.
-/
namespace AskLens.Results

open Python Catalog Compiler Planning Checks Execution

structure PresentationAxis where
  field : String
  label : String
  type : FieldType
deriving DecidableEq

structure NormalizedPresentation where
  kind : PresentationKind
  x : Option PresentationAxis
  y : Option PresentationAxis
deriving DecidableEq

/-- `{"kind": "table"}`. -/
def NormalizedPresentation.table : NormalizedPresentation := ⟨.table, none, none⟩

/-- What `normalize_presentation` raises: a `PresentationHintError` with its text, or the
`TypeError` of keys that cannot be joined. -/
inductive HintFailure where
  | hint (msg : String)
  | typeError
deriving DecidableEq

abbrev Hinted := Except HintFailure

def hintError {α : Type} (msg : String) : Hinted α := .error (.hint msg)

def numericColumnTypes : List FieldType := [.decimal, .float, .integer]

def unknownKey? : PyObj → Option (Option PyText)
  | .str _ s => if s ∈ ["kind", "x", "y"] then none else some (some (PyText.ofString s))
  | .surrogates t => some (some t)
  | _ => some none

/-- `validate_presentation_keys`; `display` is `str` on a text. -/
def validatePresentationKeys (display : PyText → String) (hint : Entries) : Hinted Unit :=
  let unknownKeys := hint.filterMap fun entry => unknownKey? entry.1
  if unknownKeys = [] then .ok ()
  else if none ∈ unknownKeys then .error .typeError
  else
    hintError s!"Unknown presentation keys: {displayNames (unknownKeys.reduceOption.map display)}."

def validateNoAxis (hint : Entries) (axis : String) (kind : PresentationKind) : Hinted Unit :=
  match lookupKey hint axis with
  | none | some .null => .ok ()
  | some _ => hintError s!"Presentation kind {pyRepr kind.name} must not define {axis}."

def requireAxis (hint : Entries) (axis : String) (columnIndex : Dict ResultColumn) :
    Hinted PresentationAxis :=
  let unknown := hintError s!"Presentation axis {pyRepr axis} references an unknown result column."
  match lookupKey hint axis with
  | some (.str _ field) =>
    if field = "" then hintError s!"Presentation axis {pyRepr axis} is required."
    else
      match columnIndex.get? field with
      | some column => .ok ⟨column.key, column.label, column.type⟩
      | none => unknown
  | some (.surrogates _) => unknown
  | _ => hintError s!"Presentation axis {pyRepr axis} is required."

def validateNumericAxis (axis : PresentationAxis) (kind : PresentationKind) (axisName : String) :
    Hinted Unit :=
  if axis.type ∈ numericColumnTypes then .ok ()
  else hintError s!"Presentation kind {pyRepr kind.name} requires a numeric {axisName} axis."

/-- `hint.get("kind", "table")`, if it is supported; `repr` is the built-in one. -/
def hintKind (repr : PyObj → String) (hint : Entries) : Hinted PresentationKind :=
  match lookupKey hint "kind" with
  | none => .ok .table
  | some v =>
    match parseLiteral supportedPresentationKinds PresentationKind.name v with
    | .ok kind => .ok kind
    | .error _ => hintError s!"Unsupported presentation kind {repr v}."

/-- The branches of `normalize_presentation`. -/
def normalizeAxes (hint : Entries) (kind : PresentationKind) (columnIndex : Dict ResultColumn) :
    Hinted NormalizedPresentation :=
  match kind with
  | .table => do
    validateNoAxis hint "x" kind
    validateNoAxis hint "y" kind
    .ok .table
  | .metric => do
    validateNoAxis hint "x" kind
    let yAxis ← requireAxis hint "y" columnIndex
    validateNumericAxis yAxis kind "y"
    .ok ⟨kind, none, some yAxis⟩
  | kind => do
    let xAxis ← requireAxis hint "x" columnIndex
    let yAxis ← requireAxis hint "y" columnIndex
    validateNumericAxis yAxis kind "y"
    .ok ⟨kind, some xAxis, some yAxis⟩

def normalizePresentation (display : PyText → String) (repr : PyObj → String)
    (presentation : Option Entries) (columns : List ResultColumn) :
    Hinted NormalizedPresentation := do
  let hint :=
    match presentation with
    | none | some [] => [(textObj "kind", textObj "table")]
    | some entries => entries
  validatePresentationKeys display hint
  let kind ← hintKind repr hint
  normalizeAxes hint kind (columnSpecs columns)

def buildPresentationPayload (display : PyText → String) (repr : PyObj → String)
    (presentation : Option PresentationSpec) (columns : List ResultColumn)
    (includePresentation : Bool) : Hinted (Option NormalizedPresentation) :=
  if includePresentation = false then .ok none
  else
    match normalizePresentation display repr (presentation.map PresentationSpec.dump) columns with
    | .ok shown => .ok (some shown)
    | .error (.hint _) => .ok (some .table)
    | .error .typeError => .error .typeError

/-! ## Axes of a result -/

def axisAt (columns : List ResultColumn) (name : String) : Option PresentationAxis :=
  ((columnSpecs columns).get? name).map fun column => ⟨column.key, column.label, column.type⟩

/-- Every axis is a column, and the `y` axis is a column of numbers. -/
structure Drawable (spec : PresentationSpec) (columns : List ResultColumn) : Prop where
  axes : ∀ name ∈ spec.x.toList ++ spec.y.toList, name ∈ columns.map ResultColumn.key
  numbers : ∀ name ∈ spec.y, ∀ axis ∈ axisAt columns name, axis.type ∈ numericColumnTypes

/-- The presentation is the hint with its axes resolved. -/
structure Shows (columns : List ResultColumn) (spec : PresentationSpec)
    (shown : NormalizedPresentation) : Prop where
  kind : shown.kind = spec.kind
  x : shown.x = spec.x.bind (axisAt columns)
  y : shown.y = spec.y.bind (axisAt columns)

/-- A JSON value that is a number, or the text of a decimal. -/
def IsNumber : PyScalar → Prop
  | .int _ _ => True
  | .float x => x.isFinite = true
  | .str _ (.text s) => Decimal.IsNumeral s.toList
  | _ => False

/-- What a client may rely on when it draws the rows: the axes that the kind needs, each a column
of the document with a cell in every row, and only numbers and nulls along the `y` axis. -/
structure Draws (payload : SerializedRowsPayload) (shown : NormalizedPresentation) : Prop where
  axes : validateAxesForKind shown.kind (shown.x.map PresentationAxis.field)
    (shown.y.map PresentationAxis.field) = none
  columns : ∀ axis ∈ shown.x.toList ++ shown.y.toList, ∃ column ∈ payload.columns,
    column.key = axis.field ∧ column.label = axis.label ∧ column.type = axis.type
  cells : ∀ axis ∈ shown.x.toList ++ shown.y.toList, ∀ row ∈ payload.data,
    ∃ cell, row.get? axis.field = some cell
  numbers : ∀ axis ∈ shown.y, ∀ row ∈ payload.data, ∀ value,
    row.get? axis.field = some (some value) → IsNumber value

variable {columns : List ResultColumn} {rows : List (Dict (Option CellValue))}
  {payload : SerializedRowsPayload}

theorem columnSpecs_key {key : String} {column : ResultColumn}
    (h : (columnSpecs columns).get? key = some column) : column ∈ columns ∧ column.key = key := by
  have hmem := Dict.mem_of_mem_ofEntries (Dict.mem_of_get? h)
  obtain ⟨declared, hdeclared, hentry⟩ := List.mem_map.mp hmem
  cases hentry
  exact ⟨hdeclared, rfl⟩

theorem mem_keys_iff {name : String} :
    name ∈ columns.map ResultColumn.key ↔ ∃ axis, axisAt columns name = some axis := by
  have hsome : ((columnSpecs columns).get? name).isSome ↔ name ∈ columns.map ResultColumn.key := by
    rw [Dict.get?_isSome_iff, columnSpecs, Dict.mem_keys_ofEntries, List.map_map]
    rfl
  rw [← hsome, ← Option.isSome_iff_exists, axisAt, Option.isSome_map]

theorem axisAt_field {name : String} {axis : PresentationAxis}
    (h : axisAt columns name = some axis) : axis.field = name := by
  obtain ⟨column, hcolumn, rfl⟩ := Option.map_eq_some_iff.mp h
  exact (columnSpecs_key hcolumn).2

/-! ### Cells -/

theorem serializeCell_ok {entry : String × Option CellValue} {e : String × Option PyScalar}
    (h : serializeCell columns entry = .ok e) :
    e.1 = entry.1 ∧ ∃ column, (columnSpecs columns).get? e.1 = some column ∧
      CellConforms column e.2 := by
  unfold serializeCell at h
  split at h
  · cases h
  · rename_i column hcolumn
    obtain ⟨cell, hcell, h⟩ := bind_eq_ok.mp h
    cases h
    exact ⟨rfl, column, hcolumn, cellConforms_of_normalizeCellValue hcell⟩

/-- The cell under a key is checked against the column that the key finds. -/
theorem serializeRow_cell {row : Dict (Option CellValue)} {out : Dict (Option PyScalar)}
    (h : serializeRow columns row = .ok out) {key : String} {column : ResultColumn}
    (hcolumn : (columnSpecs columns).get? key = some column) :
    ∃ cell, out.get? key = some cell ∧ CellConforms column cell := by
  obtain ⟨_, hkeys, hcells⟩ := bind_eq_ok.mp h
  rw [raiseIf_eq_ok, Bool.not_eq_false] at hkeys
  have hkey : key ∈ row.keys := by
    unfold rowKeysMatch at hkeys
    rw [Bool.and_eq_true, List.all_eq_true, List.all_eq_true] at hkeys
    apply List.contains_iff_mem.mp
    apply hkeys.2
    apply List.mem_map.mpr
    exact ⟨column, columnSpecs_key hcolumn⟩
  obtain ⟨entry, hentry, rfl⟩ := List.mem_map.mp hkey
  obtain ⟨e, he, hresult⟩ := exists_result_of_mapM hcells hentry
  have hmem : entry.1 ∈ out.keys := by
    rw [← (serializeCell_ok hresult).1]
    exact List.mem_map_of_mem he
  obtain ⟨cell, hcell⟩ := Option.isSome_iff_exists.mp (Dict.get?_isSome_iff.mpr hmem)
  obtain ⟨source, -, hsource⟩ := exists_of_mem_mapM hcells (Dict.mem_of_get? hcell)
  obtain ⟨-, declared, hdeclared, hconforms⟩ := serializeCell_ok hsource
  cases hcolumn.symm.trans hdeclared
  exact ⟨cell, hcell, hconforms⟩

theorem serializeRows_cell (h : serializeRows columns rows = .ok payload) {key : String}
    {column : ResultColumn} (hcolumn : (columnSpecs columns).get? key = some column) :
    ∀ row ∈ payload.data, ∃ cell, row.get? key = some cell ∧ CellConforms column cell := by
  obtain ⟨data, hdata, h⟩ := bind_eq_ok.mp h
  obtain rfl := Except.ok.inj h
  intro row hrow
  obtain ⟨source, -, hsource⟩ := exists_of_mem_mapM hdata hrow
  exact serializeRow_cell hsource hcolumn

theorem isNumber_of_hasForm {column : ResultColumn} {v : PyScalar} (h : HasForm column v)
    (hnumeric : column.type ∈ numericColumnTypes) : IsNumber v := by
  unfold HasForm at h
  cases htype : column.type with
  | integer =>
    simp only [htype] at h
    obtain ⟨cls, i, rfl⟩ := h
    trivial
  | float =>
    simp only [htype] at h
    obtain ⟨x, rfl, hfinite⟩ := h
    exact hfinite
  | decimal =>
    simp only [htype] at h
    obtain ⟨cs, rfl, hnumeral, -⟩ := h
    show Decimal.IsNumeral (String.ofList cs).toList
    rw [String.toList_ofList]
    exact hnumeral
  | _ =>
    rw [htype] at hnumeric
    simp [numericColumnTypes] at hnumeric

/-! ### Resolved hints -/

/-- The hint with its axes resolved. -/
def shownOf (columns : List ResultColumn) (spec : PresentationSpec) : NormalizedPresentation :=
  ⟨spec.kind, spec.x.bind (axisAt columns), spec.y.bind (axisAt columns)⟩

theorem lookupKey_spec_dump (spec : PresentationSpec) :
    lookupKey spec.dump "kind" = some (textObj spec.kind.name) ∧
      lookupKey spec.dump "x" = spec.x.map textObj ∧
      lookupKey spec.dump "y" = spec.y.map textObj := by
  simp only [PresentationSpec.dump, lookupKey_append, lookupKey_member]
  refine ⟨?_, ?_, ?_⟩ <;> simp

theorem hintKind_dump (repr : PyObj → String) (spec : PresentationSpec) :
    hintKind repr spec.dump = .ok spec.kind := by
  unfold hintKind
  rw [(lookupKey_spec_dump spec).1]
  simp only [parseLiteral_kind]

theorem validatePresentationKeys_dump (display : PyText → String) (spec : PresentationSpec) :
    validatePresentationKeys display spec.dump = .ok () := by
  have hknown : spec.dump.filterMap (fun entry => unknownKey? entry.1) = [] := by
    unfold PresentationSpec.dump
    cases spec.x <;> cases spec.y <;> rfl
  unfold validatePresentationKeys
  simp only [hknown, if_true]

theorem normalizePresentation_dump (display : PyText → String) (repr : PyObj → String)
    (spec : PresentationSpec) :
    normalizePresentation display repr (some spec.dump) columns =
      normalizeAxes spec.dump spec.kind (columnSpecs columns) := by
  have hunfold : normalizePresentation display repr (some spec.dump) columns =
      (validatePresentationKeys display spec.dump >>= fun _ => hintKind repr spec.dump >>=
        fun kind => normalizeAxes spec.dump kind (columnSpecs columns)) := rfl
  rw [hunfold, validatePresentationKeys_dump, ok_bind, hintKind_dump, ok_bind]

theorem requireAxis_dump (columns : List ResultColumn) {hint : Entries} {axis name : String}
    (hname : name ≠ "") (h : lookupKey hint axis = some (textObj name)) :
    (∃ a, axisAt columns name = some a ∧ requireAxis hint axis (columnSpecs columns) = .ok a) ∨
      axisAt columns name = none ∧
        ∃ msg, requireAxis hint axis (columnSpecs columns) = .error (.hint msg) := by
  unfold requireAxis axisAt
  rw [h]
  simp only [textObj, if_neg hname]
  cases (columnSpecs columns).get? name with
  | some column => exact .inl ⟨_, rfl, rfl⟩
  | none => exact .inr ⟨rfl, _, rfl⟩

theorem validateNoAxis_dump (spec : PresentationSpec) (kind : PresentationKind) :
    (spec.x = none → validateNoAxis spec.dump "x" kind = .ok ()) ∧
      (spec.y = none → validateNoAxis spec.dump "y" kind = .ok ()) := by
  obtain ⟨-, hx, hy⟩ := lookupKey_spec_dump spec
  constructor
  · intro h
    unfold validateNoAxis
    rw [hx, h]
    rfl
  · intro h
    unfold validateNoAxis
    rw [hy, h]
    rfl

theorem table_spec {spec : PresentationSpec} (h : spec.kind = .table) :
    spec.x = none ∧ spec.y = none := by
  have haxes := spec.axes
  rw [h] at haxes
  simp only [validateAxesForKind] at haxes
  split_ifs at haxes with hset
  simpa [not_or] using hset

theorem metric_spec {spec : PresentationSpec} (h : spec.kind = .metric) :
    spec.x = none ∧ ∃ y, spec.y = some y := by
  have haxes := spec.axes
  rw [h] at haxes
  simp only [validateAxesForKind] at haxes
  split_ifs at haxes with hset hmissing
  exact ⟨by simpa using hset, Option.ne_none_iff_exists'.mp hmissing⟩

theorem chart_spec {spec : PresentationSpec} (htable : spec.kind ≠ .table)
    (hmetric : spec.kind ≠ .metric) : ∃ x y, spec.x = some x ∧ spec.y = some y := by
  have haxes := spec.axes
  unfold validateAxesForKind at haxes
  split at haxes
  · exact absurd ‹_› htable
  · exact absurd ‹_› hmetric
  · split_ifs at haxes with hmissing
    rw [not_or] at hmissing
    obtain ⟨x, hx⟩ := Option.ne_none_iff_exists'.mp hmissing.1
    obtain ⟨y, hy⟩ := Option.ne_none_iff_exists'.mp hmissing.2
    exact ⟨x, y, hx, hy⟩

theorem numericAxis_cases (columns : List ResultColumn) {hint : Entries} {name : String}
    (hname : name ≠ "") (h : lookupKey hint "y" = some (textObj name)) (kind : PresentationKind) :
    (∃ a, axisAt columns name = some a ∧ a.type ∈ numericColumnTypes ∧
        requireAxis hint "y" (columnSpecs columns) = .ok a ∧
          validateNumericAxis a kind "y" = .ok ()) ∨
      (¬ ∃ a, axisAt columns name = some a ∧ a.type ∈ numericColumnTypes) ∧
        ∀ f : PresentationAxis → Hinted NormalizedPresentation, ∃ msg,
          (requireAxis hint "y" (columnSpecs columns) >>= fun a =>
            validateNumericAxis a kind "y" >>= fun _ => f a) = .error (.hint msg) := by
  obtain ⟨a, ha, hresolved⟩ | ⟨hnone, msg, hmsg⟩ := requireAxis_dump columns hname h
  · by_cases hnumeric : a.type ∈ numericColumnTypes
    · exact .inl ⟨a, ha, hnumeric, hresolved, if_pos hnumeric⟩
    · refine .inr ⟨?_, fun f => ?_⟩
      · rintro ⟨b, hb, hbnumeric⟩
        cases ha.symm.trans hb
        exact hnumeric hbnumeric
      · rw [hresolved, ok_bind, validateNumericAxis, if_neg hnumeric]
        exact ⟨_, rfl⟩
  · refine .inr ⟨?_, fun f => ?_⟩
    · rintro ⟨b, hb, -⟩
      rw [hnone] at hb
      cases hb
    · rw [hmsg]
      exact ⟨msg, rfl⟩

theorem drawable_iff {spec : PresentationSpec} :
    Drawable spec columns ↔ (∀ name ∈ spec.x, ∃ a, axisAt columns name = some a) ∧
      ∀ name ∈ spec.y, ∃ a, axisAt columns name = some a ∧ a.type ∈ numericColumnTypes := by
  constructor
  · intro ⟨haxes, hnumbers⟩
    constructor
    · intro name hname
      apply mem_keys_iff.mp
      apply haxes
      simp [Option.mem_def.mp hname]
    · intro name hname
      obtain ⟨a, ha⟩ := mem_keys_iff.mp (haxes name (by simp [Option.mem_def.mp hname]))
      exact ⟨a, ha, hnumbers name hname a ha⟩
  · intro ⟨hx, hy⟩
    constructor
    · intro name hname
      apply mem_keys_iff.mpr
      rw [List.mem_append, Option.mem_toList, Option.mem_toList] at hname
      rcases hname with hname | hname
      · exact hx name hname
      · obtain ⟨a, ha, -⟩ := hy name hname
        exact ⟨a, ha⟩
    · intro name hname axis haxis
      obtain ⟨a, ha, hnumeric⟩ := hy name hname
      cases ha.symm.trans haxis
      exact hnumeric

theorem normalizeAxes_chart (hint : Entries) {kind : PresentationKind} (htable : kind ≠ .table)
    (hmetric : kind ≠ .metric) {columnIndex : Dict ResultColumn} :
    normalizeAxes hint kind columnIndex =
      (requireAxis hint "x" columnIndex >>= fun xAxis =>
        requireAxis hint "y" columnIndex >>= fun yAxis =>
          validateNumericAxis yAxis kind "y" >>= fun _ => .ok ⟨kind, some xAxis, some yAxis⟩) := by
  cases kind with
  | table => exact absurd rfl htable
  | metric => exact absurd rfl hmetric
  | bar => rfl
  | line => rfl
  | pie => rfl

/-- A hint is resolved when it can be drawn, and refused otherwise. -/
theorem normalizeAxes_dump (spec : PresentationSpec) :
    (Drawable spec columns ∧
        normalizeAxes spec.dump spec.kind (columnSpecs columns) = .ok (shownOf columns spec)) ∨
      ¬ Drawable spec columns ∧
        ∃ msg, normalizeAxes spec.dump spec.kind (columnSpecs columns) = .error (.hint msg) := by
  obtain ⟨-, hx, hy⟩ := lookupKey_spec_dump spec
  have hnames : ∀ name, spec.x = some name ∨ spec.y = some name → name ≠ "" := by
    intro name hname hempty
    have hmem : name ∈ spec.x.toList ++ spec.y.toList := by
      rcases hname with hname | hname <;> simp [hname]
    exact (spec.names name hmem).ne (congrArg PyStr.text hempty)
  rw [drawable_iff, shownOf]
  by_cases htable : spec.kind = .table
  · obtain ⟨hnox, hnoy⟩ := table_spec htable
    have hchecks := validateNoAxis_dump spec .table
    refine .inl ⟨by simp [hnox, hnoy], ?_⟩
    rw [htable, hnox, hnoy]
    simp only [normalizeAxes, hchecks.1 hnox, hchecks.2 hnoy, ok_bind]
    rfl
  by_cases hmetric : spec.kind = .metric
  · obtain ⟨hnox, y, hsome⟩ := metric_spec hmetric
    rw [hsome] at hy
    have hcheck := (validateNoAxis_dump spec .metric).1 hnox
    rw [hmetric, hnox, hsome]
    simp only [normalizeAxes, hcheck, ok_bind, Option.mem_def, Option.some_inj]
    rcases numericAxis_cases columns (hnames y (.inr hsome)) hy .metric with
      ⟨a, ha, hnumeric, hresolved, hchecked⟩ | ⟨hnot, hfails⟩
    · refine .inl ⟨⟨by simp, ?_⟩, ?_⟩
      · rintro name rfl
        exact ⟨a, ha, hnumeric⟩
      · rw [hresolved, ok_bind, hchecked, ok_bind, Option.bind_some, ha]
        rfl
    · exact .inr ⟨fun h => hnot (h.2 y rfl), hfails _⟩
  · obtain ⟨x, y, hsomex, hsomey⟩ := chart_spec htable hmetric
    rw [hsomex] at hx
    rw [hsomey] at hy
    rw [normalizeAxes_chart _ htable hmetric, hsomex, hsomey]
    simp only [Option.mem_def, Option.some_inj]
    rcases requireAxis_dump columns (hnames x (.inl hsomex)) hx with
      ⟨a, ha, hresolved⟩ | ⟨hnone, msg, hmsg⟩
    · rcases numericAxis_cases columns (hnames y (.inr hsomey)) hy spec.kind with
        ⟨b, hb, hnumeric, hresolved', hchecked⟩ | ⟨hnot, hfails⟩
      · refine .inl ⟨⟨?_, ?_⟩, ?_⟩
        · rintro name rfl
          exact ⟨a, ha⟩
        · rintro name rfl
          exact ⟨b, hb, hnumeric⟩
        · rw [hresolved, ok_bind, hresolved', ok_bind, hchecked, ok_bind, Option.bind_some,
            Option.bind_some, ha, hb]
      · refine .inr ⟨fun h => hnot (h.2 y rfl), ?_⟩
        rw [hresolved, ok_bind]
        exact hfails _
    · refine .inr ⟨fun h => ?_, msg, ?_⟩
      · obtain ⟨a, ha⟩ := h.1 x rfl
        rw [hnone] at ha
        cases ha
      · rw [hmsg]
        rfl

def plainTable : PresentationSpec := ⟨.table, none, none, by simp, rfl⟩

theorem normalizePresentation_cases (display : PyText → String) (repr : PyObj → String)
    (spec : PresentationSpec) :
    (Drawable spec columns ∧ normalizePresentation display repr (some spec.dump) columns =
        .ok (shownOf columns spec)) ∨
      ¬ Drawable spec columns ∧
        ∃ msg, normalizePresentation display repr (some spec.dump) columns = .error (.hint msg) := by
  rw [normalizePresentation_dump]
  exact normalizeAxes_dump spec

theorem column_of_shown {spec : PresentationSpec} {axis : PresentationAxis}
    (h : axis ∈ (shownOf columns spec).x.toList ++ (shownOf columns spec).y.toList) :
    ∃ column, (columnSpecs columns).get? axis.field = some column ∧ column.key = axis.field ∧
      column.label = axis.label ∧ column.type = axis.type := by
  have hname : ∃ name, axisAt columns name = some axis := by
    rw [List.mem_append, Option.mem_toList, Option.mem_toList] at h
    rcases h with h | h
    · obtain ⟨name, -, hname⟩ := Option.bind_eq_some_iff.mp h
      exact ⟨name, hname⟩
    · obtain ⟨name, -, hname⟩ := Option.bind_eq_some_iff.mp h
      exact ⟨name, hname⟩
  obtain ⟨name, hname⟩ := hname
  obtain ⟨column, hcolumn, rfl⟩ := Option.map_eq_some_iff.mp hname
  refine ⟨column, ?_, rfl, rfl, rfl⟩
  rw [(columnSpecs_key hcolumn).2]
  exact hcolumn

theorem draws_shownOf (h : serializeRows columns rows = .ok payload) {spec : PresentationSpec}
    (hdrawable : Drawable spec columns) : Draws payload (shownOf columns spec) := by
  obtain ⟨hx, hy⟩ := drawable_iff.mp hdrawable
  have hheader : payload.columns = columns.map serializeColumn := by
    obtain ⟨data, -, hpayload⟩ := bind_eq_ok.mp h
    obtain rfl := Except.ok.inj hpayload
    rfl
  have hsame : ∀ o : Option String, (∀ name ∈ o, ∃ a, axisAt columns name = some a) →
      (o.bind (axisAt columns)).map PresentationAxis.field = o := by
    intro o ho
    cases o with
    | none => rfl
    | some name =>
      obtain ⟨a, ha⟩ := ho name rfl
      rw [Option.bind_some, ha, Option.map_some, axisAt_field ha]
  constructor
  · show validateAxesForKind spec.kind ((spec.x.bind (axisAt columns)).map PresentationAxis.field)
      ((spec.y.bind (axisAt columns)).map PresentationAxis.field) = none
    rw [hsame spec.x hx, hsame spec.y fun name hname => ?_]
    · exact spec.axes
    · obtain ⟨a, ha, -⟩ := hy name hname
      exact ⟨a, ha⟩
  · intro axis haxis
    obtain ⟨column, hcolumn, hkey, hlabel, htype⟩ := column_of_shown haxis
    refine ⟨serializeColumn column, ?_, hkey, hlabel, htype⟩
    rw [hheader]
    exact List.mem_map_of_mem (columnSpecs_key hcolumn).1
  · intro axis haxis row hrow
    obtain ⟨column, hcolumn, -⟩ := column_of_shown haxis
    obtain ⟨cell, hcell, -⟩ := serializeRows_cell h hcolumn row hrow
    exact ⟨cell, hcell⟩
  · intro axis haxis row hrow value hvalue
    have hmem : axis ∈ (shownOf columns spec).x.toList ++ (shownOf columns spec).y.toList := by
      rw [List.mem_append]
      exact .inr (Option.mem_toList.mpr haxis)
    obtain ⟨column, hcolumn, -, -, htype⟩ := column_of_shown hmem
    obtain ⟨cell, hcell, hconforms⟩ := serializeRows_cell h hcolumn row hrow
    cases hcell.symm.trans hvalue
    apply isNumber_of_hasForm hconforms
    obtain ⟨name, hname, hfound⟩ := Option.bind_eq_some_iff.mp haxis
    obtain ⟨a, ha, hnumeric⟩ := hy name hname
    cases ha.symm.trans hfound
    rw [htype]
    exact hnumeric

theorem draws_table (payload : SerializedRowsPayload) : Draws payload .table := by
  constructor <;> simp [NormalizedPresentation.table, validateAxesForKind]

theorem drawable_plainTable : Drawable plainTable columns :=
  ⟨by simp [plainTable], by simp [plainTable]⟩

theorem buildPresentationPayload_cases (display : PyText → String) (repr : PyObj → String)
    (hint : Option PresentationSpec) (columns : List ResultColumn) :
    (Drawable (hint.getD plainTable) columns ∧
        buildPresentationPayload display repr hint columns true =
          .ok (some (shownOf columns (hint.getD plainTable)))) ∨
      ¬ Drawable (hint.getD plainTable) columns ∧
        buildPresentationPayload display repr hint columns true = .ok (some .table) := by
  unfold buildPresentationPayload
  rw [if_neg (by simp)]
  cases hint with
  | none => exact .inl ⟨drawable_plainTable, rfl⟩
  | some spec =>
    rw [Option.map_some, Option.getD_some]
    rcases normalizePresentation_cases display repr spec with
      ⟨hdrawable, hshown⟩ | ⟨hnot, msg, hmsg⟩
    · rw [hshown]
      exact .inl ⟨hdrawable, rfl⟩
    · rw [hmsg]
      exact .inr ⟨hnot, rfl⟩

/-- Whatever is asked for, a response with rows carries a presentation that can be drawn: the
requested one when its axes are columns and the `y` axis holds numbers, and else a table. -/
theorem presentation_draws_result (display : PyText → String) (repr : PyObj → String)
    (h : serializeRows columns rows = .ok payload) (hint : Option PresentationSpec) :
    ∃ shown, buildPresentationPayload display repr hint columns true = .ok (some shown) ∧
      Draws payload shown ∧
      (Drawable (hint.getD plainTable) columns → Shows columns (hint.getD plainTable) shown) ∧
      (¬ Drawable (hint.getD plainTable) columns → shown = .table) := by
  rcases buildPresentationPayload_cases display repr hint columns with
    ⟨hdrawable, hshown⟩ | ⟨hnot, htable⟩
  · exact ⟨_, hshown, draws_shownOf h hdrawable, fun _ => ⟨rfl, rfl, rfl⟩,
      fun hnot => absurd hdrawable hnot⟩
  · exact ⟨_, htable, draws_table payload, fun hdrawable => absurd hdrawable hnot, fun _ => rfl⟩

/-- A single number. -/
def revenueHint : PresentationSpec :=
  ⟨.metric, none, some "revenue", by decide, rfl⟩

def revenueRows : List (Dict (Option CellValue)) :=
  [[("revenue", some (.decimal (.finite false 1250 (-2))))]]

def revenuePayload : SerializedRowsPayload where
  columns := [serializeColumn revenueColumn]
  data := [[("revenue", some (jsonText ['1', '2', '.', '5']))]]
  rowCount := 1
  empty := none

theorem revenue_drawn :
    ∃ shown, buildPresentationPayload (fun _ => "") (fun _ => "") (some revenueHint)
        [revenueColumn] true = .ok (some shown) ∧
      Draws revenuePayload shown ∧
      (Drawable revenueHint [revenueColumn] → Shows [revenueColumn] revenueHint shown) ∧
      (¬ Drawable revenueHint [revenueColumn] → shown = .table) := by
  have hrows : serializeRows [revenueColumn] revenueRows = .ok revenuePayload := by
    decide +kernel
  exact presentation_draws_result (fun _ => "") (fun _ => "") hrows (some revenueHint)

end AskLens.Results
