import AskLens.Execution.Runner
import AskLens.Python.DecimalValues
import AskLens.Python.Decimals
import AskLens.Python.Numbers
import AskLens.Python.PlainDecimals

/-!
# Result documents

`serialize_rows`: the runtime values that the database driver returns become JSON
cells, dispatching on the canonical type of the column first and on the class of
the value second.
-/
namespace AskLens.Results

open Python Catalog Compiler Execution Checks

/-! ## Runtime values -/

/-- A `datetime.datetime`; an aware one has an offset in seconds. -/
structure DatetimeValue where
  date : Date
  time : Time
  offset : Option ℤ
  offset_lt : ∀ seconds, offset = some seconds → seconds.natAbs < 86400

/-- The offset of `isoformat`; the seconds are there only when they are not zero. -/
def offsetText (seconds : ℤ) : List Char :=
  let n := seconds.natAbs
  (if seconds < 0 then '-' else '+') :: (pad 2 (n / 3600) ++ ':' :: (pad 2 (n % 3600 / 60) ++
    if n % 60 = 0 then [] else ':' :: pad 2 (n % 60)))

/-- `datetime.isoformat()`. -/
def DatetimeValue.isoformat (d : DatetimeValue) : List Char :=
  d.date.isoformat ++ 'T' :: (d.time.isoformat ++ (d.offset.map offsetText).getD [])

/-- A value of a raw row that is not `None`. The last kind are the objects of all other classes. -/
inductive CellValue where
  | scalar (v : PyScalar)
  | decimal (d : Decimal)
  | date (d : Date)
  | datetime (d : DatetimeValue)
  | time (t : Time)
  | uuid (n : ℕ) (range : n < 2 ^ 128)
  | other (typeName : String)

/-- `type(value).__name__`. -/
def CellValue.typeName : CellValue → String
  | .scalar v => v.typeName
  | .decimal _ => "Decimal"
  | .date _ => "date"
  | .datetime _ => "datetime"
  | .time _ => "time"
  | .uuid .. => "UUID"
  | .other typeName => typeName

/-! ## Cells -/

def jsonText (cs : List Char) : PyScalar := .str none (String.ofList cs)

def raiseNonFiniteResult (column : ResultColumn) : Py PyScalar :=
  .error (ErrorClass.resultSerialization.exc
    s!"Result column {pyRepr column.key} returned a non-finite numeric value.")

def raiseUnsupportedResult (value : CellValue) (column : ResultColumn) : Py PyScalar :=
  .error (ErrorClass.resultSerialization.exc
    s!"Unsupported result value type {pyRepr value.typeName} for canonical column type {pyRepr column.type.name}.")

def finiteFloat (x : Binary64) (column : ResultColumn) : Py PyScalar :=
  if x.isFinite = true then .ok (.float x) else raiseNonFiniteResult column

/-- `float(value)` of an integer. -/
def floatOfInt (i : ℤ) : Py Binary64 :=
  let x := Binary64.ofInt i
  if x.isFinite = true then .ok x else .error (.builtin .overflowError)

/-- The end of `normalize_cell_value`, which no canonical type has taken. -/
def rejectCell (value : CellValue) (column : ResultColumn) : Py PyScalar :=
  match value with
  | .scalar (.float x) =>
    if x.isFinite = true then raiseUnsupportedResult value column else raiseNonFiniteResult column
  | .decimal d =>
    if d.isFinite = true then raiseUnsupportedResult value column else raiseNonFiniteResult column
  | value => raiseUnsupportedResult value column

/-- `value in column.enum_values`. -/
def enumCell (v : PyScalar) (column : ResultColumn) : Py PyScalar :=
  if column.enumValues.any v.pyEq then .ok v
  else .error (ErrorClass.resultSerialization.exc
    s!"Result column {pyRepr column.key} returned an unregistered enum value.")

/-- `normalize_cell_value` on a value that is not `None`. -/
def normalizePresent (value : CellValue) (column : ResultColumn) : Py PyScalar :=
  match column.type, value with
  | .string, .scalar (.str cls s) => .ok (.str cls s)
  | .boolean, .scalar (.bool b) => .ok (.bool b)
  | .integer, .scalar (.int cls i) => .ok (.int cls i)
  | .integer, .decimal d =>
    match d.integral? with
    | some i => .ok (.int none i)
    | none => rejectCell value column
  | .decimal, .decimal (.finite neg coefficient exponent) =>
    .ok (jsonText (if column.isMetric then Decimal.serializeAggregate neg coefficient exponent
      else Decimal.text neg coefficient exponent))
  | .decimal, .decimal .special => raiseNonFiniteResult column
  | .float, .scalar (.bool _) => raiseUnsupportedResult value column
  | .float, .scalar (.int _ i) => do
    let x ← floatOfInt i
    finiteFloat x column
  | .float, .scalar (.float x) => finiteFloat x column
  | .float, .decimal (.finite neg coefficient exponent) =>
    finiteFloat (Binary64.ofDecimal neg coefficient exponent) column
  | .float, .decimal .special => raiseNonFiniteResult column
  | .date, .date d => .ok (jsonText d.isoformat)
  | .datetime, .datetime d => .ok (jsonText d.isoformat)
  | .time, .time t => .ok (jsonText t.isoformat)
  | .uuid, .uuid n _ => .ok (.str none (formatUuid n))
  | .enum, .scalar (.str cls s) => enumCell (.str cls s) column
  | .enum, .scalar (.int cls i) => enumCell (.int cls i) column
  | _, _ => rejectCell value column

/-- `normalize_cell_value`; a JSON `null` is `none`. -/
def normalizeCellValue (value : Option CellValue) (column : ResultColumn) :
    Py (Option PyScalar) :=
  match value with
  | none =>
    if column.nullable then .ok none
    else .error (ErrorClass.resultSerialization.exc
      s!"Non-null result column {pyRepr column.key} returned null.")
  | some value => (normalizePresent value column).map some

/-! ## Rows -/

/-- `{column.key: column for column in columns}`. -/
def columnSpecs (columns : List ResultColumn) : Dict ResultColumn :=
  Dict.ofEntries (columns.map fun column => (column.key, column))

/-- One cell of `serialize_row`. -/
def serializeCell (columns : List ResultColumn) (entry : String × Option CellValue) :
    Py (String × Option PyScalar) :=
  match (columnSpecs columns).get? entry.1 with
  | none =>
    .error (ErrorClass.resultSerialization.exc "Result row contains an undeclared column.")
  | some column => do
    let cell ← normalizeCellValue entry.2 column
    .ok (entry.1, cell)

def serializeRow (columns : List ResultColumn) (row : Dict (Option CellValue)) :
    Py (Dict (Option PyScalar)) := do
  raiseIf (rowKeysMatch columns row = false) (ErrorClass.resultSerialization.exc
    "Result row keys do not match declared result columns.")
  row.mapM (serializeCell columns)

structure SerializedColumn where
  key : String
  label : String
  type : FieldType
  nullable : Bool
deriving DecidableEq

def serializeColumn (column : ResultColumn) : SerializedColumn :=
  ⟨column.key, column.label, column.type, column.nullable⟩

/-- `SerializedRowsPayload`; the key `empty` is there only when it is true. -/
structure SerializedRowsPayload where
  columns : List SerializedColumn
  data : List (Dict (Option PyScalar))
  rowCount : ℕ
  empty : Option Bool
deriving DecidableEq

def serializeRows (columns : List ResultColumn) (rows : List (Dict (Option CellValue))) :
    Py SerializedRowsPayload := do
  let data ← rows.mapM (serializeRow columns)
  .ok
    { columns := columns.map serializeColumn
      data := data
      rowCount := data.length
      empty := presentIf (data = []) true }

/-! ## Canonical forms -/

/-- The JSON values that the canonical type of a column prescribes. -/
def HasForm (column : ResultColumn) (v : PyScalar) : Prop :=
  match column.type with
  | .string => ∃ cls s, v = .str cls s
  | .boolean => ∃ b, v = .bool b
  | .integer => ∃ cls i, v = .int cls i
  | .decimal => ∃ cs, v = jsonText cs ∧ Decimal.IsNumeral cs ∧
      (column.isMetric = true → Decimal.IsMinimalNumeral cs)
  | .float => ∃ x, v = .float x ∧ x.isFinite = true
  | .date => ∃ d : Date, v = jsonText d.isoformat
  | .datetime => ∃ d : DatetimeValue, v = jsonText d.isoformat
  | .time => ∃ t : Time, v = jsonText t.isoformat
  | .uuid => ∃ n, n < 2 ^ 128 ∧ v = .str none (formatUuid n)
  | .enum => ((∃ cls s, v = .str cls s) ∨ ∃ cls i, v = .int cls i) ∧
      ∃ value ∈ column.enumValues, v.pyEq value = true

/-- A cell of the form that its column prescribes, or null where the column is nullable. -/
def CellConforms (column : ResultColumn) : Option PyScalar → Prop
  | none => column.nullable = true
  | some v => HasForm column v

/-- Every row has exactly the cells of the columns, each of the form that its column prescribes. -/
structure WellTyped (columns : List ResultColumn) (payload : SerializedRowsPayload) : Prop where
  header : payload.columns = columns.map serializeColumn
  keys : ∀ row ∈ payload.data, row.keys = columns.map ResultColumn.key
  cells : ∀ row ∈ payload.data, ∀ column ∈ columns, ∃ cell, row.get? column.key = some cell ∧
    CellConforms column cell

/-! ## What is serialized -/

theorem finiteFloat_of_isFinite {x : Binary64} (h : x.isFinite = true) (column : ResultColumn) :
    finiteFloat x column = .ok (.float x) := if_pos h

theorem finiteFloat_ok {x : Binary64} {column : ResultColumn} {v : PyScalar}
    (h : finiteFloat x column = .ok v) : v = .float x ∧ x.isFinite = true := by
  unfold finiteFloat at h
  split_ifs at h with hfinite
  · exact ⟨(Except.ok.inj h).symm, hfinite⟩
  · cases h

theorem rejectCell_ne_ok (value : CellValue) (column : ResultColumn) (v : PyScalar) :
    rejectCell value column ≠ .ok v := by
  intro h
  unfold rejectCell at h
  split at h
  · split_ifs at h <;> cases h
  · split_ifs at h <;> cases h
  · cases h

theorem enumCell_ok {v w : PyScalar} {column : ResultColumn} (h : enumCell v column = .ok w) :
    w = v ∧ ∃ value ∈ column.enumValues, v.pyEq value = true := by
  unfold enumCell at h
  split_ifs at h with hany
  exact ⟨(Except.ok.inj h).symm, List.any_eq_true.mp hany⟩

theorem hasForm_decimal (column : ResultColumn) (neg : Bool) (coefficient : ℕ) (exponent : ℤ) :
    ∃ cs, jsonText (if column.isMetric then Decimal.serializeAggregate neg coefficient exponent
        else Decimal.text neg coefficient exponent) = jsonText cs ∧ Decimal.IsNumeral cs ∧
      (column.isMetric = true → Decimal.IsMinimalNumeral cs) := by
  refine ⟨_, rfl, ?_⟩
  have hminimal := Decimal.serializeAggregate_isMinimal neg coefficient exponent
  cases hmetric : column.isMetric with
  | true => exact ⟨hminimal.isNumeral, fun _ => hminimal⟩
  | false => exact ⟨Decimal.text_isNumeral neg coefficient exponent, by simp⟩

theorem hasForm_of_normalizePresent {value : CellValue} {column : ResultColumn} {v : PyScalar}
    (h : normalizePresent value column = .ok v) : HasForm column v := by
  unfold normalizePresent at h
  unfold HasForm
  split at h
  case h_18 => exact absurd h (rejectCell_ne_ok _ _ _)
  all_goals
    rename_i htype
    rw [htype]
    dsimp only
  · exact ⟨_, _, (Except.ok.inj h).symm⟩
  · exact ⟨_, (Except.ok.inj h).symm⟩
  · exact ⟨_, _, (Except.ok.inj h).symm⟩
  · split at h
    · exact ⟨_, _, (Except.ok.inj h).symm⟩
    · exact absurd h (rejectCell_ne_ok _ _ _)
  · obtain rfl := Except.ok.inj h
    exact hasForm_decimal column _ _ _
  · cases h
  · cases h
  · obtain ⟨x, -, hx⟩ := bind_eq_ok.mp h
    exact ⟨x, finiteFloat_ok hx⟩
  · exact ⟨_, finiteFloat_ok h⟩
  · exact ⟨_, finiteFloat_ok h⟩
  · cases h
  · exact ⟨_, (Except.ok.inj h).symm⟩
  · exact ⟨_, (Except.ok.inj h).symm⟩
  · exact ⟨_, (Except.ok.inj h).symm⟩
  · exact ⟨_, by assumption, (Except.ok.inj h).symm⟩
  · obtain ⟨rfl, hmem⟩ := enumCell_ok h
    exact ⟨.inl ⟨_, _, rfl⟩, hmem⟩
  · obtain ⟨rfl, hmem⟩ := enumCell_ok h
    exact ⟨.inr ⟨_, _, rfl⟩, hmem⟩

theorem cellConforms_of_normalizeCellValue {value : Option CellValue} {column : ResultColumn}
    {cell : Option PyScalar} (h : normalizeCellValue value column = .ok cell) :
    CellConforms column cell := by
  cases value with
  | none =>
    unfold normalizeCellValue at h
    dsimp only at h
    split_ifs at h with hnullable
    obtain rfl := Except.ok.inj h
    exact hnullable
  | some value =>
    unfold normalizeCellValue at h
    cases hpresent : normalizePresent value column with
    | error e => simp [hpresent, Except.map] at h
    | ok v =>
      obtain rfl : some v = cell := by simpa [hpresent, Except.map] using h
      exact hasForm_of_normalizePresent hpresent

/-! ## Rows of the columns -/

/-- The value is refused by no check of its column. -/
def Fits (column : ResultColumn) (value : Option CellValue) : Prop :=
  ∃ cell, normalizeCellValue value column = .ok cell

theorem columnSpecs_eq {columns : List ResultColumn}
    (h : (columns.map ResultColumn.key).Nodup) :
    columnSpecs columns = columns.map fun column => (column.key, column) := by
  apply Dict.ofEntries_eq_self
  rw [List.map_map]
  exact h

theorem columnSpecs_get? {columns : List ResultColumn}
    (h : (columns.map ResultColumn.key).Nodup) {column : ResultColumn} (hmem : column ∈ columns) :
    (columnSpecs columns).get? column.key = some column := by
  rw [columnSpecs_eq h, Dict.get?_eq_some_iff]
  · exact List.mem_map_of_mem (f := fun column => (column.key, column)) hmem
  · rw [Dict.keys, List.map_map]
    exact h

theorem rowKeysMatch_zip {β : Type} {columns : List ResultColumn} {values : List β}
    (h : columns.length = values.length) :
    rowKeysMatch columns ((columns.map ResultColumn.key).zip values) = true := by
  have hkeys : Dict.keys ((columns.map ResultColumn.key).zip values) =
      columns.map ResultColumn.key := by
    rw [Dict.keys, List.map_fst_zip]
    rw [List.length_map]
    omega
  simp only [rowKeysMatch, hkeys, Bool.and_eq_true, List.all_eq_true, List.contains_iff_mem]
  exact ⟨fun _ h => h, fun _ h => h⟩

theorem serializeRow_zip {columns : List ResultColumn} {values : List (Option CellValue)}
    (hnodup : (columns.map ResultColumn.key).Nodup) (hfits : List.Forall₂ Fits columns values) :
    ∃ cells, serializeRow columns ((columns.map ResultColumn.key).zip values) =
        .ok ((columns.map ResultColumn.key).zip cells) ∧
      List.Forall₂ CellConforms columns cells := by
  have hcells : ∀ declared, (∀ column ∈ declared, column ∈ columns) → ∀ values,
      List.Forall₂ Fits declared values →
      ∃ cells, ((declared.map ResultColumn.key).zip values).mapM (serializeCell columns) =
          .ok ((declared.map ResultColumn.key).zip cells) ∧
        List.Forall₂ CellConforms declared cells := by
    intro declared hdeclared values hfits
    induction hfits with
    | nil => exact ⟨[], rfl, .nil⟩
    | @cons column value declared values hfit _ ih =>
      obtain ⟨cells, hmap, hconform⟩ := ih fun c hc => hdeclared c (by simp [hc])
      obtain ⟨cell, hcell⟩ := hfit
      refine ⟨cell :: cells, ?_, .cons (cellConforms_of_normalizeCellValue hcell) hconform⟩
      have hhead : serializeCell columns (column.key, value) = .ok (column.key, cell) := by
        simp [serializeCell, columnSpecs_get? hnodup (hdeclared column (by simp)), hcell]
      rw [List.map_cons, List.zip_cons_cons, List.mapM_cons, hhead, hmap]
      rfl
  obtain ⟨cells, hmap, hconform⟩ := hcells columns (fun _ h => h) values hfits
  refine ⟨cells, ?_, hconform⟩
  rw [serializeRow, rowKeysMatch_zip hfits.length_eq, hmap]
  rfl

/-- The cell of a column in a row of cells that are paired with the columns. -/
theorem get?_of_forall₂ {β : Type} {P : ResultColumn → β → Prop} {columns : List ResultColumn}
    {cells : List β} (hnodup : (columns.map ResultColumn.key).Nodup)
    (h : List.Forall₂ P columns cells) {column : ResultColumn} (hmem : column ∈ columns) :
    ∃ cell, Dict.get? ((columns.map ResultColumn.key).zip cells) column.key = some cell ∧
      P column cell := by
  induction h with
  | nil => cases hmem
  | @cons first cell columns cells hhead _ ih =>
    rw [List.map_cons, List.nodup_cons] at hnodup
    rw [List.map_cons, List.zip_cons_cons, Dict.get?_cons]
    rcases List.mem_cons.mp hmem with rfl | hrest
    · exact ⟨cell, if_pos rfl, hhead⟩
    · have hne : column.key ≠ first.key := by
        intro hsame
        exact hnodup.1 (hsame ▸ List.mem_map_of_mem hrest)
      rw [if_neg hne]
      exact ih hnodup.2 hrest

/-- Rows whose values fit their columns make a well-typed document. -/
theorem serializeRows_wellTyped {columns : List ResultColumn}
    {rows : List (Dict (Option CellValue))} (hnodup : (columns.map ResultColumn.key).Nodup)
    (hrows : ∀ row ∈ rows, ∃ values, row = (columns.map ResultColumn.key).zip values ∧
      List.Forall₂ Fits columns values) :
    ∃ payload, serializeRows columns rows = .ok payload ∧ WellTyped columns payload := by
  obtain ⟨data, hdata⟩ : ∃ data, rows.mapM (serializeRow columns) = .ok data := by
    apply mapM_ok_iff.mpr
    intro row hrow
    obtain ⟨values, rfl, hfits⟩ := hrows row hrow
    obtain ⟨cells, hcells, -⟩ := serializeRow_zip hnodup hfits
    exact ⟨_, hcells⟩
  have hall : ∀ row ∈ data, ∃ cells, row = (columns.map ResultColumn.key).zip cells ∧
      List.Forall₂ CellConforms columns cells := by
    intro row hrow
    obtain ⟨raw, hraw, hrow⟩ := exists_of_mem_mapM hdata hrow
    obtain ⟨values, rfl, hfits⟩ := hrows raw hraw
    obtain ⟨cells, hcells, hconform⟩ := serializeRow_zip hnodup hfits
    exact ⟨cells, Except.ok.inj (hrow.symm.trans hcells), hconform⟩
  refine ⟨_, by rw [serializeRows, hdata]; rfl, rfl, ?_, ?_⟩
  · intro row hrow
    obtain ⟨cells, rfl, hconform⟩ := hall row hrow
    have hlength := hconform.length_eq
    rw [Dict.keys, List.map_fst_zip]
    rw [List.length_map]
    omega
  · intro row hrow column hcolumn
    obtain ⟨cells, rfl, hconform⟩ := hall row hrow
    exact get?_of_forall₂ hnodup hconform hcolumn

/-! ## Aggregate decimals -/

theorem normalizeCellValue_aggregate {column : ResultColumn} (hdecimal : column.type = .decimal)
    (hmetric : column.isMetric = true) (neg : Bool) (coefficient : ℕ) (exponent : ℤ) :
    normalizeCellValue (some (.decimal (.finite neg coefficient exponent))) column =
      .ok (some (jsonText (Decimal.serializeAggregate neg coefficient exponent))) := by
  simp [normalizeCellValue, normalizePresent, hdecimal, hmetric, Except.map]

theorem jsonText_injective {cs ds : List Char} (h : jsonText cs = jsonText ds) : cs = ds :=
  String.ofList_injective (PyStr.text.inj (PyScalar.str.inj h).2)

/-- In a metric column a finite decimal has one text, which is plain, minimal and no negative zero.
The text is read back as the same number, and every number has one text. -/
theorem aggregate_decimals_one_text (unicode : Unicode) {column : ResultColumn}
    (hdecimal : column.type = .decimal) (hmetric : column.isMetric = true) :
    (∀ neg coefficient exponent, ∃ text : String,
      normalizeCellValue (some (.decimal (.finite neg coefficient exponent))) column =
        .ok (some (.str none text)) ∧
      Decimal.IsMinimalNumeral text.toList ∧ text ≠ "-0" ∧
      ∃ neg' coefficient' exponent',
        decimalParts unicode text = (neg', coefficient', exponent') ∧
        Decimal.value neg' coefficient' exponent' = Decimal.value neg coefficient exponent ∧
        (decimalInRange coefficient exponent = true → decimalKind unicode text = .finite)) ∧
    (∀ neg coefficient exponent neg' coefficient' exponent',
      normalizeCellValue (some (.decimal (.finite neg coefficient exponent))) column =
        normalizeCellValue (some (.decimal (.finite neg' coefficient' exponent'))) column ↔
      Decimal.value neg coefficient exponent = Decimal.value neg' coefficient' exponent') := by
  constructor
  · intro neg coefficient exponent
    refine ⟨_, normalizeCellValue_aggregate hdecimal hmetric neg coefficient exponent, ?_, ?_, ?_⟩
    · rw [String.toList_ofList]
      exact Decimal.serializeAggregate_isMinimal neg coefficient exponent
    · intro hzero
      apply Decimal.serializeAggregate_ne_negative_zero unicode neg coefficient exponent
      exact String.ofList_injective hzero
    · exact Decimal.decimalParts_serializeAggregate unicode neg coefficient exponent
  · intro neg coefficient exponent neg' coefficient' exponent'
    rw [normalizeCellValue_aggregate hdecimal hmetric, normalizeCellValue_aggregate hdecimal hmetric]
    constructor
    · intro h
      apply Decimal.serializeAggregate_injective unicode
      exact jsonText_injective (Option.some.inj (Except.ok.inj h))
    · intro h
      rw [Decimal.serializeAggregate_congr h]

def revenueColumn : ResultColumn where
  key := "revenue"
  label := "Revenue"
  type := .decimal
  nullable := true
  enumValues := []
  isMetric := true

/-- `Decimal("10.50")` and `Decimal("10.5")` are both written as `10.5`. -/
theorem revenue_one_text :
    (∃ text : String, normalizeCellValue (some (.decimal (.finite false 1050 (-2)))) revenueColumn =
        .ok (some (.str none text)) ∧ text ≠ "-0") ∧
    normalizeCellValue (some (.decimal (.finite false 1050 (-2)))) revenueColumn =
      normalizeCellValue (some (.decimal (.finite false 105 (-1)))) revenueColumn := by
  obtain ⟨htext, hsame⟩ :=
    aggregate_decimals_one_text Sample.asciiTables (show revenueColumn.type = .decimal from rfl) rfl
  obtain ⟨text, hcell, -, hzero, -⟩ := htext false 1050 (-2)
  refine ⟨⟨text, hcell, hzero⟩, ?_⟩
  rw [hsame]
  norm_num [Decimal.value]

end AskLens.Results
