import AskLens.Compiler.JoinBudget
import AskLens.Python.PlainDecimals
import Mathlib.Data.List.Nodup

/-!
# Result rows

The runner renames the private aliases of the raw rows to the public column
keys. Group fields and metrics are named independently, so a grouped plan can
give two aliases one key.
-/
namespace AskLens.Execution

open Python Catalog Planning Compiler Checks

variable {β : Type}

def normalizeRow (keyMap : Dict String) (row : Dict β) : Dict β :=
  Dict.ofEntries (row.map fun e => ((keyMap.get? e.1).getD e.1, e.2))

/-- The rows of a `QueryResult` over cells of type `β`. -/
structure QueryResult (β : Type) where
  columns : List ResultColumn
  rows : List (Dict β)
  rowCount : ℕ
  limit : ℤ
  limitScope : LimitScope
  truncated : Bool

/-- `_execute_compiled_query` on the rows that the database returns. -/
def executeCompiledQuery (q : CompiledQuery) (rawRows : List (Dict β)) : QueryResult β :=
  let fetchedRows := rawRows.map (normalizeRow q.keyMap)
  let rows := fetchedRows.take q.limit.toNat
  { columns := q.columns
    rows := rows
    rowCount := rows.length
    limit := q.limit
    limitScope := q.limitScope
    truncated := q.detectsTruncation && decide (q.limit < fetchedRows.length) }

/-- The key comparison of `serialize_row`: two sets. -/
def rowKeysMatch (columns : List ResultColumn) (row : Dict β) : Bool :=
  row.keys.all (columns.map ResultColumn.key).contains &&
    (columns.map ResultColumn.key).all row.keys.contains

/-- The private aliases of the columns, in the order of the columns. -/
def aliases (q : CompiledQuery) : List String := q.values.keys ++ q.annotations.keys

/-- The column keys are distinct, and each returned cell is what the query produced under the
alias of its column. -/
structure LosesNothing (q : CompiledQuery) : Prop where
  keys_nodup : (q.columns.map ResultColumn.key).Nodup
  cells : ∀ (β : Type) (rawRows : List (Dict β)), (∀ raw ∈ rawRows, raw.keys = aliases q) →
    ∀ row ∈ (executeCompiledQuery q rawRows).rows, ∃ raw ∈ rawRows,
      ∀ e ∈ (aliases q).zip q.columns, row.get? e.2.key = raw.get? e.1

/-! ## Renaming -/

theorem renamed_keys {keyMap : Dict String} (h : keyMap.keys.Nodup) {row : Dict β}
    (hrow : row.keys = keyMap.keys) :
    (row.map fun e => ((keyMap.get? e.1).getD e.1, e.2)).map Prod.fst = keyMap.values := by
  have hvalues : ∀ e ∈ keyMap, (keyMap.get? e.1).getD e.1 = e.2 := by
    intro e he
    rw [(Dict.get?_eq_some_iff h).mpr he]
    rfl
  calc (row.map fun e => ((keyMap.get? e.1).getD e.1, e.2)).map Prod.fst
      = row.keys.map fun a => (keyMap.get? a).getD a := by simp [Dict.keys]
    _ = keyMap.map fun e => (keyMap.get? e.1).getD e.1 := by rw [hrow, Dict.keys, List.map_map]; rfl
    _ = keyMap.values := List.map_congr_left hvalues

theorem get?_normalizeRow {keyMap : Dict String} (hfrom : keyMap.keys.Nodup)
    (hto : keyMap.values.Nodup) {row : Dict β} (hrow : row.keys = keyMap.keys)
    {e : String × String} (he : e ∈ keyMap) :
    (normalizeRow keyMap row).get? e.2 = row.get? e.1 := by
  have hkeys := renamed_keys hfrom hrow
  have hnodup : ((row.map fun e => ((keyMap.get? e.1).getD e.1, e.2)).map Prod.fst).Nodup := by
    rw [hkeys]
    exact hto
  have hmem : e.1 ∈ row.keys := by
    rw [hrow]
    exact List.mem_map_of_mem he
  obtain ⟨v, hv⟩ := Option.isSome_iff_exists.mp (Dict.get?_isSome_iff.mpr hmem)
  rw [normalizeRow, Dict.ofEntries_eq_self hnodup, hv, Dict.get?_eq_some_iff hnodup]
  refine List.mem_map.mpr ⟨(e.1, v), Dict.mem_of_get? hv, ?_⟩
  rw [(Dict.get?_eq_some_iff hfrom).mpr he]
  rfl

/-! ## Aliases -/

theorem append_toString_injective (stem : String) :
    Function.Injective fun n : ℕ => stem ++ toString n := by
  intro m n h
  have htext : toString m = toString n := by simpa using h
  have hdigits : Nat.toDigits 10 m = Nat.toDigits 10 n := String.ofList_injective htext
  have hread := congrArg readDigits hdigits
  rw [readDigits_toDigits, readDigits_toDigits] at hread
  exact Option.some.inj hread

theorem groupAlias_ne_metricAlias (i j : ℕ) : groupAlias i ≠ metricAlias j := by
  intro h
  have hchars := congrArg (fun s : String => s.toList[9]?) h
  simp [groupAlias, metricAlias] at hchars

theorem fieldAt_names {env : Environment} {resource : SemanticResource}
    (hr : resource.Registered env) {names : List String} {fields : List FieldSpec}
    (h : names.mapM (fieldAt resource) = .ok fields) : fields.map FieldSpec.name = names := by
  rw [← List.map_id names]
  apply forall₂_map_eq _ (mapM_eq_ok.mp h)
  intro name f hf
  exact (hr.fields_registered _ (Dict.mem_of_get? (fieldAt_ok.mp hf))).name_eq

theorem metricAt_names {env : Environment} {resource : SemanticResource}
    (hr : resource.Registered env) {names : List String} {metrics : List Metric}
    (h : names.mapM (metricAt resource) = .ok metrics) : metrics.map Metric.name = names := by
  rw [← List.map_id names]
  apply forall₂_map_eq _ (mapM_eq_ok.mp h)
  intro name m hm
  exact (hr.metrics_registered _ (Dict.mem_of_get? (metricAt_ok.mp hm))).name_eq

/-! ## The columns of a plan -/

/-- The public names that a plan asks for, in the order of the columns. -/
def publicNames (p : QueryPlan) : List String :=
  match p.intent with
  | .list => p.select
  | .aggregate => p.groupBy.map GroupBySpec.field ++ p.metrics.map MetricSpec.metric

/-- The key map renames the distinct aliases to the column keys, one by one. -/
structure Renames (q : CompiledQuery) (names : List String) : Prop where
  columns : q.columns.map ResultColumn.key = names
  keyMap : q.keyMap = (aliases q).zip names
  aliases_nodup : (aliases q).Nodup
  length : (aliases q).length = names.length

theorem losesNothing_iff {q : CompiledQuery} {names : List String} (h : Renames q names) :
    LosesNothing q ↔ names.Nodup := by
  constructor
  · intro hlossless
    rw [← h.columns]
    exact hlossless.keys_nodup
  · intro hnames
    have hkeys : q.keyMap.keys = aliases q := by
      rw [h.keyMap, Dict.keys, List.map_fst_zip (by rw [h.length])]
    have hvalues : q.keyMap.values = names := by
      rw [h.keyMap, Dict.values, List.map_snd_zip (by rw [h.length])]
    refine ⟨by rw [h.columns]; exact hnames, fun β rawRows hraw row hrow => ?_⟩
    obtain ⟨raw, hmem, rfl⟩ := List.mem_map.mp (List.mem_of_mem_take hrow)
    refine ⟨raw, hmem, fun e he => ?_⟩
    have hentry : (e.1, e.2.key) ∈ q.keyMap := by
      rw [h.keyMap, ← h.columns, List.zip_map_right]
      exact List.mem_map.mpr ⟨e, he, rfl⟩
    refine get?_normalizeRow ?_ ?_ ?_ hentry
    · rw [hkeys]
      exact h.aliases_nodup
    · rw [hvalues]
      exact hnames
    · rw [hkeys]
      exact hraw raw hmem

theorem keys_nil : (Dict.keys ([] : Dict β)) = [] := rfl

theorem renames_of_isListQuery {env : Environment} {graph : Django.ModelGraph}
    {resource : SemanticResource} {p : QueryPlan} {fields : List FieldSpec} {q : CompiledQuery}
    (hr : resource.Registered env) (h : IsListQuery graph resource p fields q) :
    Renames q p.select := by
  have hnames := fieldAt_names hr h.selected
  have hlength : fields.length = p.select.length := by rw [← hnames, List.length_map]
  have haliases : aliases q = (List.range p.select.length).map selectAlias := by
    simp only [h.values, h.annotations, aliases, keys_enumerateAliases, keys_nil, List.append_nil,
      List.length_map, hlength]
  refine ⟨?_, ?_, ?_, ?_⟩
  · rw [h.columns, List.map_map]
    exact hnames
  · rw [haliases, h.keyMap]
    exact enumerateAliases_eq_zip _ _
  · rw [haliases]
    exact List.nodup_range.map (append_toString_injective _)
  · rw [haliases, List.length_map, List.length_range]

/-- The aliases of `n` groups and `m` metrics. -/
def groupedAliases (n m : ℕ) : List String :=
  (List.range n).map groupAlias ++ (List.range m).map metricAlias

theorem nodup_groupedAliases (n m : ℕ) : (groupedAliases n m).Nodup := by
  refine List.nodup_append.mpr ⟨?_, ?_, ?_⟩
  · exact List.nodup_range.map (append_toString_injective _)
  · exact List.nodup_range.map (append_toString_injective _)
  · intro a ha b hb
    obtain ⟨i, -, rfl⟩ := List.mem_map.mp ha
    obtain ⟨j, -, rfl⟩ := List.mem_map.mp hb
    exact groupAlias_ne_metricAlias i j

theorem renames_of_isAggregateQuery {env : Environment} {resource : SemanticResource}
    {p : QueryPlan} {groups : List FieldSpec} {metrics : List Metric} {q : CompiledQuery}
    (hr : resource.Registered env) (h : IsAggregateQuery env resource p groups metrics q) :
    Renames q (p.groupBy.map GroupBySpec.field ++ p.metrics.map MetricSpec.metric) := by
  have hgroupNames : groups.map FieldSpec.name = p.groupBy.map GroupBySpec.field :=
    fieldAt_names hr (by rw [List.mapM_map]; exact h.grouped)
  have hmetricNames : metrics.map Metric.name = p.metrics.map MetricSpec.metric :=
    metricAt_names hr (by rw [List.mapM_map]; exact h.computed)
  have hgroupLength : groups.length = p.groupBy.length := by
    simpa using congrArg List.length hgroupNames
  have hmetricLength : metrics.length = p.metrics.length := by
    simpa using congrArg List.length hmetricNames
  have haliases : aliases q = groupedAliases p.groupBy.length p.metrics.length := by
    simp [aliases, groupedAliases, h.values, h.annotations, keys_enumerateAliases, hgroupLength,
      hmetricLength]
  refine ⟨?_, ?_, ?_, ?_⟩
  · rw [h.columns, List.map_append, List.map_map, List.map_map]
    exact congrArg₂ _ hgroupNames hmetricNames
  · rw [h.keyMap, haliases, groupedAliases, enumerateAliases_eq_zip, enumerateAliases_eq_zip,
      List.zip_append (by simp), List.length_map, List.length_map]
  · rw [haliases]
    exact nodup_groupedAliases _ _
  · rw [haliases]
    simp [groupedAliases]

theorem compiled_renames {env : Environment} {resource : SemanticResource} {p : QueryPlan}
    {now : Clock} {q : CompiledQuery} (hr : resource.Registered env)
    (h : compilePreparedQuery env resource p now = .ok q) : Renames q (publicNames p) := by
  unfold publicNames
  cases hintent : p.intent with
  | list =>
    obtain ⟨-, fields, hquery⟩ := isListQuery_of_compiled hintent h
    exact renames_of_isListQuery hr hquery
  | aggregate =>
    obtain ⟨-, groups, metrics, hquery⟩ := isAggregateQuery_of_compiled hintent h
    exact renames_of_isAggregateQuery hr hquery

theorem list_shape {p : QueryPlan} (hintent : p.intent = .list) (h : validatePlanShape p = .ok ()) :
    p.metrics = [] ∧ p.groupBy = [] := by
  unfold validatePlanShape at h
  simp only [hintent, bind_eq_ok, raiseIf_eq_ok] at h
  obtain ⟨_, -, _, hmetrics, hgroupBy⟩ := h
  exact ⟨not_not.mp hmetrics, not_not.mp hgroupBy⟩

theorem publicNames_nodup_iff {env : Environment} {resource : SemanticResource}
    {limits : PlanLimits} {access : Access} {p : QueryPlan}
    (h : Accepted env resource limits access p) :
    (publicNames p).Nodup ↔ ∀ g ∈ p.groupBy, ∀ m ∈ p.metrics, g.field ≠ m.metric := by
  unfold publicNames
  cases hintent : p.intent with
  | list =>
    obtain ⟨hmetrics, hgroupBy⟩ := list_shape hintent h.shape
    simp [hmetrics, hgroupBy, h.select_nodup]
  | aggregate =>
    simp only [List.nodup_append, h.groupBy_nodup, h.metrics_nodup, true_and,
      List.mem_map, forall_exists_index, and_imp, forall_apply_eq_imp_iff₂]

/-- The result of an accepted plan loses nothing exactly when no group field is named like a
requested metric. -/
theorem accepted_losesNothing_iff {env : Environment} {registry : CatalogRegistry env}
    {limits : PlanLimits} {access : Access} {raw : RawPlan} {p : QueryPlan}
    {resource : SemanticResource} {now : Clock} {q : CompiledQuery}
    (haccepted : parseAndValidateQueryPlan registry limits access raw = .ok p)
    (hresource : registry.get p.resource = .ok resource)
    (hcompiled : compilePreparedQuery env resource p now = .ok q) :
    LosesNothing q ↔ ∀ g ∈ p.groupBy, ∀ m ∈ p.metrics, g.field ≠ m.metric := by
  obtain ⟨r, hr, hregistered, h⟩ := parseAndValidateQueryPlan_ok haccepted
  obtain rfl : r = resource := Except.ok.inj (hr.symm.trans hresource)
  rw [losesNothing_iff (compiled_renames hregistered hcompiled), publicNames_nodup_iff h]

/-- Orders with their status, and a count under `name`. -/
def countedOrders (name : String) : CatalogRegistry Sample.environment :=
  Sample.registryOf
    { Sample.orderArgs [("status", .config (Sample.fieldConfig "status" "string"))] with
      metrics := Sample.metricOf (Sample.countOf name "id") }

theorem countedOrders_losesNothing_iff :
    ∃ resource q, (countedOrders "orders").get "orders" = .ok resource ∧
      compilePreparedQuery Sample.environment resource
        (Sample.aggregatePlan ["status"] ["orders"]) Sample.newYear = .ok q ∧
      (LosesNothing q ↔ ∀ g ∈ (Sample.aggregatePlan ["status"] ["orders"]).groupBy,
        ∀ m ∈ (Sample.aggregatePlan ["status"] ["orders"]).metrics, g.field ≠ m.metric) := by
  have haccepted : Sample.validated (countedOrders "orders") Sample.limits
      (Sample.aggregatePlan ["status"] ["orders"]) =
      .ok (Sample.aggregatePlan ["status"] ["orders"]) := by decide +kernel
  refine ⟨_, _, rfl, rfl, ?_⟩
  have hcompiled : ∀ resource q, compilePreparedQuery Sample.environment resource
      (Sample.aggregatePlan ["status"] ["orders"]) Sample.newYear = .ok q →
      (countedOrders "orders").get "orders" = .ok resource →
      (LosesNothing q ↔ _) := fun _ _ hq hr => accepted_losesNothing_iff haccepted hr hq
  exact hcompiled _ _ rfl rfl

/-- A count named like the grouped field takes its column. -/
theorem count_hides_group :
    ¬ ∀ (env : Environment) (registry : CatalogRegistry env) (limits : PlanLimits)
      (access : Access) (raw : RawPlan) (p : QueryPlan) (resource : SemanticResource)
      (now : Clock) (q : CompiledQuery),
      parseAndValidateQueryPlan registry limits access raw = .ok p →
        registry.get p.resource = .ok resource →
          compilePreparedQuery env resource p now = .ok q → LosesNothing q := by
  intro h
  have haccepted : Sample.validated (countedOrders "status") Sample.limits
      (Sample.aggregatePlan ["status"] ["status"]) =
      .ok (Sample.aggregatePlan ["status"] ["status"]) := by decide +kernel
  have hlossless := h _ _ _ _ _ _ _ Sample.newYear _ haccepted rfl rfl
  exact absurd hlossless.keys_nodup (by decide +kernel)

end AskLens.Execution
