import AskLens.Compiler.Grain

/-!
# Filters as one conjunction

Every `filter` call opens its own joins of to-many relations, and an `exclude`
over one asks for the absence of a related row. As long as no two filters cross
the same to-many relation and `neq` crosses none, the calls keep exactly the
joined rows that satisfy every filter.
-/
namespace AskLens.Compiler

open Python Django Catalog Planning LeftJoin JoinTree Checks

/-! ## What a filter says about a value -/

section

variable {V : Type} (b : Backend V)

/-- The conditions of a filter on the value of its path; `neq` selects the values that are not
null and differ from the operand. -/
def conditionsHold (op : FilterOperator) (conditions : List Condition) (v : Option V) : Bool :=
  match op with
  | .neq => v.isSome && conditions.all fun condition => !condition.holds b v
  | _ => conditions.all fun condition => condition.holds b v

end

section

variable {graph : ModelGraph} {root : ModelName} {R V : Type}

/-- A joined row satisfies a filter of the plan. -/
def filterHolds (resource : SemanticResource) (now : Clock) (db : Database graph root R V)
    (b : Backend V) (x : FilterSpec) (c : QueryRow R) : Bool :=
  match resource.fields.get? x.field with
  | none => false
  | some field =>
    match buildFilterQ field resource.timezone now x with
    | .ok conditions => conditionsHold b x.op conditions (db.readExpression [] field.binding c)
    | .error _ => false

end

def filterPaths (resource : SemanticResource) (filters : List FilterSpec) : List String :=
  filters.filterMap fun x => (resource.fields.get? x.field).map FieldSpec.binding

/-- The joined rows that the filters choose from: the paths of the filters and of the other
clauses are joined once each. -/
def CompiledQuery.combinations {graph : ModelGraph} {root : ModelName} {R V : Type}
    (q : CompiledQuery) (resource : SemanticResource) (filters : List FilterSpec)
    (db : Database graph root R V) (b : Backend V) : List (QueryRow R) :=
  db.queryRows b [] (filterPaths resource filters ++ q.readPaths)

/-! ## One filter -/

/-- The field of a filter and the conditions that it compiles to. -/
def CompilesTo (resource : SemanticResource) (now : Clock) (x : FilterSpec) (field : FieldSpec)
    (conditions : List Condition) : Prop :=
  resource.fields.get? x.field = some field ∧
    buildFilterQ field resource.timezone now x = .ok conditions

theorem applyFilter_ok {graph : ModelGraph} {resource : SemanticResource} {now : Clock}
    {x : FilterSpec} {calls : List FilterCall} (h : applyFilter graph resource now x = .ok calls) :
    ∃ field conditions, CompilesTo resource now x field conditions ∧
      calls = filterCalls x field.binding conditions := by
  obtain ⟨field, hfield, h⟩ := bind_eq_ok.mp h
  obtain ⟨conditions, hconditions, h⟩ := bind_eq_ok.mp h
  obtain ⟨_, -, h⟩ := bind_eq_ok.mp h
  exact ⟨field, conditions, ⟨fieldAt_ok.mp hfield, hconditions⟩, (Except.ok.inj h).symm⟩

theorem buildFilterQ_ne_nil {field : FieldSpec} {zone : Python.ZoneInfo} {now : Clock}
    {x : FilterSpec} {conditions : List Condition}
    (h : buildFilterQ field zone now x = .ok conditions) : conditions ≠ [] := by
  rcases buildFilterQ_cases h with ⟨start, stop, rfl⟩ | ⟨lookup, operand, rfl⟩
  · simp [windowConditions]
  · simp

section

variable {graph : ModelGraph} {root : ModelName} {R V : Type} {db : Database graph root R V}
  {b : Backend V} {opened : List TableAlias} {paths : List String}

theorem passes_append (calls rest : List FilterCall) (c : QueryRow R) :
    db.passes b opened (calls ++ rest) c =
      (db.passes b opened calls c &&
        db.passes b (calls.foldl (openCall graph root) opened) rest c) := by
  induction calls generalizing opened with
  | nil => rfl
  | cons call calls ih =>
    simp only [List.cons_append, Database.passes, List.foldl_cons]
    rw [ih, Bool.and_assoc]

/-- The value that a filter call reads through joins that are opened once. -/
theorem readPath_of_opensOnce (h : OpensOnce graph root opened paths) {path : String}
    {fresh : Bool} (hnew : fresh = true → ∀ hops hop, CrossesToMany graph root path hops hop →
      TableAlias.reach false [] (hops ++ [hop]) ∉ opened) (c : QueryRow R) :
    db.readPath fresh opened path c = db.readExpression [] path c := by
  have hreach : TableAlias.reach fresh opened (hopsOf graph root path) =
      TableAlias.reach false [] (hopsOf graph root path) :=
    h.reach fun hf hops hop hmany hpart => hnew hf hops hop ⟨hmany, hpart⟩
  unfold Database.readExpression Database.readPath
  show db.readAt c (TableAlias.reach fresh opened (hopsOf graph root path)) _ = _
  rw [hreach]
  rfl

theorem isnull_false_holds (path : String) (v : Option V) :
    Condition.holds b ⟨path, .isnull, .one (.scalar (.bool false))⟩ v = v.isSome := by
  cases v <;> simp [Condition.holds]

/-- A `filter` call over relations that are not joined yet tests its conditions on the joined row,
and opens the joins of its path. -/
theorem passes_filterCall (h : OpensOnce graph root opened paths) {path : String}
    {conditions : List Condition} (hpath : ∀ condition ∈ conditions, condition.path = path)
    (hsome : conditions ≠ [])
    (hnew : ∀ hops hop, CrossesToMany graph root path hops hop →
      TableAlias.reach false [] (hops ++ [hop]) ∉ opened) :
    OpensOnce graph root (openCall graph root opened (.filter conditions)) (paths ++ [path]) ∧
      ∀ c, db.callHolds b opened c (.filter conditions) =
        conditions.all fun condition => condition.holds b (db.readExpression [] path c) := by
  constructor
  · apply h.snoc
    intro a
    have haliases : a ∈ pathAliases graph root true opened path ↔ _ :=
      h.mem_pathAliases fun _ => hnew
    rw [← haliases, List.mem_flatMap]
    constructor
    · rintro ⟨condition, hcondition, ha⟩
      rwa [hpath condition hcondition] at ha
    · intro ha
      obtain ⟨condition, hcondition⟩ := List.exists_mem_of_ne_nil _ hsome
      exact ⟨condition, hcondition, by rwa [hpath condition hcondition]⟩
  · intro c
    simp only [Database.callHolds]
    rw [Bool.eq_iff_iff, List.all_eq_true, List.all_eq_true]
    refine forall₂_congr fun condition hcondition => ?_
    rw [hpath condition hcondition, readPath_of_opensOnce h (fun _ => hnew)]

/-- `exclude` calls over joined to-one relations refuse the rows that meet a condition. -/
theorem passes_excludes (h : OpensOnce graph root opened paths) {path : String}
    {conditions : List Condition} (hmem : path ∈ paths)
    (hpath : ∀ condition ∈ conditions, condition.path = path)
    (hone : crossesToMany graph root path = false) :
    OpensOnce graph root ((conditions.map .exclude).foldl (openCall graph root) opened) paths ∧
      ∀ c, db.passes b opened (conditions.map .exclude) c =
        conditions.all fun condition => !condition.holds b (db.readExpression [] path c) := by
  have hnew : ∀ hops hop, CrossesToMany graph root path hops hop →
      ∀ opened : List TableAlias, TableAlias.reach false [] (hops ++ [hop]) ∉ opened := by
    intro hops hop hcrosses
    rw [crossesToMany_iff.mpr ⟨hops, hop, hcrosses⟩] at hone
    cases hone
  induction conditions generalizing opened with
  | nil => exact ⟨h, fun _ => rfl⟩
  | cons condition conditions ih =>
    have hhere : condition.path = path := hpath condition (by simp)
    have hstep : OpensOnce graph root (openCall graph root opened (.exclude condition)) paths := by
      rw [openCall_exclude, hhere, hone]
      have hagain : OpensOnce graph root
          (openAliases opened (pathAliases graph root true opened path)) (paths ++ [path]) :=
        h.snoc fun a => h.mem_pathAliases fun _ hops hop hcrosses => hnew hops hop hcrosses _
      refine hagain.congr fun path' => ?_
      · rw [List.mem_append, List.mem_singleton]
        constructor
        · rintro (hpath' | rfl)
          · exact hpath'
          · exact hmem
        · exact .inl
    obtain ⟨hopened, hpasses⟩ := ih hstep fun condition' h' => hpath condition' (by simp [h'])
    refine ⟨hopened, fun c => ?_⟩
    rw [List.map_cons, List.all_cons, ← hpasses c]
    simp only [Database.passes, Database.callHolds]
    rw [hhere, if_neg (by rw [hone]; exact Bool.false_ne_true),
      readPath_of_opensOnce h fun _ hops hop hcrosses => hnew hops hop hcrosses _]

theorem passes_filterCalls (h : OpensOnce graph root opened paths) {x : FilterSpec} {path : String}
    {conditions : List Condition} (hpath : ∀ condition ∈ conditions, condition.path = path)
    (hsome : conditions ≠ [])
    (hneq : x.op = .neq → crossesToMany graph root path = false)
    (hnew : ∀ hops hop, CrossesToMany graph root path hops hop →
      TableAlias.reach false [] (hops ++ [hop]) ∉ opened) :
    OpensOnce graph root ((filterCalls x path conditions).foldl (openCall graph root) opened)
        (paths ++ [path]) ∧
      ∀ c, db.passes b opened (filterCalls x path conditions) c =
        conditionsHold b x.op conditions (db.readExpression [] path c) := by
  by_cases hop : x.op = .neq
  · have hcalls : filterCalls x path conditions =
        .filter [⟨path, .isnull, .one (.scalar (.bool false))⟩] :: conditions.map .exclude := by
      unfold filterCalls
      rw [hop]
    have hnonnull : OpensOnce graph root (openCall graph root opened
          (.filter [⟨path, .isnull, .one (.scalar (.bool false))⟩])) (paths ++ [path]) ∧
        ∀ c, db.callHolds b opened c (.filter [⟨path, .isnull, .one (.scalar (.bool false))⟩]) =
          _ := passes_filterCall h (by simp) (by simp) hnew
    obtain ⟨hopened, hholds⟩ := hnonnull
    have hrest : _ ∧ ∀ c, db.passes b _ (conditions.map .exclude) c = _ :=
      passes_excludes hopened (by simp) hpath (hneq hop)
    obtain ⟨hexcluded, hpasses⟩ := hrest
    rw [hcalls]
    refine ⟨hexcluded, fun c => ?_⟩
    simp only [Database.passes, hholds, hpasses, conditionsHold, hop, List.all_cons, List.all_nil,
      Bool.and_true, isnull_false_holds]
  · have hcalls : filterCalls x path conditions = [.filter conditions] := by
      unfold filterCalls
      split
      · exact absurd ‹_› hop
      · rfl
    have hcall : _ ∧ ∀ c, db.callHolds b opened c (.filter conditions) = _ :=
      passes_filterCall h hpath hsome hnew
    obtain ⟨hopened, hholds⟩ := hcall
    rw [hcalls]
    refine ⟨hopened, fun c => ?_⟩
    simp only [Database.passes, hholds, Bool.and_true]
    unfold conditionsHold
    split
    · exact absurd ‹_› hop
    · rfl

end

/-! ## All filters -/

/-- No two filters cross the same to-many relation, and `neq` crosses none. -/
structure FiltersApart (graph : ModelGraph) (resource : SemanticResource)
    (filters : List FilterSpec) : Prop where
  neq : ∀ x ∈ filters, x.op = .neq → ∀ f, resource.fields.get? x.field = some f →
    crossesToMany graph resource.model f.binding = false
  apart : filters.Pairwise fun x y => ∀ f g, resource.fields.get? x.field = some f →
    resource.fields.get? y.field = some g → ∀ hops hop,
      CrossesToMany graph resource.model f.binding hops hop →
        ¬ CrossesToMany graph resource.model g.binding hops hop

theorem FiltersApart.sublist {graph : ModelGraph} {resource : SemanticResource}
    {filters filters' : List FilterSpec} (h : FiltersApart graph resource filters)
    (hsub : filters'.Sublist filters) : FiltersApart graph resource filters' :=
  ⟨fun x hx => h.neq x (hsub.subset hx), h.apart.sublist hsub⟩

theorem FiltersApart.perm {graph : ModelGraph} {resource : SemanticResource}
    {filters filters' : List FilterSpec} (h : FiltersApart graph resource filters)
    (hperm : filters'.Perm filters) : FiltersApart graph resource filters' := by
  refine ⟨fun x hx => h.neq x (hperm.subset hx), (List.Perm.pairwise_iff ?_ hperm).mpr h.apart⟩
  intro x y hxy g f hg hf hops hop hcrosses hcrosses'
  exact hxy f g hf hg hops hop hcrosses' hcrosses

section

variable {graph : ModelGraph} {resource : SemanticResource} {R V : Type}
  {db : Database graph resource.model R V} {b : Backend V} {now : Clock}

theorem filterHolds_of_compilesTo {x : FilterSpec} {field : FieldSpec} {conditions : List Condition}
    (h : CompilesTo resource now x field conditions) (c : QueryRow R) :
    filterHolds resource now db b x c =
      conditionsHold b x.op conditions (db.readExpression [] field.binding c) := by
  unfold filterHolds
  rw [h.1]
  dsimp only
  rw [h.2]

/-- The calls of the filters keep the joined rows that satisfy every filter. -/
theorem passes_applyFilters {xs : List FilterSpec} {parts : List (List FilterCall)}
    {opened : List TableAlias} {paths : List String}
    (hparts : List.Forall₂ (fun x part => applyFilter graph resource now x = .ok part) xs parts)
    (hapart : FiltersApart graph resource xs)
    (hopened : OpensOnce graph resource.model opened paths)
    (hnew : ∀ x ∈ xs, ∀ f, resource.fields.get? x.field = some f → ∀ hops hop,
      CrossesToMany graph resource.model f.binding hops hop →
        ∀ path ∈ paths, ¬ hops ++ [hop] <+: hopsOf graph resource.model path) :
    OpensOnce graph resource.model (parts.flatten.foldl (openCall graph resource.model) opened)
        (paths ++ filterPaths resource xs) ∧
      ∀ c, db.passes b opened parts.flatten c =
        xs.all fun x => filterHolds resource now db b x c := by
  induction hparts generalizing opened paths with
  | nil => exact ⟨by simpa [filterPaths] using hopened, fun _ => rfl⟩
  | @cons x part xs parts hpart _ ih =>
    obtain ⟨f, conditions, ⟨hf, hconditions⟩, rfl⟩ := applyFilter_ok hpart
    have hhere : _ ∧ ∀ c, db.passes b opened (filterCalls x f.binding conditions) c = _ :=
      passes_filterCalls hopened (buildFilterQ_path hconditions) (buildFilterQ_ne_nil hconditions)
        (fun hop => hapart.neq x (by simp) hop f hf)
        fun hops hop hcrosses => hopened.not_mem (hnew x (by simp) f hf hops hop hcrosses)
    obtain ⟨hopened', hpasses⟩ := hhere
    have hapart' := List.pairwise_cons.mp hapart.apart
    have hrest := ih ⟨fun y hy => hapart.neq y (by simp [hy]), hapart'.2⟩ hopened' ?_
    · obtain ⟨hopened'', hpasses'⟩ := hrest
      refine ⟨?_, fun c => ?_⟩
      · rw [List.flatten_cons, List.foldl_append]
        have hfilterPaths : filterPaths resource (x :: xs) =
            [f.binding] ++ filterPaths resource xs := by
          simp [filterPaths, hf]
        rw [hfilterPaths, ← List.append_assoc]
        exact hopened''
      · rw [List.flatten_cons, passes_append, hpasses, hpasses', List.all_cons]
        rw [filterHolds_of_compilesTo ⟨hf, hconditions⟩]
    · intro y hy g hg hops hop hcrosses path hpath hpart
      rcases List.mem_append.mp hpath with hpath | hpath
      · exact hnew y (by simp [hy]) g hg hops hop hcrosses path hpath hpart
      · obtain rfl := List.mem_singleton.mp hpath
        exact hapart'.1 y hy f g hf hg hops hop ⟨hcrosses.1, hpart⟩ hcrosses

/-- Apart filters keep the combinations that satisfy each of them. -/
theorem queryRows_perm_of_apart {xs : List FilterSpec} {calls : List FilterCall}
    {paths : List String} (hcalls : applyFilters graph resource now xs = .ok calls)
    (hapart : FiltersApart graph resource xs) :
    (db.queryRows b calls paths).Perm
      ((db.queryRows b [] (filterPaths resource xs ++ paths)).filter fun c =>
        xs.all fun x => filterHolds resource now db b x c) := by
  obtain ⟨parts, hparts, hflatten⟩ := bind_eq_ok.mp hcalls
  obtain rfl := Except.ok.inj hflatten
  have hstart : OpensOnce graph resource.model [] [] := opensOnce_nil _ _
  have hall : _ ∧ ∀ c, db.passes b [] parts.flatten c = _ :=
    passes_applyFilters (mapM_eq_ok.mp hparts) hapart hstart (by simp)
  obtain ⟨hopened, hpasses⟩ := hall
  rw [List.nil_append] at hopened
  have hread : ∀ a path, a ∈ pathAliases graph resource.model false
      (filterAliases graph resource.model parts.flatten) path ↔
      a ∈ pathAliases graph resource.model false [] path := by
    intro a path
    rw [mem_pathAliases_nil]
    exact hopened.mem_pathAliases (by simp)
  have haliases : ∀ a, a ∈ queryAliases graph resource.model parts.flatten paths ↔
      a ∈ queryAliases graph resource.model [] (filterPaths resource xs ++ paths) := by
    intro a
    unfold queryAliases
    rw [mem_openAliases, mem_openAliases, List.flatMap_append, List.mem_append]
    have hfilters : a ∈ filterAliases graph resource.model parts.flatten ↔
        a ∈ (filterPaths resource xs).flatMap (pathAliases graph resource.model false []) := by
      rw [filterAliases, hopened.mem, List.mem_flatMap]
      simp only [mem_pathAliases_nil]
    have hpaths : a ∈ paths.flatMap (pathAliases graph resource.model false
          (filterAliases graph resource.model parts.flatten)) ↔
        a ∈ paths.flatMap (pathAliases graph resource.model false []) := by
      rw [List.mem_flatMap, List.mem_flatMap]
      simp only [hread]
    rw [hfilters, hpaths]
    simp [filterAliases]
  have hrows := rows_perm (grounded_queryAliases db parts.flatten paths)
    (grounded_queryAliases db [] (filterPaths resource xs ++ paths)) (nodup_zipIdx db.table) haliases
  have hsame : (fun c => xs.all fun x => filterHolds resource now db b x c) =
      db.passes b [] parts.flatten := by
    funext c
    exact (hpasses c).symm
  rw [hsame]
  unfold Database.queryRows
  refine (hrows.filter _).trans (List.Perm.of_eq ?_)
  simp [Database.passes]

theorem mem_filterPaths {xs : List FilterSpec} {path : String} :
    path ∈ filterPaths resource xs ↔
      ∃ x ∈ xs, ∃ f, resource.fields.get? x.field = some f ∧ f.binding = path := by
  simp [filterPaths, List.mem_filterMap]

theorem filterPaths_subset {xs ys : List FilterSpec} (h : xs ⊆ ys) :
    filterPaths resource xs ⊆ filterPaths resource ys := by
  intro path hpath
  obtain ⟨x, hx, f, hf, rfl⟩ := mem_filterPaths.mp hpath
  exact mem_filterPaths.mpr ⟨x, h hx, f, hf, rfl⟩

/-- Whether a combination satisfies filters is decided by the joins of their paths. -/
theorem dependsOn_filterHolds {xs : List FilterSpec} {paths : List String}
    (hpaths : filterPaths resource xs ⊆ paths) :
    DependsOn (db.joinTree.root :: queryAliases graph resource.model [] paths) fun c =>
      xs.all fun x => filterHolds resource now db b x c := by
  intro c c' hagree
  rw [Bool.eq_iff_iff, List.all_eq_true, List.all_eq_true]
  refine forall₂_congr fun x hx => ?_
  unfold filterHolds
  cases hf : resource.fields.get? x.field with
  | none => exact Iff.rfl
  | some f =>
    have hread : db.readExpression [] f.binding c = db.readExpression [] f.binding c' :=
      dependsOn_readExpression (hpaths (mem_filterPaths.mpr ⟨x, hx, f, hf, rfl⟩)) c c' hagree
    dsimp only
    rw [hread]

end

/-! ## The filters of a plan -/

/-- A clause other than the filters reads the path. -/
def ReadBesides (resource : SemanticResource) (p : QueryPlan) (path : String) : Prop :=
  match p.intent with
  | .list => OrdersBy resource p path ∨
      ∃ name ∈ p.select, ∃ f, resource.fields.get? name = some f ∧ path = f.binding
  | .aggregate =>
    (∃ g ∈ p.groupBy, ∃ f, resource.fields.get? g.field = some f ∧ path = f.binding) ∨
      ∃ spec ∈ p.metrics, ∃ m, resource.metrics.get? spec.metric = some m ∧
        path = (buildAggregate m).path

theorem mem_readPaths_of_readBesides {env : Environment} {resource : SemanticResource}
    {p : QueryPlan} {now : Clock} {q : CompiledQuery} {path : String}
    (hcompiled : compilePreparedQuery env resource p now = .ok q)
    (h : ReadBesides resource p path) : path ∈ q.readPaths := by
  unfold ReadBesides at h
  unfold CompiledQuery.readPaths
  cases hintent : p.intent with
  | list =>
    rw [hintent] at h
    obtain ⟨hshape, -⟩ := compiledList hintent hcompiled
    rcases h with hordered | ⟨name, hname, f, hf, rfl⟩
    · apply List.mem_append_right
      rw [CompiledQuery.orderingPaths, hshape.limitScope]
      exact (mem_buildListOrdering_iff hshape.ordering).mpr hordered
    · obtain ⟨fields, hfields, hvalues⟩ := hshape.values
      obtain ⟨f', hf', hfield⟩ := exists_result_of_mapM hfields hname
      obtain rfl : f' = f := Option.some.inj ((fieldAt_ok.mp hfield).symm.trans hf)
      apply List.mem_append_left
      apply List.mem_append_left
      rw [hvalues, List.map_map]
      exact List.mem_map_of_mem (f := Expression.path ∘ fun f : FieldSpec => .f f.binding) hf'
  | aggregate =>
    rw [hintent] at h
    obtain ⟨hshape, -⟩ := compiledAggregate hintent hcompiled
    apply List.mem_append_left
    rcases h with ⟨g, hg, f, hf, rfl⟩ | ⟨spec, hspec, m, hm, rfl⟩
    · obtain ⟨groupFields, hgroups, hvalues⟩ := hshape.groups
      apply List.mem_append_left
      rw [hvalues, values_enumerateAliases, List.map_map]
      obtain ⟨i, hi⟩ := List.mem_iff_getElem?.mp hg
      obtain ⟨f', hindex, hfield⟩ := getElem?_of_mapM hgroups hi
      obtain rfl : f' = f := Option.some.inj ((fieldAt_ok.mp hfield).symm.trans hf)
      have hzip : (f', g) ∈ groupFields.zip p.groupBy :=
        List.mem_of_getElem? (List.getElem?_zip_eq_some.mpr ⟨hindex, hi⟩)
      exact List.mem_map.mpr ⟨(f', g), hzip, buildDateTruncExpression_path _ _ _ _⟩
    · obtain ⟨metrics, hmetrics, hannotations⟩ := hshape.metrics
      obtain ⟨m', hm', hmetric⟩ := exists_result_of_mapM hmetrics hspec
      obtain rfl : m' = m := Option.some.inj ((metricAt_ok.mp hmetric).symm.trans hm)
      apply List.mem_append_right
      rw [hannotations, values_enumerateAliases, List.map_map]
      exact List.mem_map_of_mem (f := Aggregate.path ∘ buildAggregate) hm'

/-- The plan compiles with other filters to the same query on other rows. -/
theorem compile_filters {env : Environment} {resource : SemanticResource} {p : QueryPlan}
    {now : Clock} {q : CompiledQuery} {xs : List FilterSpec} {calls : List FilterCall}
    (h : compilePreparedQuery env resource p now = .ok q)
    (hcalls : applyFilters env.graph resource now xs = .ok calls) :
    compilePreparedQuery env resource { p with filters? := some xs } now =
      .ok { q with calls := calls } := by
  obtain ⟨calls', -, h⟩ := bind_eq_ok.mp h
  refine bind_eq_ok.mpr ⟨calls, hcalls, ?_⟩
  show (match p.intent with
    | .list => compileListQuery env.graph resource { p with filters? := some xs } calls
    | .aggregate => compileAggregateQuery env resource { p with filters? := some xs } calls) = _
  cases hintent : p.intent with
  | list =>
    rw [hintent] at h
    simp only [compileListQuery, bind_eq_ok] at h
    obtain ⟨fields, hfields, _, hvalues, ordering, hordering, _, hresolved, h⟩ := h
    obtain rfl := Except.ok.inj h
    exact bind_eq_ok.mpr ⟨fields, hfields, bind_eq_ok.mpr ⟨(), hvalues,
      bind_eq_ok.mpr ⟨ordering, hordering, bind_eq_ok.mpr ⟨(), hresolved, rfl⟩⟩⟩⟩
  | aggregate =>
    rw [hintent] at h
    simp only [compileAggregateQuery, bind_eq_ok] at h
    obtain ⟨groupFields, hgroups, metrics, hmetrics, h⟩ := h
    refine bind_eq_ok.mpr ⟨groupFields, hgroups, bind_eq_ok.mpr ⟨metrics, hmetrics, ?_⟩⟩
    show (if p.groupBy = [] then _ else _) = _
    split_ifs at h with hempty
    · obtain rfl := Except.ok.inj h
      rw [if_pos hempty]
      rfl
    · simp only [bind_eq_ok] at h
      obtain ⟨_, hvalues, _, hpaths, ordering, hordering, h⟩ := h
      obtain rfl := Except.ok.inj h
      rw [if_neg hempty]
      exact bind_eq_ok.mpr ⟨(), hvalues, bind_eq_ok.mpr ⟨(), hpaths,
        bind_eq_ok.mpr ⟨ordering, hordering, rfl⟩⟩⟩

theorem applyFilters_of_compiled {env : Environment} {resource : SemanticResource} {p : QueryPlan}
    {now : Clock} {q : CompiledQuery} (h : compilePreparedQuery env resource p now = .ok q) :
    applyFilters env.graph resource now p.filters = .ok q.calls := by
  cases hintent : p.intent with
  | list => exact (compiledList hintent h).2
  | aggregate => exact (compiledAggregate hintent h).2

theorem applyFilters_subset {graph : ModelGraph} {resource : SemanticResource} {now : Clock}
    {xs ys : List FilterSpec} {calls : List FilterCall}
    (h : applyFilters graph resource now xs = .ok calls) (hsub : ys ⊆ xs) :
    ∃ calls', applyFilters graph resource now ys = .ok calls' := by
  obtain ⟨parts, hparts, -⟩ := bind_eq_ok.mp h
  obtain ⟨parts', hparts'⟩ : ∃ parts', ys.mapM (applyFilter graph resource now) = .ok parts' := by
    rw [mapM_ok_iff]
    intro y hy
    obtain ⟨part, -, hpart⟩ := exists_result_of_mapM hparts (hsub hy)
    exact ⟨part, hpart⟩
  exact ⟨parts'.flatten, bind_eq_ok.mpr ⟨parts', hparts', rfl⟩⟩

/-- The filters of the plan are one conjunction on the combinations that they choose from: in any
order they select the same ones, and fewer filters select no fewer. -/
structure FiltersConjunction (env : Environment) (resource : SemanticResource) (p : QueryPlan)
    (now : Clock) (q : CompiledQuery) : Prop where
  selects : ∀ (R V : Type) (db : Database env.graph resource.model R V) (b : Backend V),
    (q.rows db b).Perm ((q.combinations resource p.filters db b).filter fun c =>
      p.filters.all fun x => filterHolds resource now db b x c)
  reordered : ∀ xs : List FilterSpec, xs.Perm p.filters → ∃ q',
    compilePreparedQuery env resource { p with filters? := some xs } now = .ok q' ∧
      ∀ (R V : Type) (db : Database env.graph resource.model R V) (b : Backend V),
        (q'.rows db b).Perm (q.rows db b)
  narrows : ∀ xs : List FilterSpec, xs.Sublist p.filters → ∃ q',
    compilePreparedQuery env resource { p with filters? := some xs } now = .ok q' ∧
      ∀ (R V : Type) (db : Database env.graph resource.model R V) (b : Backend V),
        (q.rows db b).length ≤ (q'.rows db b).length
  partition : ∀ x ∈ p.filters, x.op = .eq ∨ x.op = .neq → ∀ f,
    resource.fields.get? x.field = some f →
      ∀ (R V : Type) (db : Database env.graph resource.model R V) (b : Backend V) (c : QueryRow R),
        (db.readExpression [] f.binding c).isSome =
            (filterHolds resource now db b { x with op := .eq } c ||
              filterHolds resource now db b { x with op := .neq } c) ∧
          (filterHolds resource now db b { x with op := .eq } c &&
            filterHolds resource now db b { x with op := .neq } c) = false

/-- Every to-many relation of a filter is crossed by another clause, too. -/
def FiltersCovered (graph : ModelGraph) (resource : SemanticResource) (p : QueryPlan) : Prop :=
  ∀ x ∈ p.filters, ∀ f, resource.fields.get? x.field = some f → ∀ hops hop,
    CrossesToMany graph resource.model f.binding hops hop →
      ∃ path, ReadBesides resource p path ∧ CrossesToMany graph resource.model path hops hop

section

variable {graph : ModelGraph} {resource : SemanticResource} {R V : Type}
  {db : Database graph resource.model R V} {b : Backend V} {now : Clock}

/-- `eq` and `neq` with one operand split the rows whose value is not null. -/
theorem filterHolds_partition {x : FilterSpec} {f : FieldSpec} {part : List FilterCall}
    (hop : x.op = .eq ∨ x.op = .neq) (hf : resource.fields.get? x.field = some f)
    (happly : applyFilter graph resource now x = .ok part) (c : QueryRow R) :
    (db.readExpression [] f.binding c).isSome =
        (filterHolds resource now db b { x with op := .eq } c ||
          filterHolds resource now db b { x with op := .neq } c) ∧
      (filterHolds resource now db b { x with op := .eq } c &&
        filterHolds resource now db b { x with op := .neq } c) = false := by
  obtain ⟨f', conditions, ⟨hf', hconditions⟩, -⟩ := applyFilter_ok happly
  obtain rfl : f' = f := Option.some.inj (hf'.symm.trans hf)
  have heq : buildFilterQ f' resource.timezone now { x with op := .eq } = .ok conditions := by
    rw [← hconditions]
    unfold buildFilterQ
    rcases hop with hop | hop
    · rw [hop]
    · rw [hop]
      rfl
  have hneq : buildFilterQ f' resource.timezone now { x with op := .neq } = .ok conditions := heq
  have hexact : ∃ operand, conditions = [⟨f'.binding, .exact, operand⟩] := by
    obtain ⟨operand, -, h⟩ := bind_eq_ok.mp heq
    exact ⟨operand, (Except.ok.inj h).symm⟩
  obtain ⟨operand, rfl⟩ := hexact
  have hcompilesEq : CompilesTo resource now { x with op := .eq } f' _ := ⟨hf, heq⟩
  have hcompilesNeq : CompilesTo resource now { x with op := .neq } f' _ := ⟨hf, hneq⟩
  rw [filterHolds_of_compilesTo hcompilesEq, filterHolds_of_compilesTo hcompilesNeq]
  cases db.readExpression [] f'.binding c <;> simp [conditionsHold, Condition.holds]

/-- The order of the filters does not change what they choose from. -/
theorem combinations_perm {xs ys : List FilterSpec} {paths : List String} (h : xs.Perm ys) :
    (db.queryRows b [] (filterPaths resource xs ++ paths)).Perm
      (db.queryRows b [] (filterPaths resource ys ++ paths)) := by
  have haliases : ∀ a, a ∈ queryAliases graph resource.model [] (filterPaths resource xs ++ paths) ↔
      a ∈ queryAliases graph resource.model [] (filterPaths resource ys ++ paths) := by
    intro a
    unfold queryAliases
    rw [mem_openAliases, mem_openAliases]
    have hpaths : (filterPaths resource xs ++ paths).Perm (filterPaths resource ys ++ paths) :=
      (h.filterMap _).append_right _
    rw [(hpaths.flatMap_right _).mem_iff]
  exact (rows_perm (grounded_queryAliases db _ _) (grounded_queryAliases db _ _)
    (nodup_zipIdx db.table) haliases).filter _

/-- Where other clauses cross the to-many relations of all filters, the joins of the filters that
are left out repeat no combination. -/
theorem combinations_sublist {xs ys : List FilterSpec} {paths : List String} (hsub : ys ⊆ xs)
    (hcovered : ∀ path ∈ filterPaths resource xs, ∀ hops hop,
      CrossesToMany graph resource.model path hops hop →
        ∃ path' ∈ paths, CrossesToMany graph resource.model path' hops hop)
    {P : QueryRow R → Bool}
    (hP : DependsOn (db.joinTree.root ::
      queryAliases graph resource.model [] (filterPaths resource ys ++ paths)) P) :
    ((db.queryRows b [] (filterPaths resource xs ++ paths)).filter P).length =
      ((db.queryRows b [] (filterPaths resource ys ++ paths)).filter P).length := by
  have hpaths : filterPaths resource ys ++ paths ⊆ filterPaths resource xs ++ paths :=
    List.append_subset.mpr ⟨List.subset_append_of_subset_left _ (filterPaths_subset hsub),
      List.subset_append_right _ _⟩
  have haliases : queryAliases graph resource.model [] (filterPaths resource ys ++ paths) ⊆
      queryAliases graph resource.model [] (filterPaths resource xs ++ paths) := by
    intro a ha
    unfold queryAliases at ha ⊢
    rw [mem_openAliases, List.mem_flatMap] at ha ⊢
    rcases ha with ha | ⟨path, hpath, hchain⟩
    · exact .inl ha
    · exact .inr ⟨path, hpaths hpath, hchain⟩
  have hone : ∀ a ∈ queryAliases graph resource.model [] (filterPaths resource xs ++ paths),
      a ∉ queryAliases graph resource.model [] (filterPaths resource ys ++ paths) →
        ∀ r, (db.joinTree.related a r).length ≤ 1 := by
    intro a ha hnew r
    refine toOne_of_not_mem_queryAliases (fun path hpath hops hop hcrosses => ?_) ha hnew r
    rcases List.mem_append.mp hpath with hfilter | hread
    · obtain ⟨path', hpath', hcrosses'⟩ := hcovered path hfilter hops hop hcrosses
      exact ⟨path', List.mem_append_right _ hpath', hcrosses'⟩
    · exact ⟨path, List.mem_append_right _ hread, hcrosses⟩
  have hview : DependsOn (db.joinTree.root ::
      queryAliases graph resource.model [] (filterPaths resource ys ++ paths))
      fun _ : QueryRow R => () := fun _ _ _ => rfl
  have hperm := (rows_view_perm (grounded_queryAliases db [] _) (grounded_queryAliases db [] _)
    (nodup_zipIdx db.table) haliases hone hP hview).length_eq
  rw [List.length_map, List.length_map] at hperm
  simpa [Database.queryRows, Database.passes] using hperm

end

/-- Filters that are apart and covered are one conjunction. -/
theorem filtersConjunction_of_apart {env : Environment} {resource : SemanticResource}
    {p : QueryPlan} {now : Clock} {q : CompiledQuery}
    (hcompiled : compilePreparedQuery env resource p now = .ok q)
    (hapart : FiltersApart env.graph resource p.filters)
    (hcovered : FiltersCovered env.graph resource p) :
    FiltersConjunction env resource p now q := by
  have hcalls := applyFilters_of_compiled hcompiled
  have hselects : ∀ (R V : Type) (db : Database env.graph resource.model R V) (b : Backend V),
      (q.rows db b).Perm ((q.combinations resource p.filters db b).filter fun c =>
        p.filters.all fun x => filterHolds resource now db b x c) :=
    fun R V db b => queryRows_perm_of_apart hcalls hapart
  refine ⟨hselects, fun xs hperm => ?_, fun xs hsub => ?_, fun x hx hop f hf R V db b c => ?_⟩
  · obtain ⟨calls, hcalls'⟩ := applyFilters_subset hcalls hperm.subset
    refine ⟨_, compile_filters hcompiled hcalls', fun R V db b => ?_⟩
    have hrows : ({ q with calls := calls }.rows db b).Perm _ :=
      queryRows_perm_of_apart hcalls' (hapart.perm hperm)
    have hsame : (fun c : QueryRow R => xs.all fun x => filterHolds resource now db b x c) =
        fun c => p.filters.all fun x => filterHolds resource now db b x c := by
      funext c
      exact hperm.all_eq
    refine hrows.trans (List.Perm.trans ?_ (hselects R V db b).symm)
    rw [hsame]
    exact (combinations_perm hperm).filter _
  · obtain ⟨calls, hcalls'⟩ := applyFilters_subset hcalls hsub.subset
    refine ⟨_, compile_filters hcompiled hcalls', fun R V db b => ?_⟩
    have hrows : ({ q with calls := calls }.rows db b).Perm _ :=
      queryRows_perm_of_apart hcalls' (hapart.sublist hsub)
    have hcrossed : ∀ path ∈ filterPaths resource p.filters, ∀ hops hop,
        CrossesToMany env.graph resource.model path hops hop →
          ∃ path' ∈ q.readPaths, CrossesToMany env.graph resource.model path' hops hop := by
      intro path hpath hops hop hcrosses
      obtain ⟨x, hx, f, hf, rfl⟩ := mem_filterPaths.mp hpath
      obtain ⟨path', hread, hcrosses'⟩ := hcovered x hx f hf hops hop hcrosses
      exact ⟨path', mem_readPaths_of_readBesides hcompiled hread, hcrosses'⟩
    rw [(hselects R V db b).length_eq, hrows.length_eq]
    have hlength : ((db.queryRows b [] (filterPaths resource p.filters ++ q.readPaths)).filter
          fun c => xs.all fun x => filterHolds resource now db b x c).length = _ :=
      combinations_sublist hsub.subset hcrossed
        (dependsOn_filterHolds (List.subset_append_left _ q.readPaths))
    refine le_trans (List.Sublist.length_le ?_) hlength.le
    apply List.monotone_filter_right
    intro c hc
    rw [List.all_eq_true] at hc ⊢
    exact fun x hx => hc x (hsub.subset hx)
  · obtain ⟨parts, hparts, -⟩ := bind_eq_ok.mp hcalls
    obtain ⟨part, -, hpart⟩ := exists_result_of_mapM hparts hx
    exact filterHolds_partition hop hf hpart c

def itemsNamed (select names : List String) : QueryPlan :=
  { Sample.listPlan select with
    filters? := some (names.map fun name => ⟨"item", .eq, .scalar (.str none name)⟩) }

theorem filtersApart_of_relations {graph : ModelGraph} {resource : SemanticResource}
    {filters : List FilterSpec} (relations : FilterSpec → List Hop)
    (hrelations : ∀ x ∈ filters, ∀ f, resource.fields.get? x.field = some f →
      hopsOf graph resource.model f.binding = relations x)
    (hneq : ∀ x ∈ filters, x.op = .neq → relations x = [])
    (hdisjoint : filters.Pairwise fun x y => ∀ hop ∈ relations x, hop ∉ relations y) :
    FiltersApart graph resource filters := by
  constructor
  · intro x hx hop f hf
    rw [crossesToMany, hrelations x hx f hf, hneq x hx hop]
    rfl
  · apply hdisjoint.imp_of_mem
    intro x y hx hy hxy f g hf hg hops hop hcrosses hcrosses'
    have hmem : hop ∈ relations x := by
      rw [← hrelations x hx f hf]
      exact hcrosses.2.subset (by simp)
    apply hxy hop hmem
    rw [← hrelations y hy g hg]
    exact hcrosses'.2.subset (by simp)

/-- Orders with their number, the names of their items and their payments. -/
def paidItems : CatalogRegistry Sample.environment :=
  Sample.registryOf (Sample.orderArgs
    [("number", .config (Sample.fieldConfig "number" "string")),
      ("item", .config (Sample.fieldConfig "items__name" "string")),
      ("payment", .config (Sample.fieldConfig "payments__id" "integer"))])

/-- The payment 2 beside each item 1 of an order, unless the order has the number 7. -/
def paymentsOfItem : QueryPlan :=
  { Sample.listPlan ["number", "item", "payment"] with
    filters? := some
      [⟨"item", .eq, .scalar (.str none "1")⟩, ⟨"payment", .eq, .scalar (.int none 2)⟩,
        ⟨"number", .neq, .scalar (.str none "7")⟩] }

/-- The relations behind the fields of `paidItems`. -/
def paidItemsRelations (x : FilterSpec) : List Hop :=
  if x.field = "item" then [itemsRelation]
  else if x.field = "payment" then [⟨"order", "payments", true, some "payment"⟩]
  else []

theorem paymentsOfItem_filtersConjunction :
    ∃ resource q, paidItems.get "orders" = .ok resource ∧
      compilePreparedQuery Sample.environment resource paymentsOfItem Sample.newYear = .ok q ∧
      FiltersConjunction Sample.environment resource paymentsOfItem Sample.newYear q := by
  have hhops : (compiledSample paidItems paymentsOfItem).map (fun e =>
      paymentsOfItem.filters.map fun x => (e.1.fields.get? x.field).map fun f =>
        hopsOf Sample.shop e.1.model f.binding) =
      some (paymentsOfItem.filters.map fun x => some (paidItemsRelations x)) := by
    decide +kernel
  obtain ⟨⟨resource, q⟩, h, hpaths⟩ := Option.map_eq_some_iff.mp hhops
  obtain ⟨hresource, hq⟩ := compiledSample_ok h
  have hrelations : ∀ x ∈ paymentsOfItem.filters, ∀ f, resource.fields.get? x.field = some f →
      hopsOf Sample.environment.graph resource.model f.binding = paidItemsRelations x := by
    intro x hx f hf
    have hx' := List.map_inj_left.mp hpaths x hx
    rw [hf] at hx'
    exact Option.some.inj hx'
  refine ⟨resource, q, hresource, hq, filtersConjunction_of_apart hq
    (filtersApart_of_relations paidItemsRelations hrelations (by decide) (by decide)) ?_⟩
  intro x hx f hf hops hop hcrosses
  have hselected : ∀ x ∈ paymentsOfItem.filters, x.field ∈ paymentsOfItem.select := by decide
  exact ⟨f.binding, .inr ⟨x.field, hselected x hx, f, hf, rfl⟩, hcrosses⟩

/-- An order with the items 1 and 2 has no item of both names, and is selected. -/
theorem items_satisfy_filters_apart :
    ¬ ∀ (env : Environment) (registry : CatalogRegistry env) (limits : PlanLimits)
      (access : Access) (raw : RawPlan) (p : QueryPlan) (resource : SemanticResource)
      (now : Clock) (q : CompiledQuery),
      parseAndValidateQueryPlan registry limits access raw = .ok p →
        registry.get p.resource = .ok resource →
          compilePreparedQuery env resource p now = .ok q →
            FiltersConjunction env resource p now q := by
  intro h
  have haccepted : Sample.validated itemNames Sample.limits (itemsNamed ["number"] ["1", "2"]) =
      .ok (itemsNamed ["number"] ["1", "2"]) := by decide +kernel
  have hrows : (compiledSample itemNames (itemsNamed ["number"] ["1", "2"])).map (fun e =>
      (e.1.model, (e.2.rows Sample.twoItems Sample.textual).length)) = some ("order", 1) := by
    decide +kernel
  have hnone : (compiledSample itemNames (itemsNamed ["number"] ["1", "2"])).map (fun e =>
      ((e.2.combinations e.1 (itemsNamed ["number"] ["1", "2"]).filters Sample.twoItems
        Sample.textual).filter fun c => (itemsNamed ["number"] ["1", "2"]).filters.all fun x =>
          filterHolds e.1 Sample.newYear Sample.twoItems Sample.textual x c).length) = some 0 := by
    decide +kernel
  obtain ⟨⟨resource, q⟩, hsample, hpair⟩ := Option.map_eq_some_iff.mp hrows
  rw [hsample, Option.map_some, Option.some.injEq] at hnone
  simp only [Prod.mk.injEq] at hpair
  obtain ⟨hmodel, hone⟩ := hpair
  obtain ⟨hresource, hq⟩ := compiledSample_ok hsample
  have hconjunction := h _ _ _ _ _ _ _ _ _ haccepted hresource hq
  have hselects := hconjunction.selects
  rw [hmodel] at hselects
  have hlength := (hselects ℕ ℕ Sample.twoItems Sample.textual).length_eq
  exact absurd (hone.symm.trans (hlength.trans hnone)) (by decide)

end AskLens.Compiler
