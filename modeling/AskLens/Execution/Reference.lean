import AskLens.Compiler.Meaning
import AskLens.Execution.Runner

/-!
# The reference query

What a list plan means on the rows of its scope, without joins: the rows that
every filter accepts, in the order of the plan and then of their identity, cut at
the limit. Executing the compiled query gives this result, whatever order the
database returns ties in; a grouped plan keeps the first of its groups.
-/
namespace AskLens.Execution

open Python Django Catalog Planning Compiler LeftJoin JoinTree Arrangements Checks

/-! ## The meaning of a list plan -/

section

variable {graph : ModelGraph} {R V : Type} (resource : SemanticResource) (p : QueryPlan)
  (now : Clock) (db : Database graph resource.model R V) (b : Backend V)

/-- The row satisfies every filter of the plan. -/
def qualifies (r : R) : Bool :=
  p.filters.all fun x => (resource.fields.get? x.field).any fun f =>
    filterMeaning b f resource.timezone now x (db.lookup f.binding r)

def qualifyingRows : List R := db.table.filter (qualifies resource p now db b)

/-- The requested fields, else those of the default order, with their directions. -/
def requestedTerms : List (String × OrderDirection) :=
  if p.orderBy = [] then resource.defaultOrder
  else p.orderBy.filterMap fun o => o.field?.map fun name => (name, o.direction)

/-- The order of the result: the terms of the plan, then the identity of the row. -/
def referenceTerms : List OrderingTerm :=
  ((requestedTerms resource p).filterMap fun term =>
    (resource.fields.get? term.1).map fun f => (f.binding, term.2)) ++ [(resource.rowIdentity, .asc)]

def referenceDirections : List Bool :=
  (referenceTerms resource p).map fun term => term.2 == .desc

def referenceKey (r : R) : List (Option V) :=
  (referenceTerms resource p).map fun term => db.lookup term.1 r

def projectRow (r : R) : Dict (Option V) :=
  p.select.filterMap fun name =>
    (resource.fields.get? name).map fun f => (name, db.lookup f.binding r)

variable [LinearOrder V]

/-- All rows of the answer, before the limit. -/
def referenceRows : List R :=
  sortBy (referenceDirections resource p) (referenceKey resource p db)
    (qualifyingRows resource p now db b)

/-- The result is that of the reference query. -/
structure IsListReference (limits : PlanLimits) (result : QueryResult (Option V)) : Prop where
  rows : result.rows =
    ((referenceRows resource p now db b).take p.limit.toNat).map (projectRow resource p db)
  truncated : result.truncated = decide (p.limit < (qualifyingRows resource p now db b).length)
  rowCount : (result.rowCount : ℤ) = min ((qualifyingRows resource p now db b).length : ℤ) p.limit
  withinMax : result.rowCount ≤ limits.maxRows

end

/-- The result of a grouped plan: the groups under a total order, cut at the limit. -/
structure IsGroupedReference {graph : ModelGraph} {root : ModelName} {R V : Type} [LinearOrder V]
    (limits : PlanLimits) (p : QueryPlan) (q : CompiledQuery) (db : Database graph root R V)
    (b : Backend V) (result : QueryResult (Option V)) : Prop where
  total : IsLinearOrder {g // g ∈ q.groups db b} fun g g' =>
    keyLE q.directions (q.groupKey db b g) (q.groupKey db b g')
  rows : result.rows = ((sortBy q.directions (q.groupKey db b) (q.groups db b)).take
    p.limit.toNat).map fun g => normalizeRow q.keyMap (q.aggregateRow db b g)
  truncated : result.truncated = decide (p.limit < (q.groups db b).length)
  rowCount : (result.rowCount : ℤ) = min ((q.groups db b).length : ℤ) p.limit
  withinMax : result.rowCount ≤ limits.maxRows

/-- The selected fields, the filters and the ordering of the plan cross no to-many relation. -/
def ReadsToOne (graph : ModelGraph) (resource : SemanticResource) (p : QueryPlan) : Prop :=
  ∀ name ∈ p.select ++ p.filters.map FilterSpec.field ++ orderingFields resource p,
    ∀ f, resource.fields.get? name = some f → crossesToMany graph resource.model f.binding = false

/-! ## Rows of the runner -/

section

variable {β : Type}

/-- Renaming aliases that are distinct to names that are distinct. -/
theorem normalizeRow_zip {keys names : List String} {cells : List β} (hkeys : keys.Nodup)
    (hnames : names.Nodup) (hlength : keys.length = names.length)
    (hcells : cells.length = names.length) :
    normalizeRow (keys.zip names) (keys.zip cells) = names.zip cells := by
  have hrenamed : ((keys.zip cells).map fun e =>
      (((Dict.get? (keys.zip names) e.1).getD e.1), e.2)) = names.zip cells := by
    apply List.ext_getElem
    · simp [hlength]
    · intro i hi hi'
      have hik : i < keys.length := by simp at hi; omega
      have hget : Dict.get? (keys.zip names) keys[i] = some names[i] := by
        rw [Dict.get?_eq_some_iff]
        · refine List.mem_of_getElem? (i := i) ?_
          simp [List.getElem?_zip_eq_some]
        · rw [Dict.keys, List.map_fst_zip (by omega)]
          exact hkeys
      simp [hget]
  rw [normalizeRow, hrenamed, Dict.ofEntries_eq_self]
  rw [List.map_fst_zip (by omega)]
  exact hnames

/-- The probe row of the slice: the runner keeps the first rows and sees whether there are more. -/
theorem executeCompiledQuery_sliced {α : Type} {q : CompiledQuery} (hstop : q.stop = some (q.limit + 1))
    (hdetects : q.detectsTruncation = true) (hlimit : 0 ≤ q.limit) (rows : List α)
    (g : α → Dict β) :
    (executeCompiledQuery q ((q.sliced rows).map g)).rows =
        (rows.take q.limit.toNat).map (fun a => normalizeRow q.keyMap (g a)) ∧
      (executeCompiledQuery q ((q.sliced rows).map g)).truncated =
        decide (q.limit < rows.length) ∧
      ((executeCompiledQuery q ((q.sliced rows).map g)).rowCount : ℤ) =
        min (rows.length : ℤ) q.limit := by
  unfold executeCompiledQuery CompiledQuery.sliced
  rw [hstop, hdetects]
  obtain ⟨n, hn⟩ := Int.eq_ofNat_of_zero_le hlimit
  rw [hn]
  have htoNat : ((n : ℤ) + 1).toNat = n + 1 := by omega
  simp only [htoNat, Int.toNat_natCast, List.map_map, ← List.map_take, List.take_take,
    List.length_map, List.length_take, Bool.true_and]
  refine ⟨?_, ?_, ?_⟩
  · rw [min_eq_left (by omega)]
    rfl
  · rw [decide_eq_decide]
    omega
  · omega

end

/-! ## The rows of a to-one query -/

section

variable {graph : ModelGraph} {resource : SemanticResource} {p : QueryPlan} {now : Clock}
  {R V : Type} {db : Database graph resource.model R V} {b : Backend V} {q : CompiledQuery}

theorem referenceAt_concrete {model : ModelName} {name : String} {field : DjangoField}
    (hfield : graph.getField? model name = some field) (h : field.kind.isConcrete = true) :
    referenceAt graph model name = ⟨[], .column model name⟩ := by
  rw [referenceAt, splitDunder_fieldName hfield, referenceFrom_concrete hfield h, Option.getD_some]

theorem crossesToMany_identity (h : IsRowIdentity graph resource.model resource.rowIdentity) :
    crossesToMany graph resource.model resource.rowIdentity = false := by
  obtain ⟨field, hfield, hconcrete, -⟩ := h
  rw [crossesToMany, hopsOf, referenceAt_concrete hfield hconcrete]
  rfl

theorem eq_of_lookup_identity (h : IsRowIdentity graph resource.model resource.rowIdentity)
    {r r' : R} (hr : r ∈ db.table) (hr' : r' ∈ db.table)
    (hsame : db.lookup resource.rowIdentity r = db.lookup resource.rowIdentity r') : r = r' := by
  obtain ⟨field, hfield, hconcrete, hnull, hunique⟩ := h
  have hlookup : ∀ r, db.lookup resource.rowIdentity r =
      db.value resource.model resource.rowIdentity r := by
    intro r
    unfold Database.lookup
    rw [referenceAt_concrete hfield hconcrete]
    rfl
  rw [hlookup, hlookup] at hsame
  exact db.identifies _ _ field hfield hconcrete hnull hunique r r' (db.table_stored r hr)
    (db.table_stored r' hr') hsame

theorem filtersApart_of_toOne (h : ∀ path ∈ filterPaths resource p.filters,
    crossesToMany graph resource.model path = false) :
    FiltersApart graph resource p.filters := by
  have hnone : ∀ x ∈ p.filters, ∀ f, resource.fields.get? x.field = some f →
      crossesToMany graph resource.model f.binding = false := fun x hx f hf =>
    h _ (mem_filterPaths.mpr ⟨x, hx, f, hf, rfl⟩)
  refine ⟨fun x hx _ => hnone x hx, List.pairwise_of_forall_mem_list fun x hx y _ => ?_⟩
  intro f g hf hg hops hop hcrosses
  have hmany := crossesToMany_iff.mpr ⟨hops, hop, hcrosses⟩
  rw [hnone x hx f hf] at hmany
  cases hmany

/-- Each row of the scope has one combination, which is kept when the row qualifies, and in which
every path that the query reads has the value of the row. -/
theorem rows_eq_map (hcalls : applyFilters graph resource now p.filters = .ok q.calls)
    (hfilters : ∀ path ∈ filterPaths resource p.filters,
      crossesToMany graph resource.model path = false)
    (hread : ∀ path ∈ q.readPaths, crossesToMany graph resource.model path = false) :
    ∃ f : JoinedRow R → QueryRow R,
      q.rows db b = (db.table.zipIdx.filter fun e => qualifies resource p now db b e.1).map f ∧
        ∀ e ∈ db.table.zipIdx, ∀ path ∈ q.readPaths,
          db.readExpression q.calls path (f e) = db.lookup path e.1 := by
  obtain ⟨parts, hparts, hflatten⟩ := bind_eq_ok.mp hcalls
  have hflatten : parts.flatten = q.calls := Except.ok.inj hflatten
  have hstart : OpensOnce graph resource.model [] [] := opensOnce_nil _ _
  have hall : _ ∧ ∀ c, db.passes b [] parts.flatten c = _ :=
    passes_applyFilters (mapM_eq_ok.mp hparts) (filtersApart_of_toOne hfilters) hstart (by simp)
  obtain ⟨hopened, hpasses⟩ := hall
  rw [hflatten, List.nil_append] at hopened
  rw [hflatten] at hpasses
  have hreach : ∀ pre, TableAlias.reach false (filterAliases graph resource.model q.calls) pre =
      TableAlias.reach false [] pre := fun pre => hopened.reach (by simp)
  have hone : ∀ a ∈ queryAliases graph resource.model q.calls q.readPaths, ∀ r,
      (db.joinTree.related a r).length ≤ 1 := by
    intro a ha r
    rcases mem_openAliases.mp ha with hfilter | hmem
    · obtain ⟨path, hpath, pre, hpre, hne, rfl⟩ := (hopened.mem a).mp hfilter
      exact toOne_of_reach (hfilters path hpath) hpre hne r
    · obtain ⟨path, hpath, hchain⟩ := List.mem_flatMap.mp hmem
      obtain ⟨pre, hpre, hne, rfl⟩ := TableAlias.mem_chain.mp hchain
      rw [← TableAlias.reach_eq_follow, hreach]
      exact toOne_of_reach (hread path hpath) hpre hne r
  obtain ⟨f, hrows, hroot⟩ := rows_toOne (grounded_queryAliases db q.calls q.readPaths)
    db.table.zipIdx hone
  have hrow : ∀ e ∈ db.table.zipIdx, db.joinTree.IsRow db.table.zipIdx
      (queryAliases graph resource.model q.calls q.readPaths) (f e) := by
    intro e he
    apply (mem_rows (grounded_queryAliases db _ _)).mp
    rw [hrows]
    exact List.mem_map_of_mem he
  have hat : ∀ e, rowAt (f e) .root = some e.1 := fun e => by
    rw [rowAt, show f e .root = some e from hroot e]
    rfl
  refine ⟨f, ?_, fun e he path hpath => ?_⟩
  · unfold CompiledQuery.rows Database.queryRows
    rw [hrows, List.filter_map]
    congr 1
    apply List.filter_congr
    intro e he
    show db.passes b [] q.calls (f e) = _
    rw [hpasses]
    unfold qualifies
    rw [Bool.eq_iff_iff, List.all_eq_true, List.all_eq_true]
    refine forall₂_congr fun x hx => ?_
    obtain ⟨part, -, hpart⟩ := exists_result_of_mapM hparts hx
    obtain ⟨field, conditions, hcompiles, -⟩ := applyFilter_ok hpart
    have hpath : field.binding ∈ filterPaths resource p.filters :=
      mem_filterPaths.mpr ⟨x, hx, field, hcompiles.1, rfl⟩
    have hvalue : db.readExpression [] field.binding (f e) = db.lookup field.binding e.1 := by
      refine readPath_toOne (hrow e he) (fun pre hpre hne => ?_) (hfilters _ hpath) (hat e)
      exact filterAliases_subset _ _ ((hopened.mem _).mpr ⟨_, hpath, pre, hpre, hne, rfl⟩)
    rw [filterHolds_of_compilesTo hcompiles, conditionsHold_eq_filterMeaning hcompiles.2, hvalue,
      hcompiles.1, Option.any_some]
  · refine readPath_toOne (hrow e he) (fun pre hpre hne => ?_) (hread path hpath) (hat e)
    have hchain : TableAlias.reach false (filterAliases graph resource.model q.calls) pre ∈
        pathAliases graph resource.model false (filterAliases graph resource.model q.calls) path :=
      TableAlias.mem_chain.mpr ⟨pre, hpre, hne, rfl⟩
    exact mem_openAliases.mpr (.inr (List.mem_flatMap.mpr ⟨path, hpath, hchain⟩))

/-! ## List plans -/

theorem requestedOrdering_eq {requested : List OrderingTerm}
    (h : requestedOrdering resource p = .ok requested) :
    referenceTerms resource p = requested ++ [(resource.rowIdentity, .asc)] := by
  unfold referenceTerms
  congr 1
  have hterms : (requestedTerms resource p).mapM (fun term => do
      let field ← fieldAt resource term.1
      .ok (field.binding, term.2)) = .ok requested := h
  have hforall := mapM_eq_ok.mp hterms
  clear h hterms
  generalize requestedTerms resource p = terms at hforall ⊢
  induction hforall with
  | nil => rfl
  | @cons term entry terms requested hentry _ ih =>
    obtain ⟨f, hf, hentry⟩ := bind_eq_ok.mp hentry
    obtain rfl := Except.ok.inj hentry
    rw [List.filterMap_cons, fieldAt_ok.mp hf]
    simp [ih]

theorem projectRow_eq {fields : List FieldSpec} (h : p.select.mapM (fieldAt resource) = .ok fields)
    (r : R) : projectRow resource p db r =
      p.select.zip (fields.map fun f => db.lookup f.binding r) := by
  unfold projectRow
  have hforall := mapM_eq_ok.mp h
  clear h
  generalize p.select = names at hforall ⊢
  induction hforall with
  | nil => rfl
  | cons hf _ ih =>
    rw [List.filterMap_cons, fieldAt_ok.mp hf]
    simp [ih]

theorem referenceKey_length (r : R) :
    (referenceKey resource p db r).length = (referenceDirections resource p).length := by
  simp [referenceKey, referenceDirections]

variable [LinearOrder V]

/-- A repeated identity term decides nothing, so both orders are the same. -/
theorem keyLE_reference {requested : List OrderingTerm} {ordering : List OrderingTerm}
    (hrequested : requestedOrdering resource p = .ok requested)
    (hordering : ordering = if resource.rowIdentity ∈ requested.map Prod.fst then requested
      else requested ++ [(resource.rowIdentity, .asc)])
    {r r' : R} :
    keyLE (ordering.map fun term => term.2 == .desc)
        (ordering.map fun term => db.lookup term.1 r)
        (ordering.map fun term => db.lookup term.1 r') ↔
      keyLE (referenceDirections resource p) (referenceKey resource p db r)
        (referenceKey resource p db r') := by
  unfold referenceDirections referenceKey
  rw [requestedOrdering_eq hrequested, hordering]
  split_ifs with hmem
  · simp only [List.map_append, List.map_cons, List.map_nil]
    rw [keyLE_concat (by simp) (by simp)]
    constructor
    · intro h
      refine ⟨h, fun hsame => ?_⟩
      obtain ⟨term, hterm, hpath⟩ := List.mem_map.mp hmem
      have hvalue := List.map_inj_left.mp hsame term hterm
      rw [hpath] at hvalue
      rw [hvalue]
      exact termLE_refl _ _
    · exact fun h => h.1
  · rfl

omit [LinearOrder V] in
/-- The key of the reference order tells the rows of the scope apart. -/
theorem eq_of_referenceKey (hidentity : IsRowIdentity graph resource.model resource.rowIdentity)
    {r r' : R} (hr : r ∈ db.table) (hr' : r' ∈ db.table)
    (hkey : referenceKey resource p db r = referenceKey resource p db r') : r = r' := by
  have hterm : (resource.rowIdentity, OrderDirection.asc) ∈ referenceTerms resource p := by
    simp [referenceTerms]
  unfold referenceKey at hkey
  have hvalue := List.map_inj_left.mp hkey _ hterm
  exact eq_of_lookup_identity hidentity hr hr' hvalue

end

/-! ## Executed list plans -/

section

variable {env : Environment} {resource : SemanticResource} {limits : PlanLimits} {access : Access}
  {p : QueryPlan} {now : Clock} {q : CompiledQuery} {R V : Type}
  {db : Database env.graph resource.model R V} {b : Backend V}

/-- What the runner reads of a kept combination is the projection of its row. -/
theorem normalizeRow_listRow (hr : resource.Registered env)
    (hcompiled : compilePreparedQuery env resource p now = .ok q) (hlist : p.intent = .list)
    (hselect : p.select.Nodup) {c : QueryRow R} {r : R}
    (hvalues : ∀ path ∈ q.readPaths, db.readExpression q.calls path c = db.lookup path r) :
    normalizeRow q.keyMap (q.listRow db b c) = projectRow resource p db r := by
  obtain ⟨hshape, -⟩ := compiledList hlist hcompiled
  obtain ⟨fields, hfields, hexpressions⟩ := hshape.values
  have hrenames := compiled_renames hr hcompiled
  have hnames : publicNames p = p.select := by
    unfold publicNames
    rw [hlist]
  rw [hnames] at hrenames
  have haliases : aliases q = q.values.keys := by
    rw [aliases, hshape.annotations]
    exact List.append_nil _
  have houtput : q.output db b c = fields.map fun f => db.lookup f.binding r := by
    unfold CompiledQuery.output
    rw [hexpressions, List.map_map]
    apply List.map_congr_left
    intro f hf
    apply hvalues
    unfold CompiledQuery.readPaths
    rw [List.append_assoc, hexpressions, List.map_map]
    exact List.mem_append_left _
      (List.mem_map_of_mem (f := Expression.path ∘ fun f : FieldSpec => .f f.binding) hf)
  have hlength : fields.length = p.select.length := (mapM_eq_ok.mp hfields).length_eq.symm
  rw [hrenames.keyMap, haliases, CompiledQuery.listRow, houtput, projectRow_eq hfields]
  apply normalizeRow_zip
  · rw [← haliases]
    exact hrenames.aliases_nodup
  · exact hselect
  · rw [← haliases]
    exact hrenames.length
  · rw [List.length_map, hlength]

theorem crossesToMany_of_mem_readPaths (hr : resource.Registered env) (hlist : p.intent = .list)
    (hcompiled : compilePreparedQuery env resource p now = .ok q)
    (hone : ReadsToOne env.graph resource p) {path : String} (hpath : path ∈ q.readPaths) :
    crossesToMany env.graph resource.model path = false := by
  obtain ⟨hshape, -⟩ := compiledList hlist hcompiled
  obtain ⟨fields, hfields, hvalues⟩ := hshape.values
  rw [CompiledQuery.readPaths, CompiledQuery.orderingPaths, hshape.limitScope, hvalues,
    hshape.annotations] at hpath
  rcases List.mem_append.mp hpath with hpath | hpath
  · have hselected : path ∈ fields.map FieldSpec.binding := by
      simpa [Dict.values, Function.comp_def, Expression.path] using hpath
    obtain ⟨f, hf, rfl⟩ := List.mem_map.mp hselected
    obtain ⟨name, hname, hfield⟩ := exists_of_mem_mapM hfields hf
    exact hone name (by simp [hname]) f (fieldAt_ok.mp hfield)
  · rcases (mem_buildListOrdering_iff hshape.ordering).mp hpath with rfl | ⟨name, hname, f, hf, rfl⟩
    · exact crossesToMany_identity hr.rowIdentity
    · exact hone name (by simp [hname]) f hf

theorem map_fst_filter_zipIdx (l : List R) (P : R → Bool) :
    ((l.zipIdx.filter fun e => P e.1).map Prod.fst) = l.filter P := by
  have hfilter := List.filter_map (f := Prod.fst) (p := P) (l := l.zipIdx)
  rw [List.zipIdx_map_fst] at hfilter
  exact hfilter.symm

/-- The rows of the scope that qualify, with their positions. -/
def scopeEntries (resource : SemanticResource) (p : QueryPlan) (now : Clock)
    (db : Database env.graph resource.model R V) (b : Backend V) : List (JoinedRow R) :=
  db.table.zipIdx.filter fun e => qualifies resource p now db b e.1

theorem map_fst_scopeEntries :
    (scopeEntries resource p now db b).map Prod.fst = qualifyingRows resource p now db b :=
  map_fst_filter_zipIdx db.table (qualifies resource p now db b)

theorem mem_table_of_mem_scopeEntries {e : JoinedRow R}
    (h : e ∈ scopeEntries resource p now db b) : e.1 ∈ db.table :=
  List.fst_mem_of_mem_zipIdx (List.mem_filter.mp h).1

variable [LinearOrder V]

/-- The combinations of a to-one list query stand for rows of the scope: they are returned as
those rows are projected, and ordered as those rows are. -/
structure StandsFor (resource : SemanticResource) (p : QueryPlan) (now : Clock)
    (db : Database env.graph resource.model R V) (b : Backend V) (q : CompiledQuery)
    (f : JoinedRow R → QueryRow R) : Prop where
  rows : q.rows db b = (scopeEntries resource p now db b).map f
  listed : ∀ e ∈ scopeEntries resource p now db b,
    normalizeRow q.keyMap (q.listRow db b (f e)) = projectRow resource p db e.1
  ordered : ∀ e ∈ scopeEntries resource p now db b, ∀ e' ∈ scopeEntries resource p now db b,
    (keyLE q.directions (q.orderKey db (f e)) (q.orderKey db (f e')) ↔
      keyLE (referenceDirections resource p) (referenceKey resource p db e.1)
        (referenceKey resource p db e'.1))

theorem exists_standsFor (hr : resource.Registered env)
    (h : Accepted env resource limits access p) (hlist : p.intent = .list)
    (hcompiled : compilePreparedQuery env resource p now = .ok q)
    (hone : ReadsToOne env.graph resource p) : ∃ f, StandsFor resource p now db b q f := by
  obtain ⟨hshape, hcalls⟩ := compiledList hlist hcompiled
  obtain ⟨requested, hrequested, hordering⟩ := bind_eq_ok.mp hshape.ordering
  have hread : ∀ path ∈ q.readPaths, crossesToMany env.graph resource.model path = false :=
    fun path => crossesToMany_of_mem_readPaths hr hlist hcompiled hone
  have hfilters : ∀ path ∈ filterPaths resource p.filters,
      crossesToMany env.graph resource.model path = false := by
    intro path hpath
    obtain ⟨x, hx, f, hf, rfl⟩ := mem_filterPaths.mp hpath
    exact hone x.field (by simp [List.mem_map_of_mem hx]) f hf
  obtain ⟨f, hrows, hvalues⟩ :
      ∃ f : JoinedRow R → QueryRow R, q.rows db b = _ ∧ ∀ e ∈ db.table.zipIdx, _ :=
    rows_eq_map hcalls hfilters hread
  have hentry : ∀ e ∈ scopeEntries resource p now db b, e ∈ db.table.zipIdx := fun e he =>
    (List.mem_filter.mp he).1
  have hkey : ∀ e ∈ scopeEntries resource p now db b, q.orderKey db (f e) =
      q.ordering.map fun term => db.lookup term.1 e.1 := by
    intro e he
    apply List.map_congr_left
    intro term hterm
    apply hvalues e (hentry e he)
    rw [CompiledQuery.readPaths, CompiledQuery.orderingPaths, hshape.limitScope]
    exact List.mem_append_right _ (List.mem_map_of_mem hterm)
  refine ⟨f, hrows, fun e he => ?_, fun e he e' he' => ?_⟩
  · exact normalizeRow_listRow hr hcompiled hlist h.select_nodup (hvalues e (hentry e he))
  · rw [hkey e he, hkey e' he']
    exact keyLE_reference hrequested (Except.ok.inj hordering).symm

/-- In every order that the database may choose, the rows are those of the reference query. -/
theorem StandsFor.sequence {f : JoinedRow R → QueryRow R} (h : StandsFor resource p now db b q f)
    (hidentity : IsRowIdentity env.graph resource.model resource.rowIdentity)
    {rows : List (QueryRow R)}
    (harrangement : IsArrangement q.directions (q.orderKey db) (q.rows db b) rows) :
    rows.map (fun c => normalizeRow q.keyMap (q.listRow db b c)) =
      (referenceRows resource p now db b).map (projectRow resource p db) := by
  have hlength : ∀ c : QueryRow R, (q.orderKey db c).length = q.directions.length := by
    simp [CompiledQuery.orderKey, CompiledQuery.directions]
  have hsorted := sortBy_isArrangement (scopeEntries resource p now db b) fun e => hlength (f e)
  set sorted := sortBy q.directions (fun e => q.orderKey db (f e))
    (scopeEntries resource p now db b)
  have hmem : ∀ e ∈ sorted, e ∈ scopeEntries resource p now db b := fun e he =>
    hsorted.perm.subset he
  have hreference : sorted.map Prod.fst = referenceRows resource p now db b := by
    refine IsArrangement.eq_sortBy ⟨?_, ?_⟩ referenceKey_length fun r hr r' hr' => ?_
    · rw [← map_fst_scopeEntries]
      exact hsorted.perm.map _
    · refine List.pairwise_map.mpr (hsorted.ordered.imp_of_mem fun he he' hle => ?_)
      exact (h.ordered _ (hmem _ he) _ (hmem _ he')).mp hle
    · exact eq_of_referenceKey hidentity (List.mem_filter.mp hr).1 (List.mem_filter.mp hr').1
  have hties : ∀ c ∈ q.rows db b, ∀ c' ∈ q.rows db b, q.orderKey db c = q.orderKey db c' →
      normalizeRow q.keyMap (q.listRow db b c) = normalizeRow q.keyMap (q.listRow db b c') := by
    intro c hc c' hc' hsame
    rw [h.rows] at hc hc'
    obtain ⟨e, he, rfl⟩ := List.mem_map.mp hc
    obtain ⟨e', he', rfl⟩ := List.mem_map.mp hc'
    have hle := (h.ordered e he e' he').mp (hsame ▸ keyLE_refl _ _)
    have hge := (h.ordered e' he' e he).mp (hsame ▸ keyLE_refl _ _)
    have hrow := eq_of_referenceKey hidentity (mem_table_of_mem_scopeEntries he)
      (mem_table_of_mem_scopeEntries he')
      (keyLE_antisymm (referenceKey_length _) (referenceKey_length _) hle hge)
    rw [h.listed e he, h.listed e' he', hrow]
  have harranged : IsArrangement q.directions (q.orderKey db) (q.rows db b) (sorted.map f) := by
    rw [h.rows]
    exact hsorted.map
  rw [harrangement.map_eq harranged hlength hties, ← hreference, List.map_map, List.map_map]
  exact List.map_congr_left fun e he => h.listed e (hmem e he)

theorem isListReference_of_answers (hr : resource.Registered env)
    (h : Accepted env resource limits access p) (hlist : p.intent = .list)
    (hcompiled : compilePreparedQuery env resource p now = .ok q)
    (hone : ReadsToOne env.graph resource p) {rawRows : List (Dict (Option V))}
    (hanswers : q.Answers db b rawRows) :
    IsListReference resource p now db b limits (executeCompiledQuery q rawRows) := by
  obtain ⟨hshape, -⟩ := compiledList hlist hcompiled
  obtain ⟨f, hf⟩ : ∃ f, StandsFor resource p now db b q f :=
    exists_standsFor hr h hlist hcompiled hone
  unfold CompiledQuery.Answers at hanswers
  rw [hshape.limitScope] at hanswers
  obtain ⟨rows, harrangement, rfl⟩ := hanswers
  have hlength : rows.length = (qualifyingRows resource p now db b).length := by
    rw [harrangement.perm.length_eq, hf.rows, List.length_map, ← map_fst_scopeEntries,
      List.length_map]
  have hstop : q.stop = some (q.limit + 1) := by rw [hshape.stop, hshape.limit]
  have hpositive : 0 ≤ q.limit := by
    have hpos := h.limit_pos
    rw [hshape.limit]
    omega
  have hresult := executeCompiledQuery_sliced hstop hshape.detectsTruncation hpositive rows
    (q.listRow db b)
  rw [hlength, hshape.limit] at hresult
  obtain ⟨hrows, htruncated, hcount⟩ := hresult
  refine ⟨?_, htruncated, hcount, ?_⟩
  · rw [hrows, List.map_take, hf.sequence hr.rowIdentity harrangement, List.map_take]
  · have hle := h.limit_le
    omega

end

/-! ## Executed grouped plans -/

theorem mem_missingGroups {targets seen : List String} {target : String} (h : target ∈ targets) :
    target ∈ seen ∨ target ∈ (missingGroups targets seen).map Prod.fst := by
  induction targets generalizing seen with
  | nil => cases h
  | cons first rest ih =>
    unfold missingGroups
    split_ifs with hseen
    · rcases List.mem_cons.mp h with rfl | hrest
      · exact .inl hseen
      · exact ih hrest
    · rw [List.map_cons, List.mem_cons]
      rcases List.mem_cons.mp h with rfl | hrest
      · exact .inr (.inl rfl)
      · have hnext : target ∈ first :: seen ∨ target ∈ _ := ih hrest
        rcases hnext with hmem | hmem
        · rcases List.mem_cons.mp hmem with rfl | hmem
          · exact .inr (.inl rfl)
          · exact .inl hmem
        · exact .inr (.inr hmem)

theorem aliasAt_publicAliases_getElem {aliasOf : ℕ → String} {names : List String}
    (hnodup : names.Nodup) {i : ℕ} (hi : i < names.length) :
    aliasAt (publicAliases aliasOf names) names[i] = .ok (aliasOf i) := by
  have hkeys : (names.zipIdx.map fun e => (e.1, aliasOf e.2)).map Prod.fst = names := by
    rw [List.map_map]
    exact List.zipIdx_map_fst 0 names
  have hentries : publicAliases aliasOf names = names.zipIdx.map fun e => (e.1, aliasOf e.2) := by
    rw [publicAliases, Dict.ofEntries_eq_self]
    rw [hkeys]
    exact hnodup
  have hget : (publicAliases aliasOf names).get? names[i] = some (aliasOf i) := by
    rw [hentries, Dict.get?_eq_some_iff (by rw [Dict.keys, hkeys]; exact hnodup)]
    refine List.mem_map.mpr ⟨(names[i], i), ?_, rfl⟩
    rw [List.mem_zipIdx_iff_getElem?, List.getElem?_eq_getElem hi]
  rw [aliasAt, hget]

structure CompiledGroups (p : QueryPlan) (q : CompiledQuery) : Prop where
  keys : q.values.keys = (List.range p.groupBy.length).map groupAlias
  aliases_nodup : (aliases q).Nodup
  ordering : buildGroupedOrdering (publicAliases groupAlias (p.groupBy.map GroupBySpec.field))
    (publicAliases metricAlias (p.metrics.map MetricSpec.metric)) p = .ok q.ordering
  stop : q.stop = some (p.limit + 1)
  limit : q.limit = p.limit
  limitScope : q.limitScope = .groups
  detectsTruncation : q.detectsTruncation = true
  ungrouped : q.ungrouped = false

theorem compiledGroups {env : Environment} {resource : SemanticResource} {p : QueryPlan}
    {now : Clock} {q : CompiledQuery} (hr : resource.Registered env)
    (haggregate : p.intent = .aggregate) (hgrouped : p.groupBy ≠ [])
    (h : compilePreparedQuery env resource p now = .ok q) : CompiledGroups p q := by
  have hrenames := compiled_renames hr h
  obtain ⟨-, groupFields, metrics, hquery⟩ := isAggregateQuery_of_compiled haggregate h
  have hlength : groupFields.length = p.groupBy.length :=
    (mapM_eq_ok.mp hquery.grouped).length_eq.symm
  refine ⟨?_, hrenames.aliases_nodup, hquery.ordering hgrouped, ?_, ?_, hquery.limitScope, ?_, ?_⟩
  · rw [hquery.values, keys_enumerateAliases]
    simp [hlength]
  · rw [hquery.stop, if_neg hgrouped]
  · rw [hquery.limit, if_neg hgrouped]
  · simp [hquery.detectsTruncation, hgrouped]
  · simp [hquery.ungrouped, hgrouped]

section

variable {graph : ModelGraph} {root : ModelName} {R V : Type} [LinearOrder V]
  {db : Database graph root R V} {b : Backend V} {p : QueryPlan} {q : CompiledQuery}

theorem CompiledGroups.mem_ordering (h : CompiledGroups p q)
    (hnodup : (p.groupBy.map GroupBySpec.field).Nodup) {i : ℕ} (hi : i < p.groupBy.length) :
    groupAlias i ∈ q.ordering.map Prod.fst := by
  obtain ⟨terms, -, hrest⟩ := bind_eq_ok.mp h.ordering
  obtain ⟨targets, htargets, hrest⟩ := bind_eq_ok.mp hrest
  rw [← Except.ok.inj hrest, List.map_append, List.mem_append]
  apply mem_missingGroups
  obtain ⟨target, htarget, hname⟩ := getElem?_of_mapM htargets (List.getElem?_eq_getElem hi)
  have hi' : i < (p.groupBy.map GroupBySpec.field).length := by simpa using hi
  have hexpected : aliasAt (publicAliases groupAlias (p.groupBy.map GroupBySpec.field))
      (p.groupBy.map GroupBySpec.field)[i] = .ok (groupAlias i) :=
    aliasAt_publicAliases_getElem hnodup hi'
  rw [List.getElem_map, hname] at hexpected
  rw [← Except.ok.inj hexpected]
  exact List.mem_of_getElem? htarget

theorem length_of_mem_groups (h : CompiledGroups p q) {g : List (Option V)}
    (hg : g ∈ q.groups db b) : g.length = p.groupBy.length := by
  unfold CompiledQuery.groups at hg
  rw [h.ungrouped] at hg
  obtain ⟨c, -, rfl⟩ := List.mem_map.mp (List.mem_dedup.mp hg)
  have hkeys := congrArg List.length h.keys
  simpa [CompiledQuery.output, Dict.values, Dict.keys] using hkeys

theorem CompiledGroups.get?_aggregateRow (h : CompiledGroups p q) {g : List (Option V)}
    (hlength : g.length = p.groupBy.length) {i : ℕ} (hi : i < g.length) :
    (q.aggregateRow db b g).get? (groupAlias i) = some g[i] := by
  have hvalues : q.values.keys.length = g.length := by
    rw [h.keys, hlength]
    simp
  have hkeys : (q.aggregateRow db b g).keys = aliases q := by
    unfold CompiledQuery.aggregateRow aliases
    show List.map Prod.fst _ = _
    rw [List.map_append, List.map_map, List.map_fst_zip (by omega)]
    rfl
  rw [Dict.get?_eq_some_iff (hkeys ▸ h.aliases_nodup)]
  apply List.mem_append_left
  refine List.mem_of_getElem? (i := i) ?_
  have hrange : i < p.groupBy.length := hlength ▸ hi
  rw [h.keys, List.getElem?_zip_eq_some]
  simp [hrange]

theorem groupKey_length (g : List (Option V)) :
    (q.groupKey db b g).length = q.directions.length := by
  simp [CompiledQuery.groupKey, CompiledQuery.directions]

theorem CompiledGroups.groupKey_injective (h : CompiledGroups p q)
    (hnodup : (p.groupBy.map GroupBySpec.field).Nodup) {g g' : List (Option V)}
    (hg : g ∈ q.groups db b) (hg' : g' ∈ q.groups db b)
    (hkey : q.groupKey db b g = q.groupKey db b g') : g = g' := by
  have hlength := length_of_mem_groups h hg
  have hlength' := length_of_mem_groups h hg'
  apply List.ext_getElem
  · rw [hlength, hlength']
  · intro i hi hi'
    obtain ⟨term, hterm, htarget⟩ := List.mem_map.mp (h.mem_ordering hnodup (hlength ▸ hi))
    unfold CompiledQuery.groupKey at hkey
    have hvalue := List.map_inj_left.mp hkey term hterm
    rw [htarget, h.get?_aggregateRow hlength hi, h.get?_aggregateRow hlength' hi'] at hvalue
    simpa using hvalue

theorem CompiledGroups.isLinearOrder (h : CompiledGroups p q)
    (hnodup : (p.groupBy.map GroupBySpec.field).Nodup) :
    IsLinearOrder {g // g ∈ q.groups db b} fun g g' =>
      keyLE q.directions (q.groupKey db b g) (q.groupKey db b g') where
  refl g := keyLE_refl _ _
  trans g g' g'' := keyLE_trans (groupKey_length g'.1)
  antisymm g g' hle hge := by
    apply Subtype.ext
    exact h.groupKey_injective hnodup g.2 g'.2
      (keyLE_antisymm (groupKey_length _) (groupKey_length _) hle hge)
  total g g' := keyLE_total _ _ _

/-- Every answer to a grouped plan keeps the first groups of the ordering. -/
theorem isGroupedReference_of_answers {env : Environment} {resource : SemanticResource}
    {limits : PlanLimits} {access : Access} (h : Accepted env resource limits access p)
    (hgroups : CompiledGroups p q) {rawRows : List (Dict (Option V))}
    (hanswers : q.Answers db b rawRows) :
    IsGroupedReference limits p q db b (executeCompiledQuery q rawRows) := by
  have hnodup := h.groupBy_nodup
  unfold CompiledQuery.Answers at hanswers
  rw [hgroups.limitScope] at hanswers
  obtain ⟨groups, harrangement, rfl⟩ := hanswers
  have hsorted := harrangement.eq_sortBy groupKey_length fun g hg g' hg' hkey =>
    hgroups.groupKey_injective hnodup hg hg' hkey
  have hstop : q.stop = some (q.limit + 1) := by rw [hgroups.stop, hgroups.limit]
  have hpositive : 0 ≤ q.limit := by
    have hpos := h.limit_pos
    rw [hgroups.limit]
    omega
  have hresult := executeCompiledQuery_sliced hstop hgroups.detectsTruncation hpositive groups
    (q.aggregateRow db b)
  rw [harrangement.perm.length_eq, hgroups.limit] at hresult
  obtain ⟨hrows, htruncated, hcount⟩ := hresult
  refine ⟨hgroups.isLinearOrder hnodup, ?_, htruncated, hcount, ?_⟩
  · rw [hrows, hsorted]
  · have hle := h.limit_le
    omega

end

/-! ## Execution -/

/-- The compiled query always has an answer, and every answer gives the result of the reference:
for a list plan over to-one relations that of its rows, for a grouped plan that of its groups. -/
structure RefinesReference (env : Environment) (resource : SemanticResource) (limits : PlanLimits)
    (p : QueryPlan) (now : Clock) (q : CompiledQuery) : Prop where
  answered : ∀ (R V : Type) [LinearOrder V] (db : Database env.graph resource.model R V)
    (b : Backend V), ∃ rawRows, q.Answers db b rawRows
  list : p.intent = .list → ReadsToOne env.graph resource p →
    ∀ (R V : Type) [LinearOrder V] (db : Database env.graph resource.model R V) (b : Backend V)
      (rawRows : List (Dict (Option V))), q.Answers db b rawRows →
        IsListReference resource p now db b limits (executeCompiledQuery q rawRows)
  grouped : p.intent = .aggregate → p.groupBy ≠ [] →
    ∀ (R V : Type) [LinearOrder V] (db : Database env.graph resource.model R V) (b : Backend V)
      (rawRows : List (Dict (Option V))), q.Answers db b rawRows →
        IsGroupedReference limits p q db b (executeCompiledQuery q rawRows)

theorem exists_answers {graph : ModelGraph} {root : ModelName} {R V : Type} [LinearOrder V]
    (q : CompiledQuery) (db : Database graph root R V) (b : Backend V) :
    ∃ rawRows, q.Answers db b rawRows := by
  unfold CompiledQuery.Answers
  cases q.limitScope with
  | rows =>
    exact ⟨_, _, sortBy_isArrangement _ fun c => by
      simp [CompiledQuery.orderKey, CompiledQuery.directions], rfl⟩
  | groups => exact ⟨_, _, sortBy_isArrangement _ groupKey_length, rfl⟩

theorem refinesReference_of_compiled {env : Environment} {resource : SemanticResource}
    {limits : PlanLimits} {access : Access} {p : QueryPlan} {now : Clock} {q : CompiledQuery}
    (hr : resource.Registered env) (h : Accepted env resource limits access p)
    (hcompiled : compilePreparedQuery env resource p now = .ok q) :
    RefinesReference env resource limits p now q := by
  refine ⟨fun R V _ db b => exists_answers q db b, fun hlist hone R V _ db b rawRows hanswers => ?_,
    fun haggregate hgrouped R V _ db b rawRows hanswers => ?_⟩
  · exact isListReference_of_answers hr h hlist hcompiled hone hanswers
  · exact isGroupedReference_of_answers h (compiledGroups hr haggregate hgrouped hcompiled) hanswers

/-- The plan is executed, and as its reference query. -/
def ExecutesReference (env : Environment) (resource : SemanticResource) (limits : PlanLimits)
    (p : QueryPlan) (now : Clock) : Prop :=
  ∃ q, compilePreparedQuery env resource p now = .ok q ∧
    RefinesReference env resource limits p now q

/-- An accepted plan is executed as its reference query exactly when no filter, alias or metric of
it stops the compiler. -/
theorem accepted_executesReference_iff {env : Environment} {registry : CatalogRegistry env}
    {limits : PlanLimits} {access : Access} {raw : RawPlan} {p : QueryPlan}
    {resource : SemanticResource}
    (haccepted : parseAndValidateQueryPlan registry limits access raw = .ok p)
    (hresource : registry.get p.resource = .ok resource) (now : Clock) :
    ExecutesReference env resource limits p now ↔
      CompilesWhen env resource p now ∧
        ∀ x ∈ p.filters, startsOutOfRange resource.timezone now x = false := by
  obtain ⟨r, hr, hregistered, h⟩ := parseAndValidateQueryPlan_ok haccepted
  obtain rfl : r = resource := Except.ok.inj (hr.symm.trans hresource)
  rw [← exists_compiled_iff hregistered h now]
  constructor
  · rintro ⟨q, hq, -⟩
    exact ⟨q, hq⟩
  · rintro ⟨q, hq⟩
    exact ⟨q, hq, refinesReference_of_compiled hregistered h hq⟩

/-- Orders with their number, their day and their status, and the number of orders. -/
def datedStatuses : CatalogRegistry Sample.environment :=
  Sample.registryOf
    { Sample.orderArgs
        [("number", .config (Sample.fieldConfig "number" "string")),
          ("day", .config (Sample.fieldConfig "day" "date")),
          ("status", .config (Sample.fieldConfig "status" "string"))] with
      metrics := Sample.metricOf (Sample.countOf "orders" "id") }

/-- The orders of the last week without number 7, the last day first. -/
def lastWeek : QueryPlan :=
  { Sample.listPlan ["number", "day"] with
    filters? := some
      [⟨"day", .lastNDays, .scalar (.int none 7)⟩, ⟨"number", .neq, .scalar (.str none "7")⟩]
    orderBy? := some [⟨.field "day", false, some .desc⟩] }

def statusesSinceDecember : QueryPlan :=
  { Sample.aggregatePlan ["status"] ["orders"] with
    filters? := some [⟨"day", .gte, .scalar (.str none "2023-12-01")⟩]
    orderBy? := some [⟨.metric "orders", false, some .desc⟩] }

theorem datedStatuses_executesReference :
    ∃ resource, datedStatuses.get "orders" = .ok resource ∧
      ReadsToOne Sample.shop resource lastWeek ∧
      ExecutesReference Sample.environment resource Sample.limits lastWeek Sample.newYear ∧
      ExecutesReference Sample.environment resource Sample.limits statusesSinceDecember
        Sample.newYear := by
  have hweek : Sample.validated datedStatuses Sample.limits lastWeek = .ok lastWeek := by
    decide +kernel
  have hstatuses : Sample.validated datedStatuses Sample.limits statusesSinceDecember =
      .ok statusesSinceDecember := by decide +kernel
  have hread : (compiledSample datedStatuses lastWeek).any (fun e =>
      (lastWeek.select ++ lastWeek.filters.map FilterSpec.field ++
        orderingFields e.1 lastWeek).all fun name => (e.1.fields.get? name).all fun f =>
          crossesToMany Sample.shop e.1.model f.binding == false) = true := by decide +kernel
  have hsome : (compiledSample datedStatuses statusesSinceDecember).isSome = true := by
    decide +kernel
  obtain ⟨⟨resource, q⟩, h, hone⟩ := (Option.any_eq_true _ _).mp hread
  obtain ⟨⟨resource', q'⟩, h'⟩ := Option.isSome_iff_exists.mp hsome
  obtain ⟨hresource, hq⟩ := compiledSample_ok h
  obtain ⟨hresource', hq'⟩ := compiledSample_ok h'
  obtain rfl : resource = resource' := Except.ok.inj (hresource.symm.trans hresource')
  obtain ⟨r, hr, hregistered, haccepted⟩ := parseAndValidateQueryPlan_ok hweek
  obtain ⟨r', hr', -, haccepted'⟩ := parseAndValidateQueryPlan_ok hstatuses
  obtain rfl : r = resource := Except.ok.inj (hr.symm.trans hresource)
  obtain rfl : r' = r := Except.ok.inj (hr'.symm.trans hresource)
  refine ⟨r', hresource, ?_, ?_, ?_⟩
  · intro name hname f hf
    have hfield := List.all_eq_true.mp hone name hname
    rw [hf] at hfield
    simpa using hfield
  · apply (accepted_executesReference_iff hweek hresource _).mpr
    exact (exists_compiled_iff hregistered haccepted _).mp ⟨q, hq⟩
  · apply (accepted_executesReference_iff hstatuses hresource _).mpr
    exact (exists_compiled_iff hregistered haccepted' _).mp ⟨q', hq'⟩

/-- A null test on a date is accepted and never executed. -/
theorem null_test_on_date_never_executes :
    ¬ ∀ (env : Environment) (registry : CatalogRegistry env) (limits : PlanLimits)
      (access : Access) (raw : RawPlan) (p : QueryPlan) (resource : SemanticResource)
      (now : Clock), parseAndValidateQueryPlan registry limits access raw = .ok p →
        registry.get p.resource = .ok resource → ExecutesReference env resource limits p now := by
  intro h
  have haccepted : Sample.validated datedOrders Sample.limits (dayIsNull true) =
      .ok (dayIsNull true) := by decide +kernel
  obtain ⟨q, hq, -⟩ := h _ _ _ _ _ _ _ Sample.newYear haccepted rfl
  cases hq

end AskLens.Execution
