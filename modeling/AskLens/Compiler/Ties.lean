import AskLens.Compiler.Evaluation
import AskLens.Sample

/-!
# Ties

Two joined rows that tie on every ordering term look the same as long as each
selected field is an ordering term itself or belongs to a row that an ordering
term identifies.
-/
namespace AskLens.Compiler

open Python Django Catalog Planning LeftJoin JoinTree Arrangements Checks

/-! ## The shape of a list query -/

structure CompiledList (graph : ModelGraph) (resource : SemanticResource) (p : QueryPlan)
    (q : CompiledQuery) : Prop where
  values : ∃ fields, p.select.mapM (fieldAt resource) = .ok fields ∧
    q.values.values = fields.map fun f => Expression.f f.binding
  annotations : q.annotations = []
  ordering : buildListOrdering resource p = .ok q.ordering
  resolved : ∀ term ∈ q.ordering, resolveReference graph resource.model term.1 = .ok ()
  stop : q.stop = some (p.limit + 1)
  limit : q.limit = p.limit
  limitScope : q.limitScope = .rows
  detectsTruncation : q.detectsTruncation = true

theorem compiledList {env : Environment} {resource : SemanticResource} {p : QueryPlan}
    {now : Clock} {q : CompiledQuery} (hlist : p.intent = .list)
    (h : compilePreparedQuery env resource p now = .ok q) :
    CompiledList env.graph resource p q ∧
      applyFilters env.graph resource now p.filters = .ok q.calls := by
  obtain ⟨hcalls, fields, hquery⟩ := isListQuery_of_compiled hlist h
  refine ⟨⟨⟨fields, hquery.selected, ?_⟩, hquery.annotations, hquery.ordering, ?_, hquery.stop,
    hquery.limit, hquery.limitScope, hquery.detectsTruncation⟩, hcalls⟩
  · rw [hquery.values]
    exact values_enumerateAliases _ _
  · intro term hterm
    exact forM_eq_ok.mp hquery.resolved _ (List.mem_map_of_mem hterm)

def orderingFields (resource : SemanticResource) (p : QueryPlan) : List String :=
  if p.orderBy = [] then resource.defaultOrder.map Prod.fst
  else p.orderBy.filterMap OrderBySpec.field?

/-- The path is a term of the ordering of a list plan. -/
def OrdersBy (resource : SemanticResource) (p : QueryPlan) (path : String) : Prop :=
  path = resource.rowIdentity ∨
    ∃ name ∈ orderingFields resource p, ∃ f, resource.fields.get? name = some f ∧
      path = f.binding

theorem mem_requestedOrdering_iff {resource : SemanticResource} {p : QueryPlan}
    {ordering : List OrderingTerm} (h : requestedOrdering resource p = .ok ordering)
    {path : String} :
    path ∈ ordering.map Prod.fst ↔ ∃ name ∈ orderingFields resource p, ∃ f,
      resource.fields.get? name = some f ∧ path = f.binding := by
  unfold requestedOrdering at h
  have hnames : ∀ name, name ∈ orderingFields resource p ↔ ∃ d, (name, d) ∈
      (if p.orderBy = [] then resource.defaultOrder
        else p.orderBy.filterMap fun o => o.field?.map fun name => (name, o.direction)) := by
    intro name
    unfold orderingFields
    split_ifs
    · simp
    · simp [List.mem_filterMap]
  constructor
  · intro hpath
    obtain ⟨term, hterm, rfl⟩ := List.mem_map.mp hpath
    obtain ⟨entry, hentry, hf⟩ := exists_of_mem_mapM h hterm
    obtain ⟨f, hfield, hpair⟩ := bind_eq_ok.mp hf
    obtain rfl := Except.ok.inj hpair
    exact ⟨entry.1, (hnames _).mpr ⟨entry.2, hentry⟩, f, fieldAt_ok.mp hfield, rfl⟩
  · rintro ⟨name, hname, f, hf, rfl⟩
    obtain ⟨d, hentry⟩ := (hnames name).mp hname
    obtain ⟨term, hterm, hpair⟩ := exists_result_of_mapM h hentry
    rw [fieldAt_ok.mpr hf, ok_bind] at hpair
    obtain rfl := Except.ok.inj hpair
    exact List.mem_map_of_mem (f := Prod.fst) hterm

theorem mem_buildListOrdering_iff {resource : SemanticResource} {p : QueryPlan}
    {ordering : List OrderingTerm} (h : buildListOrdering resource p = .ok ordering)
    {path : String} : path ∈ ordering.map Prod.fst ↔ OrdersBy resource p path := by
  obtain ⟨requested, hrequested, h⟩ := bind_eq_ok.mp h
  obtain rfl := Except.ok.inj h
  have hiff : path ∈ requested.map Prod.fst ↔ _ := mem_requestedOrdering_iff hrequested
  unfold OrdersBy
  split_ifs with hidentity
  · rw [hiff]
    constructor
    · exact .inr
    · rintro (rfl | hpath)
      · exact hiff.mp hidentity
      · exact hpath
  · rw [List.map_append, List.mem_append, hiff]
    simp [or_comm]

/-! ## What the ordering decides -/

/-- The path `o` reads an identity of a row from which `path` goes on over to-one relations. -/
def IdentifiesBehind (graph : ModelGraph) (model : ModelName) (o path : String) : Prop :=
  ∃ m name rest, (referenceAt graph model o).target = .column m name ∧
    IsRowIdentity graph m name ∧
    hopsOf graph model path = hopsOf graph model o ++ rest ∧ ∀ hop ∈ rest, hop.toMany = false

/-- Every selected field is an ordering term or belongs to a row that an ordering term
identifies. -/
def TiesDecided (graph : ModelGraph) (resource : SemanticResource) (p : QueryPlan) : Prop :=
  ∀ name ∈ p.select, ∀ f, resource.fields.get? name = some f →
    OrdersBy resource p f.binding ∨
      ∃ o, OrdersBy resource p o ∧ IdentifiesBehind graph resource.model o f.binding

section

variable {graph : ModelGraph} {root : ModelName} {R V : Type} {db : Database graph root R V}
  {b : Backend V} {q : CompiledQuery} {c c' : QueryRow R}

theorem isRow_of_mem_rows (h : c ∈ q.rows db b) :
    db.joinTree.IsRow db.table.zipIdx (queryAliases graph root q.calls q.readPaths) c :=
  (mem_rows (grounded_queryAliases db _ _)).mp (List.mem_filter.mp h).1

theorem rowAt_of_identity {o : String} {m : ModelName} {name : String}
    (hc : c ∈ q.rows db b) (hc' : c' ∈ q.rows db b) (ho : o ∈ q.readPaths)
    (hresolved : resolveReference graph root o = .ok ())
    (htarget : (referenceAt graph root o).target = .column m name)
    (hidentity : IsRowIdentity graph m name)
    (hsame : db.readExpression q.calls o c = db.readExpression q.calls o c') :
    rowAt c (TableAlias.reach false (filterAliases graph root q.calls) (hopsOf graph root o)) =
      rowAt c' (TableAlias.reach false (filterAliases graph root q.calls)
        (hopsOf graph root o)) := by
  obtain ⟨field, hfield, hconcrete, hnull, hunique⟩ := hidentity
  obtain ⟨reference, hreference⟩ := resolveReference_eq_ok.mp hresolved
  obtain ⟨hops, target⟩ := reference
  have hat : referenceAt graph root o = ⟨hops, target⟩ := by
    rw [referenceAt, hreference]
    rfl
  rw [hat] at htarget
  dsimp only at htarget
  subst htarget
  have hend : endModel root (hopsOf graph root o) = some m := by
    rw [hopsOf, hat]
    exact endModel_of_column hreference
  have hstored : ∀ {d : QueryRow R} {r : R}, d ∈ q.rows db b →
      rowAt d (TableAlias.reach false (filterAliases graph root q.calls)
        (hopsOf graph root o)) = some r → db.stored m r := fun hd =>
    stored_rowAt (isRow_of_mem_rows hd) (reach_mem_queryAliases ho (List.prefix_refl _)) hend
  have hvalue : ∀ d : QueryRow R, db.readExpression q.calls o d =
      (rowAt d (TableAlias.reach false (filterAliases graph root q.calls)
        (hopsOf graph root o))).bind (db.value m name) := by
    intro d
    unfold Database.readExpression Database.readPath
    rw [readAt_eq_bind, hopsOf, hat]
    rfl
  rw [hvalue, hvalue] at hsame
  have hsome : ∀ r, db.stored m r → (db.value m name r).isSome = true :=
    db.value_some m name field hfield hconcrete hnull
  cases hr : rowAt c (TableAlias.reach false (filterAliases graph root q.calls)
    (hopsOf graph root o)) with
  | none =>
    cases hr' : rowAt c' (TableAlias.reach false (filterAliases graph root q.calls)
      (hopsOf graph root o)) with
    | none => rfl
    | some r' =>
      have hpresent := hsome r' (hstored hc' hr')
      rw [hr, hr', Option.bind_none, Option.bind_some] at hsame
      rw [← hsame] at hpresent
      cases hpresent
  | some r =>
    cases hr' : rowAt c' (TableAlias.reach false (filterAliases graph root q.calls)
      (hopsOf graph root o)) with
    | none =>
      have hpresent := hsome r (hstored hc hr)
      rw [hr, hr', Option.bind_none, Option.bind_some] at hsame
      rw [hsame] at hpresent
      cases hpresent
    | some r' =>
      rw [hr, hr', Option.bind_some, Option.bind_some] at hsame
      rw [db.identifies m name field hfield hconcrete hnull hunique r r' (hstored hc hr)
        (hstored hc' hr') hsame]

/-- What lies behind an identified row over to-one relations is decided by its identity. -/
theorem readExpression_of_identifiesBehind {o path : String} (hc : c ∈ q.rows db b)
    (hc' : c' ∈ q.rows db b) (ho : o ∈ q.readPaths) (hpath : path ∈ q.readPaths)
    (hresolved : resolveReference graph root o = .ok ())
    (h : IdentifiesBehind graph root o path)
    (hsame : db.readExpression q.calls o c = db.readExpression q.calls o c') :
    db.readExpression q.calls path c = db.readExpression q.calls path c' := by
  obtain ⟨m, name, rest, htarget, hidentity, hhops, hone⟩ := h
  have hrow := rowAt_of_identity hc hc' ho hresolved htarget hidentity hsame
  have hreach : ∀ pre, TableAlias.follow false (filterAliases graph root q.calls)
      (TableAlias.reach false (filterAliases graph root q.calls) (hopsOf graph root o)) pre =
      TableAlias.reach false (filterAliases graph root q.calls) (hopsOf graph root o ++ pre) :=
    fun pre => (TableAlias.follow_append _ _).symm
  have hbelow : rowAt c (TableAlias.reach false (filterAliases graph root q.calls)
        (hopsOf graph root path)) =
      rowAt c' (TableAlias.reach false (filterAliases graph root q.calls)
        (hopsOf graph root path)) := by
    rw [hhops, ← hreach]
    refine rowAt_follow (isRow_of_mem_rows hc) (isRow_of_mem_rows hc') (fun pre hpre hne => ?_)
      hone hrow
    rw [hreach]
    have hpart : hopsOf graph root o ++ pre <+: hopsOf graph root path := by
      rw [hhops]
      exact (List.prefix_append_right_inj _).mpr hpre
    refine (List.mem_cons.mp (reach_mem_queryAliases hpath hpart)).resolve_left ?_
    rcases List.eq_nil_or_concat pre with hnil | ⟨init, hop, hpre'⟩
    · exact absurd hnil hne
    · rw [hpre', List.concat_eq_append, TableAlias.reach_eq_follow, ← List.append_assoc,
        TableAlias.follow_append]
      exact step_ne_root _ _ _
  unfold Database.readExpression Database.readPath
  rw [readAt_eq_bind, readAt_eq_bind]
  show (rowAt c (TableAlias.reach _ _ (hopsOf graph root path))).bind _ = _
  rw [hbelow]
  rfl

theorem sliced_map {α β : Type} (f : α → β) (rows : List α) :
    (q.sliced rows).map f = q.sliced (rows.map f) := by
  unfold CompiledQuery.sliced
  split
  · rw [List.map_take]
  · rfl

end

/-- The rows of a list query that tie on the ordering look the same, so the order in which the
database returns ties is not seen. -/
structure ListDetermined (graph : ModelGraph) (root : ModelName) (q : CompiledQuery) : Prop where
  ties : ∀ (R V : Type) [LinearOrder V] (db : Database graph root R V) (b : Backend V),
    ∀ c ∈ q.rows db b, ∀ c' ∈ q.rows db b, q.orderKey db c = q.orderKey db c' →
      q.output db b c = q.output db b c'
  sequence : ∀ (R V : Type) [LinearOrder V] (db : Database graph root R V) (b : Backend V)
    (rows rows' : List (QueryRow R)),
    IsArrangement q.directions (q.orderKey db) (q.rows db b) rows →
      IsArrangement q.directions (q.orderKey db) (q.rows db b) rows' →
        rows.map (q.listRow db b) = rows'.map (q.listRow db b)
  answers : ∀ (R V : Type) [LinearOrder V] (db : Database graph root R V) (b : Backend V)
    (rawRows rawRows' : List (Dict (Option V))), q.Answers db b rawRows →
      q.Answers db b rawRows' → rawRows = rawRows'

theorem listDetermined_of_ties {graph : ModelGraph} {root : ModelName} {q : CompiledQuery}
    (hscope : q.limitScope = .rows)
    (hties : ∀ (R V : Type) [LinearOrder V] (db : Database graph root R V) (b : Backend V),
      ∀ c ∈ q.rows db b, ∀ c' ∈ q.rows db b, q.orderKey db c = q.orderKey db c' →
        q.output db b c = q.output db b c') : ListDetermined graph root q := by
  have hsequence : ∀ (R V : Type) [LinearOrder V] (db : Database graph root R V) (b : Backend V)
      (rows rows' : List (QueryRow R)),
      IsArrangement q.directions (q.orderKey db) (q.rows db b) rows →
        IsArrangement q.directions (q.orderKey db) (q.rows db b) rows' →
          rows.map (q.listRow db b) = rows'.map (q.listRow db b) := by
    intro R V _ db b rows rows' h h'
    refine h.map_eq h' (fun c => ?_) fun c hc c' hc' hkey => ?_
    · simp [CompiledQuery.orderKey, CompiledQuery.directions]
    · unfold CompiledQuery.listRow
      rw [hties R V db b c hc c' hc' hkey]
  refine ⟨hties, hsequence, fun R V _ db b rawRows rawRows' h h' => ?_⟩
  unfold CompiledQuery.Answers at h h'
  rw [hscope] at h h'
  obtain ⟨rows, hrows, rfl⟩ := h
  obtain ⟨rows', hrows', rfl⟩ := h'
  rw [sliced_map, sliced_map, hsequence R V db b rows rows' hrows hrows']

/-- A list plan whose ties are decided has one answer on every database. -/
theorem listDetermined_of_tiesDecided {env : Environment} {resource : SemanticResource}
    {p : QueryPlan} {now : Clock} {q : CompiledQuery} (hlist : p.intent = .list)
    (hcompiled : compilePreparedQuery env resource p now = .ok q)
    (hdecided : TiesDecided env.graph resource p) :
    ListDetermined env.graph resource.model q := by
  obtain ⟨hshape, -⟩ := compiledList hlist hcompiled
  apply listDetermined_of_ties hshape.limitScope
  intro R V _ db b c hc c' hc' hkey
  have hordering : ∀ path ∈ q.ordering.map Prod.fst,
      db.readExpression q.calls path c = db.readExpression q.calls path c' := by
    intro path hpath
    obtain ⟨term, hterm, rfl⟩ := List.mem_map.mp hpath
    exact List.map_inj_left.mp hkey term hterm
  have horderPath : ∀ path ∈ q.ordering.map Prod.fst, path ∈ q.readPaths := by
    intro path hpath
    rw [CompiledQuery.readPaths, CompiledQuery.orderingPaths, hshape.limitScope]
    exact List.mem_append_right _ hpath
  obtain ⟨fields, hfields, hvalues⟩ := hshape.values
  unfold CompiledQuery.output
  apply List.map_congr_left
  intro e he
  congr 1
  have hread : e.path ∈ q.readPaths := by
    rw [CompiledQuery.readPaths, List.append_assoc]
    exact List.mem_append_left _ (List.mem_map_of_mem he)
  rw [hvalues] at he
  obtain ⟨f, hf, rfl⟩ := List.mem_map.mp he
  obtain ⟨name, hname, hfield⟩ := exists_of_mem_mapM hfields hf
  rcases hdecided name hname f (fieldAt_ok.mp hfield) with hordered | ⟨o, ho, hidentifies⟩
  · exact hordering _ ((mem_buildListOrdering_iff hshape.ordering).mpr hordered)
  · have ho := (mem_buildListOrdering_iff hshape.ordering).mpr ho
    obtain ⟨term, hterm, rfl⟩ := List.mem_map.mp ho
    exact readExpression_of_identifiesBehind hc hc' (horderPath _ ho) hread
      (hshape.resolved term hterm) hidentifies (hordering _ ho)

def itemNames : CatalogRegistry Sample.environment :=
  Sample.registryOf (Sample.orderArgs
    [("number", .config (Sample.fieldConfig "number" "string")),
      ("item", .config (Sample.fieldConfig "items__name" "string"))])

/-- The compiled list query of a sample plan over the resource `orders`. -/
def compiledSample (registry : CatalogRegistry Sample.environment) (p : QueryPlan) :
    Option (SemanticResource × CompiledQuery) :=
  match registry.get "orders" with
  | .ok resource =>
    match compilePreparedQuery Sample.environment resource p Sample.newYear with
    | .ok q => some (resource, q)
    | .error _ => none
  | .error _ => none

theorem compiledSample_ok {registry : CatalogRegistry Sample.environment} {p : QueryPlan}
    {resource : SemanticResource} {q : CompiledQuery}
    (h : compiledSample registry p = some (resource, q)) :
    registry.get "orders" = .ok resource ∧
      compilePreparedQuery Sample.environment resource p Sample.newYear = .ok q := by
  unfold compiledSample at h
  cases hresource : registry.get "orders" with
  | error e => simp [hresource] at h
  | ok r =>
    rw [hresource] at h
    dsimp only at h
    cases hq : compilePreparedQuery Sample.environment r p Sample.newYear with
    | error e => simp [hq] at h
    | ok q' =>
      rw [hq] at h
      simp only [Option.some.injEq, Prod.mk.injEq] at h
      obtain ⟨rfl, rfl⟩ := h
      exact ⟨rfl, hq⟩

def itemsByName : QueryPlan :=
  { Sample.listPlan ["item"] with orderBy? := some [⟨.field "item", false, none⟩] }

theorem itemsByName_listDetermined :
    ∃ resource q, itemNames.get "orders" = .ok resource ∧
      compilePreparedQuery Sample.environment resource itemsByName Sample.newYear = .ok q ∧
      ListDetermined Sample.environment.graph resource.model q := by
  have hcompiled : (compiledSample itemNames itemsByName).isSome = true := by decide +kernel
  obtain ⟨⟨resource, q⟩, h⟩ := Option.isSome_iff_exists.mp hcompiled
  obtain ⟨hresource, hq⟩ := compiledSample_ok h
  refine ⟨resource, q, hresource, hq, listDetermined_of_tiesDecided rfl hq ?_⟩
  intro name hname f hf
  obtain rfl : name = "item" := List.mem_singleton.mp hname
  refine .inl (.inr ⟨"item", ?_, f, hf, rfl⟩)
  simp [orderingFields, itemsByName, QueryPlan.orderBy, OrderBySpec.field?,
    OrderBySpec.fieldName?]

/-- Two items of one order tie on the identity of the order. -/
theorem items_of_one_order_tie :
    ¬ ∀ (env : Environment) (registry : CatalogRegistry env) (limits : PlanLimits)
      (access : Access) (raw : RawPlan) (p : QueryPlan) (resource : SemanticResource)
      (now : Clock) (q : CompiledQuery),
      parseAndValidateQueryPlan registry limits access raw = .ok p →
        registry.get p.resource = .ok resource → p.intent = .list →
          compilePreparedQuery env resource p now = .ok q →
            ListDetermined env.graph resource.model q := by
  intro h
  have haccepted : Sample.validated itemNames Sample.limits (Sample.listPlan ["item"]) =
      .ok (Sample.listPlan ["item"]) := by decide +kernel
  have hcompiled : (compiledSample itemNames (Sample.listPlan ["item"])).map (fun e =>
      (e.1.model, (e.2.rows Sample.twoItems Sample.backend).map fun c =>
        (e.2.orderKey Sample.twoItems c, e.2.output Sample.twoItems Sample.backend c))) =
      some ("order", [([some 0], [some 1]), ([some 0], [some 2])]) := by decide +kernel
  obtain ⟨⟨resource, q⟩, hsample, hpair⟩ := Option.map_eq_some_iff.mp hcompiled
  simp only [Prod.mk.injEq] at hpair
  obtain ⟨hmodel, hrows⟩ := hpair
  obtain ⟨hresource, hq⟩ := compiledSample_ok hsample
  have hdetermined := h _ _ _ _ _ _ _ _ _ haccepted hresource rfl hq
  rw [hmodel] at hdetermined
  have hmem : ∀ x ∈ [([some 0], [some 1]), ([some 0], [some 2])],
      ∃ c ∈ q.rows Sample.twoItems Sample.backend, (q.orderKey Sample.twoItems c,
        q.output Sample.twoItems Sample.backend c) = x := by
    intro x hx
    rw [← hrows] at hx
    exact List.mem_map.mp hx
  obtain ⟨c, hc, hfirst⟩ := hmem ([some 0], [some 1]) (by simp)
  obtain ⟨c', hc', hsecond⟩ := hmem ([some 0], [some 2]) (by simp)
  simp only [Prod.mk.injEq] at hfirst hsecond
  have hsame := hdetermined.ties ℕ ℕ Sample.twoItems Sample.backend c hc c' hc'
    (hfirst.1.trans hsecond.1.symm)
  have hvalues := (hfirst.2.symm.trans hsame).trans hsecond.2
  exact absurd hvalues (by decide)

end AskLens.Compiler
