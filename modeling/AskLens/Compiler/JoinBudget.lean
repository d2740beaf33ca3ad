import AskLens.Compiler.Orm
import AskLens.Planning.Accepted
import AskLens.Sample

/-!
# The join budget

The validator counts the relationship edges of the members that a plan names.
The compiler also orders a list plan without `order_by` by the default order of
the resource, whose edges nobody counts.
-/
namespace AskLens.Compiler

open Python Django Catalog Planning Checks

/-! ## The paths of a compiled query -/

def FilterCall.paths : FilterCall → List String
  | .filter conditions => conditions.map Condition.path
  | .exclude condition => [condition.path]

/-- The ordering terms that are paths; a grouped query orders by aliases. -/
def CompiledQuery.orderingPaths (q : CompiledQuery) : List String :=
  match q.limitScope with
  | .rows => q.ordering.map Prod.fst
  | .groups => []

def CompiledQuery.paths (q : CompiledQuery) : List String :=
  q.calls.flatMap FilterCall.paths ++ q.values.values.map Expression.path ++
    q.annotations.values.map Aggregate.path ++ q.orderingPaths

/-- The default order applies to a list plan without `order_by`. -/
def usesDefaultOrder (p : QueryPlan) : Bool := p.intent == .list && p.orderBy == []

def defaultOrderFields (resource : SemanticResource) (p : QueryPlan) : List String :=
  if usesDefaultOrder p then resource.defaultOrder.map Prod.fst else []

def touchedFields (resource : SemanticResource) (p : QueryPlan) : List String :=
  (planFieldReferences p).map PyStr.shown ++ defaultOrderFields resource p

/-- The relationship edges of all touched bindings, without repetition. -/
def touchedEdges (resource : SemanticResource) (p : QueryPlan) : List Edge :=
  ((touchedFields resource p).flatMap (fun name =>
      ((resource.fields.get? name).map FieldSpec.relationshipEdges).getD []) ++
    p.metrics.flatMap fun spec =>
      ((resource.metrics.get? spec.metric).map Metric.relationshipEdges).getD []).eraseDups

/-- The touched bindings stay within the two join limits. -/
structure WithinJoinBudget (resource : SemanticResource) (limits : PlanLimits)
    (p : QueryPlan) : Prop where
  edges : (touchedEdges resource p).length ≤ limits.maxRelationshipEdges
  fields : ∀ name ∈ touchedFields resource p, ∀ f, resource.fields.get? name = some f →
    f.relationDepth ≤ limits.maxJoins
  metrics : ∀ m ∈ p.metrics, ∀ metric, resource.metrics.get? m.metric = some metric →
    metric.relationDepth ≤ limits.maxJoins

/-! ## The compiled query touches nothing else -/

/-- A path of a member that the plan, or the default order it uses, refers to. -/
def TouchedPath (resource : SemanticResource) (p : QueryPlan) (path : String) : Prop :=
  path = resource.rowIdentity ∨
    (∃ name ∈ touchedFields resource p, ∃ f, resource.fields.get? name = some f ∧
      path = f.binding) ∨
    ∃ m ∈ p.metrics, ∃ metric, resource.metrics.get? m.metric = some metric ∧
      (path = metric.binding ∨ some path = metric.distinctKey)

theorem windowConditions_path {path : String} {type : FieldType} {start stop : OrmValue} :
    ∀ c ∈ windowConditions path type start stop, c.path = path := by
  intro c hc
  simp only [windowConditions, List.mem_cons, List.not_mem_nil, or_false] at hc
  rcases hc with rfl | rfl <;> rfl

theorem buildRelativeQ_window {path : String} {type : FieldType} {zone : ZoneInfo} {now : Clock}
    {op : FilterOperator} {value : FilterValue} {conditions : List Condition}
    (h : buildRelativeQ path type zone now op value = .ok conditions) :
    ∃ start stop, conditions = windowConditions path type start stop := by
  unfold buildRelativeQ at h
  split at h
  · obtain ⟨bounds, -, h⟩ := bind_eq_ok.mp h
    split_ifs at h
    · obtain ⟨days, -, h⟩ := bind_eq_ok.mp h
      exact ⟨_, _, (Except.ok.inj h).symm⟩
    · exact ⟨_, _, (Except.ok.inj h).symm⟩
  · cases h

theorem buildFilterQ_cases {field : FieldSpec} {zone : ZoneInfo} {now : Clock} {x : FilterSpec}
    {conditions : List Condition} (h : buildFilterQ field zone now x = .ok conditions) :
    (∃ start stop, conditions = windowConditions field.binding field.type start stop) ∨
      ∃ lookup operand, conditions = [⟨field.binding, lookup, operand⟩] := by
  unfold buildFilterQ at h
  split at h
  · unfold buildDateRangeQ at h
    split at h
    · obtain ⟨start, -, h⟩ := bind_eq_ok.mp h
      obtain ⟨stop, -, h⟩ := bind_eq_ok.mp h
      exact .inl ⟨start, stop, (Except.ok.inj h).symm⟩
    · cases h
  · exact .inl (buildRelativeQ_window h)
  · exact .inl (buildRelativeQ_window h)
  · obtain ⟨operand, -, h⟩ := bind_eq_ok.mp h
    split at h
    · exact .inr ⟨_, operand, (Except.ok.inj h).symm⟩
    · cases h

theorem buildFilterQ_path {field : FieldSpec} {zone : ZoneInfo} {now : Clock} {x : FilterSpec}
    {conditions : List Condition} (h : buildFilterQ field zone now x = .ok conditions) :
    ∀ c ∈ conditions, c.path = field.binding := by
  rcases buildFilterQ_cases h with ⟨start, stop, rfl⟩ | ⟨lookup, operand, rfl⟩
  · exact windowConditions_path
  · simp

theorem applyFilter_paths {graph : ModelGraph} {resource : SemanticResource} {now : Clock}
    {x : FilterSpec} {calls : List FilterCall}
    (h : applyFilter graph resource now x = .ok calls) :
    ∃ f, resource.fields.get? x.field = some f ∧
      ∀ call ∈ calls, ∀ path ∈ FilterCall.paths call, path = f.binding := by
  obtain ⟨f, hf, h⟩ := bind_eq_ok.mp h
  obtain ⟨conditions, hconditions, h⟩ := bind_eq_ok.mp h
  obtain ⟨_, -, h⟩ := bind_eq_ok.mp h
  obtain rfl := Except.ok.inj h
  have hpath := buildFilterQ_path hconditions
  refine ⟨f, fieldAt_ok.mp hf, fun call hcall path hmem => ?_⟩
  unfold filterCalls at hcall
  split at hcall
  · rcases List.mem_cons.mp hcall with rfl | hcall
    · simpa [FilterCall.paths] using hmem
    · obtain ⟨c, hc, rfl⟩ := List.mem_map.mp hcall
      obtain rfl : path = c.path := by simpa [FilterCall.paths] using hmem
      exact hpath c hc
  · obtain rfl := List.mem_singleton.mp hcall
    obtain ⟨c, hc, rfl⟩ := List.mem_map.mp hmem
    exact hpath c hc

theorem mem_shown_references {p : QueryPlan} {name : String} :
    name ∈ (planFieldReferences p).map PyStr.shown ↔
      name ∈ p.select ∨ name ∈ p.filters.map FilterSpec.field ∨
        name ∈ p.groupBy.map GroupBySpec.field ∨ name ∈ p.orderBy.filterMap OrderBySpec.field? := by
  simp only [map_shown_references, List.mem_append]
  tauto

theorem applyFilters_paths {graph : ModelGraph} {resource : SemanticResource} {now : Clock}
    {p : QueryPlan} {calls : List FilterCall}
    (h : applyFilters graph resource now p.filters = .ok calls) :
    ∀ call ∈ calls, ∀ path ∈ FilterCall.paths call, TouchedPath resource p path := by
  obtain ⟨parts, hparts, h⟩ := bind_eq_ok.mp h
  obtain rfl := Except.ok.inj h
  intro call hcall path hpath
  obtain ⟨part, hpart, hcall⟩ := List.mem_flatten.mp hcall
  obtain ⟨x, hx, hx'⟩ := exists_of_mem_mapM hparts hpart
  obtain ⟨f, hf, hbinding⟩ := applyFilter_paths hx'
  refine .inr (.inl ⟨x.field, ?_, f, hf, hbinding call hcall path hpath⟩)
  apply List.mem_append_left
  rw [mem_shown_references]
  exact .inr (.inl (List.mem_map_of_mem hx))

theorem mem_requestedOrdering {resource : SemanticResource} {p : QueryPlan}
    {ordering : List OrderingTerm} (hlist : p.intent = .list)
    (h : requestedOrdering resource p = .ok ordering) :
    ∀ term ∈ ordering, TouchedPath resource p term.1 := by
  intro term hterm
  obtain ⟨entry, hentry, hf⟩ := exists_of_mem_mapM h hterm
  obtain ⟨f, hfield, hbinding⟩ := bind_eq_ok.mp hf
  obtain rfl := Except.ok.inj hbinding
  refine .inr (.inl ⟨entry.1, ?_, f, fieldAt_ok.mp hfield, rfl⟩)
  split_ifs at hentry with hempty
  · apply List.mem_append_right
    have huses : usesDefaultOrder p = true := by simp [usesDefaultOrder, hlist, hempty]
    rw [defaultOrderFields, if_pos huses]
    exact List.mem_map_of_mem hentry
  · apply List.mem_append_left
    rw [mem_shown_references]
    obtain ⟨o, ho, hname⟩ := List.mem_filterMap.mp hentry
    obtain ⟨name, hname', rfl⟩ := Option.map_eq_some_iff.mp hname
    exact .inr (.inr (.inr (List.mem_filterMap.mpr ⟨o, ho, hname'⟩)))

theorem IsListQuery.paths_touched {graph : ModelGraph} {resource : SemanticResource}
    {p : QueryPlan} {fields : List FieldSpec} {q : CompiledQuery} (hlist : p.intent = .list)
    (h : IsListQuery graph resource p fields q)
    (hcalls : ∀ call ∈ q.calls, ∀ path ∈ FilterCall.paths call, TouchedPath resource p path) :
    ∀ path ∈ q.paths, TouchedPath resource p path := by
  intro path hpath
  rw [CompiledQuery.paths, CompiledQuery.orderingPaths, h.limitScope, h.annotations] at hpath
  simp only [List.mem_append] at hpath
  rcases hpath with ((hpath | hpath) | hpath) | hpath
  · obtain ⟨call, hcall, hpath⟩ := List.mem_flatMap.mp hpath
    exact hcalls call hcall path hpath
  · rw [h.values, values_enumerateAliases, List.map_map] at hpath
    obtain ⟨f, hf, rfl⟩ := List.mem_map.mp hpath
    obtain ⟨name, hname, hf⟩ := exists_of_mem_mapM h.selected hf
    refine .inr (.inl ⟨name, ?_, f, fieldAt_ok.mp hf, rfl⟩)
    exact List.mem_append_left _ (mem_shown_references.mpr (.inl hname))
  · cases hpath
  · obtain ⟨requested, hrequested, hordering⟩ := bind_eq_ok.mp h.ordering
    rw [← Except.ok.inj hordering] at hpath
    obtain ⟨term, hterm, rfl⟩ := List.mem_map.mp hpath
    split_ifs at hterm
    · exact mem_requestedOrdering hlist hrequested term hterm
    · rcases List.mem_append.mp hterm with hterm | hterm
      · exact mem_requestedOrdering hlist hrequested term hterm
      · obtain rfl := List.mem_singleton.mp hterm
        exact .inl rfl

theorem buildAggregate_path {m : Metric} :
    (buildAggregate m).path = m.binding ∨ some (buildAggregate m).path = m.distinctKey := by
  unfold buildAggregate
  split
  · cases h : m.distinctKey <;> simp
  · exact .inl rfl

theorem buildDateTruncExpression_path (binding : String) (trunc : Option DateTrunc)
    (type : FieldType) (zone : ZoneInfo) :
    (buildDateTruncExpression binding trunc type zone).path = binding := by
  cases trunc <;> rfl

theorem IsAggregateQuery.paths_touched {env : Environment} {resource : SemanticResource}
    {p : QueryPlan} {groupFields : List FieldSpec} {metrics : List Metric} {q : CompiledQuery}
    (h : IsAggregateQuery env resource p groupFields metrics q)
    (hcalls : ∀ call ∈ q.calls, ∀ path ∈ FilterCall.paths call, TouchedPath resource p path) :
    ∀ path ∈ q.paths, TouchedPath resource p path := by
  intro path hpath
  rw [CompiledQuery.paths, CompiledQuery.orderingPaths, h.limitScope] at hpath
  simp only [List.mem_append] at hpath
  rcases hpath with ((hpath | hpath) | hpath) | hpath
  · obtain ⟨call, hcall, hpath⟩ := List.mem_flatMap.mp hpath
    exact hcalls call hcall path hpath
  · rw [h.values, values_enumerateAliases, List.map_map] at hpath
    obtain ⟨e, he, rfl⟩ := List.mem_map.mp hpath
    obtain ⟨g, hg, hf⟩ := exists_of_mem_mapM h.grouped (List.of_mem_zip he).1
    refine .inr (.inl ⟨g.field, ?_, e.1, fieldAt_ok.mp hf,
      buildDateTruncExpression_path _ _ _ _⟩)
    apply List.mem_append_left
    exact mem_shown_references.mpr (.inr (.inr (.inl (List.mem_map_of_mem hg))))
  · rw [h.annotations, values_enumerateAliases, List.map_map] at hpath
    obtain ⟨metric, hmetric, rfl⟩ := List.mem_map.mp hpath
    obtain ⟨m, hm, hmetric⟩ := exists_of_mem_mapM h.computed hmetric
    exact .inr (.inr ⟨m, hm, metric, metricAt_ok.mp hmetric, buildAggregate_path⟩)
  · cases hpath

/-- The compiled query refers to the row identity and to the touched bindings only. -/
theorem compiled_paths_touched {env : Environment} {resource : SemanticResource} {p : QueryPlan}
    {now : Clock} {q : CompiledQuery} (h : compilePreparedQuery env resource p now = .ok q) :
    ∀ path ∈ q.paths, TouchedPath resource p path := by
  cases hintent : p.intent with
  | list =>
    obtain ⟨hcalls, fields, hquery⟩ := isListQuery_of_compiled hintent h
    exact hquery.paths_touched hintent (applyFilters_paths hcalls)
  | aggregate =>
    obtain ⟨hcalls, groupFields, metrics, hquery⟩ := isAggregateQuery_of_compiled hintent h
    exact hquery.paths_touched (applyFilters_paths hcalls)

/-! ## The budget -/

/-- The plan with the default order written out as its `order_by`. -/
def withExplicitOrder (resource : SemanticResource) (p : QueryPlan) : QueryPlan :=
  { p with orderBy? := some (resource.defaultOrder.map fun term =>
      ⟨.field term.1, false, some term.2⟩) }

/-- The default order passes the checks of the validator that it would meet as an explicit
`order_by`. -/
structure DefaultOrderFits (resource : SemanticResource) (limits : PlanLimits)
    (p : QueryPlan) : Prop where
  edges : validateEdgeBudget resource limits (withExplicitOrder resource p) = .ok ()
  depth : ∀ name ∈ resource.defaultOrder.map Prod.fst, ∀ f, resource.fields.get? name = some f →
    f.relationDepth ≤ limits.maxJoins

theorem collectRelationshipEdges_of_texts {resource : SemanticResource} {p : QueryPlan}
    (h : p.NamesAreTexts) : collectRelationshipEdges resource p =
      (((planFieldReferences p).map PyStr.shown).flatMap (fun name =>
          ((resource.fields.get? name).map FieldSpec.relationshipEdges).getD []) ++
        p.metrics.flatMap fun spec =>
          ((resource.metrics.get? spec.metric).map Metric.relationshipEdges).getD []).eraseDups := by
  have hfields : ∀ name ∈ planFieldReferences p,
      ((named? resource.fields name).map FieldSpec.relationshipEdges).getD [] =
        ((resource.fields.get? name.shown).map FieldSpec.relationshipEdges).getD [] := by
    intro name hname
    rw [named?_of_isText (h.references name hname)]
  have hmetrics : ∀ spec ∈ p.metrics,
      ((named? resource.metrics spec.metricName).map Metric.relationshipEdges).getD [] =
        ((resource.metrics.get? spec.metric).map Metric.relationshipEdges).getD [] := by
    intro spec hspec
    rw [named?_of_isText (h.metrics spec hspec)]
    rfl
  rw [collectRelationshipEdges, List.flatMap_map, List.flatMap_congr hfields,
    List.flatMap_congr hmetrics]

theorem touchedEdges_of_explicit {resource : SemanticResource} {p : QueryPlan}
    (htexts : p.NamesAreTexts) (h : usesDefaultOrder p = false) :
    touchedEdges resource p = collectRelationshipEdges resource p := by
  rw [collectRelationshipEdges_of_texts htexts]
  unfold touchedEdges touchedFields defaultOrderFields
  rw [if_neg (by simp [h]), List.append_nil]

theorem namesAreTexts_withExplicitOrder {resource : SemanticResource} {p : QueryPlan}
    (h : p.NamesAreTexts) : (withExplicitOrder resource p).NamesAreTexts := by
  refine ⟨h.select, h.filters, h.groupBy, h.metrics, fun o ho => ?_⟩
  obtain ⟨term, -, rfl⟩ := List.mem_map.mp ho
  rfl

/-- The default order joins what it would join as an explicit `order_by`. -/
theorem touchedEdges_of_default {resource : SemanticResource} {p : QueryPlan}
    (htexts : p.NamesAreTexts) (h : usesDefaultOrder p = true) :
    touchedEdges resource p = collectRelationshipEdges resource (withExplicitOrder resource p) := by
  have hempty : p.orderBy = [] := by
    simp only [usesDefaultOrder, Bool.and_eq_true, beq_iff_eq] at h
    exact h.2
  have hnames : (withExplicitOrder resource p).orderBy.filterMap OrderBySpec.field? =
      resource.defaultOrder.map Prod.fst := by
    show (resource.defaultOrder.map _).filterMap OrderBySpec.field? = _
    rw [List.filterMap_map, ← List.filterMap_eq_map]
    rfl
  have hfields : touchedFields resource p =
      (planFieldReferences (withExplicitOrder resource p)).map PyStr.shown := by
    unfold touchedFields defaultOrderFields
    rw [map_shown_references, map_shown_references, if_pos h, hempty, hnames, List.filterMap_nil,
      List.append_nil]
    rfl
  rw [collectRelationshipEdges_of_texts (namesAreTexts_withExplicitOrder htexts)]
  unfold touchedEdges
  rw [hfields]
  rfl

theorem planFieldReferences_depth {env : Environment} {resource : SemanticResource}
    {limits : PlanLimits} {access : Access} {p : QueryPlan}
    (h : Accepted env resource limits access p) {name : String}
    (hname : name ∈ (planFieldReferences p).map PyStr.shown) {f : FieldSpec}
    (hf : resource.fields.get? name = some f) : f.relationDepth ≤ limits.maxJoins := by
  have hdepth : ∀ usage g, UsableField resource limits access usage name g →
      f.relationDepth ≤ limits.maxJoins := by
    intro usage g hg
    obtain rfl : f = g := Option.some.inj (hf.symm.trans hg.1)
    exact checkFieldUsage_depth hg.2
  rw [mem_shown_references] at hname
  rcases hname with hname | hname | hname | hname
  · obtain ⟨g, hg⟩ := h.select name hname
    exact hdepth .select g hg
  · obtain ⟨x, hx, rfl⟩ := List.mem_map.mp hname
    obtain ⟨g, hg⟩ := h.filters x hx
    exact hdepth .filter g hg.usable
  · obtain ⟨x, hx, rfl⟩ := List.mem_map.mp hname
    obtain ⟨g, hg, -⟩ := h.groupBy x hx
    exact hdepth .groupBy g hg
  · obtain ⟨o, ho, hname⟩ := List.mem_filterMap.mp hname
    have htarget := h.texts.target_of_field? ho hname
    obtain ⟨⟨g, hg⟩, -⟩ := h.orderBy.field name (List.mem_map.mpr ⟨o, ho, htarget⟩)
    exact hdepth .orderBy g hg

/-- The compiled query touches the listed bindings only, and they stay within the join budget
exactly when the plan brings its own order or the default order fits. -/
theorem accepted_withinJoinBudget_iff {env : Environment} {registry : CatalogRegistry env}
    {limits : PlanLimits} {access : Access} {raw : RawPlan} {p : QueryPlan}
    {resource : SemanticResource}
    (haccepted : parseAndValidateQueryPlan registry limits access raw = .ok p)
    (hresource : registry.get p.resource = .ok resource) :
    (∀ now q, compilePreparedQuery env resource p now = .ok q →
      ∀ path ∈ q.paths, TouchedPath resource p path) ∧
    (WithinJoinBudget resource limits p ↔
      (usesDefaultOrder p = true → DefaultOrderFits resource limits p)) := by
  obtain ⟨r, hr, -, h⟩ := parseAndValidateQueryPlan_ok haccepted
  obtain rfl : r = resource := Except.ok.inj (hr.symm.trans hresource)
  refine ⟨fun now q hq => compiled_paths_touched hq, ?_⟩
  constructor
  · intro hbudget huses
    refine ⟨?_, fun name hname f hf => hbudget.fields name ?_ f hf⟩
    · have hedges := hbudget.edges
      rw [touchedEdges_of_default h.texts huses] at hedges
      rw [validateEdgeBudget, raiseIf_eq_ok]
      omega
    · rw [touchedFields, defaultOrderFields, if_pos huses]
      exact List.mem_append_right _ hname
  · intro hfits
    refine ⟨?_, fun name hname f hf => ?_, fun m hm metric hmetric => ?_⟩
    · by_cases huses : usesDefaultOrder p = true
      · have hedges := (hfits huses).edges
        rw [validateEdgeBudget, raiseIf_eq_ok, ← touchedEdges_of_default h.texts huses] at hedges
        omega
      · rw [touchedEdges_of_explicit h.texts (by simpa using huses)]
        exact h.edges
    · rcases List.mem_append.mp hname with hname | hname
      · exact planFieldReferences_depth h hname hf
      · unfold defaultOrderFields at hname
        split_ifs at hname with huses
        · exact (hfits huses).depth name hname f hf
        · simp at hname
    · obtain ⟨g, hg⟩ := h.metrics m hm
      obtain rfl : metric = g := Option.some.inj (hmetric.symm.trans hg.1)
      exact validateMetricUsage_depth hg.2

/-- Orders with the name of their items; `order` is the default order. -/
def orderedOrders (order : List (String × String)) : CatalogRegistry Sample.environment :=
  Sample.registryOf
    { Sample.orderArgs
        [("number", .config (Sample.fieldConfig "number" "string")),
          ("item", .config (Sample.fieldConfig "items__name" "string"))] with
      defaultOrder := order }

/-- Limits that allow no relationship at all. -/
def noJoins : PlanLimits := { Sample.limits with maxJoins := 0, maxRelationshipEdges := 0 }

/-- The items are joined for the selection and for the default order. -/
theorem itemList_withinJoinBudget :
    ∃ resource, (orderedOrders [("item", "asc")]).get "orders" = .ok resource ∧
      touchedEdges resource (Sample.listPlan ["item"]) ≠ [] ∧
      (∀ now q, compilePreparedQuery Sample.environment resource (Sample.listPlan ["item"]) now =
        .ok q → ∀ path ∈ q.paths, TouchedPath resource (Sample.listPlan ["item"]) path) ∧
      WithinJoinBudget resource Sample.limits (Sample.listPlan ["item"]) := by
  have haccepted : Sample.validated (orderedOrders [("item", "asc")]) Sample.limits
      (Sample.listPlan ["item"]) = .ok (Sample.listPlan ["item"]) := by decide +kernel
  have hfits : ((orderedOrders [("item", "asc")]).get "orders").toOption.any (fun r =>
      touchedEdges r (Sample.listPlan ["item"]) != [] &&
        (validateEdgeBudget r Sample.limits
          (withExplicitOrder r (Sample.listPlan ["item"])) == .ok ()) &&
        (r.defaultOrder.map Prod.fst).all fun name => (r.fields.get? name).all fun f =>
          f.relationDepth ≤ Sample.limits.maxJoins) = true := by decide +kernel
  obtain ⟨resource, hresource, hfits⟩ := exists_of_any_toOption hfits
  simp only [Bool.and_eq_true, bne_iff_ne, ne_eq, beq_iff_eq] at hfits
  obtain ⟨⟨hedges, hbudget⟩, hdepth⟩ := hfits
  obtain ⟨hpaths, hwithin⟩ := accepted_withinJoinBudget_iff haccepted hresource
  refine ⟨resource, hresource, hedges, hpaths, hwithin.mpr fun _ => ⟨hbudget, ?_⟩⟩
  intro name hname f hf
  have hfield := List.all_eq_true.mp hdepth name hname
  rw [hf] at hfield
  exact of_decide_eq_true hfield

/-- The default order joins the items although no relationship is allowed. -/
theorem default_order_exceeds_join_budget :
    ¬ ∀ (env : Environment) (registry : CatalogRegistry env) (limits : PlanLimits)
      (access : Access) (raw : RawPlan) (p : QueryPlan) (resource : SemanticResource),
      parseAndValidateQueryPlan registry limits access raw = .ok p →
        registry.get p.resource = .ok resource → WithinJoinBudget resource limits p := by
  intro h
  have haccepted : Sample.validated (orderedOrders [("item", "asc")]) noJoins
      (Sample.listPlan ["number"]) = .ok (Sample.listPlan ["number"]) := by decide +kernel
  have hbudget := h _ _ _ _ _ _ _ haccepted rfl
  exact absurd hbudget.edges (by decide +kernel)

end AskLens.Compiler
