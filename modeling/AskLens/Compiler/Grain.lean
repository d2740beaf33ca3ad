import AskLens.Compiler.Ties

/-!
# Metrics side by side

All metrics of a plan are evaluated over one set of joined rows. The joins of
one metric repeat the rows of another, and a metric that counts repetitions sees
them unless it crosses the same to-many relations itself.
-/
namespace AskLens.Compiler

open Python Django Catalog Planning LeftJoin JoinTree Checks

/-! ## The shape of an aggregate query -/

structure CompiledAggregate (env : Environment) (resource : SemanticResource) (p : QueryPlan)
    (q : CompiledQuery) : Prop where
  metrics : ∃ metrics, p.metrics.mapM (fun m => metricAt resource m.metric) = .ok metrics ∧
    q.annotations = enumerateAliases metricAlias (metrics.map buildAggregate)
  groups : ∃ groupFields, p.groupBy.mapM (fun g => fieldAt resource g.field) = .ok groupFields ∧
    q.values = enumerateAliases groupAlias ((groupFields.zip p.groupBy).map fun e =>
      buildDateTruncExpression e.1.binding e.2.dateTrunc e.1.type resource.timezone)
  ungrouped : q.ungrouped = decide (p.groupBy = [])
  limitScope : q.limitScope = .groups

theorem compiledAggregate {env : Environment} {resource : SemanticResource} {p : QueryPlan}
    {now : Clock} {q : CompiledQuery} (haggregate : p.intent = .aggregate)
    (h : compilePreparedQuery env resource p now = .ok q) :
    CompiledAggregate env resource p q ∧
      applyFilters env.graph resource now p.filters = .ok q.calls := by
  obtain ⟨hcalls, groupFields, metrics, hquery⟩ := isAggregateQuery_of_compiled haggregate h
  exact ⟨⟨⟨metrics, hquery.computed, hquery.annotations⟩,
    ⟨groupFields, hquery.grouped, hquery.values⟩, hquery.ungrouped, hquery.limitScope⟩, hcalls⟩

/-- The plan with the same filters and groups that requests one metric only. -/
def requestingAlone (p : QueryPlan) (spec : MetricSpec) : QueryPlan :=
  { p with metrics? := some [spec], orderBy? := none }

theorem compile_requestingAlone {env : Environment} {resource : SemanticResource} {p : QueryPlan}
    {now : Clock} {q : CompiledQuery} {spec : MetricSpec} (haggregate : p.intent = .aggregate)
    (h : compilePreparedQuery env resource p now = .ok q) (hspec : spec ∈ p.metrics) :
    ∃ alone, compilePreparedQuery env resource (requestingAlone p spec) now = .ok alone := by
  obtain ⟨calls, hcalls, h⟩ := bind_eq_ok.mp h
  rw [haggregate] at h
  simp only [compileAggregateQuery, bind_eq_ok] at h
  obtain ⟨groupFields, hgroups, metrics, hmetrics, h⟩ := h
  obtain ⟨metric, hmem, hmetric⟩ := exists_result_of_mapM hmetrics hspec
  have halone : [spec].mapM (fun m => metricAt resource m.metric) = .ok [metric] := by
    rw [List.mapM_cons, hmetric]
    rfl
  have hcompile : ∀ alone, compileAggregateQuery env resource (requestingAlone p spec) calls =
      .ok alone → ∃ alone, compilePreparedQuery env resource (requestingAlone p spec) now =
        .ok alone := by
    intro alone halone
    refine ⟨alone, bind_eq_ok.mpr ⟨calls, hcalls, ?_⟩⟩
    have hintent : (requestingAlone p spec).intent = .aggregate := haggregate
    rw [hintent]
    exact halone
  split_ifs at h with hempty
  · exact hcompile _ (bind_eq_ok.mpr ⟨groupFields, hgroups,
      bind_eq_ok.mpr ⟨[metric], halone, if_pos hempty⟩⟩)
  · simp only [bind_eq_ok] at h
    obtain ⟨_, hvalues, _, hpaths, ordering, -, h⟩ := h
    have hpath : [(buildAggregate metric).path].forM
        (resolveReference env.graph resource.model) = .ok () := by
      rw [forM_eq_ok] at hpaths ⊢
      intro path hpath
      obtain rfl := List.mem_singleton.mp hpath
      apply hpaths
      rw [values_enumerateAliases, List.map_map]
      exact List.mem_map_of_mem (f := Aggregate.path ∘ buildAggregate) hmem
    obtain ⟨targets, htargets⟩ : ∃ targets, p.groupBy.mapM (fun g =>
        aliasAt (publicAliases groupAlias (p.groupBy.map GroupBySpec.field)) g.field) =
        .ok targets := by
      rw [mapM_ok_iff]
      intro g hg
      exact aliasAt_publicAliases (List.mem_map_of_mem hg)
    have hordering : ∀ metricAliases, buildGroupedOrdering
        (publicAliases groupAlias (p.groupBy.map GroupBySpec.field)) metricAliases
        (requestingAlone p spec) = .ok ([] ++ missingGroups targets []) := by
      intro metricAliases
      exact bind_eq_ok.mpr ⟨[], rfl, bind_eq_ok.mpr ⟨targets, htargets, rfl⟩⟩
    exact hcompile _ (bind_eq_ok.mpr ⟨groupFields, hgroups, bind_eq_ok.mpr ⟨[metric], halone,
      (if_neg hempty).trans (bind_eq_ok.mpr ⟨(), hvalues, bind_eq_ok.mpr ⟨(), hpath,
        bind_eq_ok.mpr ⟨_, hordering _, rfl⟩⟩⟩)⟩⟩)

/-! ## Shared joins -/

/-- Every requested metric that counts repetitions crosses all to-many relations that the other
requested metrics cross. -/
def GrainShared (graph : ModelGraph) (resource : SemanticResource) (p : QueryPlan) : Prop :=
  ∀ spec ∈ p.metrics, ∀ m, resource.metrics.get? spec.metric = some m →
    (buildAggregate m).countsRepetitions = true →
    ∀ other ∈ p.metrics, ∀ m', resource.metrics.get? other.metric = some m' → ∀ hops hop,
      CrossesToMany graph resource.model (buildAggregate m').path hops hop →
        CrossesToMany graph resource.model (buildAggregate m).path hops hop

section

variable {graph : ModelGraph} {root : ModelName} {R V : Type} {db : Database graph root R V}
  {b : Backend V} {calls : List FilterCall} {values : List Expression} {path : String}
  {paths others : List String}

/-- A further join of the other paths is one of a to-one relation. -/
theorem toOne_of_not_mem_queryAliases {a : TableAlias}
    (hcrossed : ∀ other ∈ others, ∀ hops hop, CrossesToMany graph root other hops hop →
      ∃ path ∈ paths, CrossesToMany graph root path hops hop)
    (ha : a ∈ queryAliases graph root calls others) (hnew : a ∉ queryAliases graph root calls paths)
    (r : JoinedRow R) : (db.joinTree.related a r).length ≤ 1 := by
  rcases mem_openAliases.mp ha with hfilter | hread
  · exact absurd (filterAliases_subset calls paths hfilter) hnew
  · obtain ⟨other, hother, hchain⟩ := List.mem_flatMap.mp hread
    obtain ⟨pre, hpre, hne, rfl⟩ := TableAlias.mem_chain.mp hchain
    rcases List.eq_nil_or_concat pre with hnil | ⟨hops, hop, rfl⟩
    · exact absurd hnil hne
    · rw [List.concat_eq_append] at hpre hnew ⊢
      have hstep : TableAlias.follow false (filterAliases graph root calls) .root (hops ++ [hop]) =
          TableAlias.step false (filterAliases graph root calls)
            (TableAlias.follow false (filterAliases graph root calls) .root hops) hop :=
        TableAlias.follow_append _ _
      have hone : hop.toMany = false := by
        by_contra hmany
        rw [Bool.not_eq_false] at hmany
        obtain ⟨path, hpath, -, hbelow⟩ := hcrossed other hother hops hop ⟨hmany, hpre⟩
        have hreach : TableAlias.reach false (filterAliases graph root calls) (hops ++ [hop]) ∈ _ :=
          reach_mem_queryAliases hpath hbelow
        rcases List.mem_cons.mp hreach with hroot | hmem
        · rw [TableAlias.reach_eq_follow, hstep] at hroot
          exact step_ne_root _ _ _ hroot
        · exact hnew hmem
      rw [hstep]
      show ((db.related hop r.1).zipIdx).length ≤ 1
      rw [List.length_zipIdx]
      exact db.toOne hop r.1 hone

end

section

variable {graph : ModelGraph} {root : ModelName} {R V : Type} {db : Database graph root R V}
  {b : Backend V} {q alone : CompiledQuery} {a : Aggregate}

/-- What a group and an aggregate look at in a row. -/
def CompiledQuery.groupView (q : CompiledQuery) (db : Database graph root R V) (b : Backend V)
    (a : Aggregate) (c : QueryRow R) : List (Option V) × Option V :=
  (q.output db b c, db.readExpression q.calls a.path c)

theorem dependsOn_readExpression {calls : List FilterCall} {paths : List String} {path : String}
    (h : path ∈ paths) :
    DependsOn (db.joinTree.root :: queryAliases graph root calls paths)
      (db.readExpression calls path) :=
  dependsOn_readPath (reach_mem_queryAliases h (List.prefix_refl _))

theorem dependsOn_groupView (hvalues : ∀ e ∈ q.values.values, e.path ∈ alone.readPaths)
    (ha : a.path ∈ alone.readPaths) :
    DependsOn (db.joinTree.root :: queryAliases graph root q.calls alone.readPaths)
      (q.groupView db b a) := by
  intro c c' hagree
  unfold CompiledQuery.groupView CompiledQuery.output
  congr 1
  · apply List.map_congr_left
    intro e he
    rw [dependsOn_readExpression (hvalues e he) c c' hagree]
  · exact dependsOn_readExpression ha c c' hagree

theorem dependsOn_queryRows {calls : List FilterCall} {paths : List String} :
    DependsOn (db.joinTree.root :: queryAliases graph root calls paths) (db.passes b [] calls) :=
  dependsOn_passes List.mem_cons_self
    (List.subset_cons_of_subset _ (filterAliases_subset calls paths))

/-- The two queries have the same filters and groups, and `alone` reads fewer paths. -/
structure Restricts (graph : ModelGraph) (root : ModelName) (q alone : CompiledQuery)
    (a : Aggregate) : Prop where
  calls : alone.calls = q.calls
  values : alone.values = q.values
  ungrouped : alone.ungrouped = q.ungrouped
  reads : a.path ∈ alone.readPaths
  paths : alone.readPaths ⊆ q.readPaths
  crossed : a.countsRepetitions = true → ∀ other ∈ q.readPaths, ∀ hops hop,
    CrossesToMany graph root other hops hop →
      ∃ path ∈ alone.readPaths, CrossesToMany graph root path hops hop

theorem Restricts.groupView (h : Restricts graph root q alone a) :
    alone.groupView db b a = q.groupView db b a := by
  funext c
  unfold CompiledQuery.groupView CompiledQuery.output
  rw [h.calls, h.values]

theorem Restricts.subset (h : Restricts graph root q alone a) :
    queryAliases graph root q.calls alone.readPaths ⊆
      queryAliases graph root q.calls q.readPaths := by
  intro joined hmem
  rcases mem_openAliases.mp hmem with hfilter | hread
  · exact mem_openAliases.mpr (.inl hfilter)
  · obtain ⟨path, hpath, hchain⟩ := List.mem_flatMap.mp hread
    exact mem_openAliases.mpr (.inr (List.mem_flatMap.mpr ⟨path, h.paths hpath, hchain⟩))

theorem Restricts.dependsOn_view (h : Restricts graph root q alone a) :
    DependsOn (db.joinTree.root :: queryAliases graph root q.calls alone.readPaths)
      (q.groupView db b a) := by
  refine dependsOn_groupView (fun e he => ?_) h.reads
  rw [CompiledQuery.readPaths, List.append_assoc, h.values]
  exact List.mem_append_left _ (List.mem_map_of_mem he)

theorem Restricts.mem_view (h : Restricts graph root q alone a) (v : List (Option V) × Option V) :
    v ∈ (q.rows db b).map (q.groupView db b a) ↔
      v ∈ (alone.rows db b).map (alone.groupView db b a) := by
  rw [h.groupView]
  unfold CompiledQuery.rows Database.queryRows
  rw [h.calls]
  exact mem_rows_view (grounded_queryAliases db _ _) (grounded_queryAliases db _ _)
    (nodup_zipIdx _) h.subset dependsOn_queryRows h.dependsOn_view

/-- For a metric that counts repetitions they repeat no view either. -/
theorem Restricts.perm_view (h : Restricts graph root q alone a)
    (hcounts : a.countsRepetitions = true) :
    ((q.rows db b).map (q.groupView db b a)).Perm
      ((alone.rows db b).map (alone.groupView db b a)) := by
  rw [h.groupView]
  unfold CompiledQuery.rows Database.queryRows
  rw [h.calls]
  exact rows_view_perm (grounded_queryAliases db _ _) (grounded_queryAliases db _ _)
    (nodup_zipIdx _) h.subset
    (fun _ ha hnew r => toOne_of_not_mem_queryAliases (h.crossed hcounts) ha hnew r)
    dependsOn_queryRows h.dependsOn_view

variable [LinearOrder V]

theorem metricValue_eq (g : List (Option V)) :
    q.metricValue db b g a = a.evaluate b
      ((((q.rows db b).map (q.groupView db b a)).filter fun v => v.1 = g).map Prod.snd) := by
  unfold CompiledQuery.metricValue CompiledQuery.groupRows
  rw [List.filter_map, List.map_map]
  rfl

theorem mem_groups_iff (g : List (Option V)) :
    g ∈ q.groups db b ↔
      if q.ungrouped then g = [] else ∃ v ∈ (q.rows db b).map (q.groupView db b a), v.1 = g := by
  unfold CompiledQuery.groups CompiledQuery.groupView
  split_ifs <;> simp

theorem Restricts.mem_groups (h : Restricts graph root q alone a) (g : List (Option V)) :
    g ∈ q.groups db b ↔ g ∈ alone.groups db b := by
  rw [mem_groups_iff (a := a), mem_groups_iff (a := a), h.ungrouped]
  simp only [h.mem_view]

theorem Restricts.metricValue (h : Restricts graph root q alone a) (g : List (Option V)) :
    q.metricValue db b g a = alone.metricValue db b g a := by
  rw [metricValue_eq, metricValue_eq]
  by_cases hcounts : a.countsRepetitions = true
  · exact Aggregate.evaluate_perm a (((h.perm_view hcounts).filter _).map _)
  · rw [Bool.not_eq_true] at hcounts
    refine Aggregate.evaluate_of_mem_iff hcounts fun x => ?_
    simp only [List.mem_map, List.mem_filter]
    simp only [← List.mem_map, h.mem_view]

end

theorem getElem?_of_mapM {α β : Type} {f : α → Py β} {l : List α} {r : List β} {i : ℕ} {a : α}
    (h : l.mapM f = .ok r) (ha : l[i]? = some a) : ∃ c, r[i]? = some c ∧ f a = .ok c := by
  have hforall := mapM_eq_ok.mp h
  induction hforall generalizing i with
  | nil => cases ha
  | @cons x y l r hxy hrest ih =>
    cases i with
    | zero =>
      obtain rfl : x = a := by simpa using ha
      exact ⟨y, rfl, hxy⟩
    | succ i => exact ih (mapM_eq_ok.mpr hrest) (by simpa using ha)

/-- Every metric of the compiled query has, in each group, the value that it has when the plan
requests it alone. -/
def MetricsIndependent (env : Environment) (resource : SemanticResource) (p : QueryPlan)
    (now : Clock) (q : CompiledQuery) : Prop :=
  ∀ (i : ℕ) (spec : MetricSpec), p.metrics[i]? = some spec → ∃ alone a,
    compilePreparedQuery env resource (requestingAlone p spec) now = .ok alone ∧
    q.annotations.values[i]? = some a ∧ alone.annotations.values = [a] ∧
    ∀ (R V : Type) [LinearOrder V] (db : Database env.graph resource.model R V) (b : Backend V),
      (∀ g, g ∈ q.groups db b ↔ g ∈ alone.groups db b) ∧
      ∀ g ∈ q.groups db b, q.metricValue db b g a = alone.metricValue db b g a

/-- Metrics whose grain is shared do not distort each other. -/
theorem metricsIndependent_of_grainShared {env : Environment} {resource : SemanticResource}
    {p : QueryPlan} {now : Clock} {q : CompiledQuery} (haggregate : p.intent = .aggregate)
    (hcompiled : compilePreparedQuery env resource p now = .ok q)
    (hgrain : GrainShared env.graph resource p) : MetricsIndependent env resource p now q := by
  intro i spec hspec
  have hmem : spec ∈ p.metrics := List.mem_of_getElem? hspec
  obtain ⟨alone, halone⟩ := compile_requestingAlone haggregate hcompiled hmem
  obtain ⟨hshape, hcalls⟩ := compiledAggregate haggregate hcompiled
  obtain ⟨hshape', hcalls'⟩ := compiledAggregate (p := requestingAlone p spec) haggregate halone
  obtain ⟨metrics, hmetrics, hannotations⟩ := hshape.metrics
  obtain ⟨metrics', hmetrics', hannotations'⟩ := hshape'.metrics
  obtain ⟨groupFields, hgroups, hvalues⟩ := hshape.groups
  obtain ⟨groupFields', hgroups', hvalues'⟩ := hshape'.groups
  obtain rfl : groupFields = groupFields' := Except.ok.inj (hgroups.symm.trans hgroups')
  have hsame : alone.calls = q.calls := Except.ok.inj (hcalls'.symm.trans hcalls)
  have hvalues : alone.values = q.values := hvalues'.trans hvalues.symm
  obtain ⟨m, hindex, hm⟩ := getElem?_of_mapM hmetrics hspec
  obtain rfl : metrics' = [m] := by
    have hone : [spec].mapM (fun m => metricAt resource m.metric) = .ok [m] := by
      rw [List.mapM_cons, hm]
      rfl
    exact Except.ok.inj (hmetrics'.symm.trans hone)
  have hsingle : alone.annotations.values = [buildAggregate m] := by
    rw [hannotations', values_enumerateAliases]
    rfl
  have hread : q.readPaths = q.values.values.map Expression.path ++
      metrics.map fun m => (buildAggregate m).path := by
    rw [CompiledQuery.readPaths, CompiledQuery.orderingPaths, hshape.limitScope, hannotations,
      values_enumerateAliases, List.map_map, List.append_nil]
    rfl
  have hreadAlone : alone.readPaths = q.values.values.map Expression.path ++
      [(buildAggregate m).path] := by
    rw [CompiledQuery.readPaths, CompiledQuery.orderingPaths, hshape'.limitScope, hsingle,
      hvalues, List.append_nil]
    rfl
  have hrestricts : Restricts env.graph resource.model q alone (buildAggregate m) := by
    refine ⟨hsame, hvalues, ?_, ?_, ?_, ?_⟩
    · rw [hshape'.ungrouped, hshape.ungrouped]
      rfl
    · simp [hreadAlone]
    · rw [hread, hreadAlone]
      refine List.append_subset.mpr ⟨List.subset_append_left _ _, ?_⟩
      refine List.subset_append_of_subset_right _ ?_
      intro path hpath
      rw [List.mem_singleton.mp hpath]
      exact List.mem_map_of_mem (f := fun m => (buildAggregate m).path) (List.mem_of_getElem? hindex)
    · intro hcounts other hother hops hop hcrosses
      rw [hread, List.mem_append] at hother
      rcases hother with hgroup | hmetric
      · exact ⟨other, by simp [hreadAlone, hgroup], hcrosses⟩
      · obtain ⟨m', hm', rfl⟩ := List.mem_map.mp hmetric
        obtain ⟨spec', hspec', hm'⟩ := exists_of_mem_mapM hmetrics hm'
        refine ⟨(buildAggregate m).path, by simp [hreadAlone], ?_⟩
        exact hgrain spec hmem m (metricAt_ok.mp hm) hcounts spec' hspec' m' (metricAt_ok.mp hm')
          hops hop hcrosses
  refine ⟨alone, buildAggregate m, halone, ?_, hsingle, fun R V _ db b =>
    ⟨fun g => hrestricts.mem_groups g, fun g _ => hrestricts.metricValue g⟩⟩
  rw [hannotations, values_enumerateAliases, List.getElem?_map, hindex]
  rfl

theorem grainShared_of_hops {graph : ModelGraph} {resource : SemanticResource} {p : QueryPlan}
    (relations : List Hop)
    (hhops : ∀ spec ∈ p.metrics, ∀ m, resource.metrics.get? spec.metric = some m →
      hopsOf graph resource.model (buildAggregate m).path = relations) :
    GrainShared graph resource p := by
  intro spec hspec m hm _ other hother m' hm' hops hop hcrosses
  unfold CrossesToMany at hcrosses ⊢
  rw [hhops other hother m' hm'] at hcrosses
  rw [hhops spec hspec m hm]
  exact hcrosses

/-- Orders with a count of the orders, a count of their items and one of the distinct items. -/
def countedItems : CatalogRegistry Sample.environment :=
  Sample.registryOf
    { Sample.orderArgs [("number", .config (Sample.fieldConfig "number" "string"))] with
      metrics := Sample.metricOf (Sample.countOf "order_count" "id") ++
        Sample.metricOf { Sample.countOf "item_count" "items__id" with
          cardinalityPolicy := "count_rows" } ++
        Sample.metricOf { Sample.countOf "distinct_item_count" "items__id" with
          cardinalityPolicy := "count_distinct", distinctKey := some "items__id" } }

def bothItemCounts : QueryPlan := Sample.aggregatePlan [] ["item_count", "distinct_item_count"]

def itemsRelation : Hop := ⟨"order", "items", true, some "item"⟩

theorem bothItemCounts_metricsIndependent :
    ∃ resource q, countedItems.get "orders" = .ok resource ∧
      compilePreparedQuery Sample.environment resource bothItemCounts Sample.newYear = .ok q ∧
      MetricsIndependent Sample.environment resource bothItemCounts Sample.newYear q := by
  have hhops : (compiledSample countedItems bothItemCounts).map (fun e =>
      bothItemCounts.metrics.map fun spec => (e.1.metrics.get? spec.metric).map fun m =>
        hopsOf Sample.shop e.1.model (buildAggregate m).path) =
      some [some [itemsRelation], some [itemsRelation]] := by decide +kernel
  obtain ⟨⟨resource, q⟩, h, hpaths⟩ := Option.map_eq_some_iff.mp hhops
  obtain ⟨hresource, hq⟩ := compiledSample_ok h
  refine ⟨resource, q, hresource, hq,
    metricsIndependent_of_grainShared rfl hq (grainShared_of_hops [itemsRelation] ?_)⟩
  intro spec hspec m hm
  have hmem := List.mem_map_of_mem (f := fun spec : MetricSpec =>
    (resource.metrics.get? spec.metric).map fun m =>
      hopsOf Sample.shop resource.model (buildAggregate m).path) hspec
  rw [hpaths, hm] at hmem
  show hopsOf Sample.shop resource.model (buildAggregate m).path = [itemsRelation]
  simpa using hmem

/-- One order with two items is counted twice beside them, and once alone. -/
theorem items_repeat_order_count :
    ¬ ∀ (env : Environment) (registry : CatalogRegistry env) (limits : PlanLimits)
      (access : Access) (raw : RawPlan) (p : QueryPlan) (resource : SemanticResource)
      (now : Clock) (q : CompiledQuery),
      parseAndValidateQueryPlan registry limits access raw = .ok p →
        registry.get p.resource = .ok resource → p.intent = .aggregate →
          compilePreparedQuery env resource p now = .ok q →
            MetricsIndependent env resource p now q := by
  intro h
  have haccepted : Sample.validated countedItems Sample.limits
      (Sample.aggregatePlan [] ["order_count", "item_count"]) =
      .ok (Sample.aggregatePlan [] ["order_count", "item_count"]) := by decide +kernel
  have hboth : (compiledSample countedItems
      (Sample.aggregatePlan [] ["order_count", "item_count"])).map (fun e =>
        (e.1.model, e.2.groups Sample.twoItems Sample.backend,
          e.2.annotations.values.map (e.2.metricValue Sample.twoItems Sample.backend []))) =
      some ("order", [[]], [some 2, some 2]) := by decide +kernel
  have halone : (compiledSample countedItems (requestingAlone
      (Sample.aggregatePlan [] ["order_count", "item_count"]) ⟨"order_count"⟩)).map (fun e =>
        e.2.annotations.values.map (e.2.metricValue Sample.twoItems Sample.backend [])) =
      some [some 1] := by decide +kernel
  obtain ⟨⟨resource, q⟩, hsample, hpair⟩ := Option.map_eq_some_iff.mp hboth
  obtain ⟨⟨resource', single⟩, hsample', hone⟩ := Option.map_eq_some_iff.mp halone
  simp only [Prod.mk.injEq] at hpair
  obtain ⟨hmodel, hgroups, hvalues⟩ := hpair
  obtain ⟨hresource, hq⟩ := compiledSample_ok hsample
  obtain ⟨hresource', hsingle⟩ := compiledSample_ok hsample'
  obtain rfl : resource = resource' := Except.ok.inj (hresource.symm.trans hresource')
  have hindependent := h _ _ _ _ _ _ _ _ _ haccepted hresource rfl hq
  obtain ⟨alone, a, hcompiled, ha, honly, hequal⟩ := hindependent 0 ⟨"order_count"⟩ rfl
  obtain rfl : single = alone := Except.ok.inj (hsingle.symm.trans hcompiled)
  rw [hmodel] at hequal
  have hgroup : [] ∈ q.groups Sample.twoItems Sample.backend := by
    rw [hgroups]
    exact List.mem_singleton.mpr rfl
  have hsame := (hequal ℕ ℕ Sample.twoItems Sample.backend).2 [] hgroup
  have htwo : q.metricValue Sample.twoItems Sample.backend [] a = some 2 := by
    have hfirst := congrArg (fun values => values[0]?) hvalues
    simpa [ha] using hfirst
  have hsingleValue : single.metricValue Sample.twoItems Sample.backend [] a = some 1 := by
    rw [honly] at hone
    simpa using hone
  have hvalue := (htwo.symm.trans hsame).trans hsingleValue
  exact absurd hvalue (by decide)

end AskLens.Compiler
