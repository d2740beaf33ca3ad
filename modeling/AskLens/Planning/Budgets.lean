import AskLens.Planning.Monotone

/-!
# Budget rejections

A plan that is accepted under some limits meets under others nothing but their
budgets. All of them are reported as exceeded, apart from the joins of a metric.
-/
namespace AskLens.Planning

open Python Catalog Checks

def IsBudget (e : PyException) : Prop := ∃ msg, e = budgetExceeded msg

def IsPlanInvalid (e : PyException) : Prop := ∃ msg, e = planInvalid msg

theorem IsPlanInvalid.not_isBudget {e : PyException} (h : IsPlanInvalid e) : ¬ IsBudget e := by
  obtain ⟨msg, rfl⟩ := h
  rintro ⟨msg', h⟩
  simp [planInvalid, budgetExceeded, ErrorClass.exc] at h

theorem isBudget_budgetExceeded (msg : String) : IsBudget (budgetExceeded msg) := ⟨msg, rfl⟩

/-- The plan keeps every budget that is looked at before its metrics. -/
structure WithinEarlierBudgets (env : Environment) (resource : SemanticResource)
    (limits : PlanLimits) (raw : RawPlan) (plan : QueryPlan) : Prop where
  bytes : ∀ n, payloadBytes env raw = .ok n → n ≤ limits.maxPlanBytes
  counts : ∀ count ∈ countLimits plan limits, count.1 ≤ count.2.1
  rows : plan.limit ≤ limits.maxRows
  inValues : ∀ x ∈ plan.filters, inValueCount x ≤ limits.maxInValues
  filterValues : (plan.filters.map filterScalarCount).sum ≤ limits.maxFilterValues
  edges : (collectRelationshipEdges resource plan).length ≤ limits.maxRelationshipEdges
  fields : ∀ name ∈ plan.selectNames ++ plan.filters.map FilterSpec.fieldName ++
    plan.groupBy.map GroupBySpec.fieldName, ∀ f, named? resource.fields name = some f →
      f.relationDepth ≤ limits.maxJoins

/-! ## One check under two limits -/

section

variable {env : Environment} {resource : SemanticResource} {l m : PlanLimits} {access : Access}
  {plan : QueryPlan}

theorem validatePlanPayloadSize_decides {raw : RawPlan} {u : Unit}
    (h : validatePlanPayloadSize env l.maxPlanBytes raw = .ok u) :
    Decides IsBudget (∀ n, payloadBytes env raw = .ok n → n ≤ m.maxPlanBytes)
      (validatePlanPayloadSize env m.maxPlanBytes raw) () := by
  obtain ⟨n, hn, -⟩ := bind_eq_ok.mp h
  rw [validatePlanPayloadSize, hn, ok_bind]
  exact (decides_raiseIf (isBudget_budgetExceeded _)).congr (by simp)

theorem validateCounts_decides : Decides IsBudget
    ((∀ count ∈ countLimits plan m, count.1 ≤ count.2.1) ∧ plan.limit ≤ m.maxRows ∧
      (∀ x ∈ plan.filters, inValueCount x ≤ m.maxInValues) ∧
        (plan.filters.map filterScalarCount).sum ≤ m.maxFilterValues)
    (validateCounts plan m) () := by
  have hcount : ∀ count ∈ countLimits plan m,
      Decides IsBudget (count.1 ≤ count.2.1) (validateCount count) () := fun count _ =>
    (decides_raiseIf (isBudget_budgetExceeded _)).congr not_lt.symm
  have hin : ∀ x ∈ plan.filters, Decides IsBudget (inValueCount x ≤ m.maxInValues)
      (raiseIf (m.maxInValues < inValueCount x)
        (budgetExceeded s!"QueryPlan in filter requests more than {m.maxInValues} values.")) () :=
    fun x _ => (decides_raiseIf (isBudget_budgetExceeded _)).congr not_lt.symm
  have hrows : Decides IsBudget (plan.limit ≤ m.maxRows)
      (raiseIf ((m.maxRows : ℤ) < plan.limit)
        (budgetExceeded s!"QueryPlan limit {plan.limit} exceeds MAX_ROWS {m.maxRows}.")) () :=
    (decides_raiseIf (isBudget_budgetExceeded _)).congr not_lt.symm
  have hvalues : Decides IsBudget ((plan.filters.map filterScalarCount).sum ≤ m.maxFilterValues)
      (raiseIf (m.maxFilterValues < (plan.filters.map filterScalarCount).sum)
        (budgetExceeded
          s!"QueryPlan filters request more than {m.maxFilterValues} scalar values.")) () :=
    (decides_raiseIf (isBudget_budgetExceeded _)).congr not_lt.symm
  exact (decides_forM hcount).bind (hrows.bind ((decides_forM hin).bind hvalues))

theorem validateEdgeBudget_decides : Decides IsBudget
    ((collectRelationshipEdges resource plan).length ≤ m.maxRelationshipEdges)
    (validateEdgeBudget resource m plan) () :=
  (decides_raiseIf (isBudget_budgetExceeded _)).congr not_lt.symm

theorem validateFieldUsage_decides {usage : FieldUsage} {name : PyStr} {f : FieldSpec}
    (h : validateFieldUsage l access resource usage name = .ok f) :
    Decides IsBudget
      (∀ f, named? resource.fields name = some f → f.relationDepth ≤ m.maxJoins)
      (validateFieldUsage m access resource usage name) f := by
  obtain ⟨htext, hfield, hcheck⟩ := validateFieldUsage_ok.mp h
  have hfield : named? resource.fields name = some f := by rwa [named?_of_isText htext]
  rw [← htext.eq] at hcheck
  obtain ⟨_, -, hrest⟩ := bind_eq_ok.mp hcheck
  have hdepth : Decides IsBudget (f.relationDepth ≤ m.maxJoins)
      (checkFieldUsage m access usage name f) () := by
    exact ((decides_raiseIf (isBudget_budgetExceeded _)).bind_ok hrest).congr not_lt.symm
  unfold validateFieldUsage
  simp only [hfield, Option.some.injEq, forall_eq']
  exact hdepth.bind_ok (f := fun _ => .ok f) rfl

/-- The depth of the fields that a loop over the plan refers to. -/
def DepthWithin (resource : SemanticResource) (limits : PlanLimits) (name : PyStr) : Prop :=
  ∀ f, named? resource.fields name = some f → f.relationDepth ≤ limits.maxJoins

theorem validateSelect_decides {name : PyStr}
    (h : validateSelect l access resource name = .ok ()) :
    Decides IsBudget (DepthWithin resource m name) (validateSelect m access resource name) () := by
  obtain ⟨f, hf, -⟩ := bind_eq_ok.mp h
  exact (validateFieldUsage_decides hf).bind_ok (f := fun _ => .ok ()) rfl

theorem validateFilter_decides {x : FilterSpec} (h : validateFilter l access resource x = .ok ()) :
    Decides IsBudget (DepthWithin resource m x.fieldName) (validateFilter m access resource x) () := by
  obtain ⟨f, hf, hoperator⟩ := bind_eq_ok.mp h
  exact (validateFieldUsage_decides hf).bind_ok hoperator

theorem validateGroupBy_decides {g : GroupBySpec}
    (h : validateGroupBy l access resource g = .ok ()) :
    Decides IsBudget (DepthWithin resource m g.fieldName) (validateGroupBy m access resource g) () := by
  obtain ⟨f, hf, htrunc⟩ := bind_eq_ok.mp h
  exact (validateFieldUsage_decides hf).bind_ok htrunc

theorem validateMetricUsage_decides {metric : Metric}
    (h : validateMetricUsage l access metric = .ok ()) :
    Decides IsPlanInvalid (metric.relationDepth ≤ m.maxJoins)
      (validateMetricUsage m access metric) () := by
  obtain ⟨_, -, hpermission⟩ := bind_eq_ok.mp h
  exact ((decides_raiseIf ⟨_, rfl⟩).bind_ok hpermission).congr not_lt.symm

def MetricsWithin (resource : SemanticResource) (limits : PlanLimits) (specs : List MetricSpec) :
    Prop :=
  ∀ spec ∈ specs, ∀ metric, named? resource.metrics spec.metricName = some metric →
    metric.relationDepth ≤ limits.maxJoins

theorem validateMetrics_decides {specs : List MetricSpec} {seen names : List PyStr}
    (h : validateMetrics l access resource specs seen = .ok names) :
    Decides IsPlanInvalid (MetricsWithin resource m specs)
      (validateMetrics m access resource specs seen) names := by
  induction specs generalizing seen with
  | nil => exact (decides_of_ok h).congr (by simp [MetricsWithin])
  | cons spec rest ih =>
    obtain ⟨_, hnew, h⟩ := bind_eq_ok.mp h
    cases hmetric : named? resource.metrics spec.metricName with
    | none => simp [hmetric] at h
    | some metric =>
      simp only [hmetric] at h
      obtain ⟨_, husage, hrest⟩ := bind_eq_ok.mp h
      rw [validateMetrics, hnew, ok_bind, hmetric]
      refine (Decides.bind (f := fun _ => validateMetrics m access resource rest
        (spec.metricName :: seen)) (validateMetricUsage_decides husage) (ih hrest)).congr ?_
      simp [MetricsWithin, hmetric]

/-! ## The whole validation under two limits -/

/-- The checks before the metrics, up to those that look at no limit. -/
def earlierChecks (resource : SemanticResource) (limits : PlanLimits) (access : Access)
    (plan : QueryPlan) : Py Unit := do
  validateCounts plan limits
  validateEdgeBudget resource limits plan
  plan.selectNames.forM (validateSelect limits access resource)
  plan.filters.forM (validateFilter limits access resource)
  plan.groupBy.forM (validateGroupBy limits access resource)

/-- The checks after the metrics and the normalization. -/
def laterChecks (env : Environment) (resource : SemanticResource) (limits : PlanLimits)
    (access : Access) (plan : QueryPlan) (metricNames : List PyStr) : Py QueryPlan := do
  validateAggregateRelationshipPolicy resource plan
  plan.orderBy.forM (validateOrderTerm limits access resource
    (plan.selectNames ++ plan.groupBy.map GroupBySpec.fieldName) metricNames)
  let normalized ← normalizeFilterValues env.unicode resource plan
  validateNoMeaninglessDuplicates env normalized
  .ok normalized

/-- What a validated plan has passed, under its own limits. -/
structure PassedAll (env : Environment) (resource : SemanticResource) (limits : PlanLimits)
    (access : Access) (plan p : QueryPlan) : Prop where
  permission : validateResourcePermission resource access.permissions = .ok ()
  shape : validatePlanShape plan = .ok ()
  duplicates : validateNoMeaninglessDuplicates env plan = .ok ()
  select : ∀ name ∈ plan.selectNames, validateSelect limits access resource name = .ok ()
  filters : ∀ x ∈ plan.filters, validateFilter limits access resource x = .ok ()
  groupBy : ∀ g ∈ plan.groupBy, validateGroupBy limits access resource g = .ok ()
  later : ∃ names, validateMetrics limits access resource plan.metrics [] = .ok names ∧
    laterChecks env resource limits access plan names = .ok p

theorem validateForResource_passed {p : QueryPlan}
    (h : validateForResource env resource l access plan = .ok p) :
    PassedAll env resource l access (withDefaults resource l plan) p := by
  simp only [validateForResource, validateBeforeNormalization, validatePlanFields, bind_eq_ok] at h
  obtain ⟨_, hpermission, _, ⟨_, hshape, _, -, _, hduplicates, _, hselect, _, hfilters, _, hgroupBy,
    names, hmetrics, _, hpolicy, horder⟩, normalized, hnormalized, _, hagain, hp⟩ := h
  refine ⟨hpermission, hshape, hduplicates, forM_eq_ok.mp hselect, forM_eq_ok.mp hfilters,
    forM_eq_ok.mp hgroupBy, names, hmetrics, ?_⟩
  rw [laterChecks, hpolicy, ok_bind, horder, ok_bind, hnormalized, ok_bind, hagain]
  exact hp

theorem validateForResource_eq {p : QueryPlan}
    (h : PassedAll env resource l access (withDefaults resource l plan) p) :
    validateForResource env resource m access plan =
      earlierChecks resource m access (withDefaults resource m plan) >>= fun _ =>
        validateMetrics m access resource plan.metrics [] >>= fun names =>
          laterChecks env resource m access (withDefaults resource m plan) names := by
  have hshape : validatePlanShape (withDefaults resource m plan) = .ok () := h.shape
  have hduplicates : validateNoMeaninglessDuplicates env (withDefaults resource m plan) = .ok () :=
    h.duplicates
  simp only [validateForResource, h.permission, ok_bind, validateBeforeNormalization, hshape,
    validatePlanLimits, hduplicates, validatePlanFields, earlierChecks, laterChecks, bind_assoc]
  rfl

theorem earlierChecks_decides {p : QueryPlan}
    (h : PassedAll env resource l access (withDefaults resource l plan) p) {raw : RawPlan}
    (hbytes : ∀ n, payloadBytes env raw = .ok n → n ≤ m.maxPlanBytes) :
    Decides IsBudget (WithinEarlierBudgets env resource m raw (withDefaults resource m plan))
      (earlierChecks resource m access (withDefaults resource m plan)) () := by
  have hselect := decides_forM fun name hname => validateSelect_decides (m := m) (h.select name hname)
  have hfilters := decides_forM fun x hx => validateFilter_decides (m := m) (h.filters x hx)
  have hgroupBy := decides_forM fun g hg => validateGroupBy_decides (m := m) (h.groupBy g hg)
  have hcounts : Decides IsBudget _ (validateCounts (withDefaults resource m plan) m) () :=
    validateCounts_decides
  have hedges : Decides IsBudget _
      (validateEdgeBudget resource m (withDefaults resource m plan)) () := validateEdgeBudget_decides
  refine (hcounts.bind (hedges.bind (hselect.bind (hfilters.bind hgroupBy)))).congr ?_
  constructor
  · rintro ⟨-, hcount, hrows, hin, hvalues, hedge, hfields⟩
    refine ⟨⟨hcount, hrows, hin, hvalues⟩, hedge, fun name hname => ?_, fun x hx => ?_,
      fun g hg => ?_⟩
    · exact hfields name (List.mem_append_left _ (List.mem_append_left _ hname))
    · exact hfields x.fieldName
        (List.mem_append_left _ (List.mem_append_right _ (List.mem_map_of_mem hx)))
    · exact hfields g.fieldName (List.mem_append_right _ (List.mem_map_of_mem hg))
  · rintro ⟨⟨hcount, hrows, hin, hvalues⟩, hedge, hselected, hfiltered, hgrouped⟩
    refine ⟨hbytes, hcount, hrows, hin, hvalues, hedge, fun name hname => ?_⟩
    rcases List.mem_append.mp hname with hname | hname
    · rcases List.mem_append.mp hname with hname | hname
      · exact hselected name hname
      · obtain ⟨x, hx, rfl⟩ := List.mem_map.mp hname
        exact hfiltered x hx
    · obtain ⟨g, hg, rfl⟩ := List.mem_map.mp hname
      exact hgrouped g hg

/-- The terms of an order name selected or grouped fields, which are within the budgets. -/
theorem validateOrderTerm_other {names : List PyStr} {o : OrderBySpec}
    (h : validateOrderTerm l access resource
      (plan.selectNames ++ plan.groupBy.map GroupBySpec.fieldName) names o = .ok ())
    (hfields : ∀ name ∈ plan.selectNames ++ plan.groupBy.map GroupBySpec.fieldName,
      DepthWithin resource m name) :
    validateOrderTerm m access resource
      (plan.selectNames ++ plan.groupBy.map GroupBySpec.fieldName) names o = .ok () := by
  unfold validateOrderTerm at h ⊢
  cases htarget : o.target with
  | metric name => rwa [htarget] at h
  | field name =>
    simp only [htarget] at h
    obtain ⟨f, hf, hvisible⟩ := bind_eq_ok.mp h
    have hmem : name ∈ plan.selectNames ++ plan.groupBy.map GroupBySpec.fieldName :=
      not_not.mp ((raiseIf_eq_ok _ _ _).mp hvisible)
    simp only
    rw [(validateFieldUsage_decides hf).pass (hfields name hmem), ok_bind]
    exact hvisible

theorem normalizeFilterValues_other {q : QueryPlan}
    (h : normalizeFilterValues env.unicode resource (withDefaults resource l plan) = .ok q) :
    ∃ q', normalizeFilterValues env.unicode resource (withDefaults resource m plan) = .ok q' ∧
      validateNoMeaninglessDuplicates env q' = validateNoMeaninglessDuplicates env q := by
  obtain ⟨filters, hfilters, h⟩ := bind_eq_ok.mp h
  have hmapM : (withDefaults resource m plan).filters.mapM (normalizeFilter env.unicode resource) =
    .ok filters := hfilters
  rw [normalizeFilterValues, hmapM, ok_bind]
  split_ifs at h with hsame
  · obtain rfl := Except.ok.inj h
    exact ⟨_, if_pos hsame, rfl⟩
  · obtain rfl := Except.ok.inj h
    exact ⟨_, if_neg hsame, rfl⟩

/-- Where the earlier budgets hold, nothing after the metrics looks at a limit. -/
theorem laterChecks_other {p : QueryPlan} {names : List PyStr}
    (h : laterChecks env resource l access (withDefaults resource l plan) names = .ok p)
    (hfields : ∀ name ∈ plan.selectNames ++ plan.groupBy.map GroupBySpec.fieldName,
      DepthWithin resource m name) :
    ∃ q, laterChecks env resource m access (withDefaults resource m plan) names = .ok q := by
  simp only [laterChecks, bind_eq_ok] at h ⊢
  obtain ⟨_, hpolicy, _, horder, normalized, hnormalized, _, hduplicates, -⟩ := h
  obtain ⟨normalized', hnormalized', hsame⟩ := normalizeFilterValues_other (m := m) hnormalized
  refine ⟨normalized', (), hpolicy, (), forM_eq_ok.mpr fun o ho => ?_, normalized', hnormalized',
    (), hsame.trans hduplicates, rfl⟩
  exact validateOrderTerm_other (forM_eq_ok.mp horder o ho) hfields

end

/-! ## Rejections -/

/-- How a plan that is accepted under other limits fails: by an earlier budget, or else by the
joins of a metric. -/
theorem rejection_cases {env : Environment} {registry : CatalogRegistry env} {l m : PlanLimits}
    {access : Access} {raw : RawPlan} {p plan : QueryPlan} {resource : SemanticResource}
    {e : PyException} (haccepted : parseAndValidateQueryPlan registry l access raw = .ok p)
    (hplan : parseQueryPlan env raw = .ok plan)
    (hresource : registry.get plan.resource = .ok resource)
    (hrejected : parseAndValidateQueryPlan registry m access raw = .error e) :
    (IsBudget e ∧ ¬ WithinEarlierBudgets env resource m raw (withDefaults resource m plan)) ∨
      (IsPlanInvalid e ∧ WithinEarlierBudgets env resource m raw (withDefaults resource m plan) ∧
        ¬ MetricsWithin resource m plan.metrics) := by
  rw [parseAndValidateQueryPlan, hplan] at haccepted hrejected
  simp only [ok_bind, validateQueryPlan, hresource] at haccepted hrejected
  obtain ⟨_, hsize, hvalid⟩ := bind_eq_ok.mp haccepted
  have hpassed := validateForResource_passed hvalid
  obtain ⟨names, hmetrics, hlater⟩ := hpassed.later
  have hdecides := validatePlanPayloadSize_decides (m := m) hsize
  by_cases hbytes : ∀ n, payloadBytes env raw = .ok n → n ≤ m.maxPlanBytes
  swap
  · obtain ⟨e', hbudget, hstop⟩ := hdecides.stop hbytes
    rw [hstop, error_bind, Except.error.injEq] at hrejected
    exact .inl ⟨hrejected ▸ hbudget, fun hwithin => hbytes hwithin.bytes⟩
  rw [hdecides.pass hbytes, ok_bind, validateForResource_eq hpassed] at hrejected
  have hearlier := earlierChecks_decides (m := m) hpassed hbytes
  by_cases hwithin : WithinEarlierBudgets env resource m raw (withDefaults resource m plan)
  swap
  · obtain ⟨e', hbudget, hstop⟩ := hearlier.stop hwithin
    rw [hstop, error_bind, Except.error.injEq] at hrejected
    exact .inl ⟨hrejected ▸ hbudget, hwithin⟩
  rw [hearlier.pass hwithin, ok_bind] at hrejected
  have hdeep := validateMetrics_decides (m := m) hmetrics
  by_cases hshallow : MetricsWithin resource m plan.metrics
  · obtain ⟨q, hq⟩ := laterChecks_other (m := m) hlater fun name hname => by
      refine hwithin.fields name ?_
      rcases List.mem_append.mp hname with hname | hname
      · exact List.mem_append_left _ (List.mem_append_left _ hname)
      · exact List.mem_append_right _ hname
    have hpass : validateMetrics m access resource plan.metrics [] = .ok names := hdeep.pass hshallow
    rw [hpass, ok_bind, hq] at hrejected
    cases hrejected
  · obtain ⟨e', hinvalid, hstop⟩ := hdeep.stop hshallow
    have hstop' : validateMetrics m access resource plan.metrics [] = .error e' := hstop
    rw [hstop', error_bind, Except.error.injEq] at hrejected
    exact .inr ⟨hrejected ▸ hinvalid, hwithin, hshallow⟩

/-- A rejection under other limits is reported as one of a budget exactly when an earlier budget is
exceeded or no requested metric is too deep. -/
theorem rejection_isBudget_iff {env : Environment} {registry : CatalogRegistry env}
    {l m : PlanLimits} {access : Access} {raw : RawPlan} {p plan : QueryPlan}
    {resource : SemanticResource} {e : PyException}
    (haccepted : parseAndValidateQueryPlan registry l access raw = .ok p)
    (hplan : parseQueryPlan env raw = .ok plan)
    (hresource : registry.get plan.resource = .ok resource)
    (hrejected : parseAndValidateQueryPlan registry m access raw = .error e) :
    IsBudget e ↔ (WithinEarlierBudgets env resource m raw (withDefaults resource m plan) →
      MetricsWithin resource m plan.metrics) := by
  rcases rejection_cases haccepted hplan hresource hrejected with
    ⟨hbudget, hover⟩ | ⟨hinvalid, hwithin, hdeep⟩
  · exact iff_of_true hbudget fun hwithin => absurd hwithin hover
  · exact iff_of_false hinvalid.not_isBudget fun h => hdeep (h hwithin)

def itemCounts : CatalogRegistry Sample.environment :=
  Sample.registryOf
    { Sample.orderArgs [("number", .config (Sample.fieldConfig "number" "string"))] with
      metrics := Sample.metricOf { Sample.countOf "item_count" "items__id" with
        cardinalityPolicy := "count_rows" } }

def withoutJoins : PlanLimits := { Sample.limits with maxJoins := 0 }

def itemCountPlan : QueryPlan := Sample.aggregatePlan [] ["item_count"]

def itemCountTooDeep : PyException :=
  planInvalid "Metric 'item_count' exceeds MAX_JOINS (1 > 0)."

theorem itemCountPlan_accepted :
    Sample.validated itemCounts Sample.limits itemCountPlan = .ok itemCountPlan := by
  decide +kernel

theorem itemCountPlan_rejected :
    Sample.validated itemCounts withoutJoins itemCountPlan = .error itemCountTooDeep := by
  decide +kernel

theorem itemCounts_rejection_isBudget_iff :
    ∃ resource, itemCounts.get "orders" = .ok resource ∧
      (IsBudget itemCountTooDeep ↔
        (WithinEarlierBudgets Sample.environment resource withoutJoins
            (.mapping itemCountPlan.dump) (withDefaults resource withoutJoins itemCountPlan) →
          MetricsWithin resource withoutJoins itemCountPlan.metrics)) := by
  have hplan : parseQueryPlan Sample.environment (.mapping itemCountPlan.dump) =
      .ok itemCountPlan := by decide +kernel
  have hfound : (itemCounts.get "orders").toOption.isSome = true := by decide +kernel
  obtain ⟨resource, hresource⟩ := Option.isSome_iff_exists.mp hfound
  replace hresource : itemCounts.get "orders" = .ok resource := by
    cases hget : itemCounts.get "orders" with
    | error e => simp [hget, Except.toOption] at hresource
    | ok found => rw [hget] at hresource; exact congrArg _ (Option.some.inj hresource)
  exact ⟨resource, hresource, rejection_isBudget_iff itemCountPlan_accepted hplan hresource
    itemCountPlan_rejected⟩

/-- Without joins, the metric over the items is refused as an invalid plan. -/
theorem tooDeep_metric_not_isBudget :
    ¬ ∀ (env : Environment) (registry : CatalogRegistry env) (l m : PlanLimits) (access : Access)
      (raw : RawPlan) (p : QueryPlan) (e : PyException),
      parseAndValidateQueryPlan registry l access raw = .ok p →
        parseAndValidateQueryPlan registry m access raw = .error e → IsBudget e := by
  intro h
  have hinvalid : IsPlanInvalid itemCountTooDeep := ⟨_, rfl⟩
  exact hinvalid.not_isBudget
    (h _ _ _ _ _ _ _ _ itemCountPlan_accepted itemCountPlan_rejected)

end AskLens.Planning
