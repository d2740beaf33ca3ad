import AskLens.Planning.FixedPoint
import AskLens.Planning.Help

/-!
# Plans inside suggestions

A suggestion carries the full dump of its validated plan, in which every unset
member has its default. Posting that dump back is validated to the same plan,
with its defaults written out.
-/
namespace AskLens.Planning

open Python Catalog Checks

def GroupBySpec.explicit (g : GroupBySpec) : GroupBySpec := { g with dateTrunc? := some g.dateTrunc }

def OrderBySpec.explicit (o : OrderBySpec) : OrderBySpec :=
  { o with otherNull := true, direction? := some o.direction }

/-- The plan with every member set. -/
def QueryPlan.explicit (p : QueryPlan) : QueryPlan :=
  { p with
    filters? := some p.filters
    groupBy? := some (p.groupBy.map GroupBySpec.explicit)
    metrics? := some p.metrics
    selectNames? := some p.selectNames
    orderBy? := some (p.orderBy.map OrderBySpec.explicit)
    limit? := some p.limit }

variable {env : Environment} {resource : SemanticResource} {limits : PlanLimits}
  {access : Access} {p : QueryPlan}

theorem modelDump_eq (p : QueryPlan) : p.modelDump = p.explicit.dump := rfl

@[simp] theorem explicit_filters (p : QueryPlan) : p.explicit.filters = p.filters := rfl

@[simp] theorem explicit_groupBy (p : QueryPlan) :
    p.explicit.groupBy = p.groupBy.map GroupBySpec.explicit := rfl

@[simp] theorem explicit_metrics (p : QueryPlan) : p.explicit.metrics = p.metrics := rfl

@[simp] theorem explicit_selectNames (p : QueryPlan) : p.explicit.selectNames = p.selectNames := rfl

@[simp] theorem explicit_orderBy (p : QueryPlan) :
    p.explicit.orderBy = p.orderBy.map OrderBySpec.explicit := rfl

@[simp] theorem explicit_limit (p : QueryPlan) : p.explicit.limit = p.limit := rfl

@[simp] theorem explicit_intent (p : QueryPlan) : p.explicit.intent = p.intent := rfl

theorem explicit_groupFields (p : QueryPlan) :
    p.explicit.groupBy.map GroupBySpec.fieldName = p.groupBy.map GroupBySpec.fieldName := by
  rw [explicit_groupBy, List.map_map]
  rfl

theorem explicit_orderFields (p : QueryPlan) :
    p.explicit.orderBy.filterMap OrderBySpec.fieldName? =
      p.orderBy.filterMap OrderBySpec.fieldName? := by
  rw [explicit_orderBy, List.filterMap_map]
  rfl

theorem planFieldReferences_explicit (p : QueryPlan) :
    planFieldReferences p.explicit = planFieldReferences p := by
  unfold planFieldReferences
  rw [explicit_groupFields, explicit_orderFields, explicit_selectNames, explicit_filters]

/-! ## The checks -/

theorem rejectDuplicateKeys_map {α β κ : Type} [DecidableEq κ] (label : String) (key : β → Py κ)
    (f : α → β) (items : List α) (seen : List κ) :
    rejectDuplicateKeys label key (items.map f) seen =
      rejectDuplicateKeys label (fun a => key (f a)) items seen := by
  induction items generalizing seen with
  | nil => rfl
  | cons a rest ih =>
    rw [List.map_cons, rejectDuplicateKeys, rejectDuplicateKeys]
    simp only [ih]

theorem forM_map {α β ε : Type} (items : List α) (f : α → β) (check : β → Except ε Unit) :
    (items.map f).forM check = items.forM fun a => check (f a) := by
  induction items with
  | nil => rfl
  | cons a rest ih => rw [List.map_cons, forM_cons, forM_cons, ih]

theorem validatePlanShape_explicit (p : QueryPlan) :
    validatePlanShape p.explicit = validatePlanShape p := by
  have hgroups : p.explicit.groupBy = [] ↔ p.groupBy = [] := by
    rw [explicit_groupBy, List.map_eq_nil_iff]
  unfold validatePlanShape raiseIf
  rw [explicit_intent, explicit_selectNames, explicit_metrics]
  cases p.intent with
  | list => simp only [hgroups, ne_eq]
  | aggregate => rfl

theorem validateNoMeaninglessDuplicates_explicit (p : QueryPlan) :
    validateNoMeaninglessDuplicates env p.explicit = validateNoMeaninglessDuplicates env p := by
  unfold validateNoMeaninglessDuplicates
  simp only [explicit_selectNames, explicit_groupBy, explicit_orderBy, explicit_filters,
    rejectDuplicateKeys_map]
  rfl

theorem validatePlanLimits_explicit (p : QueryPlan) :
    validatePlanLimits env resource limits p.explicit = validatePlanLimits env resource limits p := by
  have hcounts : countLimits p.explicit limits = countLimits p limits := by
    simp [countLimits]
  have hedges : collectRelationshipEdges resource p.explicit = collectRelationshipEdges resource p := by
    unfold collectRelationshipEdges
    rw [planFieldReferences_explicit, explicit_metrics]
  unfold validatePlanLimits validateCounts validateEdgeBudget
  rw [validateNoMeaninglessDuplicates_explicit, hcounts, hedges, explicit_filters, explicit_limit]

theorem validateAggregateRelationshipPolicy_explicit (p : QueryPlan) :
    validateAggregateRelationshipPolicy resource p.explicit =
      validateAggregateRelationshipPolicy resource p := by
  have hedges : fieldToManyEdges resource p.explicit = fieldToManyEdges resource p := by
    unfold fieldToManyEdges
    rw [planFieldReferences_explicit]
  unfold validateAggregateRelationshipPolicy
  simp only [hedges, explicit_intent, explicit_metrics]

theorem validatePlanFields_explicit (p : QueryPlan) :
    validatePlanFields resource limits access p.explicit =
      validatePlanFields resource limits access p := by
  unfold validatePlanFields
  rw [explicit_groupFields, validateAggregateRelationshipPolicy_explicit, explicit_selectNames,
    explicit_filters, explicit_groupBy, explicit_metrics, explicit_orderBy, forM_map]
  simp only [forM_map]
  rfl

/-- A plan that validation returns unchanged is so with its defaults written out. -/
theorem validateForResource_explicit
    (h : validateForResource env resource limits access p = .ok p) :
    validateForResource env resource limits access p.explicit = .ok p.explicit := by
  obtain ⟨_, hpermission, h⟩ := bind_eq_ok.mp h
  obtain ⟨_, hchecks, h⟩ := bind_eq_ok.mp h
  obtain ⟨q, hq, h⟩ := bind_eq_ok.mp h
  obtain ⟨_, hduplicates, h⟩ := bind_eq_ok.mp h
  cases h
  -- what comes back has the registered name and a limit, so both have them before
  obtain ⟨hforall, hsame⟩ := normalizeFilterValues_ok hq
  have hname : p.resourceName = resource.name := by
    rw [hsame]
    rfl
  have hlimit : p.limit? = some p.limit := by
    rw [hsame]
    rfl
  have hdefaults : withDefaults resource limits p = p := by
    unfold withDefaults
    rw [hlimit, ← hname]
    show { p with limit? := some p.limit } = p
    rw [← hlimit]
  have hexplicit : withDefaults resource limits p.explicit = p.explicit := by
    unfold withDefaults
    rw [← hname]
    rfl
  rw [hdefaults] at hchecks hforall
  have hnormal : p.explicit.filters.mapM (normalizeFilter env.unicode resource) =
      .ok p.explicit.filters := mapM_eq_ok.mpr hforall
  have hfixed : normalizeFilterValues env.unicode resource p.explicit = .ok p.explicit := by
    rw [normalizeFilterValues, hnormal, ok_bind, if_pos rfl]
  have hagain : validateBeforeNormalization env resource limits access p.explicit = .ok () := by
    unfold validateBeforeNormalization at hchecks ⊢
    rw [validatePlanShape_explicit, validatePlanLimits_explicit,
      validateNoMeaninglessDuplicates_explicit, validatePlanFields_explicit]
    exact hchecks
  unfold validateForResource
  rw [hpermission, ok_bind]
  simp only [hexplicit, hagain, hfixed, ok_bind, validateNoMeaninglessDuplicates_explicit,
    hduplicates]

theorem wellFormed_explicit (h : p.WellFormed) (hlimit : p.limit? = some p.limit) :
    p.explicit.WellFormed where
  resource := h.resource
  filters := h.filters
  groupBy g hg := by
    rw [explicit_groupBy] at hg
    obtain ⟨source, hsource, rfl⟩ := List.mem_map.mp hg
    exact h.groupBy source hsource
  metrics := h.metrics
  select := h.select
  orderBy o ho := by
    rw [explicit_orderBy] at ho
    obtain ⟨source, hsource, rfl⟩ := List.mem_map.mp ho
    exact h.orderBy source hsource
  limit n hn := by
    cases hn
    exact h.limit _ hlimit

/-- A plan that validation returns unchanged passes again, unless its dump is too long. -/
theorem parseAndValidate_dump {registry : CatalogRegistry env} (hwellFormed : p.WellFormed)
    (hget : registry.get p.resource = .ok resource)
    (hfixed : validateForResource env resource limits access p = .ok p) :
    parseAndValidateQueryPlan registry limits access (.mapping p.dump) =
      validatePlanPayloadSize env limits.maxPlanBytes (.mapping p.dump) >>= fun _ => .ok p := by
  have hparse : parseQueryPlan env (.mapping p.dump) = .ok p := by
    rw [parseQueryPlan, parsePlanPayload, ok_bind, parseQueryPlanModel_dump env hwellFormed]
  rw [parseAndValidateQueryPlan, hparse]
  simp only [ok_bind, validateQueryPlan, hget, hfixed]

/-- What is known about an accepted plan when it is validated once more. -/
structure Revalidates (registry : CatalogRegistry env) (limits : PlanLimits) (access : Access)
    (target : SemanticResource) (p : QueryPlan) : Prop where
  wellFormed : p.WellFormed
  get : registry.get p.resource = .ok target
  fixed : validateForResource env target limits access p = .ok p
  limit : p.limit? = some p.limit

theorem exists_revalidates {registry : CatalogRegistry env} {raw : RawPlan}
    (h : parseAndValidateQueryPlan registry limits access raw = .ok p)
    (hplain : ∀ x ∈ p.filters, x.value.IsPlain) :
    ∃ target, Revalidates registry limits access target p := by
  simp only [parseAndValidateQueryPlan, validateQueryPlan, bind_eq_ok] at h
  obtain ⟨_, -, plan, hplan, target, htarget, hvalidated⟩ := h
  have hregistered := (CatalogRegistry.get_ok htarget).2.2
  have hraw := parseQueryPlan_ok hplan
  have haccepted := validateForResource_ok hraw hvalidated
  refine ⟨target, wellFormed_of_validateForResource hraw hregistered hvalidated hplain, ?_,
    validateForResource_fixed hregistered hvalidated, ?_⟩
  · rw [haccepted.resource_name]
    exact CatalogRegistry.get_name htarget
  · obtain ⟨n, hn, -⟩ := haccepted.limit_set
    rw [QueryPlan.limit, hn]
    rfl

/-- A suggested plan that is posted back is accepted again, unless its dump is too long. -/
theorem revalidate_modelDump {registry : CatalogRegistry env} {raw : RawPlan}
    (h : parseAndValidateQueryPlan registry limits access raw = .ok p)
    (hplain : ∀ x ∈ p.filters, x.value.IsPlain) :
    parseAndValidateQueryPlan registry limits access (.mapping p.modelDump) =
      validatePlanPayloadSize env limits.maxPlanBytes (.mapping p.modelDump) >>= fun _ =>
        .ok p.explicit := by
  obtain ⟨target, hp⟩ := exists_revalidates h hplain
  exact parseAndValidate_dump (wellFormed_explicit hp.wellFormed hp.limit) hp.get
    (validateForResource_explicit hp.fixed)

end AskLens.Planning
