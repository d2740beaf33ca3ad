import AskLens.Compiler.Orm
import AskLens.Planning.Concealment
import AskLens.Planning.SuggestedPlans

/-!
# Plans that are posted back

The plan of an answer has its defaults written out. It compiles to the query of
the plan that was validated.
-/
namespace AskLens.Compiler

open Python Django Catalog Planning Checks

variable {env : Environment} {resource : SemanticResource} {p : QueryPlan}

theorem requestedOrdering_explicit :
    requestedOrdering resource p.explicit = requestedOrdering resource p := by
  have hempty : p.explicit.orderBy = [] ↔ p.orderBy = [] := by
    rw [explicit_orderBy, List.map_eq_nil_iff]
  have hterms : (p.explicit.orderBy.filterMap fun o => o.field?.map fun name => (name, o.direction))
      = p.orderBy.filterMap fun o => o.field?.map fun name => (name, o.direction) := by
    rw [explicit_orderBy, List.filterMap_map]
    rfl
  unfold requestedOrdering
  simp only [hterms, hempty]

theorem buildListOrdering_explicit :
    buildListOrdering resource p.explicit = buildListOrdering resource p := by
  unfold buildListOrdering
  rw [requestedOrdering_explicit]

theorem buildGroupedOrdering_explicit (fieldAliases metricAliases : Dict String) :
    buildGroupedOrdering fieldAliases metricAliases p.explicit =
      buildGroupedOrdering fieldAliases metricAliases p := by
  unfold buildGroupedOrdering
  rw [explicit_orderBy, explicit_groupBy, List.mapM_map, List.mapM_map]
  rfl

theorem compileListQuery_explicit (graph : ModelGraph) (calls : List FilterCall) :
    compileListQuery graph resource p.explicit calls = compileListQuery graph resource p calls := by
  have hselect : p.explicit.select = p.select := rfl
  unfold compileListQuery
  rw [buildListOrdering_explicit, hselect, explicit_limit]

theorem compileAggregateQuery_explicit (calls : List FilterCall) :
    compileAggregateQuery env resource p.explicit calls =
      compileAggregateQuery env resource p calls := by
  have hgroups : p.explicit.groupBy.mapM (fun g => fieldAt resource g.field) =
      p.groupBy.mapM fun g => fieldAt resource g.field := by
    rw [explicit_groupBy, List.mapM_map]
    rfl
  have hbuckets : ∀ fields : List FieldSpec,
      ((fields.zip p.explicit.groupBy).map fun e =>
          buildDateTruncExpression e.1.binding e.2.dateTrunc e.1.type resource.timezone) =
        (fields.zip p.groupBy).map fun e =>
          buildDateTruncExpression e.1.binding e.2.dateTrunc e.1.type resource.timezone := by
    intro fields
    rw [explicit_groupBy, List.zip_map_right, List.map_map]
    rfl
  have hempty : p.explicit.groupBy = [] ↔ p.groupBy = [] := by
    rw [explicit_groupBy, List.map_eq_nil_iff]
  have hfields : p.explicit.groupBy.map GroupBySpec.field = p.groupBy.map GroupBySpec.field := by
    rw [explicit_groupBy, List.map_map]
    rfl
  unfold compileAggregateQuery
  simp only [hgroups, hbuckets, hempty, hfields, explicit_metrics, explicit_limit,
    buildGroupedOrdering_explicit]

theorem compilePreparedQuery_explicit (now : Clock) :
    compilePreparedQuery env resource p.explicit now = compilePreparedQuery env resource p now := by
  unfold compilePreparedQuery
  rw [explicit_filters, explicit_intent]
  simp only [compileListQuery_explicit, compileAggregateQuery_explicit]

theorem explicit_explicit (p : QueryPlan) : p.explicit.explicit = p.explicit := by
  have hgroups : (p.groupBy.map GroupBySpec.explicit).map GroupBySpec.explicit =
      p.groupBy.map GroupBySpec.explicit := by
    rw [List.map_map]
    rfl
  have horders : (p.orderBy.map OrderBySpec.explicit).map OrderBySpec.explicit =
      p.orderBy.map OrderBySpec.explicit := by
    rw [List.map_map]
    rfl
  show { p.explicit with
      groupBy? := some ((p.groupBy.map GroupBySpec.explicit).map GroupBySpec.explicit)
      orderBy? := some ((p.orderBy.map OrderBySpec.explicit).map OrderBySpec.explicit) } = p.explicit
  rw [hgroups, horders]
  rfl

/-- The plan of an answer, posted back, is accepted exactly when its dump fits; a dump with a lone
surrogate does not. What is accepted is answered with the same plan again and runs the same
query. -/
theorem posted_plan_compiles_alike {registry : CatalogRegistry env} {limits : PlanLimits}
    {access : Access} {raw : RawPlan}
    (h : parseAndValidateQueryPlan registry limits access raw = .ok p)
    (hplain : ∀ x ∈ p.filters, x.value.IsPlain) :
    (∀ q, parseAndValidateQueryPlan registry limits access (.mapping p.modelDump) = .ok q ↔
        q = p.explicit ∧ FitsUtf8 env limits.maxPlanBytes p.modelDump) ∧
      p.explicit.modelDump = p.modelDump ∧
      ∀ (resource : SemanticResource) (now : Clock),
        compilePreparedQuery env resource p.explicit now =
          compilePreparedQuery env resource p now := by
  refine ⟨fun q => ?_, ?_, fun resource now => compilePreparedQuery_explicit now⟩
  · rw [revalidate_modelDump h hplain, bind_eq_ok]
    constructor
    · rintro ⟨_, hsize, hq⟩
      exact ⟨(Except.ok.inj hq).symm, validatePlanPayloadSize_mapping_ok.mp hsize⟩
    · rintro ⟨rfl, hfits⟩
      exact ⟨(), validatePlanPayloadSize_mapping_ok.mpr hfits, rfl⟩
  · rw [modelDump_eq, modelDump_eq, explicit_explicit]

def loneSurrogate : PyText := PyText.ofString
  ("\x7b\"resource\":\"orders\",\"intent\":\"list\",\"select\":[\"number\"]," ++
    "\"filters\":[\x7b\"field\":\"number\",\"op\":\"eq\",\"value\":\"\\ud800\"\x7d]\x7d")

/-- A plan with a lone surrogate is accepted, and its dump is not. -/
example :
    (parseAndValidateQueryPlan numberedOrders Sample.limits (.ofPermissions [])
      (.text loneSurrogate) >>= fun p =>
        parseAndValidateQueryPlan numberedOrders Sample.limits (.ofPermissions [])
          (.mapping p.modelDump)) =
      .error (ErrorClass.planParse.exc "QueryPlan text values must be valid UTF-8.") := by
  decide +kernel

/-- The open orders, posted back. -/
theorem openOrders_posted :
    (∀ q, parseAndValidateQueryPlan statusOrders Sample.limits (.ofPermissions [])
          (.mapping openOrders.modelDump) = .ok q ↔
        q = openOrders.explicit ∧
          FitsUtf8 Sample.environment Sample.limits.maxPlanBytes openOrders.modelDump) ∧
      openOrders.explicit.modelDump = openOrders.modelDump ∧
      ∀ (resource : SemanticResource) (now : Clock),
        compilePreparedQuery Sample.environment resource openOrders.explicit now =
          compilePreparedQuery Sample.environment resource openOrders now := by
  have haccepted : Sample.validated statusOrders Sample.limits openOrders = .ok openOrders := by
    decide +kernel
  refine posted_plan_compiles_alike haccepted fun x hx => ?_
  obtain rfl := List.mem_singleton.mp hx
  rfl

end AskLens.Compiler
