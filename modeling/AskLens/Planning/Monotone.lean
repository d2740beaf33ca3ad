import AskLens.Planning.Accepted
import AskLens.Sample

/-!
# Larger limits and more permissions

No check of the validator fails for a larger limit or for a further permission,
so what was accepted stays accepted, with the same result, and what was visible
in the catalog stays visible.
-/
namespace AskLens.Planning

open Python Catalog Checks

/-! ## Permissions -/

/-- One request may do whatever the other may. -/
structure WithinAccess (a b : Access) : Prop where
  sensitive : a.sensitive = true → b.sensitive = true
  hidden : a.hidden = true → b.hidden = true
  permissions : a.permissions ⊆ b.permissions

theorem WithinAccess.ofPermissions {held granted : List String} (h : held ⊆ granted) :
    WithinAccess (.ofPermissions held) (.ofPermissions granted) :=
  ⟨fun h => h, fun h => h, h⟩

theorem permissionSetAllows_mono {held granted : List String} (h : held ⊆ granted)
    {r : Option String} (hheld : permissionSetAllows held r = true) :
    permissionSetAllows granted r = true := by
  cases r with
  | none => rfl
  | some permission =>
    simp only [permissionSetAllows, Bool.or_eq_true, List.contains_iff_mem, List.any_eq_true]
      at hheld ⊢
    rcases hheld with hmem | ⟨token, hmem, hscoped⟩
    · exact .inl (h hmem)
    · exact .inr ⟨token, h hmem, hscoped⟩

/-- A field is in the catalog when it is permitted, its sensitivity is cleared and it is not
hidden; clearing the sensitivity of a field shows it too. -/
theorem isCatalogVisible_iff {f : FieldSpec} {a : Access} :
    f.isCatalogVisible a = true ↔
      (permissionSetAllows a.permissions f.requiresPermission = true ∨
        (f.sensitive = true ∧ a.sensitive = true)) ∧
      (f.sensitive = true → isSensitiveFieldAllowed f a = true) ∧
      (f.llmVisible = true ∨ a.hidden = true ∨
        (f.sensitive = true ∧ isSensitiveFieldAllowed f a = true)) := by
  unfold FieldSpec.isCatalogVisible isSensitiveFieldAllowed
  cases hrequired : f.requiresPermission with
  | none =>
    have hopen : permissionSetAllows a.permissions none = true := rfl
    cases hs : f.sensitive <;> cases hv : f.llmVisible <;> cases ha : a.sensitive <;>
      simp [hopen]
  | some required =>
    cases hp : permissionSetAllows a.permissions (some required) <;> cases hs : f.sensitive <;>
      cases hv : f.llmVisible <;> cases ha : a.sensitive <;> simp

section

variable {a b : Access}

theorem isSensitiveFieldAllowed_mono (hab : WithinAccess a b) {f : FieldSpec}
    (h : isSensitiveFieldAllowed f a = true) : isSensitiveFieldAllowed f b = true := by
  simp only [isSensitiveFieldAllowed, Bool.or_eq_true, Bool.and_eq_true] at h ⊢
  rcases h with h | ⟨hsome, hallows⟩
  · exact .inl (hab.sensitive h)
  · exact .inr ⟨hsome, permissionSetAllows_mono hab.permissions hallows⟩

theorem isCatalogVisible_mono (hab : WithinAccess a b) {f : FieldSpec}
    (h : f.isCatalogVisible a = true) : f.isCatalogVisible b = true := by
  have hallowed := isSensitiveFieldAllowed_mono hab (f := f)
  rw [isCatalogVisible_iff] at h ⊢
  obtain ⟨hpermitted, hsensitive, hvisible⟩ := h
  refine ⟨?_, fun hs => hallowed (hsensitive hs), ?_⟩
  · rcases hpermitted with hpermitted | ⟨hs, hcleared⟩
    · exact .inl (permissionSetAllows_mono hab.permissions hpermitted)
    · exact .inr ⟨hs, hab.sensitive hcleared⟩
  · rcases hvisible with hvisible | hhidden | ⟨hs, hcleared⟩
    · exact .inl hvisible
    · exact .inr (.inl (hab.hidden hhidden))
    · exact .inr (.inr ⟨hs, hallowed hcleared⟩)

/-! ## Limits -/

/-- One set of limits is at least the other in every limit, with the same default. -/
structure WithinLimits (l m : PlanLimits) : Prop where
  maxRows : l.maxRows ≤ m.maxRows
  maxJoins : l.maxJoins ≤ m.maxJoins
  maxMetrics : l.maxMetrics ≤ m.maxMetrics
  maxGroupBy : l.maxGroupBy ≤ m.maxGroupBy
  maxPlanBytes : l.maxPlanBytes ≤ m.maxPlanBytes
  maxFilters : l.maxFilters ≤ m.maxFilters
  maxSelectedFields : l.maxSelectedFields ≤ m.maxSelectedFields
  maxOrderBy : l.maxOrderBy ≤ m.maxOrderBy
  maxRelationshipEdges : l.maxRelationshipEdges ≤ m.maxRelationshipEdges
  maxInValues : l.maxInValues ≤ m.maxInValues
  maxFilterValues : l.maxFilterValues ≤ m.maxFilterValues
  defaultLimit : l.defaultLimit = m.defaultLimit

/-- A check that has passed passes whenever it raises in fewer cases. -/
theorem raiseIf_mono {c c' : Prop} [Decidable c] [Decidable c'] {e e' : PyException}
    (h : raiseIf c e = .ok ()) (hc : c' → c) : raiseIf c' e' = .ok () := by
  rw [raiseIf_eq_ok] at h ⊢
  exact fun hc' => h (hc hc')

variable {l m : PlanLimits} {env : Environment} {resource : SemanticResource} {p : QueryPlan}

theorem validatePlanPayloadSize_mono (hlm : WithinLimits l m) {raw : RawPlan}
    (h : validatePlanPayloadSize env l.maxPlanBytes raw = .ok ()) :
    validatePlanPayloadSize env m.maxPlanBytes raw = .ok () := by
  have hbytes := hlm.maxPlanBytes
  obtain ⟨n, hn, h⟩ := bind_eq_ok.mp h
  rw [validatePlanPayloadSize, hn, ok_bind]
  apply raiseIf_mono h
  omega

theorem validateCounts_mono (hlm : WithinLimits l m) (h : validateCounts p l = .ok ()) :
    validateCounts p m = .ok () := by
  simp only [validateCounts, bind_eq_ok] at h ⊢
  obtain ⟨_, hcounts, _, hrows, _, hin, hvalues⟩ := h
  refine ⟨(), ?_, (), ?_, (), ?_, ?_⟩
  · simp only [countLimits, forM_eq_ok, List.forall_mem_cons, List.not_mem_nil, false_implies,
      implies_true, and_true, validateCount, raiseIf_eq_ok] at hcounts ⊢
    obtain ⟨hfilters, hselect, horderBy, hmetrics, hgroupBy⟩ := hcounts
    have hfilters' := hlm.maxFilters
    have hselect' := hlm.maxSelectedFields
    have horderBy' := hlm.maxOrderBy
    have hmetrics' := hlm.maxMetrics
    have hgroupBy' := hlm.maxGroupBy
    refine ⟨?_, ?_, ?_, ?_, ?_⟩ <;> omega
  · apply raiseIf_mono hrows
    have hrows' := hlm.maxRows
    omega
  · rw [forM_eq_ok] at hin ⊢
    intro x hx
    apply raiseIf_mono (hin x hx)
    have hin' := hlm.maxInValues
    omega
  · apply raiseIf_mono hvalues
    have hvalues' := hlm.maxFilterValues
    omega

theorem validatePlanLimits_mono (hlm : WithinLimits l m)
    (h : validatePlanLimits env resource l p = .ok ()) :
    validatePlanLimits env resource m p = .ok () := by
  simp only [validatePlanLimits, bind_eq_ok] at h ⊢
  obtain ⟨_, hcounts, _, hedges, hduplicates⟩ := h
  refine ⟨(), validateCounts_mono hlm hcounts, (), ?_, hduplicates⟩
  apply raiseIf_mono hedges
  have hedges' := hlm.maxRelationshipEdges
  omega

/-! ## Members -/

theorem validateFieldUsage_mono (hlm : WithinLimits l m) (hab : WithinAccess a b)
    {usage : FieldUsage} {name : PyStr} {f : FieldSpec}
    (h : validateFieldUsage l a resource usage name = .ok f) :
    validateFieldUsage m b resource usage name = .ok f := by
  have hjoins := hlm.maxJoins
  unfold validateFieldUsage at h ⊢
  cases hfield : named? resource.fields name with
  | none => simp [hfield] at h
  | some g =>
    simp only [hfield, checkFieldUsage, bind_eq_ok] at h ⊢
    obtain ⟨_, ⟨_, hdepth, _, hfilterOnly, _, hsensitive, _, hpermission, _, hhidden, hresult⟩,
      hfg⟩ := h
    have hallowed := isSensitiveFieldAllowed_mono hab (f := g)
    have hpermitted := permissionSetAllows_mono hab.permissions (r := g.requiresPermission)
    have hhidden' := hab.hidden
    refine ⟨(), ⟨(), ?_, (), hfilterOnly, (), ?_, (), ?_, (), ?_, hresult⟩, hfg⟩
    · apply raiseIf_mono hdepth
      omega
    · apply raiseIf_mono hsensitive
      simp only [Bool.eq_false_iff]
      tauto
    · apply raiseIf_mono hpermission
      simp only [Bool.eq_false_iff]
      tauto
    · apply raiseIf_mono hhidden
      simp only [Bool.eq_false_iff, ne_eq, Bool.or_eq_true, Bool.and_eq_true]
      tauto

theorem validateMetrics_mono (hlm : WithinLimits l m) (hab : WithinAccess a b)
    {specs : List MetricSpec} {seen names : List PyStr}
    (h : validateMetrics l a resource specs seen = .ok names) :
    validateMetrics m b resource specs seen = .ok names := by
  induction specs generalizing seen with
  | nil => exact h
  | cons spec specs ih =>
    simp only [validateMetrics, bind_eq_ok] at h ⊢
    obtain ⟨_, hnew, h⟩ := h
    refine ⟨(), hnew, ?_⟩
    cases hmetric : named? resource.metrics spec.metricName with
    | none => simp [hmetric] at h
    | some metric =>
      simp only [hmetric, bind_eq_ok, validateMetricUsage] at h ⊢
      obtain ⟨_, ⟨_, hdepth, hpermission⟩, h⟩ := h
      refine ⟨(), ⟨(), ?_, ?_⟩, ih h⟩
      · apply raiseIf_mono hdepth
        have hjoins := hlm.maxJoins
        omega
      · apply raiseIf_mono hpermission
        have hpermitted :=
          permissionSetAllows_mono hab.permissions (r := metric.requiresPermission)
        simp only [Bool.eq_false_iff]
        tauto

theorem validatePlanFields_mono (hlm : WithinLimits l m) (hab : WithinAccess a b)
    (h : validatePlanFields resource l a p = .ok ()) :
    validatePlanFields resource m b p = .ok () := by
  simp only [validatePlanFields, bind_eq_ok] at h ⊢
  obtain ⟨_, hselect, _, hfilters, _, hgroupBy, names, hmetrics, _, hpolicy, horderBy⟩ := h
  rw [forM_eq_ok] at hselect hfilters hgroupBy horderBy
  refine ⟨(), forM_eq_ok.mpr fun name hname => ?_, (), forM_eq_ok.mpr fun x hx => ?_, (),
    forM_eq_ok.mpr fun g hg => ?_, names, validateMetrics_mono hlm hab hmetrics, (), hpolicy,
    forM_eq_ok.mpr fun o ho => ?_⟩
  · obtain ⟨f, hf, h⟩ := bind_eq_ok.mp (hselect name hname)
    exact bind_eq_ok.mpr ⟨f, validateFieldUsage_mono hlm hab hf, h⟩
  · obtain ⟨f, hf, h⟩ := bind_eq_ok.mp (hfilters x hx)
    exact bind_eq_ok.mpr ⟨f, validateFieldUsage_mono hlm hab hf, h⟩
  · obtain ⟨f, hf, h⟩ := bind_eq_ok.mp (hgroupBy g hg)
    exact bind_eq_ok.mpr ⟨f, validateFieldUsage_mono hlm hab hf, h⟩
  · have hterm := horderBy o ho
    unfold validateOrderTerm at hterm ⊢
    cases htarget : o.target with
    | field name =>
      rw [htarget] at hterm
      obtain ⟨f, hf, h⟩ := bind_eq_ok.mp hterm
      exact bind_eq_ok.mpr ⟨f, validateFieldUsage_mono hlm hab hf, h⟩
    | metric name =>
      rw [htarget] at hterm
      exact hterm

theorem validateForResource_mono (hlm : WithinLimits l m) (hab : WithinAccess a b)
    {q : QueryPlan} (h : validateForResource env resource l a p = .ok q) :
    validateForResource env resource m b p = .ok q := by
  have hdefaults : withDefaults resource m p = withDefaults resource l p := by
    unfold withDefaults
    rw [hlm.defaultLimit]
  simp only [validateForResource, hdefaults, validateBeforeNormalization, bind_eq_ok] at h ⊢
  obtain ⟨_, hpermission, _, ⟨_, hshape, _, hlimits, _, hduplicates, hfields⟩, h⟩ := h
  refine ⟨(), ?_, (), ⟨(), hshape, (), validatePlanLimits_mono hlm hlimits, (), hduplicates,
    validatePlanFields_mono hlm hab hfields⟩, h⟩
  apply raiseIf_mono hpermission
  have hpermitted :=
    permissionSetAllows_mono hab.permissions (r := resource.requiresPermission)
  simp only [Bool.eq_false_iff]
  tauto

end

/-- Further permissions and larger limits accept what was accepted, with the same plan, and show
what was shown. -/
theorem acceptance_mono {env : Environment} (registry : CatalogRegistry env) {l m : PlanLimits}
    {a b : Access} (hlm : WithinLimits l m) (hab : WithinAccess a b) :
    (∀ raw p, parseAndValidateQueryPlan registry l a raw = .ok p →
      parseAndValidateQueryPlan registry m b raw = .ok p) ∧
    ∀ item ∈ registry.toDict a, ∃ item' ∈ registry.toDict b, item'.name = item.name ∧
      item.fields ⊆ item'.fields ∧ item.metrics ⊆ item'.metrics := by
  constructor
  · intro raw p h
    simp only [parseAndValidateQueryPlan, validateQueryPlan, bind_eq_ok] at h ⊢
    obtain ⟨_, hsize, plan, hplan, resource, hresource, h⟩ := h
    exact ⟨(), validatePlanPayloadSize_mono hlm hsize, plan, hplan, resource, hresource,
      validateForResource_mono hlm hab h⟩
  · intro item hitem
    obtain ⟨resource, hresource, rfl⟩ := List.mem_map.mp hitem
    obtain ⟨hmem, hvisible⟩ := List.mem_filter.mp hresource
    refine ⟨resource.toDict env.unicode b, ?_, rfl, ?_, ?_⟩
    · apply List.mem_map_of_mem
      exact List.mem_filter.mpr ⟨hmem, permissionSetAllows_mono hab.permissions hvisible⟩
    · apply List.map_subset
      intro f hf
      obtain ⟨hf, hvisible⟩ := List.mem_filter.mp hf
      exact List.mem_filter.mpr ⟨hf, isCatalogVisible_mono hab hvisible⟩
    · apply List.map_subset
      intro metric hmetric
      obtain ⟨hmetric, hvisible⟩ := List.mem_filter.mp hmetric
      exact List.mem_filter.mpr ⟨hmetric, permissionSetAllows_mono hab.permissions hvisible⟩

def financeDays : CatalogRegistry Sample.environment :=
  Sample.registryOf (Sample.orderArgs
    [("number", .config (Sample.fieldConfig "number" "string")),
      ("day", .config (("requires_permission", Sample.text "finance") ::
        Sample.fieldConfig "day" "date"))])

theorem financeDays_acceptance_mono :
    (∀ raw p,
      parseAndValidateQueryPlan financeDays Sample.limits (.ofPermissions []) raw = .ok p →
        parseAndValidateQueryPlan financeDays { Sample.limits with maxJoins := 5 }
          (.ofPermissions ["finance"]) raw = .ok p) ∧
    ∀ item ∈ financeDays.toDict (.ofPermissions []),
      ∃ item' ∈ financeDays.toDict (.ofPermissions ["finance"]), item'.name = item.name ∧
        item.fields ⊆ item'.fields ∧ item.metrics ⊆ item'.metrics := by
  refine acceptance_mono financeDays ?_ (.ofPermissions (by simp))
  constructor <;> decide

end AskLens.Planning
