import AskLens.Planning.Concealment

/-!
# Unavailable resources

A plan whose resource is unknown or not permitted stops before its members are looked at. All such
plans report one error, apart from those whose resource has no normalized name.
-/
namespace AskLens.Planning

open Python Catalog Checks

section

variable {env : Environment} {registry : CatalogRegistry env} {limits : PlanLimits}
  {access : Access} {name : String}

/-- The name normalizes to the name of a registered resource that the caller may use. -/
def IsAvailable (registry : CatalogRegistry env) (access : Access) (name : String) : Prop :=
  ∃ normalized resource, normalizeResourceName env name = .ok normalized ∧
    registry.resources.get? normalized = some resource ∧
      permissionSetAllows access.permissions resource.requiresPermission = true

/-- The decomposition of the name has an ASCII letter or an ASCII digit. -/
def HasSlug (env : Environment) (name : String) : Prop :=
  ∃ c ∈ env.unicode.nfkd name.toList, c.toNat < 128 ∧ c.isAlphanum = true

theorem hasSlug_iff : HasSlug env name ↔ slugName env.unicode name.toList ≠ [] := by
  rw [Ne, slugName_eq_nil_iff]
  simp [HasSlug]

theorem normalizeResourceName_of_hasSlug (h : HasSlug env name) :
    ∃ normalized, normalizeResourceName env name = .ok normalized := by
  have hne : String.ofList (slugName env.unicode name.toList) ≠ "" := by
    rw [Ne, String.ofList_eq_empty_iff]
    exact hasSlug_iff.mp h
  exact ⟨_, if_neg hne⟩

theorem normalizeResourceName_of_not_hasSlug (h : ¬ HasSlug env name) :
    normalizeResourceName env name =
      .error (ErrorClass.invalidResource.exc s!"Invalid resource name {pyRepr name}.") := by
  have hempty : slugName env.unicode name.toList = [] := not_not.mp (mt hasSlug_iff.mpr h)
  rw [normalizeResourceName, hempty]
  exact if_pos rfl

theorem get_of_not_hasSlug (registry : CatalogRegistry env) (h : ¬ HasSlug env name) :
    ∃ msg, registry.get name = .error (ErrorClass.invalidResource.exc msg) := by
  rw [CatalogRegistry.get, normalizeResourceName_of_not_hasSlug h]
  exact ⟨_, rfl⟩

/-- A name with a slug is unknown, or leads to a resource that is not permitted. -/
theorem get_of_unavailable (hunavailable : ¬ IsAvailable registry access name)
    (h : HasSlug env name) :
    (∃ msg, registry.get name = .error (ErrorClass.unknownResource.exc msg)) ∨
      ∃ resource, registry.get name = .ok resource ∧
        permissionSetAllows access.permissions resource.requiresPermission = false := by
  obtain ⟨normalized, hnormalized⟩ := normalizeResourceName_of_hasSlug h
  simp only [CatalogRegistry.get, hnormalized, ok_bind]
  cases hfound : registry.resources.get? normalized with
  | none => exact .inl ⟨_, rfl⟩
  | some resource =>
    refine .inr ⟨resource, rfl, ?_⟩
    by_contra hallowed
    exact hunavailable ⟨normalized, resource, hnormalized, hfound, by simpa using hallowed⟩

theorem validateForResource_denied {resource : SemanticResource} {plan : QueryPlan}
    (h : permissionSetAllows access.permissions resource.requiresPermission = false) :
    publicOutcome (validateForResource env resource limits access plan) =
      .rejected memberUnavailable := by
  simp only [validateForResource, validateResourcePermission]
  rw [raiseIf_pos h]
  rfl

theorem validateQueryPlan_unavailable {plan : QueryPlan}
    (hunavailable : ¬ IsAvailable registry access plan.resource)
    (h : HasSlug env plan.resource) :
    publicOutcome (validateQueryPlan registry limits access plan) =
      .rejected memberUnavailable := by
  rw [validateQueryPlan]
  rcases get_of_unavailable hunavailable h with ⟨msg, hunknown⟩ | ⟨resource, hfound, hdenied⟩
  · rw [hunknown]
    rfl
  · rw [hfound, ok_bind]
    exact validateForResource_denied hdenied

/-- A plan for an unavailable resource is answered as one for an unavailable member exactly when
the name of the resource has a slug. -/
theorem unavailable_resource_concealed_iff {raw : RawPlan} {plan : QueryPlan}
    (hsize : validatePlanPayloadSize env limits.maxPlanBytes raw = .ok ())
    (hplan : parseQueryPlan env raw = .ok plan)
    (hunavailable : ¬ IsAvailable registry access plan.resource) :
    publicOutcome (parseAndValidateQueryPlan registry limits access raw) =
      .rejected memberUnavailable ↔ HasSlug env plan.resource := by
  rw [parseAndValidateQueryPlan, hsize, ok_bind, hplan, ok_bind]
  constructor
  · intro houtcome
    by_contra hslug
    obtain ⟨msg, hinvalid⟩ := get_of_not_hasSlug registry hslug
    rw [validateQueryPlan, hinvalid, error_bind] at houtcome
    simp [publicOutcome, ErrorClass.exc, publicErrorPayload, memberUnavailable, ErrorClass.code]
      at houtcome
  · intro hslug
    exact validateQueryPlan_unavailable hunavailable hslug

end

/-- A list of the numbers of the named resource. -/
def numbersOf (resource : String) : QueryPlan :=
  { Sample.listPlan ["number"] with resourceName := .text resource }

theorem numberedOrders_unavailable {resource : String} {access : Access}
    (h : ((normalizeResourceName Sample.environment resource).toOption.bind
      numberedOrders.resources.get?).isNone = true) :
    ¬ IsAvailable numberedOrders access resource := by
  rintro ⟨normalized, found, hnormalized, hfound, -⟩
  rw [hnormalized] at h
  simp [Except.toOption, hfound] at h

theorem stores_concealed_iff :
    publicOutcome (Sample.validated numberedOrders Sample.limits (numbersOf "stores")) =
      .rejected memberUnavailable ↔ HasSlug Sample.environment "stores" := by
  have hplan : parseQueryPlan Sample.environment (.mapping (numbersOf "stores").dump) =
      .ok (numbersOf "stores") := by decide +kernel
  exact unavailable_resource_concealed_iff (by decide +kernel) hplan
    (numberedOrders_unavailable (by decide +kernel))

/-- A name of hyphens is answered as an invalid binding of the catalog. -/
theorem hyphens_disclosed :
    ¬ ∀ (env : Environment) (registry : CatalogRegistry env) (limits : PlanLimits)
      (access : Access) (raw : RawPlan) (plan : QueryPlan),
      validatePlanPayloadSize env limits.maxPlanBytes raw = .ok () →
        parseQueryPlan env raw = .ok plan → ¬ IsAvailable registry access plan.resource →
          publicOutcome (parseAndValidateQueryPlan registry limits access raw) =
            .rejected memberUnavailable := by
  intro h
  have hconcealed := h _ numberedOrders Sample.limits (.ofPermissions [])
    (.mapping (numbersOf "--").dump) (numbersOf "--") (by decide +kernel) (by decide +kernel)
    (numberedOrders_unavailable (by decide +kernel))
  exact absurd hconcealed (by decide +kernel)

end AskLens.Planning
