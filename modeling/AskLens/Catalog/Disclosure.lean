import AskLens.Sample

/-!
# What the catalog discloses

Two registries look the same to a caller when they have the same visible part.
The serialized catalog is a function of that part, but for the default date
field, which is emitted whether or not the caller may see it.
-/
namespace AskLens.Catalog

open Python

/-- A field of the resource under this name that the caller may see. -/
def SemanticResource.FieldVisible (r : SemanticResource) (access : Access) (name : String) : Prop :=
  ∃ f, r.fields.get? name = some f ∧ f.isCatalogVisible access = true

def SemanticResource.MetricVisible (r : SemanticResource) (access : Access)
    (name : String) : Prop :=
  ∃ m, r.metrics.get? name = some m ∧ m.isCatalogVisible access.permissions = true

/-- The fields that a serialized resource names, wherever it names them. -/
def ResourceCatalogItem.namedFields (item : ResourceCatalogItem) : List String :=
  item.fields.map FieldCatalogItem.name ++ item.defaultDateField.toList ++
    (item.defaultOrder.getD []).map Prod.fst

def ResourceCatalogItem.namedMetrics (item : ResourceCatalogItem) : List String :=
  item.metrics.map MetricCatalogItem.name

def CatalogRegistry.visibleResources {env : Environment} (registry : CatalogRegistry env)
    (access : Access) : List SemanticResource :=
  registry.resources.values.filter fun r => r.isCatalogVisible access.permissions

/-- The default date field, when the caller may see it. -/
def SemanticResource.visibleDateField (r : SemanticResource) (access : Access) : Option String :=
  r.defaultDateField.filter fun name =>
    (r.fields.get? name).any fun f => f.isCatalogVisible access

/-- The resource without the members that the caller may not see. -/
def SemanticResource.visiblePart (r : SemanticResource) (access : Access) : SemanticResource :=
  { r with
    fields := r.fields.filter fun e => e.2.isCatalogVisible access
    metrics := r.metrics.filter fun e => e.2.isCatalogVisible access.permissions
    defaultDateField := r.visibleDateField access }

/-- The two registries differ only in what the caller may not see. -/
def CatalogRegistry.SameVisiblePart {env : Environment} (registry other : CatalogRegistry env)
    (access : Access) : Prop :=
  (registry.visibleResources access).map (fun r => r.visiblePart access) =
    (other.visibleResources access).map (fun r => r.visiblePart access)

/-- Every member named in the document is one that the caller may see. -/
def CatalogRegistry.NamesOnlyVisible {env : Environment} (registry : CatalogRegistry env)
    (access : Access) : Prop :=
  ∀ r ∈ registry.visibleResources access,
    (∀ name ∈ (r.toDict env.unicode access).namedFields, r.FieldVisible access name) ∧
      ∀ name ∈ (r.toDict env.unicode access).namedMetrics, r.MetricVisible access name

/-- No visible resource has a default date field that the caller may not see. -/
def CatalogRegistry.DateFieldsVisible {env : Environment} (registry : CatalogRegistry env)
    (access : Access) : Prop :=
  ∀ r ∈ registry.visibleResources access, ∀ name, r.defaultDateField = some name →
    r.FieldVisible access name

/-- The catalog discloses nothing beyond the visible part that the two registries share. -/
def CatalogRegistry.DisclosesNothing {env : Environment} (registry other : CatalogRegistry env)
    (access : Access) : Prop :=
  registry.toDict access = other.toDict access ∧ registry.NamesOnlyVisible access ∧
    other.NamesOnlyVisible access

variable {env : Environment}

theorem values_filter {α : Type} (d : Dict α) (p : α → Bool) :
    Dict.values (d.filter fun e => p e.2) = d.values.filter p := by
  rw [Dict.values, Dict.values, List.filter_map]
  rfl

theorem visiblePart_toDict {r : SemanticResource} {access : Access}
    (h : ∀ name, r.defaultDateField = some name → r.FieldVisible access name) :
    (r.visiblePart access).toDict env.unicode access = r.toDict env.unicode access := by
  have hdate : (r.visiblePart access).defaultDateField = r.defaultDateField := by
    show r.visibleDateField access = _
    unfold SemanticResource.visibleDateField
    cases hname : r.defaultDateField with
    | none => rfl
    | some name =>
      obtain ⟨f, hf, hvisible⟩ := h name hname
      simp [hf, hvisible]
  have hfields : (r.visiblePart access).visibleFields access = r.visibleFields access := by
    simp only [SemanticResource.visibleFields, SemanticResource.visiblePart]
    rw [values_filter r.fields fun f => f.isCatalogVisible access, List.filter_filter]
    simp
  have hmetrics : (r.visiblePart access).visibleMetrics access = r.visibleMetrics access := by
    simp only [SemanticResource.visibleMetrics, SemanticResource.visiblePart]
    rw [values_filter r.metrics fun m => m.isCatalogVisible access.permissions,
      List.filter_filter]
    simp
  simp only [SemanticResource.toDict, hdate, hfields, hmetrics]
  rfl

theorem toDict_eq_visiblePart {registry : CatalogRegistry env} {access : Access}
    (h : registry.DateFieldsVisible access) :
    registry.toDict access =
      ((registry.visibleResources access).map fun r => r.visiblePart access).map
        fun r => r.toDict env.unicode access := by
  rw [List.map_map]
  exact List.map_congr_left fun r hr => (visiblePart_toDict (h r hr)).symm

theorem mem_visibleResources {registry : CatalogRegistry env} {access : Access}
    {r : SemanticResource} (h : r ∈ registry.visibleResources access) : r.Registered env := by
  have hvalues := List.mem_of_mem_filter h
  obtain ⟨e, he, rfl⟩ := List.mem_map.mp hvalues
  exact (registry.registered e he).2

theorem named_field_visible {r : SemanticResource} (hr : r.Registered env) {access : Access}
    {name : String} (h : name ∈ (r.visibleFields access).map (fun f => f.name)) :
    r.FieldVisible access name := by
  obtain ⟨f, hf, rfl⟩ := List.mem_map.mp h
  exact ⟨f, hr.field_of_visible hf⟩

theorem named_metric_visible {r : SemanticResource} (hr : r.Registered env) {access : Access}
    {name : String} (h : name ∈ (r.visibleMetrics access).map (fun m => m.name)) :
    r.MetricVisible access name := by
  obtain ⟨m, hm, rfl⟩ := List.mem_map.mp h
  exact ⟨m, hr.metric_of_visible hm⟩

/-- The default order only names unrestricted fields, so every caller may see them. -/
theorem default_order_visible {r : SemanticResource} (hr : r.Registered env) {access : Access}
    {name : String} (h : name ∈ r.defaultOrder.map Prod.fst) : r.FieldVisible access name := by
  obtain ⟨term, hterm, rfl⟩ := List.mem_map.mp h
  obtain ⟨f, hf, hopen⟩ := hr.defaultOrder_unrestricted term hterm
  exact ⟨f, hf, FieldSpec.isCatalogVisible_of_isUnrestricted hopen access⟩

theorem namesOnlyVisible_iff (registry : CatalogRegistry env) (access : Access) :
    registry.NamesOnlyVisible access ↔ registry.DateFieldsVisible access := by
  constructor
  · intro h r hr name hname
    apply (h r hr).1
    simp [ResourceCatalogItem.namedFields, SemanticResource.toDict, hname]
  · intro h r hr
    have hregistered := mem_visibleResources hr
    refine ⟨fun name hname => ?_, fun name hname => ?_⟩
    · simp only [ResourceCatalogItem.namedFields, List.mem_append] at hname
      rcases hname with (hname | hname) | hname
      · apply named_field_visible hregistered
        simpa [SemanticResource.toDict, FieldSpec.toDict] using hname
      · exact h r hr name (by simpa [SemanticResource.toDict] using hname)
      · apply default_order_visible hregistered
        simp only [SemanticResource.toDict] at hname
        split_ifs at hname with hempty
        · simp at hname
        · exact hname
    · apply named_metric_visible hregistered
      simpa [ResourceCatalogItem.namedMetrics, SemanticResource.toDict, Metric.toDict] using hname

/-- Between registries with the same visible part, the catalog discloses nothing exactly when
neither has a visible resource whose default date field is invisible. -/
theorem catalog_disclosesNothing_iff {registry other : CatalogRegistry env} {access : Access}
    (h : registry.SameVisiblePart other access) :
    registry.DisclosesNothing other access ↔
      registry.DateFieldsVisible access ∧ other.DateFieldsVisible access := by
  constructor
  · rintro ⟨-, hregistry, hother⟩
    exact ⟨(namesOnlyVisible_iff _ _).mp hregistry, (namesOnlyVisible_iff _ _).mp hother⟩
  · rintro ⟨hregistry, hother⟩
    refine ⟨?_, (namesOnlyVisible_iff _ _).mpr hregistry, (namesOnlyVisible_iff _ _).mpr hother⟩
    rw [toDict_eq_visiblePart hregistry, toDict_eq_visiblePart hother]
    exact congrArg _ h

/-- Orders with a restricted day, with or without that day as the default date field. -/
def restrictedDay (defaultDateField : Option String) : CatalogRegistry Sample.environment :=
  Sample.registryOf
    { Sample.orderArgs
        [("number", .config (Sample.fieldConfig "number" "string")),
          ("day", .config (("requires_permission", Sample.text "finance") ::
            Sample.fieldConfig "day" "date"))] with
      defaultDateField := defaultDateField }

theorem restrictedDay_disclosesNothing_iff :
    (restrictedDay (some "day")).DisclosesNothing (restrictedDay none) (.ofPermissions []) ↔
      (restrictedDay (some "day")).DateFieldsVisible (.ofPermissions []) ∧
        (restrictedDay none).DateFieldsVisible (.ofPermissions []) :=
  catalog_disclosesNothing_iff rfl

/-- The document names the restricted day when it is the default date field. -/
theorem default_date_field_disclosed :
    ¬ ∀ (env : Environment) (registry other : CatalogRegistry env) (permissions : List String),
      registry.SameVisiblePart other (.ofPermissions permissions) →
        registry.DisclosesNothing other (.ofPermissions permissions) := by
  intro h
  obtain ⟨hsame, -⟩ := h _ (restrictedDay (some "day")) (restrictedDay none) [] rfl
  have hdiffer : (restrictedDay (some "day")).toDict (.ofPermissions []) ≠
      (restrictedDay none).toDict (.ofPermissions []) := by
    decide +kernel
  exact hdiffer hsame

end AskLens.Catalog
