import AskLens.Catalog.Disclosure
import AskLens.Catalog.EnumDefinitions
import AskLens.Contracts.Documents
import AskLens.Results.Typing

/-!
# Conformance of the emitted documents

Registration has refused all that the strict contract models would refuse later,
but for one thing: the label of a prebuilt field, and the title of a model, may
be empty.
-/
namespace AskLens.Contracts

open Python Django Catalog Planning Compiler Execution Results StrictModels Checks

/-! ## Members -/

@[simp] theorem anyString_textObj (s : String) : anyString.accepts (textObj s) = true := rfl

@[simp] theorem boolean_bool (b : Bool) : Shape.boolean.accepts (.bool b) = true := rfl

@[simp] theorem canonicalType_name (type : FieldType) :
    canonicalType.accepts (textObj type.name) = true := by
  cases type <;> rfl

theorem titleOf_ne_empty {unicode : Unicode} (htitle : ∀ s, s ≠ "" → unicode.title s ≠ "")
    {separators : List Char} {name : String} (h : name ≠ "") :
    titleOf unicode separators name ≠ "" := by
  apply htitle
  intro hempty
  apply h
  have hlength := congrArg String.length hempty
  simpa using hlength

theorem buildFieldSpec_key {env : Environment} {model : ModelName}
    {entry : String × FieldRegistration} {e : String × FieldSpec}
    (h : buildFieldSpec env model entry = .ok e) : e.1 ≠ "" := by
  obtain ⟨_, hkey, h⟩ := bind_eq_ok.mp h
  obtain ⟨_, hempty, -⟩ := bind_eq_ok.mp hkey
  rw [raiseIf_eq_ok, not_or] at hempty
  split at h
  · obtain ⟨_, -, h⟩ := bind_eq_ok.mp h
    obtain ⟨_, -, h⟩ := bind_eq_ok.mp h
    obtain ⟨_, -, h⟩ := bind_eq_ok.mp h
    obtain rfl := Except.ok.inj h
    exact hempty.1
  · obtain ⟨_, -, h⟩ := bind_eq_ok.mp h
    obtain rfl := Except.ok.inj h
    exact hempty.1

/-- The registration names no label: a prebuilt field with an empty one, or a configuration with an
object whose text is empty. -/
def Unlabelled (env : Environment) : FieldRegistration → Prop
  | .spec field => field.label = ""
  | .config config => ∃ o, config.get? "label" = some (.obj o) ∧ PyObj.truthy o = true ∧
      env.display o = ""

theorem fieldLabel_eq_empty {env : Environment} {config : Dict ConfigValue} {key : String}
    (htitle : ∀ s, s ≠ "" → env.unicode.title s ≠ "") (hkey : key ≠ "")
    (h : fieldLabel env config key = "") : Unlabelled env (.config config) := by
  have hdefault : defaultFieldLabel env.unicode key ≠ "" := titleOf_ne_empty htitle hkey
  unfold fieldLabel at h
  split at h
  · split_ifs at h with hempty
    · exact absurd h hdefault
    · exact absurd h hempty
  · rename_i o _ hlabel
    split_ifs at h with htruthy
    · exact ⟨o, hlabel, htruthy, h⟩
    · exact absurd h hdefault
  · exact absurd h hdefault

/-- A configuration without a label gets one from its key, a prebuilt field does not. -/
theorem buildFieldSpec_label {env : Environment} {model : ModelName}
    {entry : String × FieldRegistration} {e : String × FieldSpec}
    (htitle : ∀ s, s ≠ "" → env.unicode.title s ≠ "")
    (h : buildFieldSpec env model entry = .ok e) (hlabel : e.2.label = "") :
    Unlabelled env entry.2 := by
  have hkey := buildFieldSpec_key h
  obtain ⟨_, -, h⟩ := bind_eq_ok.mp h
  split at h
  · rename_i field hentry
    simp only [validateFieldSpec, bind_eq_ok] at h
    obtain ⟨_, -, _, -, f, ⟨_, -, _, -, _, -, _, -, hf⟩, h⟩ := h
    obtain rfl := Except.ok.inj h
    obtain rfl := Except.ok.inj hf
    rw [hentry]
    exact hlabel
  · rename_i config hentry
    obtain ⟨f, hf, h⟩ := bind_eq_ok.mp h
    obtain rfl := Except.ok.inj h
    rw [hentry]
    apply fieldLabel_eq_empty htitle hkey
    rw [← (buildConfiguredField_ok hf).2]
    exact hlabel

section

variable {env : Environment} {registry : CatalogRegistry env}

theorem register_ok {registry' : CatalogRegistry env} {args : BuildArgs}
    (h : registry.register args = .ok registry') :
    ∃ r, SemanticResource.build env args = .ok r ∧
      registry'.resources = registry.resources ++ [(r.name, r)] := by
  unfold CatalogRegistry.register at h
  split at h
  · cases h
  · rename_i r hr
    split_ifs at h
    obtain rfl := Except.ok.inj h
    exact ⟨r, hr, rfl⟩

/-- The resource and its visible fields have labels. -/
def Labelled (r : SemanticResource) (access : Access) : Prop :=
  r.label ≠ "" ∧ ∀ f ∈ r.visibleFields access, f.label ≠ ""

theorem register_labelled {registry' : CatalogRegistry env} {args : BuildArgs}
    (htitle : ∀ s, s ≠ "" → env.unicode.title s ≠ "")
    (h : registry.register args = .ok registry')
    (hlabel : (env.graph args.model).verboseNamePlural ≠ "")
    (hfields : ∀ entry ∈ args.fields, ¬ Unlabelled env entry.2) :
    ∃ r, registry'.resources = registry.resources ++ [(r.name, r)] ∧
      ∀ access, Labelled r access := by
  obtain ⟨r, hr, hresources⟩ := register_ok h
  refine ⟨r, hresources, fun access => ?_⟩
  simp only [SemanticResource.build, bind_eq_ok] at hr
  obtain ⟨_, -, _, -, _, -, _, -, fields, hspecs, _, -, _, -, _, -, _, -, hr⟩ := hr
  obtain rfl := Except.ok.inj hr
  constructor
  · show textOr args.label _ ≠ ""
    unfold textOr
    split
    · split_ifs with hempty
      · exact htitle _ hlabel
      · exact hempty
    · exact htitle _ hlabel
  · intro f hf
    obtain ⟨e, he, rfl⟩ := List.mem_map.mp (List.mem_of_mem_filter hf)
    obtain ⟨entry, hentry, hbuilt⟩ := (buildFieldSpecs_ok hspecs).2 e he
    exact fun hempty => hfields entry hentry (buildFieldSpec_label htitle hbuilt hempty)

variable {r : SemanticResource} {access : Access}

end

/-! ## Results -/

section

variable {env : Environment} {resource : SemanticResource} {p : QueryPlan} {now : Clock}
  {q : CompiledQuery}

end

/-! ## Errors -/

end AskLens.Contracts
