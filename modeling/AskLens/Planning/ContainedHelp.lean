import AskLens.Planning.DumpNesting
import AskLens.Planning.EncodablePayloads

/-!
# Provider output is accepted or refused

What a provider has sent as something that can be written is either accepted or
refused with an error of the package, with every suggestion and every plan in
it.
-/
namespace AskLens.Planning

open Python Catalog Checks

variable {env : Environment} {registry : CatalogRegistry env} {limits : PlanLimits}
  {access : Access}

/-- No name of a member is blank, and no enum value is an integer too long to be printed. -/
structure OrderlyRegistry (registry : CatalogRegistry env) : Prop where
  printable : ∀ resource ∈ registry.resources.values, ∀ x, ¬ NamesLongInteger resource x
  fieldNames : ∀ resource ∈ registry.resources.values, ∀ f ∈ resource.fields.values,
    strip f.name ≠ ""
  metricNames : ∀ resource ∈ registry.resources.values, ∀ m ∈ resource.metrics.values,
    strip m.name ≠ ""

/-! ## Plans -/

theorem OrderlyRegistry.namesPrintable (h : OrderlyRegistry registry) {name : String}
    {resource : SemanticResource} (hget : registry.get name = .ok resource)
    (filters : List FilterSpec) : NamesPrintable env resource filters := by
  intro _ x _ _ _ _ _ _ _
  have hmem := (CatalogRegistry.get_ok hget).1
  exact h.printable resource (List.mem_map.mpr ⟨_, hmem, rfl⟩) x

theorem contained_mapping (h : OrderlyRegistry registry) {entries : Entries}
    (hencodes : EncodesWithin env.interp.recursionLimit (.dict entries)) :
    Contained (parseAndValidateQueryPlan registry limits access (.mapping entries)) := by
  rw [contained_parse_iff]
  constructor
  · intro other hother
    cases hother
    exact hencodes
  · intro _ t ht
    cases ht
  · intro _ p resource _ hresource _
    exact h.namesPrintable hresource p.filters

theorem contained_validateQueryPlan (h : OrderlyRegistry registry) {p : QueryPlan}
    (hp : ∀ x ∈ p.filters, x.Printable) :
    Contained (validateQueryPlan registry limits access p) := by
  unfold validateQueryPlan
  rw [contained_bind_iff]
  refine ⟨contained_get _, fun resource hresource => ?_⟩
  rw [contained_validateForResource_iff hp]
  intro _
  exact h.namesPrintable hresource p.filters

/-! ## Models -/

theorem contained_parseProviderModel {α : Type} {model : String} {parse : PyObj → Parse α}
    {normalize : Entries → Entries} {raw : RawPlan} (h : Contained (parsePlanPayload env raw)) :
    Contained (parseProviderModel env model parse normalize raw) := by
  unfold parseProviderModel
  rw [contained_bind_iff]
  refine ⟨h, fun payload _ => ?_⟩
  cases parse (.dict (normalize payload)) with
  | ok value => exact contained_ok value
  | error e => exact contained_exc _ _

theorem parseProviderModel_ok {α : Type} {model : String} {parse : PyObj → Parse α}
    {normalize : Entries → Entries} {raw : RawPlan} {value : α}
    (h : parseProviderModel env model parse normalize raw = .ok value) :
    ∃ payload, parsePlanPayload env raw = .ok payload ∧
      parse (.dict (normalize payload)) = .ok value := by
  obtain ⟨payload, hpayload, h⟩ := bind_eq_ok.mp h
  refine ⟨payload, hpayload, ?_⟩
  cases hparse : parse (.dict (normalize payload)) with
  | ok parsed =>
    rw [hparse] at h
    exact congrArg Except.ok (Except.ok.inj h)
  | error e =>
    rw [hparse] at h
    cases h

/-! ## References -/

/-- No name of the resource or of its members is blank. -/
structure NamesNonblank (resource : CapabilityResource) : Prop where
  name : strip resource.name ≠ ""
  fields : ∀ f ∈ resource.fields, strip f.name ≠ ""
  metrics : ∀ m ∈ resource.metrics, strip m.name ≠ ""
  dateFields : ∀ f ∈ resource.dateFields, strip f.name ≠ ""

theorem canonicalizeReferences_nonblank {casefold : String → String} {items : List MemberNames}
    {references : List String} (hitems : ∀ item ∈ items, strip item.name ≠ "")
    (hreferences : ∀ reference ∈ references, strip reference ≠ "") :
    ∀ name ∈ canonicalizeReferences casefold references items, strip name ≠ "" := by
  intro name hname
  obtain ⟨reference, hreference, rfl⟩ := List.mem_map.mp (List.mem_eraseDups.mp hname)
  rcases canonicalReference_cases items reference with ⟨item, hitem, hcanonical⟩ | hsame
  · rw [hcanonical]
    exact hitems item hitem
  · rw [hsame]
    exact hreferences reference hreference

theorem IsName.strip_ne {s : String} (h : IsName s) : strip s ≠ "" := by
  obtain ⟨hstripped, hne⟩ := isName_text.mp h
  rw [hstripped]
  exact hne

theorem canonicalNamesNonblank {resource : CapabilityResource} (hresource : NamesNonblank resource)
    (casefold : String → String) (suggestion : QueryHelpSuggestion) :
    CanonicalNamesNonblank casefold suggestion resource := by
  have hnames : ∀ text ∈ suggestion.question :: suggestion.resourceName ::
      (suggestion.fields ++ suggestion.metrics ++ suggestion.dateFields), strip text ≠ "" :=
    fun text htext => (suggestion.names text htext).strip_ne
  have hfields : ∀ item ∈ resource.fields.map fieldNames, strip item.name ≠ "" := by
    intro item hitem
    obtain ⟨f, hf, rfl⟩ := List.mem_map.mp hitem
    exact hresource.fields f hf
  have hmetrics : ∀ item ∈ resource.metrics.map metricNames, strip item.name ≠ "" := by
    intro item hitem
    obtain ⟨m, hm, rfl⟩ := List.mem_map.mp hitem
    exact hresource.metrics m hm
  have hdates : ∀ item ∈ resource.dateFields.map fieldNames, strip item.name ≠ "" := by
    intro item hitem
    obtain ⟨f, hf, rfl⟩ := List.mem_map.mp hitem
    exact hresource.dateFields f hf
  intro text htext
  rcases List.mem_cons.mp htext with rfl | htext
  · exact hnames _ (by simp)
  rcases List.mem_cons.mp htext with rfl | htext
  · exact hresource.name
  rcases List.mem_append.mp htext with htext | htext
  · rcases List.mem_append.mp htext with htext | htext
    · exact canonicalizeReferences_nonblank hfields (fun r hr => hnames r (by simp [hr])) text htext
    · exact canonicalizeReferences_nonblank hmetrics (fun r hr => hnames r (by simp [hr])) text htext
  · exact canonicalizeReferences_nonblank hdates (fun r hr => hnames r (by simp [hr])) text htext

/-! ## Suggestions -/

section

variable {context : HelpContext env} {suggestion : QueryHelpSuggestion}
  {resource : CapabilityResource}

theorem contained_validatePlanPayload {rawPlan : Entries}
    (h : Contained (parseAndValidateQueryPlan context.registry context.limits
      (.ofPermissions context.permissions) (.mapping rawPlan))) :
    Contained (validatePlanPayload context suggestion resource rawPlan) := by
  unfold validatePlanPayload
  simp only [contained_bind_iff]
  exact ⟨h, fun plan _ => ⟨contained_raiseIf _ _ _, fun _ _ =>
    ⟨contained_planUsesCapabilities plan, fun _ _ => contained_ok _⟩⟩⟩

theorem contained_validateSuggestionPlan (h : OrderlyRegistry context.registry)
    (hdepth : 3 ≤ env.interp.recursionLimit)
    (hplan : suggestion.PlanEncodable env.interp.recursionLimit) :
    Contained (validateSuggestionPlan context suggestion resource) := by
  unfold validateSuggestionPlan
  rw [contained_bind_iff]
  refine ⟨contained_of_not_escapes (not_escapes_suggestionPlan _ _ _), fun payload hpayload => ?_⟩
  cases payload with
  | none => exact contained_ok _
  | some rawPlan =>
    apply contained_validatePlanPayload
    unfold suggestionPlan at hpayload
    cases hown : suggestion.plan with
    | some plan =>
      rw [hown] at hpayload
      obtain rfl := Option.some.inj (Except.ok.inj hpayload)
      exact contained_mapping h (encodesWithin_of_encodable (hplan _ hown))
    | none =>
      rw [hown] at hpayload
      dsimp only at hpayload
      split_ifs at hpayload
      · cases hbuilt : buildSuggestionPlanPayload suggestion resource with
        | error e =>
          rw [hbuilt] at hpayload
          cases hpayload
        | ok plan =>
          rw [hbuilt] at hpayload
          obtain rfl := Option.some.inj (Except.ok.inj hpayload)
          rw [← planPayload_copy] at hbuilt
          exact contained_builtPlan _ _ _ hdepth hbuilt
      · cases hpayload

theorem contained_checkSuggestion {resources : List CapabilityResource}
    (h : OrderlyRegistry context.registry) (hdepth : 3 ≤ env.interp.recursionLimit)
    (hresources : ∀ resource ∈ resources, NamesNonblank resource)
    (hplan : suggestion.PlanEncodable env.interp.recursionLimit) :
    Contained (checkSuggestion context resources suggestion) := by
  unfold checkSuggestion validateQueryHelpSuggestion
  cases hfound : (indexResourceReferences context.tables.casefold resources).get?
      (context.tables.casefold suggestion.resourceName) with
  | none => exact contained_exc _ _
  | some resource =>
    have hmem : resource ∈ resources := by
      rw [indexResourceReferences, get?_indexOf, Option.map_id_fun, id] at hfound
      exact (LastClaim.lastClaim_mem hfound).1
    have hnames := canonicalNamesNonblank (hresources resource hmem) context.tables.casefold
      suggestion
    simp only [contained_bind_iff]
    refine ⟨contained_of_not_escapes ?_, fun normalized hnormalized =>
      ⟨contained_of_not_escapes (not_escapes_suggestionReferences _ _ _), fun _ _ => ?_⟩⟩
    · intro hescapes
      exact escapes_normalizeSuggestionReferences_iff.mp hescapes hnames
    · apply contained_validateSuggestionPlan h hdepth
      intro plan hown
      rw [init_plan hnormalized] at hown
      exact hplan plan hown

end

/-! ## Help -/

theorem contained_collectValid {α β : Type} {caught : PyException → Bool} {check : α → Py β}
    {l : List α} (h : ∀ a ∈ l, Contained (check a)) : Contained (collectValid caught check l) := by
  induction l with
  | nil => exact contained_ok _
  | cons a rest ih =>
    have hrest := ih fun b hb => h b (List.mem_cons_of_mem _ hb)
    have hmap : ∀ f : List β × List PyException → List β × List PyException,
        Contained ((collectValid caught check rest).map f) := by
      intro f
      rcases hrest with ⟨r, hr⟩ | ⟨exc, hr⟩
      · rw [hr]
        exact contained_ok _
      · rw [hr]
        exact .inr ⟨exc, rfl⟩
    rw [collectValid]
    rcases h a List.mem_cons_self with ⟨b, hb⟩ | ⟨exc, hexc⟩
    · rw [hb]
      exact hmap _
    · rw [hexc]
      dsimp only
      split_ifs
      · exact hmap _
      · exact .inr ⟨exc, rfl⟩

theorem collectValid_length {α β : Type} {caught : PyException → Bool} {check : α → Py β}
    {l : List α} {r : List β × List PyException} (h : collectValid caught check l = .ok r) :
    r.1.length ≤ l.length := by
  induction l generalizing r with
  | nil =>
    obtain rfl := Except.ok.inj h
    exact Nat.le_refl _
  | cons a rest ih =>
    have hmap : ∀ f : List β × List PyException → List β × List PyException,
        (∀ s, (f s).1.length ≤ s.1.length + 1) →
          (collectValid caught check rest).map f = .ok r → r.1.length ≤ (a :: rest).length := by
      intro f hf hr
      cases hcollected : collectValid caught check rest with
      | error e =>
        rw [hcollected] at hr
        cases hr
      | ok s =>
        rw [hcollected] at hr
        obtain rfl := Except.ok.inj hr
        have hs := ih hcollected
        have := hf s
        rw [List.length_cons]
        omega
    rw [collectValid] at h
    split at h
    · exact hmap _ (fun s => Nat.le_refl _) h
    · rename_i exc _
      split_ifs at h
      exact hmap (fun s => (s.1, exc :: s.2)) (fun s => Nat.le_succ _) h

theorem contained_withSuggestions (help : QueryHelp) {suggestions : List QueryHelpSuggestion}
    (h : suggestions.length ≤ help.suggestions.length) :
    Contained (help.withSuggestions suggestions) := by
  unfold QueryHelp.withSuggestions
  rw [dif_pos (h.trans help.suggestions_length)]
  exact contained_ok _

theorem contained_validateQueryHelp {context : HelpContext env} {resources : List CapabilityResource}
    {help : QueryHelp} (h : OrderlyRegistry context.registry)
    (hdepth : 3 ≤ env.interp.recursionLimit)
    (hresources : ∀ resource ∈ resources, NamesNonblank resource)
    (hplans : help.PlansEncodable env.interp.recursionLimit) :
    Contained (validateQueryHelp context resources help) := by
  unfold validateQueryHelp
  rw [contained_bind_iff]
  constructor
  · apply contained_collectValid
    intro suggestion hmem
    exact contained_checkSuggestion h hdepth hresources (hplans suggestion hmem)
  · intro collected hcollected
    dsimp only
    split_ifs
    · exact contained_withSuggestions help (collectValid_length hcollected)
    · exact contained_exc _ _
    · exact contained_exc _ _

theorem contained_limitQueryHelpSuggestions (help : QueryHelp) (count : ℕ) :
    Contained (limitQueryHelpSuggestions help count) := by
  unfold limitQueryHelpSuggestions
  split_ifs
  · exact contained_ok _
  · apply contained_withSuggestions
    rw [List.length_take]
    exact Nat.min_le_right _ _

end AskLens.Planning
