import AskLens.Catalog.Disclosure
import AskLens.Planning.Containment
import AskLens.Planning.DeterministicHelp
import AskLens.Planning.FixedPoint
import AskLens.Planning.KeptSuggestions

/-!
# The fallback never fails

Deterministic help answers a request whose provider has failed, inside the
handler of that failure. For the guidance of a registry it is always built: its
suggestions are the first examples, and each plan among them is one that the
validator has accepted under the permissions of the request.
-/
namespace AskLens.Planning

open Python Catalog Checks

/-! ## Plans that were built -/

theorem encodable_textObj {depth : ℕ} (s : String) : Encodable depth (textObj s) :=
  encodable_scalar rfl ⟨_, rfl⟩

theorem encodable_planLimit {depth : ℕ} : Encodable depth (.int none planLimit) :=
  encodable_scalar rfl ⟨_, rfl⟩

theorem encodable_entries {depth : ℕ} {entries : Entries}
    (h : ∀ e ∈ entries, (∃ key, e.1 = textObj key) ∧ Encodable depth e.2) :
    Encodable (depth + 1) (.dict entries) := by
  apply encodable_dict
  intro entry hentry
  obtain ⟨⟨key, hkey⟩, hvalue⟩ := h entry hentry
  rw [hkey]
  exact ⟨⟨_, rfl⟩, hvalue⟩

theorem encodable_textEntries {depth : ℕ} {entries : Entries}
    (h : ∀ e ∈ entries, ∃ key text, e = (textObj key, textObj text)) :
    Encodable (depth + 1) (.dict entries) := by
  apply encodable_entries
  intro e he
  obtain ⟨key, text, rfl⟩ := h e he
  exact ⟨⟨key, rfl⟩, encodable_textObj text⟩

theorem encodable_texts {depth : ℕ} (texts : List String) :
    Encodable (depth + 1) (.list (texts.map textObj)) := by
  apply encodable_list
  intro v hv
  obtain ⟨s, -, rfl⟩ := List.mem_map.mp hv
  exact encodable_textObj s

section

variable {suggestion : HelpSuggestion} {resource : CapabilityResource} {entries : Entries}
  {depth : ℕ}

theorem encodable_aggregatePlan (metrics : List String) :
    Encodable (depth + 3) (.dict (suggestion.aggregatePlan resource metrics)) := by
  have hempty : Encodable (depth + 2) (.list []) := encodable_list (by simp)
  have hgroup : ∀ v ∈ suggestion.groupBy resource, Encodable (depth + 1) v := by
    intro v hv
    unfold HelpSuggestion.groupBy at hv
    split at hv
    · obtain rfl := List.mem_singleton.mp hv
      apply encodable_textEntries
      simp [fieldEntry]
    · obtain ⟨name, -, rfl⟩ := List.mem_map.mp hv
      apply encodable_textEntries
      simp [fieldEntry]
  apply encodable_entries
  intro e he
  unfold HelpSuggestion.aggregatePlan at he
  simp only [List.mem_cons, List.not_mem_nil, or_false] at he
  rcases he with rfl | rfl | rfl | rfl | rfl | rfl | rfl | rfl
  · exact ⟨⟨_, rfl⟩, encodable_textObj _⟩
  · exact ⟨⟨_, rfl⟩, encodable_textObj _⟩
  · exact ⟨⟨_, rfl⟩, hempty⟩
  · exact ⟨⟨_, rfl⟩, encodable_list hgroup⟩
  · refine ⟨⟨_, rfl⟩, encodable_list ?_⟩
    intro v hv
    obtain ⟨name, -, rfl⟩ := List.mem_map.mp hv
    apply encodable_textEntries
    simp
  · exact ⟨⟨_, rfl⟩, hempty⟩
  · refine ⟨⟨_, rfl⟩, encodable_list ?_⟩
    intro v hv
    obtain rfl := List.mem_singleton.mp hv
    unfold HelpSuggestion.orderBy
    split
    all_goals
      apply encodable_textEntries
      simp [fieldEntry]
  · exact ⟨⟨_, rfl⟩, encodable_planLimit⟩

theorem encodable_listPlan (h : suggestion.listPlan resource = .ok entries) :
    Encodable (depth + 3) (.dict entries) := by
  have hempty : Encodable (depth + 2) (.list []) := encodable_list (by simp)
  unfold HelpSuggestion.listPlan at h
  simp only at h
  split_ifs at h
  all_goals
    cases h
    apply encodable_entries
    intro e he
    simp only [List.mem_cons, List.not_mem_nil, or_false] at he
    rcases he with rfl | rfl | rfl | rfl | rfl | rfl | rfl | rfl
    · exact ⟨⟨_, rfl⟩, encodable_textObj _⟩
    · exact ⟨⟨_, rfl⟩, encodable_textObj _⟩
    · exact ⟨⟨_, rfl⟩, hempty⟩
    · exact ⟨⟨_, rfl⟩, hempty⟩
    · exact ⟨⟨_, rfl⟩, hempty⟩
    · exact ⟨⟨_, rfl⟩, encodable_texts _⟩
    · exact ⟨⟨_, rfl⟩, hempty⟩
    · exact ⟨⟨_, rfl⟩, encodable_planLimit⟩

theorem encodable_planPayload (h : suggestion.planPayload resource = .ok entries) :
    Encodable (depth + 3) (.dict entries) := by
  unfold HelpSuggestion.planPayload at h
  split at h
  · exact encodable_listPlan h
  · cases h
    exact encodable_aggregatePlan _

theorem lookup_filters (h : suggestion.planPayload resource = .ok entries) :
    lookupKey entries "filters" = some (.list []) := by
  unfold HelpSuggestion.planPayload at h
  split at h
  · unfold HelpSuggestion.listPlan at h
    simp only at h
    split_ifs at h
    all_goals
      cases h
      rfl
  · cases h
    rfl

theorem contained_planPayload : Contained (suggestion.planPayload resource) := by
  unfold HelpSuggestion.planPayload HelpSuggestion.listPlan
  split
  · simp only
    split_ifs
    · exact contained_exc _ _
    · exact contained_ok _
    · exact contained_ok _
  · exact contained_ok _

theorem filters_of_lookup {env : Environment} {p : QueryPlan}
    (hlookup : lookupKey entries "filters" = some (.list []))
    (h : parseQueryPlanModel env entries = .ok p) : p.filters = [] := by
  simp only [parseQueryPlanModel, bind_eq_ok] at h
  obtain ⟨resource, -, intent, -, filters, hfilters, groupBy, -, metrics, -, select, -, orderBy, -,
    limit, -, _, -, h⟩ := h
  cases h
  unfold optional at hfilters
  rw [hlookup] at hfilters
  cases hfilters
  rfl

variable {env : Environment}

/-- Validating a built plan either accepts it or raises an error of the package. -/
theorem contained_builtPlan (registry : CatalogRegistry env) (limits : PlanLimits)
    (access : Access) (hdepth : 3 ≤ env.interp.recursionLimit)
    (h : suggestion.planPayload resource = .ok entries) :
    Contained (parseAndValidateQueryPlan registry limits access (.mapping entries)) := by
  rw [contained_parse_iff]
  refine ⟨?_, ?_, ?_⟩
  · intro other hother
    cases hother
    obtain ⟨depth, hlimit⟩ := Nat.exists_eq_add_of_le' hdepth
    have hencodable : Encodable (depth + 3) (.dict entries) := encodable_planPayload h
    obtain ⟨text, htext⟩ := hencodable
    rw [dumps, hlimit, htext]
    intro herror
    cases herror
  · intro _ t ht
    cases ht
  · intro _ p target hparse _ _ pre x post ys keys hsplit
    unfold parseQueryPlan at hparse
    simp only [parsePlanPayload, ok_bind] at hparse
    split at hparse
    · rename_i plan hplan
      cases hparse
      rw [filters_of_lookup (lookup_filters h) hplan] at hsplit
      exact absurd hsplit (by simp)
    · cases hparse

theorem contained_validateReferences (references allowed : List String) (label name : String) :
    Contained (validateReferences references allowed label name) :=
  contained_raiseIf _ _ _

theorem contained_planUsesCapabilities (plan : QueryPlan) :
    Contained (validatePlanUsesCapabilities plan resource) := by
  unfold validatePlanUsesCapabilities
  simp only [contained_bind_iff]
  exact ⟨contained_validateReferences _ _ _ _, fun _ _ =>
    ⟨contained_validateReferences _ _ _ _, fun _ _ => contained_validateReferences _ _ _ _⟩⟩

theorem contained_withPlan {context : HelpContext env}
    (hdepth : 3 ≤ env.interp.recursionLimit) :
    Contained (suggestion.withPlan context resource) := by
  unfold HelpSuggestion.withPlan
  simp only [contained_bind_iff]
  refine ⟨contained_planPayload, fun entries hentries => ⟨contained_builtPlan _ _ _ hdepth hentries,
    fun plan _ => ⟨contained_raiseIf _ _ _, fun _ _ => ⟨contained_planUsesCapabilities plan,
      fun _ _ => contained_ok _⟩⟩⟩⟩

/-- A plan that is attached is the dump of an accepted plan for the resource. -/
theorem withPlan_ok {context : HelpContext env} {result : HelpSuggestion}
    (h : suggestion.withPlan context resource = .ok result) :
    ∃ raw p, parseAndValidateQueryPlan context.registry context.limits
        (.ofPermissions context.permissions) (.mapping raw) = .ok p ∧
      p.resource = resource.name ∧ result = { suggestion with plan := some p.modelDump } := by
  simp only [HelpSuggestion.withPlan, bind_eq_ok, raiseIf_eq_ok, not_not] at h
  obtain ⟨raw, -, p, hp, _, hresource, _, -, h⟩ := h
  cases h
  exact ⟨raw, p, hp, hresource, rfl⟩

end

/-! ## Example questions -/

theorem strip_ne_of_head {s : String} {c : Char} {cs : List Char} (h : s.toList = c :: cs)
    (hc : isSpace c = false) : strip s ≠ "" := by
  intro hempty
  have hnil : stripBy isSpace s.toList = [] := by
    have hlist := congrArg String.toList hempty
    rwa [strip, String.toList_ofList] at hlist
  rw [stripBy, h, List.dropWhile_cons_of_neg (by simp [hc]), List.reverse_eq_nil_iff,
    List.dropWhile_eq_nil_iff] at hnil
  have := hnil c (by simp)
  rw [hc] at this
  cases this

theorem mem_dedupeFrom {seen values : List String} {v : String}
    (h : v ∈ dedupeFrom seen values) : v ∈ values := by
  induction values generalizing seen with
  | nil => exact h
  | cons value rest ih =>
    unfold dedupeFrom at h
    split_ifs at h
    · exact List.mem_cons_of_mem _ (ih h)
    · rcases List.mem_cons.mp h with rfl | h
      · exact List.mem_cons_self
      · exact List.mem_cons_of_mem _ (ih h)

theorem strip_listExample (label : String) (fields : List CapabilityField) :
    strip (buildListExample label fields) ≠ "" := by
  apply strip_ne_of_head (c := 'L')
  · simp only [buildListExample, String.toList_append, toString]
    rfl
  · decide

theorem strip_byFieldExample (metric : CapabilityMetric) (field : CapabilityField) :
    strip (buildMetricByFieldExample metric field) ≠ "" := by
  apply strip_ne_of_head (c := 'S')
  · simp only [buildMetricByFieldExample, String.toList_append, toString]
    rfl
  · decide

theorem strip_trendExample (metric : CapabilityMetric) (field : CapabilityField) :
    strip (buildMetricTrendExample metric field) ≠ "" := by
  apply strip_ne_of_head (c := 'T')
  · simp only [buildMetricTrendExample, String.toList_append, toString]
    rfl
  · decide

theorem strip_example {tables : CaseTables} {resource : CapabilityResource}
    {examplesEnabled : Option Bool} {q : String}
    (h : q ∈ buildResourceExamples tables resource examplesEnabled) : strip q ≠ "" := by
  unfold buildResourceExamples at h
  split_ifs at h
  · cases h
  · cases h
  · have hmem := mem_dedupeFrom (List.mem_of_mem_take h)
    simp only [List.mem_append] at hmem
    rcases hmem with (hmem | hmem) | hmem
    · split_ifs at hmem
      · cases hmem
      · obtain rfl := List.mem_singleton.mp hmem
        exact strip_listExample _ _
    · split at hmem
      · obtain rfl := List.mem_singleton.mp hmem
        exact strip_byFieldExample _ _
      · cases hmem
    · split at hmem
      · obtain rfl := List.mem_singleton.mp hmem
        exact strip_trendExample _ _
      · cases hmem

/-! ## The resources of a guidance -/

section

variable {env : Environment} {registry : CatalogRegistry env} {tables : CaseTables} {maxRows : ℤ}
  {permissions : List String} {resource : ResourceGuidance}

theorem mem_guidance
    (h : resource ∈ (buildQueryGuidance tables maxRows registry permissions).resources) :
    ∃ r ∈ registry.visibleResources (.ofPermissions permissions),
      resource = buildResourceCapability tables (r.toDict env.unicode (.ofPermissions permissions))
        permissions (registry.requiredPermission r.name) := by
  obtain ⟨item, hitem, rfl⟩ := List.mem_map.mp h
  obtain ⟨r, hr, rfl⟩ := List.mem_map.mp hitem
  exact ⟨r, hr, rfl⟩

theorem isName_guidance
    (h : resource ∈ (buildQueryGuidance tables maxRows registry permissions).resources) :
    IsName resource.name := by
  obtain ⟨r, hr, rfl⟩ := mem_guidance h
  obtain ⟨raw, hraw⟩ := (mem_visibleResources hr).name_normal
  exact isName_normalized hraw

theorem strip_guidance_example
    (h : resource ∈ (buildQueryGuidance tables maxRows registry permissions).resources)
    {q : String} (hq : q ∈ resource.examples) : strip q ≠ "" := by
  obtain ⟨r, -, rfl⟩ := mem_guidance h
  exact strip_example hq

end

/-! ## One suggestion -/

section

variable {env : Environment} {context : HelpContext env} {resource : ResourceGuidance}
  {q : String} {suggestion : HelpSuggestion}

/-- What is promised of the suggestion for an example question of a resource. -/
structure SuggestedFor (context : HelpContext env) (pair : ResourceGuidance × String)
    (suggestion : HelpSuggestion) : Prop where
  question : suggestion.question = strip pair.2
  resource : suggestion.resourceName = pair.1.name
  /-- A plan is the dump of one that the validator accepts. -/
  accepted : ∀ dump, suggestion.plan = some dump → ∃ raw p,
    parseAndValidateQueryPlan context.registry context.limits
      (.ofPermissions context.permissions) (.mapping raw) = .ok p ∧
        p.resource = suggestion.resourceName ∧ dump = p.modelDump
  /-- A plan is missing only without references or when it is refused. -/
  refused : suggestion.plan = none →
    (suggestion.fields = [] ∧ suggestion.metrics = [] ∧ suggestion.dateFields = []) ∨
      ∃ exc, suggestion.withPlan context pair.1.toCapabilityResource = .error (.askLens exc)

theorem enrich_same (tables : CaseTables) (suggestion : HelpSuggestion)
    (resource : ResourceGuidance) :
    (enrichDeterministicSuggestionReferences tables suggestion resource).question =
        suggestion.question ∧
      (enrichDeterministicSuggestionReferences tables suggestion resource).resourceName =
        suggestion.resourceName ∧
      (enrichDeterministicSuggestionReferences tables suggestion resource).plan =
        suggestion.plan := by
  unfold enrichDeterministicSuggestionReferences
  simp only
  split_ifs
  · exact ⟨rfl, rfl, rfl⟩
  · split
    · rename_i enriched hbyField
      split at hbyField
      · split_ifs at hbyField
        cases hbyField
        exact ⟨rfl, rfl, rfl⟩
      · cases hbyField
    · split
      · split_ifs
        · exact ⟨rfl, rfl, rfl⟩
        · exact ⟨rfl, rfl, rfl⟩
      · exact ⟨rfl, rfl, rfl⟩

theorem init_example (hname : IsName resource.name) (hq : strip q ≠ "") :
    ∃ s, QueryHelpSuggestion.init q resource.name [] [] [] none deterministicWhy = .ok s ∧
      s.question = strip q ∧ s.resourceName = resource.name ∧ s.plan = none := by
  have hblank : NoneBlank q resource.name [] [] [] := by
    intro text htext
    simp only [List.append_nil, List.mem_cons, List.not_mem_nil, or_false] at htext
    rcases htext with rfl | rfl
    · exact hq
    · rw [(isName_text.mp hname).1]
      exact (isName_text.mp hname).2
  unfold QueryHelpSuggestion.init
  rw [dif_pos ⟨hblank, Nat.zero_le _, Nat.zero_le _, Nat.zero_le _⟩]
  exact ⟨_, rfl, rfl, (isName_text.mp hname).1, rfl⟩

theorem suggestedFor_example (hdepth : 3 ≤ env.interp.recursionLimit)
    (hname : IsName resource.name) (hq : strip q ≠ "") :
    ∃ s, buildDeterministicSuggestionFromExample context resource q = .ok s ∧
      SuggestedFor context (resource, q) s := by
  obtain ⟨s, hs, hquestion, hresource, hplan⟩ := init_example hname hq
  obtain ⟨hquestion', hresource', hplan'⟩ :=
    enrich_same context.tables s.copy resource
  unfold buildDeterministicSuggestionFromExample
  rw [hs, ok_bind]
  simp only
  generalize enrichDeterministicSuggestionReferences context.tables s.copy resource = enriched
    at hquestion' hresource' hplan' ⊢
  have hnone : enriched.plan = none := hplan'.trans hplan
  have hsame : enriched.question = strip q ∧ enriched.resourceName = resource.name :=
    ⟨hquestion'.trans hquestion, hresource'.trans hresource⟩
  split_ifs with hempty
  · refine ⟨enriched, rfl, hsame.1, hsame.2, ?_, fun _ => .inl hempty⟩
    intro dump hdump
    rw [hnone] at hdump
    cases hdump
  · have hcontained : Contained (enriched.withPlan context resource.toCapabilityResource) :=
      contained_withPlan hdepth
    rcases hcontained with ⟨validated, hvalidated⟩ | ⟨exc, hexc⟩
    · obtain ⟨raw, p, hp, hpresource, rfl⟩ := withPlan_ok hvalidated
      rw [hvalidated]
      refine ⟨_, rfl, hsame.1, hsame.2, ?_, fun h => ?_⟩
      · intro dump hdump
        cases hdump
        exact ⟨raw, p, hp, hpresource.trans hsame.2.symm, rfl⟩
      · cases h
    · rw [hexc]
      refine ⟨enriched, rfl, hsame.1, hsame.2, ?_, fun _ => .inr ⟨exc, hexc⟩⟩
      intro dump hdump
      rw [hnone] at hdump
      cases hdump

end

/-! ## The loops -/

section

variable {build : ResourceGuidance → String → Py HelpSuggestion} {desiredCount : ℕ}

/-- The resources with their examples, in the order of the loops. -/
def examplePairs (resources : List ResourceGuidance) : List (ResourceGuidance × String) :=
  resources.flatMap fun r => r.examples.map fun q => (r, q)

theorem suggestExamples_eq (one : String → Py HelpSuggestion) (texts : List String)
    {suggestions : List HelpSuggestion} (h : suggestions.length < desiredCount) :
    suggestExamples one desiredCount texts suggestions =
      (texts.take (desiredCount - suggestions.length)).mapM one >>= fun more =>
        .ok (suggestions ++ more) := by
  induction texts generalizing suggestions with
  | nil => simp [suggestExamples]
  | cons text rest ih =>
    obtain ⟨n, hn⟩ : ∃ n, desiredCount - suggestions.length = n + 1 :=
      ⟨desiredCount - suggestions.length - 1, by omega⟩
    rw [suggestExamples, hn, List.take_succ_cons, List.mapM_cons]
    cases hone : one text with
    | error e => rfl
    | ok s =>
      simp only [ok_bind]
      split_ifs with hfull
      · have hzero : n = 0 := by
          rw [List.length_append, List.length_singleton] at hfull
          omega
        simp [hzero]
      · rw [ih (by omega)]
        have hleft : desiredCount - (suggestions ++ [s]).length = n := by
          rw [List.length_append, List.length_singleton]
          omega
        rw [hleft]
        cases (rest.take n).mapM one <;> simp

theorem suggestResources_eq (resources : List ResourceGuidance)
    {suggestions : List HelpSuggestion} (h : suggestions.length < desiredCount) :
    suggestResources build desiredCount resources suggestions =
      ((examplePairs resources).take (desiredCount - suggestions.length)).mapM
          (fun pair => build pair.1 pair.2) >>= fun more =>
        .ok (suggestions ++ more) := by
  induction resources generalizing suggestions with
  | nil => simp [suggestResources, examplePairs]
  | cons resource rest ih =>
    have hpairs : examplePairs (resource :: rest) =
        resource.examples.map (fun q => (resource, q)) ++ examplePairs rest := rfl
    have hbuild : ((fun pair : ResourceGuidance × String => build pair.1 pair.2) ∘
        fun q => (resource, q)) = build resource := rfl
    rw [suggestResources, suggestExamples_eq _ _ h, hpairs, List.take_append, List.length_map,
      List.mapM_append, ← List.map_take, List.mapM_map, hbuild]
    cases hmore : (resource.examples.take (desiredCount - suggestions.length)).mapM
        (build resource) with
    | error e => rfl
    | ok more =>
      have hlength := (List.Forall₂.length_eq (mapM_eq_ok.mp hmore)).symm
      rw [List.length_take] at hlength
      simp only [ok_bind]
      split_ifs with hfull
      · rw [List.length_append] at hfull
        have hzero : desiredCount - suggestions.length - resource.examples.length = 0 := by omega
        simp [hzero]
      · rw [List.length_append] at hfull
        rw [ih (by rw [List.length_append]; omega)]
        have hleft : desiredCount - (suggestions ++ more).length =
            desiredCount - suggestions.length - resource.examples.length := by
          rw [List.length_append]
          omega
        rw [hleft]
        cases ((examplePairs rest).take
          (desiredCount - suggestions.length - resource.examples.length)).mapM
            (fun pair => build pair.1 pair.2) <;> simp

end

/-! ## The whole help -/

theorem forall₂_imp_of_mem {α β : Type} {R S : α → β → Prop} {l : List α} {r : List β}
    (h : List.Forall₂ R l r) (himp : ∀ a ∈ l, ∀ b, R a b → S a b) : List.Forall₂ S l r := by
  induction h with
  | nil => exact .nil
  | cons hab _ ih =>
    exact .cons (himp _ List.mem_cons_self _ hab)
      (ih fun a ha => himp a (List.mem_cons_of_mem _ ha))

theorem requestedSuggestionCount_bounds (unicode : Unicode) (tables : CaseTables)
    (question : String) :
    1 ≤ requestedSuggestionCount unicode tables question ∧
      requestedSuggestionCount unicode tables question ≤ maxHelpSuggestions := by
  unfold requestedSuggestionCount
  simp only
  split
  · unfold clampSuggestionCount maxHelpSuggestions
    omega
  · decide

/-- For any part of the guidance of a registry, deterministic help is built, with the first
examples as its suggestions. -/
theorem buildDeterministicQueryHelp_ok {env : Environment} (context : HelpContext env) {maxRows : ℤ}
    {capabilities : CapabilitiesSnapshot} (question : String)
    (hdepth : 3 ≤ env.interp.recursionLimit)
    (hpart : capabilities.resources ⊆
      (buildQueryGuidance context.tables maxRows context.registry context.permissions).resources)
    (hsummary : strip capabilities.summary ≠ "") :
    ∃ help, buildDeterministicQueryHelp context capabilities question = .ok help ∧
      List.Forall₂ (SuggestedFor context)
        ((examplePairs capabilities.resources).take
          (requestedSuggestionCount env.unicode context.tables question)) help.suggestions ∧
      help.answer = strip capabilities.summary := by
  obtain ⟨hpos, hmax⟩ := requestedSuggestionCount_bounds env.unicode context.tables question
  generalize hcount : requestedSuggestionCount env.unicode context.tables question = desired
    at hpos hmax ⊢
  have hbuilt : ∀ pair ∈ (examplePairs capabilities.resources).take desired, ∃ s,
      buildDeterministicSuggestionFromExample context pair.1 pair.2 = .ok s ∧
        SuggestedFor context pair s := by
    intro pair hpair
    obtain ⟨r, hr, hpair⟩ := List.mem_flatMap.mp (List.mem_of_mem_take hpair)
    obtain ⟨q, hmem, rfl⟩ := List.mem_map.mp hpair
    exact suggestedFor_example hdepth (isName_guidance (hpart hr))
      (strip_guidance_example (hpart hr) hmem)
  obtain ⟨suggestions, hsuggestions⟩ := mapM_ok_iff.mpr fun pair hpair =>
    (hbuilt pair hpair).imp fun _ h => h.1
  have hforall := mapM_eq_ok.mp hsuggestions
  have hlength : suggestions.length ≤ maxHelpSuggestions := by
    rw [← hforall.length_eq, List.length_take]
    omega
  have hanswer : capabilities.summary ≠ "" := by
    intro hempty
    rw [hempty] at hsummary
    exact hsummary rfl
  refine ⟨⟨strip capabilities.summary, suggestions, deterministicNotes.map strip⟩, ?_, ?_, rfl⟩
  · unfold buildDeterministicQueryHelp
    simp only [hcount]
    rw [suggestResources_eq _ (Nat.lt_of_lt_of_le Nat.zero_lt_one hpos)]
    simp only [List.length_nil, Nat.sub_zero, hsuggestions, ok_bind, List.nil_append,
      if_neg hanswer]
    unfold HelpContent.init
    rw [if_pos]
    exact ⟨hsummary, hlength, by decide, by decide⟩
  · apply forall₂_imp_of_mem hforall
    intro pair hpair s hs
    obtain ⟨s', hs', hsuggested⟩ := hbuilt pair hpair
    cases hs.symm.trans hs'
    exact hsuggested

theorem strip_summary (resources : List ResourceGuidance) : strip (buildSummary resources) ≠ "" := by
  unfold buildSummary
  split
  · exact strip_ne_of_head (c := 'N') rfl (by decide)
  · exact strip_ne_of_head (c := 'Y') rfl (by decide)
  · apply strip_ne_of_head (c := 'Y')
    · rw [String.toList_append]
      rfl
    · decide

end AskLens.Planning
