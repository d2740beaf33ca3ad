import AskLens.Planning.Help
import AskLens.Planning.Refusals

/-!
# Kept suggestions

The loop over the suggestions catches plan errors only. What else a suggestion
can raise comes from the validator of its plan, or from a blank name in the
guidance.
-/
namespace AskLens.Planning

open Python Catalog Checks

section

variable {env : Environment} {context : HelpContext env} {resources : List CapabilityResource}
  {help : QueryHelp} {suggestion : QueryHelpSuggestion} {resource : CapabilityResource}

def checkSuggestion (context : HelpContext env) (resources : List CapabilityResource) :
    QueryHelpSuggestion → Py QueryHelpSuggestion :=
  validateQueryHelpSuggestion context (indexResourceReferences context.tables.casefold resources)

/-- The suggestions that are valid for themselves, in their order. -/
def validSuggestions (context : HelpContext env) (resources : List CapabilityResource)
    (help : QueryHelp) : List QueryHelpSuggestion :=
  help.suggestions.filterMap fun suggestion =>
    (checkSuggestion context resources suggestion).toOption

/-- The help is returned with exactly the valid suggestions. -/
def KeepsValid (context : HelpContext env) (resources : List CapabilityResource)
    (help : QueryHelp) : Prop :=
  ∃ result, validateQueryHelp context resources help = .ok result ∧
    result.suggestions = validSuggestions context resources help ∧
      result.answer = help.answer ∧ result.notes = help.notes

/-- The names that a suggestion is canonicalized to; some of them may be blank in the guidance. -/
def CanonicalNamesNonblank (casefold : String → String) (suggestion : QueryHelpSuggestion)
    (resource : CapabilityResource) : Prop :=
  NoneBlank suggestion.question resource.name
    (canonicalizeReferences casefold suggestion.fields (resource.fields.map fieldNames))
    (canonicalizeReferences casefold suggestion.metrics (resource.metrics.map metricNames))
    (canonicalizeReferences casefold suggestion.dateFields (resource.dateFields.map fieldNames))

/-- The plan of a suggestion is refused with something else than a plan error. -/
def PlanRefusedOtherwise (context : HelpContext env) (rawPlan : Entries) : Prop :=
  RefusedOtherwise context.registry context.limits (.ofPermissions context.permissions)
    (.mapping rawPlan)

/-- The canonicalized suggestion gets as far as its plan, which is then refused otherwise. -/
def ReachesRefusal (context : HelpContext env) (suggestion : QueryHelpSuggestion)
    (resource : CapabilityResource) : Prop :=
  ∃ normalized rawPlan,
    normalizeSuggestionReferences context.tables.casefold suggestion resource = .ok normalized ∧
      validateSuggestionReferences context.tables normalized resource = .ok () ∧
        suggestionPlan context.requirePlans normalized resource = .ok (some rawPlan) ∧
          PlanRefusedOtherwise context rawPlan

def StopsWithPlanErrors (context : HelpContext env) (resources : List CapabilityResource)
    (suggestion : QueryHelpSuggestion) : Prop :=
  ∀ resource, (indexResourceReferences context.tables.casefold resources).get?
      (context.tables.casefold suggestion.resourceName) = some resource →
    CanonicalNamesNonblank context.tables.casefold suggestion resource ∧
      ¬ ReachesRefusal context suggestion resource

theorem not_escapes_planInvalid {c : Prop} [Decidable c] (msg : String) :
    ¬ Escapes isPlanValidationError (raiseIf c (planInvalid msg)) := not_escapes_raiseIf rfl

theorem not_escapes_validateReferences (references allowed : List String) (label name : String) :
    ¬ Escapes isPlanValidationError (validateReferences references allowed label name) :=
  not_escapes_planInvalid _

theorem not_escapes_questionIsSafe (tables : CaseTables) (question : String) :
    ¬ Escapes isPlanValidationError (validateSuggestionQuestionIsSafe tables question) := by
  apply not_escapes_bind (not_escapes_planInvalid _)
  intro _
  apply not_escapes_bind (not_escapes_planInvalid _)
  intro _
  apply not_escapes_bind (not_escapes_planInvalid _)
  intro _
  exact not_escapes_planInvalid _

theorem not_escapes_respectsScope (tables : CaseTables) (suggestion : QueryHelpSuggestion)
    (resource : CapabilityResource) :
    ¬ Escapes isPlanValidationError
      (validateSuggestionRespectsScope tables suggestion resource) := by
  unfold validateSuggestionRespectsScope
  split
  · apply not_escapes_bind (not_escapes_planInvalid _)
    intro _
    apply not_escapes_bind (not_escapes_planInvalid _)
    intro _
    exact not_escapes_planInvalid _
  · exact not_escapes_ok _

theorem not_escapes_suggestionReferences (tables : CaseTables) (suggestion : QueryHelpSuggestion)
    (resource : CapabilityResource) :
    ¬ Escapes isPlanValidationError
      (validateSuggestionReferences tables suggestion resource) := by
  apply not_escapes_bind (not_escapes_questionIsSafe _ _)
  intro _
  apply not_escapes_bind (not_escapes_respectsScope _ _ _)
  intro _
  apply not_escapes_bind (not_escapes_validateReferences _ _ _ _)
  intro _
  apply not_escapes_bind (not_escapes_validateReferences _ _ _ _)
  intro _
  exact not_escapes_validateReferences _ _ _ _

theorem not_escapes_buildSuggestionPlanPayload (suggestion : QueryHelpSuggestion)
    (resource : CapabilityResource) :
    ¬ Escapes isPlanValidationError (buildSuggestionPlanPayload suggestion resource) := by
  have hlist : ¬ Escapes isPlanValidationError (buildListSuggestionPlan suggestion resource) := by
    simp only [buildListSuggestionPlan]
    split_ifs
    · exact not_escapes_error_planInvalid _
    · exact not_escapes_ok _
    · exact not_escapes_ok _
  rw [buildSuggestionPlanPayload]
  split
  · exact hlist
  · exact not_escapes_ok _

theorem not_escapes_suggestionPlan (requirePlan : Bool) (suggestion : QueryHelpSuggestion)
    (resource : CapabilityResource) :
    ¬ Escapes isPlanValidationError (suggestionPlan requirePlan suggestion resource) := by
  unfold suggestionPlan
  cases suggestion.plan with
  | some plan => exact not_escapes_ok _
  | none =>
    cases requirePlan with
    | false => exact not_escapes_ok _
    | true =>
      have hbuild := not_escapes_buildSuggestionPlanPayload suggestion resource
      dsimp only
      rw [if_pos rfl]
      cases hpayload : buildSuggestionPlanPayload suggestion resource with
      | ok plan => exact not_escapes_ok _
      | error e =>
        rw [hpayload] at hbuild
        rwa [Except.map, escapes_error_iff] at *

theorem not_escapes_planUsesCapabilities (plan : QueryPlan) (resource : CapabilityResource) :
    ¬ Escapes isPlanValidationError (validatePlanUsesCapabilities plan resource) := by
  apply not_escapes_bind (not_escapes_validateReferences _ _ _ _)
  intro _
  apply not_escapes_bind (not_escapes_validateReferences _ _ _ _)
  intro _
  exact not_escapes_validateReferences _ _ _ _

theorem escapes_validatePlanPayload_iff {rawPlan : Entries} :
    Escapes isPlanValidationError (validatePlanPayload context suggestion resource rawPlan) ↔
      PlanRefusedOtherwise context rawPlan := by
  have hrest : ∀ plan : QueryPlan, ¬ Escapes isPlanValidationError (do
      raiseIf (plan.resource ≠ resource.name)
        (planInvalid (s!"QueryHelp suggestion for resource {pyRepr suggestion.resourceName} " ++
          s!"included a plan for resource {pyRepr plan.resource}."))
      validatePlanUsesCapabilities plan resource
      .ok { suggestion with plan := some plan.modelDump }) := by
    intro plan
    apply not_escapes_bind (not_escapes_planInvalid _)
    intro _
    apply not_escapes_bind (not_escapes_planUsesCapabilities _ _)
    intro _
    exact not_escapes_ok _
  rw [validatePlanPayload, escapes_bind_iff, refusedOtherwise_iff]
  constructor
  · rintro (h | ⟨plan, -, h⟩)
    · exact h
    · exact absurd h (hrest plan)
  · exact .inl

theorem escapes_validateSuggestionPlan_iff :
    Escapes isPlanValidationError (validateSuggestionPlan context suggestion resource) ↔
      ∃ rawPlan, suggestionPlan context.requirePlans suggestion resource = .ok (some rawPlan) ∧
        PlanRefusedOtherwise context rawPlan := by
  rw [validateSuggestionPlan, escapes_bind_iff]
  constructor
  · rintro (h | ⟨payload, hpayload, h⟩)
    · exact absurd h (not_escapes_suggestionPlan _ _ _)
    · cases payload with
      | none => exact absurd h (not_escapes_ok _)
      | some rawPlan => exact ⟨rawPlan, hpayload, escapes_validatePlanPayload_iff.mp h⟩
  · rintro ⟨rawPlan, hpayload, h⟩
    exact .inr ⟨some rawPlan, hpayload, escapes_validatePlanPayload_iff.mpr h⟩

theorem length_canonicalizeReferences_le (casefold : String → String) (references : List String)
    (items : List MemberNames) :
    (canonicalizeReferences casefold references items).length ≤ references.length := by
  have hsub : (canonicalizeReferences casefold references items) ⊆
      references.map (canonicalReference casefold items) := by
    intro name hname
    exact List.mem_eraseDups.mp hname
  have hle := (List.subperm_of_subset (nodup_canonicalizeReferences references items) hsub).length_le
  rwa [List.length_map] at hle

/-- Only a blank name stops the canonicalization, and nobody catches that. -/
theorem escapes_normalizeSuggestionReferences_iff {casefold : String → String} :
    Escapes isPlanValidationError (normalizeSuggestionReferences casefold suggestion resource) ↔
      ¬ CanonicalNamesNonblank casefold suggestion resource := by
  have hfields := (length_canonicalizeReferences_le casefold suggestion.fields
    (resource.fields.map fieldNames)).trans suggestion.fields_length
  have hmetrics := (length_canonicalizeReferences_le casefold suggestion.metrics
    (resource.metrics.map metricNames)).trans suggestion.metrics_length
  have hdates := (length_canonicalizeReferences_le casefold suggestion.dateFields
    (resource.dateFields.map fieldNames)).trans suggestion.dateFields_length
  rw [normalizeSuggestionReferences, QueryHelpSuggestion.init]
  split_ifs with h
  · constructor
    · intro hescapes
      exact absurd hescapes (not_escapes_ok _)
    · intro hblank
      exact absurd h.1 hblank
  · constructor
    · intro _ hnames
      exact h ⟨hnames, hfields, hmetrics, hdates⟩
    · intro _
      exact escapes_error_iff.mpr rfl

theorem escapes_checkSuggestion_iff :
    Escapes isPlanValidationError (checkSuggestion context resources suggestion) ↔
      ¬ StopsWithPlanErrors context resources suggestion := by
  rw [checkSuggestion, validateQueryHelpSuggestion, StopsWithPlanErrors]
  cases hfound : (indexResourceReferences context.tables.casefold resources).get?
      (context.tables.casefold suggestion.resourceName) with
  | none =>
    constructor
    · intro h
      exact absurd h (not_escapes_error_planInvalid _)
    · intro h
      exact absurd (fun resource hresource => nomatch hresource) h
  | some resource =>
    have hstops : ¬ (∀ found, some resource = some found →
        CanonicalNamesNonblank context.tables.casefold suggestion found ∧
          ¬ ReachesRefusal context suggestion found) ↔
        ¬ CanonicalNamesNonblank context.tables.casefold suggestion resource ∨
          ReachesRefusal context suggestion resource := by
      simp only [Option.some.injEq, forall_eq', not_and_or, not_not]
    dsimp only
    rw [hstops, escapes_bind_iff, escapes_normalizeSuggestionReferences_iff]
    apply or_congr_right
    constructor
    · rintro ⟨normalized, hnormalized, h⟩
      rcases escapes_bind_iff.mp h with h | ⟨⟨⟩, hreferences, h⟩
      · exact absurd h (not_escapes_suggestionReferences _ _ _)
      · obtain ⟨rawPlan, hpayload, hrefused⟩ := escapes_validateSuggestionPlan_iff.mp h
        exact ⟨normalized, rawPlan, hnormalized, hreferences, hpayload, hrefused⟩
    · rintro ⟨normalized, rawPlan, hnormalized, hreferences, hpayload, hrefused⟩
      refine ⟨normalized, hnormalized, escapes_bind_iff.mpr (.inr ⟨(), hreferences, ?_⟩)⟩
      exact escapes_validateSuggestionPlan_iff.mpr ⟨rawPlan, hpayload, hrefused⟩

theorem withSuggestions_validSuggestions (context : HelpContext env)
    (resources : List CapabilityResource) (help : QueryHelp) :
    ∃ result, help.withSuggestions (validSuggestions context resources help) = .ok result ∧
      result.suggestions = validSuggestions context resources help ∧
        result.answer = help.answer ∧ result.notes = help.notes := by
  have hlength : (validSuggestions context resources help).length ≤ maxHelpSuggestions :=
    (List.length_filterMap_le _ _).trans help.suggestions_length
  rw [QueryHelp.withSuggestions, dif_pos hlength]
  exact ⟨_, rfl, rfl, rfl, rfl⟩

/-- A help with a valid suggestion is returned with exactly the valid ones if and only if every
suggestion stops with plan errors only. -/
theorem keepsValid_iff (hvalid : ∃ suggestion ∈ help.suggestions, ∃ normalized,
      checkSuggestion context resources suggestion = .ok normalized) :
    KeepsValid context resources help ↔
      ∀ suggestion ∈ help.suggestions, StopsWithPlanErrors context resources suggestion := by
  constructor
  · rintro ⟨result, hresult, -⟩ suggestion hmem
    by_contra hnot
    obtain ⟨e, he⟩ := collectValid_of_escapes hmem (escapes_checkSuggestion_iff.mpr hnot)
    rw [validateQueryHelp, ← checkSuggestion, he] at hresult
    cases hresult
  · intro h
    have hcaught : ∀ suggestion ∈ help.suggestions,
        ¬ Escapes isPlanValidationError (checkSuggestion context resources suggestion) := by
      intro suggestion hmem hescapes
      exact escapes_checkSuggestion_iff.mp hescapes (h suggestion hmem)
    obtain ⟨errors, hcollected⟩ := collectValid_of_caught hcaught
    have hnonempty : validSuggestions context resources help ≠ [] := by
      obtain ⟨suggestion, hmem, normalized, hnormalized⟩ := hvalid
      have hkept : normalized ∈ validSuggestions context resources help := by
        apply List.mem_filterMap.mpr
        exact ⟨suggestion, hmem, by rw [hnormalized]; rfl⟩
      exact List.ne_nil_of_mem hkept
    have hreturned : validateQueryHelp context resources help =
        help.withSuggestions (validSuggestions context resources help) := by
      rw [validateQueryHelp, ← checkSuggestion, hcollected]
      exact if_pos (.inl hnonempty)
    rw [KeepsValid, hreturned]
    exact withSuggestions_validSuggestions context resources help

end

/-! ## A discarded suggestion -/

def plainTables : CaseTables where
  lower := asciiCasefold
  casefold := asciiCasefold
  isWord := fun c => c.isAlphanum || c == '_'

def ordersContext : HelpContext Sample.environment where
  tables := plainTables
  registry := numberedOrders
  limits := Sample.limits
  permissions := []
  requirePlans := true

def ordersGuidance : CapabilityResource := textResource "orders" [textField "number" "Number"]

def numbersSuggestion (question : String) (h : strip question = question ∧ question ≠ "")
    (plan : Option Entries) : QueryHelpSuggestion where
  question := question
  resourceName := "orders"
  fields := ["number"]
  metrics := []
  dateFields := []
  plan := plan
  why := ""
  names := by
    intro text htext
    simp only [List.append_nil, List.mem_cons, List.not_mem_nil, or_false] at htext
    rcases htext with rfl | rfl | rfl
    · exact isName_text.mpr h
    · exact isName_text.mpr (by decide)
    · exact isName_text.mpr (by decide)
  fields_length := by decide
  metrics_length := by decide
  dateFields_length := by decide

def listNumbers : QueryHelpSuggestion := numbersSuggestion "List the orders" (by decide) none

def listBySql : QueryHelpSuggestion := numbersSuggestion "List the orders by SQL" (by decide) none

/-- The plan selects a field that the registry does not have. -/
def listUnknownField : QueryHelpSuggestion :=
  numbersSuggestion "List the days" (by decide)
    (some [(textObj "resource", textObj "orders"), (textObj "intent", textObj "list"),
      (textObj "select", .list [textObj "day"])])

def ordersHelp (suggestions : List QueryHelpSuggestion)
    (h : suggestions.length ≤ maxHelpSuggestions) : QueryHelp where
  answer := "Ask for orders."
  suggestions := suggestions
  notes := []
  answer_isName := ⟨by decide, by decide⟩
  notes_isName := by simp
  suggestions_length := h
  notes_length := by decide

theorem listNumbers_valid :
    ∃ normalized, checkSuggestion ordersContext [ordersGuidance] listNumbers = .ok normalized := by
  have h : (checkSuggestion ordersContext [ordersGuidance] listNumbers).isOk = true := by
    decide +kernel
  cases hcheck : checkSuggestion ordersContext [ordersGuidance] listNumbers with
  | ok normalized => exact ⟨normalized, rfl⟩
  | error e => rw [hcheck] at h; cases h

theorem ordersHelp_keepsValid_iff :
    KeepsValid ordersContext [ordersGuidance] (ordersHelp [listBySql, listNumbers] (by decide)) ↔
      ∀ suggestion ∈ [listBySql, listNumbers],
        StopsWithPlanErrors ordersContext [ordersGuidance] suggestion :=
  keepsValid_iff ⟨listNumbers, by simp [ordersHelp], listNumbers_valid⟩

/-- A plan that names an unknown field discards the valid suggestion before it. -/
theorem unknown_field_discards_all :
    ¬ ∀ (env : Environment) (context : HelpContext env) (resources : List CapabilityResource)
      (help : QueryHelp),
      (∃ suggestion ∈ help.suggestions, ∃ normalized,
        checkSuggestion context resources suggestion = .ok normalized) →
        KeepsValid context resources help := by
  intro h
  obtain ⟨result, hresult, -⟩ := h _ ordersContext [ordersGuidance]
    (ordersHelp [listNumbers, listUnknownField] (by decide))
    ⟨listNumbers, by simp [ordersHelp], listNumbers_valid⟩
  have herror : (validateQueryHelp ordersContext [ordersGuidance]
      (ordersHelp [listNumbers, listUnknownField] (by decide))).isOk = false := by
    decide +kernel
  rw [hresult] at herror
  cases herror

end AskLens.Planning
