import AskLens.Catalog.QueryGuidance
import AskLens.Library.Selection
import Mathlib.Data.List.Dedup

/-!
# Prompt optimization

What a provider is told about the catalog: either the whole guidance, or a
compact form of the resources that the question most likely means.
-/
namespace AskLens.Planning

open Python Catalog

/-- The dict of `compact_capability_field`. Guidance fields have no `requires_permission`. -/
structure CompactField where
  name : String
  label : String
  type : FieldType
  nullable : Bool
  operators : List FilterOperator
  canFilter : Bool
  canSelect : Bool
  canGroup : Bool
  canOrder : Bool
  canDateBucket : Bool
  enum : Option EnumCatalogItem
  scopeDimension : Option Bool
deriving DecidableEq

/-- The dict of `compact_capability_resource`. -/
structure CompactResource where
  name : String
  label : String
  description : String
  synonyms : List String
  defaultDateField : Option String
  timezone : String
  scope : GuidedScope
  fields : List CompactField
  metrics : List CapabilityMetric
  scopeResource : Option Bool
  examplesEnabled : Option Bool
deriving DecidableEq

/-- What `build_provider_prompt_capabilities` returns. -/
inductive PromptCapabilities where
  | full (capabilities : CapabilitiesSnapshot)
  | compact (summary : String) (resources : List CompactResource)
deriving DecidableEq

/-! ## Scores -/

def tokenizePromptText (tables : CaseTables) (value : String) : List String :=
  (findTokens (tables.lower (String.ofList
    (value.toList.map fun c => if c = '_' ∨ c = '.' then ' ' else c)))).dedup

def resourceIdentityTokens (tables : CaseTables) (resource : ResourceGuidance) : List String :=
  (resource.name :: resource.label :: resource.description :: resource.synonyms).flatMap
    (tokenizePromptText tables)

def fieldTokens (tables : CaseTables) (resource : ResourceGuidance) : List String :=
  resource.fields.flatMap fun field =>
    tokenizePromptText tables field.name ++ tokenizePromptText tables field.label

def metricTokens (tables : CaseTables) (resource : ResourceGuidance) : List String :=
  resource.metrics.flatMap fun metric =>
    tokenizePromptText tables metric.name ++ tokenizePromptText tables metric.label

/-- `len(question_tokens & tokens)`. -/
def sharedTokens (questionTokens tokens : List String) : ℕ :=
  questionTokens.countP tokens.contains

def scoreResourceForQuestion (tables : CaseTables) (resource : ResourceGuidance)
    (questionTokens : List String) : ℕ :=
  5 * sharedTokens questionTokens (resourceIdentityTokens tables resource) +
    3 * sharedTokens questionTokens (metricTokens tables resource) +
      2 * sharedTokens questionTokens (fieldTokens tables resource)

/-- An entry of `scored`. -/
structure ScoredResource where
  score : ℕ
  index : ℕ
  resource : ResourceGuidance

/-- The order of the keys `(-score, index)`. -/
def ScoredResource.Before (a b : ScoredResource) : Prop :=
  b.score < a.score ∨ a.score = b.score ∧ a.index ≤ b.index

instance : DecidableRel ScoredResource.Before :=
  fun a b => inferInstanceAs (Decidable (b.score < a.score ∨ a.score = b.score ∧ a.index ≤ b.index))

/-- `scored`, before it is sorted. -/
def scoredResources (tables : CaseTables) (questionTokens : List String)
    (resources : List ResourceGuidance) : List ScoredResource :=
  resources.zipIdx.map fun entry =>
    { score := scoreResourceForQuestion tables entry.1 questionTokens
      index := entry.2
      resource := entry.1 }

def shortlistCapabilityResources (tables : CaseTables) (question : String)
    (resources : List ResourceGuidance) (maxResources : ℤ) : List ResourceGuidance :=
  if maxResources ≤ 0 ∨ (resources.length : ℤ) ≤ maxResources then resources
  else
    let questionTokens := tokenizePromptText tables question
    if questionTokens = [] then resources.take maxResources.toNat
    else
      let selected := Selection.best ScoredResource.Before (fun e => 0 < e.score)
        maxResources.toNat (scoredResources tables questionTokens resources)
      if selected = [] then resources.take maxResources.toNat
      else selected.map ScoredResource.resource

/-! ## Compact forms -/

def compactCapabilityField (field : CapabilityField) : CompactField where
  name := field.name
  label := field.label
  type := field.type
  nullable := field.nullable
  operators := field.operators
  canFilter := field.canFilter
  canSelect := field.canSelect
  canGroup := field.canGroup
  canOrder := field.canOrder
  canDateBucket := field.canDateBucket
  enum := field.enum
  scopeDimension := if field.scopeDimension = some true then some true else none

/-- `compact_capability_resource`. A compact metric has the keys of the metric. -/
def compactCapabilityResource (resource : ResourceGuidance) : CompactResource where
  name := resource.name
  label := resource.label
  description := resource.description
  synonyms := resource.synonyms
  defaultDateField := resource.defaultDateField
  timezone := resource.timezone
  scope := resource.guidedScope
  fields := resource.fields.map compactCapabilityField
  metrics := resource.metrics
  scopeResource := if resource.scopeResource = some true then some true else none
  examplesEnabled := if resource.examplesEnabled = some false then some false else none

def buildProviderPromptCapabilities (tables : CaseTables) (question : String)
    (capabilities : CapabilitiesSnapshot) (fullCapabilities : Bool) (maxResources : ℤ) :
    PromptCapabilities :=
  if fullCapabilities then .full capabilities
  else
    let resources :=
      if 0 < maxResources then
        shortlistCapabilityResources tables question capabilities.resources maxResources
      else capabilities.resources
    .compact capabilities.summary (resources.map compactCapabilityResource)

/-! ## The shortlist -/

/-- The shortlist by positions: the best scores first, ties in catalog order, and nothing left out
that has a better score than something taken. -/
structure IsShortlist (score : ℕ → ℕ) (count maxResources : ℕ) (picked : List ℕ) : Prop where
  bound : ∀ i ∈ picked, i < count
  nodup : picked.Nodup
  positive : ∀ i ∈ picked, 0 < score i
  ordered : picked.Pairwise fun i j => score j < score i ∨ score i = score j ∧ i < j
  length : picked.length ≤ maxResources
  optimal : ∀ i < count, i ∉ picked → 0 < score i →
    picked.length = maxResources ∧ ∀ j ∈ picked, score i < score j ∨ score i = score j ∧ j < i

variable {tables : CaseTables} {questionTokens : List String} {resources : List ResourceGuidance}

instance : Std.Total ScoredResource.Before where
  total a b := by
    unfold ScoredResource.Before
    omega

instance : IsTrans ScoredResource ScoredResource.Before where
  trans a b c := by
    unfold ScoredResource.Before
    omega

def scoreAt (tables : CaseTables) (questionTokens : List String)
    (resources : List ResourceGuidance) (i : ℕ) : ℕ :=
  (resources[i]?.map fun r => scoreResourceForQuestion tables r questionTokens).getD 0

theorem mem_scoredResources {e : ScoredResource} :
    e ∈ scoredResources tables questionTokens resources ↔
      resources[e.index]? = some e.resource ∧
        e.score = scoreResourceForQuestion tables e.resource questionTokens := by
  unfold scoredResources
  rw [List.mem_map]
  constructor
  · rintro ⟨entry, hentry, rfl⟩
    exact ⟨List.mem_zipIdx_iff_getElem?.mp hentry, rfl⟩
  · rintro ⟨hresource, hscore⟩
    refine ⟨(e.resource, e.index), List.mem_zipIdx_iff_getElem?.mpr hresource, ?_⟩
    rw [← hscore]

theorem index_scoredResources :
    (scoredResources tables questionTokens resources).map ScoredResource.index =
      List.range resources.length := by
  unfold scoredResources
  rw [List.map_map]
  have hsnd : (ScoredResource.index ∘ fun entry : ResourceGuidance × ℕ =>
      ({ score := scoreResourceForQuestion tables entry.1 questionTokens
         index := entry.2
         resource := entry.1 } : ScoredResource)) = Prod.snd := rfl
  rw [hsnd, List.zipIdx_map_snd, List.range_eq_range']

theorem score_of_no_tokens (resource : ResourceGuidance) :
    scoreResourceForQuestion tables resource [] = 0 := rfl

theorem scoreAt_of_mem {e : ScoredResource}
    (h : e ∈ scoredResources tables questionTokens resources) :
    scoreAt tables questionTokens resources e.index = e.score := by
  obtain ⟨hresource, hscore⟩ := mem_scoredResources.mp h
  rw [scoreAt, hresource, hscore]
  rfl

def pickedPositions (tables : CaseTables) (questionTokens : List String)
    (resources : List ResourceGuidance) (maxResources : ℕ) : List ℕ :=
  (Selection.best ScoredResource.Before (fun e => 0 < e.score) maxResources
    (scoredResources tables questionTokens resources)).map ScoredResource.index

theorem nodup_pickedPositions (tables : CaseTables) (questionTokens : List String)
    (resources : List ResourceGuidance) (maxResources : ℕ) :
    (pickedPositions tables questionTokens resources maxResources).Nodup := by
  obtain ⟨kept, hperm, hsublist⟩ := Selection.best_subperm ScoredResource.Before
    (fun e => 0 < e.score) maxResources (scoredResources tables questionTokens resources)
  have hindexes := hsublist.map ScoredResource.index
  rw [index_scoredResources] at hindexes
  exact (hperm.map ScoredResource.index).nodup_iff.mp (List.nodup_range.sublist hindexes)

theorem isShortlist_pickedPositions (maxResources : ℕ) :
    IsShortlist (scoreAt tables questionTokens resources) resources.length maxResources
      (pickedPositions tables questionTokens resources maxResources) := by
  have hnodup := nodup_pickedPositions tables questionTokens resources maxResources
  refine ⟨?_, hnodup, ?_, ?_, ?_, ?_⟩
  · intro i hi
    obtain ⟨e, he, rfl⟩ := List.mem_map.mp hi
    have hresource := (mem_scoredResources.mp (Selection.mem_best he).1).1
    exact (List.getElem?_eq_some_iff.mp hresource).1
  · intro i hi
    obtain ⟨e, he, rfl⟩ := List.mem_map.mp hi
    rw [scoreAt_of_mem (Selection.mem_best he).1]
    simpa using (Selection.mem_best he).2
  · have hordered : (Selection.best ScoredResource.Before (fun e => 0 < e.score) maxResources
        (scoredResources tables questionTokens resources)).Pairwise ScoredResource.Before :=
      Selection.best_pairwise _ _ _
    rw [pickedPositions, List.Nodup, List.pairwise_map] at hnodup
    rw [pickedPositions, List.pairwise_map]
    apply (hordered.and hnodup).imp_of_mem
    intro a b ha hb hab
    rw [scoreAt_of_mem (Selection.mem_best ha).1, scoreAt_of_mem (Selection.mem_best hb).1]
    obtain ⟨hbefore, hne⟩ := hab
    unfold ScoredResource.Before at hbefore
    omega
  · rw [pickedPositions, List.length_map, Selection.length_best]
    exact min_le_left _ _
  · intro i hi hnot hpos
    let e : ScoredResource := ⟨scoreAt tables questionTokens resources i, i, resources[i]⟩
    have he : e ∈ scoredResources tables questionTokens resources := by
      rw [mem_scoredResources]
      refine ⟨List.getElem?_eq_getElem hi, ?_⟩
      simp [e, scoreAt, List.getElem?_eq_getElem hi]
    have hleft : e ∉ Selection.best ScoredResource.Before (fun e => 0 < e.score) maxResources
        (scoredResources tables questionTokens resources) := by
      intro hin
      exact hnot (List.mem_map_of_mem (f := ScoredResource.index) hin)
    obtain ⟨hlength, hbefore⟩ := Selection.best_of_notMem he (by simpa [e] using hpos) hleft
    refine ⟨by rw [pickedPositions, List.length_map, hlength], ?_⟩
    intro j hj
    obtain ⟨b, hb, rfl⟩ := List.mem_map.mp hj
    have hne : b.index ≠ i := by
      intro heq
      exact hnot (heq ▸ hj)
    have hab := hbefore b hb
    rw [scoreAt_of_mem (Selection.mem_best hb).1]
    unfold ScoredResource.Before at hab
    simp only [e] at hab
    omega

theorem resources_at_pickedPositions (maxResources : ℕ) :
    ((Selection.best ScoredResource.Before (fun e => 0 < e.score) maxResources
      (scoredResources tables questionTokens resources)).map ScoredResource.resource).map some =
        (pickedPositions tables questionTokens resources maxResources).map
          fun i => resources[i]? := by
  rw [pickedPositions, List.map_map, List.map_map]
  apply List.map_congr_left
  intro e he
  exact (mem_scoredResources.mp (Selection.mem_best he).1).1.symm

/-- A shortlist of fewer resources than there are holds the best-scoring ones, or, when nothing
scores, the first ones. -/
theorem shortlist_best {question : String} {maxResources : ℤ} (hpos : 0 < maxResources)
    (hlt : maxResources < resources.length) : ∃ picked,
      IsShortlist (scoreAt tables (tokenizePromptText tables question) resources)
        resources.length maxResources.toNat picked ∧
      (picked = [] → shortlistCapabilityResources tables question resources maxResources =
        resources.take maxResources.toNat) ∧
      (picked ≠ [] →
        (shortlistCapabilityResources tables question resources maxResources).map some =
          picked.map fun i => resources[i]?) := by
  refine ⟨_, isShortlist_pickedPositions maxResources.toNat, ?_, ?_⟩
  · intro hnone
    unfold shortlistCapabilityResources
    rw [if_neg (by omega)]
    have hselected := List.map_eq_nil_iff.mp hnone
    simp only [hselected, if_true, ite_self]
  · intro hsome
    have hselected : Selection.best ScoredResource.Before (fun e => 0 < e.score)
        maxResources.toNat (scoredResources tables (tokenizePromptText tables question)
          resources) ≠ [] := by
      intro hnil
      exact hsome (List.map_eq_nil_iff.mpr hnil)
    have htokens : tokenizePromptText tables question ≠ [] := by
      intro hnil
      obtain ⟨e, he⟩ := List.exists_mem_of_ne_nil _ hselected
      obtain ⟨hmem, hscore⟩ := Selection.mem_best he
      rw [hnil] at hmem
      rw [(mem_scoredResources.mp hmem).2, score_of_no_tokens] at hscore
      simp at hscore
    unfold shortlistCapabilityResources
    rw [if_neg (by omega)]
    simp only [if_neg htokens, if_neg hselected]
    exact resources_at_pickedPositions maxResources.toNat

/-! ## Two resources and a question -/

/-- The guidance of a resource without members. -/
def bareGuidance (name : String) : ResourceGuidance where
  name := name
  label := name
  synonyms := []
  fields := []
  metrics := []
  dateFields := []
  scope := ⟨.unknown, none⟩
  scopeResource := none
  description := ""
  defaultDateField := none
  timezone := "UTC"
  examples := []
  guidance := []
  scopeGuidance := ""
  examplesEnabled := none
  defaultOrder := none

theorem payments_shortlisted : ∃ picked,
    IsShortlist (scoreAt ⟨id, id, Char.isAlphanum⟩
        (tokenizePromptText ⟨id, id, Char.isAlphanum⟩ "how many payments are due")
        (["orders", "payments"].map bareGuidance)) 2 1 picked ∧
      (picked = [] → shortlistCapabilityResources ⟨id, id, Char.isAlphanum⟩
        "how many payments are due" (["orders", "payments"].map bareGuidance) 1 =
          [bareGuidance "orders"]) ∧
      (picked ≠ [] → (shortlistCapabilityResources ⟨id, id, Char.isAlphanum⟩
        "how many payments are due" (["orders", "payments"].map bareGuidance) 1).map some =
          picked.map fun i => (["orders", "payments"].map bareGuidance)[i]?) := by
  have hpos : (0 : ℤ) < 1 := by decide
  have hlt : (1 : ℤ) < (["orders", "payments"].map bareGuidance).length := by decide
  exact shortlist_best hpos hlt

example : shortlistCapabilityResources ⟨id, id, Char.isAlphanum⟩ "how many payments are due"
    (["orders", "payments"].map bareGuidance) 1 = [bareGuidance "payments"] := by
  decide +kernel

end AskLens.Planning
