import AskLens.Catalog.Capabilities
import AskLens.Library.Distinct
import AskLens.Library.LastClaim

/-!
# References of query help

The suggestions of a provider name resources and members by name, label or
synonym. All of them go into one index, where a later one replaces an earlier
one.
-/
namespace AskLens.Planning

open Python Catalog LastClaim

/-- A `dict` into which each item puts one value under several keys. -/
def indexOf {A V : Type} (keys : A → List String) (value : A → V) (items : List A) : Dict V :=
  Dict.ofEntries (items.flatMap fun a => (keys a).map fun key => (key, value a))

theorem get?_indexOf {A V : Type} (keys : A → List String) (value : A → V) (items : List A)
    (k : String) : (indexOf keys value items).get? k = (lastClaim keys items k).map value := by
  have hfold : ∀ d : Dict V,
      ((items.flatMap fun a => (keys a).map fun key => (key, value a)).foldl
        (fun d e => d.set e.1 e.2) d).get? k =
        ((lastClaim keys items k).map value).or (d.get? k) := by
    induction items with
    | nil => simp [lastClaim]
    | cons a rest ih =>
      intro d
      rw [List.flatMap_cons, List.foldl_append, ih, Dict.get?_foldl_set_keys]
      cases hrest : lastClaim keys rest k with
      | some b => simp [lastClaim, hrest]
      | none => by_cases hk : k ∈ keys a <;> simp [lastClaim, hrest, hk]
  rw [indexOf, Dict.ofEntries, hfold]
  simp [Dict.get?]

/-- What a field or metric of the guidance is called. -/
structure MemberNames where
  name : String
  label : String
deriving DecidableEq

def fieldNames (f : CapabilityField) : MemberNames := ⟨f.name, f.label⟩

def metricNames (m : CapabilityMetric) : MemberNames := ⟨m.name, m.label⟩

section

variable (casefold : String → String)

def memberKeys (item : MemberNames) : List String := [casefold item.name, casefold item.label]

/-- `canonical_index.get(reference.casefold(), reference)`. -/
def canonicalReference (items : List MemberNames) (reference : String) : String :=
  ((indexOf (memberKeys casefold) MemberNames.name items).get? (casefold reference)).getD reference

def canonicalizeReferences (references : List String) (items : List MemberNames) : List String :=
  (references.map (canonicalReference casefold items)).eraseDups

def resourceKeys (resource : CapabilityResource) : List String :=
  (resource.name :: resource.label :: resource.synonyms).map casefold

def indexResourceReferences (resources : List CapabilityResource) : Dict CapabilityResource :=
  indexOf (resourceKeys casefold) id resources

/-! ## Exact names -/

/-- The names of the members differ in more than case. -/
abbrev NamesDistinct (items : List MemberNames) : Prop :=
  items.Pairwise fun a b => casefold a.name ≠ casefold b.name

/-- No later member is labelled with the name of an earlier one. -/
def NamesFree (items : List MemberNames) : Prop :=
  items.Pairwise fun a b => casefold a.name ∉ memberKeys casefold b

variable {casefold}

theorem canonicalReference_eq (items : List MemberNames) (reference : String) :
    canonicalReference casefold items reference =
      ((lastClaim (memberKeys casefold) items (casefold reference)).map
        MemberNames.name).getD reference := by
  rw [canonicalReference, get?_indexOf]

/-- A list of members answers to its own names exactly when these are free. -/
theorem canonicalReference_name_iff {items : List MemberNames}
    (hdistinct : NamesDistinct casefold items) :
    (∀ item ∈ items, canonicalReference casefold items item.name = item.name) ↔
      NamesFree casefold items := by
  have hown : ∀ item : MemberNames, casefold item.name ∈ memberKeys casefold item := by
    intro item
    exact List.mem_cons_self
  rw [NamesFree, ← names_lead_back_iff hown hdistinct]
  apply forall₂_congr
  intro item hitem
  rw [canonicalReference_eq]
  cases hfound : lastClaim (memberKeys casefold) items (casefold item.name) with
  | none => exact absurd (hown item) (lastClaim_eq_none_iff.mp hfound item hitem)
  | some other =>
    have hother := (lastClaim_mem hfound).1
    rw [Option.map_some, Option.getD_some, Option.some.injEq]
    constructor
    · intro hname
      have hnodup : (items.map fun item => casefold item.name).Nodup :=
        List.pairwise_map.mpr hdistinct
      exact List.inj_on_of_nodup_map hnodup hother hitem (congrArg casefold hname)
    · rintro rfl
      rfl

theorem nodup_canonicalizeReferences (references : List String) (items : List MemberNames) :
    (canonicalizeReferences casefold references items).Nodup :=
  Distinct.nodup_eraseDups _

/-- A reference that was canonicalized names a member or is unknown. -/
theorem canonicalReference_cases (items : List MemberNames) (reference : String) :
    (∃ item ∈ items, canonicalReference casefold items reference = item.name) ∨
      canonicalReference casefold items reference = reference := by
  rw [canonicalReference_eq]
  cases hfound : lastClaim (memberKeys casefold) items (casefold reference) with
  | none => exact .inr rfl
  | some item => exact .inl ⟨item, (lastClaim_mem hfound).1, rfl⟩

theorem canonicalizeReferences_of_fixed {items : List MemberNames} {references : List String}
    (hnodup : references.Nodup)
    (hfixed : ∀ reference ∈ references, canonicalReference casefold items reference = reference) :
    canonicalizeReferences casefold references items = references := by
  have hmap : references.map (canonicalReference casefold items) = references :=
    (List.map_congr_left hfixed).trans (List.map_id' _)
  rw [canonicalizeReferences, hmap]
  exact Distinct.eraseDups_of_nodup hnodup

theorem canonicalizeReferences_idem {items : List MemberNames}
    (h : ∀ item ∈ items, canonicalReference casefold items item.name = item.name)
    (references : List String) :
    canonicalizeReferences casefold (canonicalizeReferences casefold references items) items =
      canonicalizeReferences casefold references items := by
  apply canonicalizeReferences_of_fixed (nodup_canonicalizeReferences references items)
  intro canonical hcanonical
  obtain ⟨reference, -, rfl⟩ := List.mem_map.mp (List.mem_eraseDups.mp hcanonical)
  rcases canonicalReference_cases items reference with ⟨item, hitem, hname⟩ | hsame
  · rw [hname]
    exact h item hitem
  · rw [hsame]
    exact hsame

/-! ## Payloads -/

/-- The three lists of members of a resource that references point into. -/
def memberLists (resource : CapabilityResource) : List (List MemberNames) :=
  [resource.fields.map fieldNames, resource.metrics.map metricNames,
    resource.dateFields.map fieldNames]

variable (casefold) in
/-- Exact names win over labels and synonyms, and canonicalizing is stable. -/
structure ExactNamesWin (resources : List CapabilityResource) : Prop where
  members : ∀ resource ∈ resources, ∀ items ∈ memberLists resource, ∀ item ∈ items,
    canonicalReference casefold items item.name = item.name
  resourceIndex : ∀ resource ∈ resources,
    (indexResourceReferences casefold resources).get? (casefold resource.name) = some resource
  distinct : ∀ resource ∈ resources, ∀ items ∈ memberLists resource, ∀ references,
    (canonicalizeReferences casefold references items).Nodup
  stable : ∀ resource ∈ resources, ∀ items ∈ memberLists resource, ∀ references,
    canonicalizeReferences casefold (canonicalizeReferences casefold references items) items =
      canonicalizeReferences casefold references items

variable (casefold) in
/-- The names of a payload differ in more than case, each kind for itself. -/
structure PayloadNamesDistinct (resources : List CapabilityResource) : Prop where
  resourceNames : resources.Pairwise fun a b => casefold a.name ≠ casefold b.name
  members : ∀ resource ∈ resources, ∀ items ∈ memberLists resource, NamesDistinct casefold items

variable (casefold) in
/-- No later label or synonym takes the name of an earlier member or resource. -/
structure PayloadNamesFree (resources : List CapabilityResource) : Prop where
  resourceNames : resources.Pairwise fun a b => casefold a.name ∉ resourceKeys casefold b
  members : ∀ resource ∈ resources, ∀ items ∈ memberLists resource, NamesFree casefold items

theorem indexResourceReferences_name_iff {resources : List CapabilityResource}
    (hdistinct : resources.Pairwise fun a b => casefold a.name ≠ casefold b.name) :
    (∀ resource ∈ resources,
      (indexResourceReferences casefold resources).get? (casefold resource.name) =
        some resource) ↔
      resources.Pairwise fun a b => casefold a.name ∉ resourceKeys casefold b := by
  have hown : ∀ resource : CapabilityResource,
      casefold resource.name ∈ resourceKeys casefold resource := by
    intro resource
    exact List.mem_cons_self
  rw [← names_lead_back_iff hown hdistinct]
  simp only [indexResourceReferences, get?_indexOf, Option.map_id, id_eq]

/-- Exact names win exactly when no later label or synonym takes one. -/
theorem exactNamesWin_iff {resources : List CapabilityResource}
    (hdistinct : PayloadNamesDistinct casefold resources) :
    ExactNamesWin casefold resources ↔ PayloadNamesFree casefold resources := by
  constructor
  · intro h
    refine ⟨(indexResourceReferences_name_iff hdistinct.resourceNames).mp h.resourceIndex, ?_⟩
    intro resource hresource items hitems
    apply (canonicalReference_name_iff (hdistinct.members resource hresource items hitems)).mp
    exact h.members resource hresource items hitems
  · intro h
    have hmembers : ∀ resource ∈ resources, ∀ items ∈ memberLists resource, ∀ item ∈ items,
        canonicalReference casefold items item.name = item.name := by
      intro resource hresource items hitems
      apply (canonicalReference_name_iff (hdistinct.members resource hresource items hitems)).mpr
      exact h.members resource hresource items hitems
    refine ⟨hmembers, (indexResourceReferences_name_iff hdistinct.resourceNames).mpr h.resourceNames,
      fun _ _ items _ references => nodup_canonicalizeReferences references items, ?_⟩
    intro resource hresource items hitems references
    exact canonicalizeReferences_idem (hmembers resource hresource items hitems) references

end

/-- `str.casefold` on ASCII texts. -/
def asciiCasefold (s : String) : String := String.ofList (s.toList.map Char.toLower)

def textField (name label : String) : CapabilityField where
  name := name
  label := label
  type := .string
  nullable := true
  relationDepth := 0
  canFilter := true
  canSelect := true
  canGroup := true
  canOrder := true
  canDateBucket := false
  operators := operatorsByFieldType .string
  enum := none
  sensitive := none
  scopeDimension := none

/-- The guidance of a resource with these fields and nothing else. -/
def textResource (name : String) (fields : List CapabilityField) : CapabilityResource where
  name := name
  label := name
  synonyms := []
  fields := fields
  metrics := []
  dateFields := []
  scope := ⟨.unknown, none⟩
  scopeResource := none

def parcels : CapabilityResource :=
  textResource "parcels" [textField "state" "Region", textField "status" "Status"]

/-- A later field is labelled with the name of an earlier one. -/
def mislabelledParcels : CapabilityResource :=
  textResource "parcels" [textField "state" "Region", textField "status" "State"]

theorem parcels_exactNamesWin_iff :
    ExactNamesWin asciiCasefold [parcels] ↔ PayloadNamesFree asciiCasefold [parcels] := by
  apply exactNamesWin_iff
  constructor
  · simp
  · intro resource hresource
    obtain rfl := List.mem_singleton.mp hresource
    decide +kernel

theorem label_takes_name :
    ¬ ∀ (casefold : String → String) (resources : List CapabilityResource),
      PayloadNamesDistinct casefold resources → ExactNamesWin casefold resources := by
  intro h
  have hdistinct : PayloadNamesDistinct asciiCasefold [mislabelledParcels] := by
    constructor
    · simp
    · intro resource hresource
      obtain rfl := List.mem_singleton.mp hresource
      decide +kernel
  have hwins := (h _ _ hdistinct).members _ List.mem_cons_self _ List.mem_cons_self
    ⟨"state", "Region"⟩ (by decide)
  exact absurd hwins (by decide +kernel)

end AskLens.Planning
