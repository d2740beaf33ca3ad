import AskLens.Catalog.Disclosure
import AskLens.Catalog.HeldScopes
import AskLens.Catalog.QueryGuidance

/-!
# Scope identifiers stay secret

The guidance goes to a language model. Two requests whose permission sets differ
only in the scope identifiers of their tokens get the same guidance, in whatever
order their sets are read.
-/
namespace AskLens.Catalog

open Python

/-- A scope identifier: nonempty and without a colon. -/
def IsScope (scope : String) : Prop := scope ≠ "" ∧ ':' ∉ scope.toList

structure ScopeRenaming where
  rename : String → String → String
  isScope : ∀ kind scope, IsScope scope → IsScope (rename kind scope)
  injective : ∀ kind scope other, IsScope scope → IsScope other →
    rename kind scope = rename kind other → scope = other
  wildcard : ∀ kind, rename kind "*" = "*"

namespace ScopeRenaming

variable (ρ : ScopeRenaming)

/-- The token for the renamed scope; any other token stays as it is. -/
def token (token : String) : String :=
  match splitToken token.toList with
  | none => token
  | some (kind, scope, tail) =>
    let renamed := ρ.rename (String.ofList kind) (String.ofList scope)
    String.ofList (kind ++ ':' :: (renamed.toList ++ ':' :: tail))

/-- `other` holds the renamed tokens of `permissions`, in any order. -/
def Relates (permissions other : List String) : Prop :=
  ∀ t, t ∈ other ↔ ∃ s ∈ permissions, ρ.token s = t

end ScopeRenaming

/-- The permission, if any, has no colon. -/
def IsPlain (required : Option String) : Prop := ∀ permission ∈ required, ':' ∉ permission.toList

instance (required : Option String) : Decidable (IsPlain required) :=
  inferInstanceAs (Decidable (∀ permission ∈ required, _))

/-- No permission that the registry asks for has a colon. -/
structure CatalogRegistry.PlainPermissions {env : Environment} (registry : CatalogRegistry env) :
    Prop where
  resource : ∀ r ∈ registry.resources.values, IsPlain r.requiresPermission
  field : ∀ r ∈ registry.resources.values, ∀ f ∈ r.fields.values, IsPlain f.requiresPermission
  metric : ∀ r ∈ registry.resources.values, ∀ m ∈ r.metrics.values, IsPlain m.requiresPermission

/-! ## Renamed tokens -/

section

variable {ρ : ScopeRenaming} {token required : String} {permissions other : List String}

theorem isScope_ofList {scope : List Char} (hne : scope ≠ []) (hcolon : ':' ∉ scope) :
    IsScope (String.ofList scope) := by
  refine ⟨?_, by simpa using hcolon⟩
  intro h
  have hnil := congrArg String.toList h
  simp only [String.toList_ofList] at hnil
  exact hne hnil

theorem splitToken_rename {kind scope tail : List Char}
    (h : splitToken token.toList = some (kind, scope, tail)) :
    splitToken (ρ.token token).toList =
      some (kind, (ρ.rename (String.ofList kind) (String.ofList scope)).toList, tail) := by
  obtain ⟨-, hkind, hne, hcolon, hline⟩ := splitToken_eq_some.mp h
  have hscope := ρ.isScope (String.ofList kind) _ (isScope_ofList hne hcolon)
  unfold ScopeRenaming.token
  rw [h, String.toList_ofList, splitToken_eq_some]
  refine ⟨rfl, hkind, ?_, hscope.2, hline⟩
  intro hnil
  exact hscope.1 (String.toList_inj.mp hnil)

theorem token_eq_self (h : splitToken token.toList = none) : ρ.token token = token := by
  unfold ScopeRenaming.token
  rw [h]

theorem scopedPermission?_rename :
    scopedPermission? (ρ.token token) =
      (scopedPermission? token).map fun m => { m with scope := ρ.rename m.kind m.scope } := by
  cases h : splitToken token.toList with
  | none =>
    rw [token_eq_self h]
    simp [scopedPermission?, h]
  | some parts =>
    obtain ⟨kind, scope, tail⟩ := parts
    simp only [scopedPermission?, h, splitToken_rename h, Option.map_map]
    simp [Function.comp_def, String.ofList_toList]

theorem isScope_of_match {m : ScopedPermission} (h : scopedPermission? token = some m) :
    IsScope m.scope := by
  unfold scopedPermission? at h
  split at h
  · cases h
  · rename_i kind scope tail hsplit
    obtain ⟨line, -, rfl⟩ := Option.map_eq_some_iff.mp h
    obtain ⟨-, -, hne, hcolon, -⟩ := splitToken_eq_some.mp hsplit
    exact isScope_ofList hne hcolon

/-- A token that grants a permission without a colon has the permission after its last colon. -/
theorem suffix_tail {a tail suffix : List Char} (hcolon : ':' ∉ suffix) :
    ':' :: suffix <:+ a ++ ':' :: tail ↔ ':' :: suffix <:+ ':' :: tail := by
  constructor
  · intro h
    have hlen : (':' :: suffix).length ≤ (':' :: tail).length := by
      by_contra hlt
      have hsub : ':' :: tail <:+ ':' :: suffix :=
        List.suffix_of_suffix_length_le (List.suffix_append a _) h (by omega)
      obtain ⟨before, hbefore⟩ := hsub
      cases before with
      | nil => exact hlt (by rw [← hbefore]; simp)
      | cons c before =>
        rw [List.cons_append, List.cons.injEq] at hbefore
        exact hcolon (hbefore.2 ▸ by simp)
    exact List.suffix_of_suffix_length_le h (List.suffix_append a _) hlen
  · intro h
    exact h.trans (List.suffix_append a _)

theorem endsWith_rename (hcolon : ':' ∉ required.toList) :
    endsWith (ρ.token token) (":" ++ required) = endsWith token (":" ++ required) := by
  cases h : splitToken token.toList with
  | none => rw [token_eq_self h]
  | some parts =>
    obtain ⟨kind, scope, tail⟩ := parts
    have htoken := (splitToken_eq_some.mp h).1
    have hrenamed := (splitToken_eq_some.mp (splitToken_rename (ρ := ρ) h)).1
    have hcolonList : (":" ++ required).toList = ':' :: required.toList := by simp
    rw [Bool.eq_iff_iff]
    simp only [endsWith, List.isSuffixOf_iff_suffix]
    rw [hcolonList, htoken, hrenamed]
    simp only [← List.cons_append, ← List.append_assoc]
    rw [suffix_tail hcolon, suffix_tail hcolon]

theorem token_eq_iff (hcolon : ':' ∉ required.toList) :
    ρ.token token = required ↔ token = required := by
  cases h : splitToken token.toList with
  | none => rw [token_eq_self h]
  | some parts =>
    obtain ⟨kind, scope, tail⟩ := parts
    have htoken := (splitToken_eq_some.mp h).1
    have hrenamed := (splitToken_eq_some.mp (splitToken_rename (ρ := ρ) h)).1
    constructor
    · intro heq
      rw [heq] at hrenamed
      rw [hrenamed] at hcolon
      simp at hcolon
    · intro heq
      rw [heq] at htoken
      rw [htoken] at hcolon
      simp at hcolon

/-! ## What the renaming leaves alone -/

theorem mem_iff_of_relates (hρ : ρ.Relates permissions other) (hcolon : ':' ∉ required.toList) :
    required ∈ other ↔ required ∈ permissions := by
  rw [hρ]
  constructor
  · rintro ⟨token, htoken, heq⟩
    exact (token_eq_iff hcolon).mp heq ▸ htoken
  · intro hmem
    exact ⟨required, hmem, (token_eq_iff hcolon).mpr rfl⟩

theorem permissionSetAllows_rename (hρ : ρ.Relates permissions other) {required : Option String}
    (hcolon : IsPlain required) :
    permissionSetAllows other required = permissionSetAllows permissions required := by
  cases required with
  | none => rfl
  | some permission =>
    have hplain := hcolon permission rfl
    rw [Bool.eq_iff_iff]
    simp only [permissionSetAllows, Bool.or_eq_true, List.contains_iff_mem, List.any_eq_true]
    rw [mem_iff_of_relates hρ hplain]
    apply or_congr Iff.rfl
    constructor
    · rintro ⟨t, ht, hends⟩
      obtain ⟨token, htoken, rfl⟩ := (hρ t).mp ht
      exact ⟨token, htoken, endsWith_rename hplain ▸ hends⟩
    · rintro ⟨token, htoken, hends⟩
      exact ⟨ρ.token token, (hρ _).mpr ⟨token, htoken, rfl⟩, (endsWith_rename hplain).trans hends⟩

theorem mem_heldScopes_rename (hρ : ρ.Relates permissions other) {pair : String × String} :
    pair ∈ heldScopes required other ↔
      ∃ held ∈ heldScopes required permissions, (held.1, ρ.rename held.1 held.2) = pair := by
  simp only [heldScopes, List.mem_filterMap, Option.bind_eq_some_iff]
  constructor
  · rintro ⟨t, ht, m, hm, hpair⟩
    obtain ⟨token, htoken, rfl⟩ := (hρ t).mp ht
    rw [scopedPermission?_rename] at hm
    obtain ⟨source, hsource, rfl⟩ := Option.map_eq_some_iff.mp hm
    split_ifs at hpair with hrequired
    cases hpair
    exact ⟨(source.kind, source.scope), ⟨token, htoken, source, hsource, if_pos hrequired⟩, rfl⟩
  · rintro ⟨held, ⟨token, htoken, m, hm, hheld⟩, rfl⟩
    split_ifs at hheld with hrequired
    cases hheld
    refine ⟨ρ.token token, (hρ _).mpr ⟨token, htoken, rfl⟩,
      { m with scope := ρ.rename m.kind m.scope }, ?_, if_pos hrequired⟩
    rw [scopedPermission?_rename, hm]
    rfl

theorem isScope_of_held {pair : String × String} (h : pair ∈ heldScopes required permissions) :
    IsScope pair.2 := by
  obtain ⟨token, -, hbind⟩ := List.mem_filterMap.mp h
  obtain ⟨m, hm, hpair⟩ := Option.bind_eq_some_iff.mp hbind
  split_ifs at hpair
  cases hpair
  exact isScope_of_match hm

theorem isScope_wildcard : IsScope "*" := by
  constructor <;> decide

theorem rename_eq_wildcard {kind scope : String} (h : IsScope scope) :
    ρ.rename kind scope = "*" ↔ scope = "*" := by
  constructor
  · intro heq
    exact ρ.injective kind scope "*" h isScope_wildcard (heq.trans (ρ.wildcard kind).symm)
  · rintro rfl
    exact ρ.wildcard kind

theorem mem_pairs_rename (hρ : ρ.Relates permissions other) {pair : String × String} :
    pair ∈ (scanTokens required other).pairs ↔
      pair ∈ (scanTokens required permissions).pairs.map
        fun held => (held.1, ρ.rename held.1 held.2) := by
  rw [(scanTokens_holds required other).mem_pairs, mem_heldScopes_rename hρ, List.mem_map]
  constructor
  · rintro ⟨⟨held, hheld, rfl⟩, hne⟩
    refine ⟨held, (scanTokens_holds required permissions).mem_pairs.mpr ⟨hheld, ?_⟩, rfl⟩
    intro hwild
    exact hne ((rename_eq_wildcard (isScope_of_held hheld)).mpr hwild)
  · rintro ⟨held, hheld, rfl⟩
    obtain ⟨hmem, hne⟩ := (scanTokens_holds required permissions).mem_pairs.mp hheld
    refine ⟨⟨held, hmem, rfl⟩, ?_⟩
    intro hwild
    exact hne ((rename_eq_wildcard (isScope_of_held hmem)).mp hwild)

theorem scopeCount_rename (hρ : ρ.Relates permissions other) :
    (scanTokens required other).scopeCount = (scanTokens required permissions).scopeCount := by
  have hholds := scanTokens_holds required permissions
  have hnodup : ((scanTokens required permissions).pairs.map
      fun held => (held.1, ρ.rename held.1 held.2)).Nodup := by
    apply List.Nodup.map_on _ hholds.nodup_pairs
    intro a ha b hb hab
    obtain ⟨hkind, hscope⟩ := Prod.mk.inj hab
    rw [hkind] at hscope
    exact Prod.ext hkind (ρ.injective b.1 a.2 b.2 (isScope_of_held (hholds.mem_pairs.mp ha).1)
      (isScope_of_held (hholds.mem_pairs.mp hb).1) hscope)
  have hperm := (List.perm_ext_iff_of_nodup (scanTokens_holds required other).nodup_pairs
    hnodup).mpr fun pair => mem_pairs_rename hρ
  rw [← length_pairs, ← length_pairs, hperm.length_eq, List.length_map]

/-- The inferred scope does not depend on the scope identifiers or on the order of the set. -/
theorem inferCapabilityScope_rename (hρ : ρ.Relates permissions other) {required : Option String}
    (hcolon : IsPlain required) :
    inferCapabilityScope required other = inferCapabilityScope required permissions := by
  cases required with
  | none => rfl
  | some permission =>
    have ht := scanTokens_holds permission other
    have hu := scanTokens_holds permission permissions
    unfold inferCapabilityScope
    simp only [mem_iff_of_relates hρ (hcolon permission rfl)]
    rw [inferScope_congr ht hu _ _ (scopeCount_rename hρ)]
    · intro kind
      rw [ht.wildcard, hu.wildcard, mem_heldScopes_rename hρ]
      constructor
      · rintro ⟨held, hheld, heq⟩
        obtain ⟨rfl, hwild⟩ := Prod.mk.inj heq
        rwa [← (rename_eq_wildcard (isScope_of_held hheld)).mp hwild]
      · intro hheld
        exact ⟨_, hheld, by rw [ρ.wildcard]⟩
    · intro kind
      rw [ht.mem_keys, hu.mem_keys]
      simp only [mem_pairs_rename hρ, List.mem_map]
      constructor
      · rintro ⟨pair, ⟨held, hheld, rfl⟩, rfl⟩
        exact ⟨held, hheld, rfl⟩
      · rintro ⟨held, hheld, rfl⟩
        exact ⟨_, ⟨held, hheld, rfl⟩, rfl⟩

end

/-! ## The catalog and its guidance -/

variable {env : Environment} {registry : CatalogRegistry env} {ρ : ScopeRenaming}
  {permissions other : List String}

theorem toDict_rename (hplain : registry.PlainPermissions) (hρ : ρ.Relates permissions other) :
    registry.toDict (.ofPermissions other) = registry.toDict (.ofPermissions permissions) := by
  have hvisible : registry.visibleResources (.ofPermissions other) =
      registry.visibleResources (.ofPermissions permissions) := by
    apply List.filter_congr
    intro r hr
    exact permissionSetAllows_rename hρ (hplain.resource r hr)
  have hdict (r : SemanticResource) (hr : r ∈ registry.resources.values) :
      r.toDict env.unicode (.ofPermissions other) =
        r.toDict env.unicode (.ofPermissions permissions) := by
    have hfields : r.visibleFields (.ofPermissions other) =
        r.visibleFields (.ofPermissions permissions) := by
      apply List.filter_congr
      intro f hf
      unfold FieldSpec.isCatalogVisible Access.ofPermissions
      rw [permissionSetAllows_rename hρ (hplain.field r hr f hf)]
    have hmetrics : r.visibleMetrics (.ofPermissions other) =
        r.visibleMetrics (.ofPermissions permissions) := by
      apply List.filter_congr
      intro m hm
      exact permissionSetAllows_rename hρ (hplain.metric r hr m hm)
    simp only [SemanticResource.toDict, hfields, hmetrics]
  show (registry.visibleResources _).map _ = (registry.visibleResources _).map _
  rw [hvisible]
  apply List.map_congr_left
  intro r hr
  exact hdict r (List.mem_of_mem_filter hr)

/-- The guidance is the same for every renaming of the scope identifiers, read in any order. -/
theorem guidance_conceals_scopes (tables : CaseTables) (maxRows : ℤ)
    (hplain : registry.PlainPermissions) (hρ : ρ.Relates permissions other) :
    buildQueryGuidance tables maxRows registry other =
      buildQueryGuidance tables maxRows registry permissions := by
  unfold buildQueryGuidance
  rw [toDict_rename hplain hρ]
  congr 1
  apply List.map_congr_left
  intro resource hresource
  have hscope : inferCapabilityScope (registry.requiredPermission resource.name) other =
      inferCapabilityScope (registry.requiredPermission resource.name) permissions := by
    apply inferCapabilityScope_rename hρ
    intro permission hpermission
    obtain ⟨r, hr, hrequires⟩ := Option.bind_eq_some_iff.mp hpermission
    exact hplain.resource r (List.mem_map_of_mem (Dict.mem_of_get? hr)) permission hrequires
  simp only [buildResourceCapability, hscope]

/-! ## A request with one scope -/

theorem relates_map (ρ : ScopeRenaming) (permissions : List String) :
    ρ.Relates permissions (permissions.map ρ.token) :=
  fun _ => List.mem_map

/-- Every identifier but the wildcard gets one more letter. -/
def lengthened : ScopeRenaming where
  rename _ scope := if scope = "*" then "*" else scope ++ "x"
  isScope kind scope h := by
    split_ifs
    · exact isScope_wildcard
    · constructor
      · intro hempty
        have hlist := congrArg String.toList hempty
        simp at hlist
      · simpa using h.2
  injective kind scope other _ _ heq := by
    have hne (text : String) : "*" ≠ text ++ "x" := by
      intro hstar
      have hlast := congrArg (fun s => s.toList.getLast?) hstar
      simp at hlast
    split_ifs at heq with hscope hother hother
    · rw [hscope, hother]
    · exact absurd heq (hne other)
    · exact absurd heq.symm (hne scope)
    · have hlist := congrArg String.toList heq
      simp only [String.toList_append] at hlist
      exact String.toList_inj.mp (List.append_cancel_right hlist)
  wildcard _ := rfl

def literalTables : CaseTables := ⟨id, id, Char.isAlphanum⟩

/-- Orders for those who hold `finance`. -/
def financeOrders : CatalogRegistry Sample.environment :=
  Sample.registryOf
    { Sample.orderArgs [("number", .config (Sample.fieldConfig "number" "string"))] with
      requiresPermission := some "finance" }

theorem financeOrders_plainPermissions : financeOrders.PlainPermissions where
  resource := by decide +kernel
  field := by decide +kernel
  metric := by decide +kernel

theorem financeOrders_guidance :
    buildQueryGuidance literalTables 500 financeOrders
        (["org:acme:finance", "reader"].map lengthened.token) =
      buildQueryGuidance literalTables 500 financeOrders ["org:acme:finance", "reader"] :=
  guidance_conceals_scopes literalTables 500 financeOrders_plainPermissions
    (relates_map lengthened _)

/-- The two requests differ, and the guidance names the kind of the scope. -/
example : ["org:acme:finance", "reader"].map lengthened.token = ["org:acmex:finance", "reader"] ∧
    inferCapabilityScope (some "finance") ["org:acme:finance", "reader"] = singleScope "org" := by
  decide +kernel

end AskLens.Catalog
