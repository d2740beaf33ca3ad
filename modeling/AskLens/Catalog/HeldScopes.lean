import AskLens.Catalog.ScopeTokens

/-!
# The scopes that a request holds

What `infer_capability_scope` returns is decided by the scopes for which the
request holds the required permission: which kinds have a wildcard, and how many
other scopes there are. The order of the permission set does not matter.
-/
namespace AskLens.Catalog

open Python

variable {required : String} {permissions : List String} {t u : ScopeTokens}

/-! ## The parts of a token -/

theorem splitColon_append {a : List Char} (ha : ':' ∉ a) (b : List Char) :
    splitColon (a ++ ':' :: b) = some (a, b) := by
  induction a with
  | nil => rfl
  | cons c cs ih =>
    simp only [List.mem_cons, not_or] at ha
    simp [splitColon, Ne.symm ha.1, ih ha.2]

theorem splitColon_eq_some {cs a b : List Char} :
    splitColon cs = some (a, b) ↔ cs = a ++ ':' :: b ∧ ':' ∉ a := by
  constructor
  · intro h
    induction cs generalizing a with
    | nil => cases h
    | cons c cs ih =>
      unfold splitColon at h
      split_ifs at h with hc
      · cases h
        simp [hc]
      · obtain ⟨parts, hparts, heq⟩ := Option.map_eq_some_iff.mp h
        cases heq
        obtain ⟨hcs, hnot⟩ := ih (a := parts.1) hparts
        simp [← hcs, hnot, Ne.symm hc]
  · intro h
    rw [h.1]
    exact splitColon_append h.2 b

theorem notMem_of_isScopeKind {kind : List Char} (h : isScopeKind kind = true) : ':' ∉ kind := by
  intro hmem
  cases kind with
  | nil => cases hmem
  | cons c cs =>
    simp only [isScopeKind, Bool.and_eq_true, List.all_eq_true] at h
    rcases List.mem_cons.mp hmem with rfl | hmem
    · exact absurd h.1 (by decide)
    · exact absurd (h.2 ':' hmem) (by decide)

/-- What the expression matches: two colons, and nothing blank between and after them. -/
theorem splitToken_eq_some {token kind scope tail : List Char} :
    splitToken token = some (kind, scope, tail) ↔
      token = kind ++ ':' :: (scope ++ ':' :: tail) ∧ isScopeKind kind = true ∧ scope ≠ [] ∧
        ':' ∉ scope ∧ (permissionLine tail).isSome := by
  constructor
  · intro h
    unfold splitToken at h
    split at h
    · cases h
    · rename_i first rest hfirst
      split at h
      · cases h
      · rename_i second rest' hsecond
        split_ifs at h with hvalid
        cases h
        obtain ⟨htoken, -⟩ := splitColon_eq_some.mp hfirst
        obtain ⟨hrest, hscope⟩ := splitColon_eq_some.mp hsecond
        exact ⟨by rw [htoken, hrest], hvalid.1, hvalid.2.1, hscope, hvalid.2.2⟩
  · intro h
    obtain ⟨htoken, hkind, hne, hscope, hline⟩ := h
    unfold splitToken
    rw [htoken, splitColon_append (notMem_of_isScopeKind hkind)]
    simp only [splitColon_append hscope]
    rw [if_pos ⟨hkind, hne, hline⟩]

/-! ## The scan -/

/-- The kinds and scopes of the tokens that grant the permission. -/
def heldScopes (required : String) (permissions : List String) : List (String × String) :=
  permissions.filterMap fun token =>
    (scopedPermission? token).bind fun m =>
      if m.permission = required then some (m.kind, m.scope) else none

structure ScopeTokens.Holds (t : ScopeTokens) (held : List (String × String)) : Prop where
  wildcard : ∀ kind, kind ∈ t.wildcardKinds ↔ (kind, "*") ∈ held
  values : ∀ kind scope, scope ∈ t.valuesOf kind ↔ (kind, scope) ∈ held ∧ scope ≠ "*"
  keys_nodup : t.scopedValues.keys.Nodup
  values_nodup : ∀ e ∈ t.scopedValues, e.2.Nodup
  values_ne : ∀ e ∈ t.scopedValues, e.2 ≠ []

theorem mem_setAdd {values : List String} {value v : String} :
    v ∈ setAdd values value ↔ v = value ∨ v ∈ values := by
  unfold setAdd
  split_ifs with h
  · constructor
    · exact .inr
    · rintro (rfl | hv)
      · exact h
      · exact hv
  · rw [List.mem_append, List.mem_singleton, or_comm]

theorem nodup_setAdd {values : List String} (h : values.Nodup) (value : String) :
    (setAdd values value).Nodup := by
  unfold setAdd
  split_ifs with hv
  · exact h
  · rw [List.nodup_append]
    refine ⟨h, by simp, ?_⟩
    intro a ha b hb
    rw [List.mem_singleton] at hb
    intro hab
    exact hv (hb ▸ hab ▸ ha)

theorem setAdd_ne_nil (values : List String) (value : String) : setAdd values value ≠ [] :=
  List.ne_nil_of_mem (mem_setAdd.mpr (.inl rfl))

theorem ScopeTokens.holds_empty : ScopeTokens.empty.Holds [] where
  wildcard kind := by simp [ScopeTokens.empty]
  values kind scope := by simp [ScopeTokens.empty, ScopeTokens.valuesOf, Dict.get?]
  keys_nodup := List.nodup_nil
  values_nodup e he := by cases he
  values_ne e he := by cases he

theorem ScopeTokens.Holds.nodup_valuesOf {held : List (String × String)} (h : t.Holds held)
    (kind : String) : (t.valuesOf kind).Nodup := by
  unfold ScopeTokens.valuesOf
  cases hget : t.scopedValues.get? kind with
  | none => simp
  | some values => exact h.values_nodup _ (Dict.mem_of_get? hget)

theorem ScopeTokens.Holds.add {held : List (String × String)} (h : t.Holds held)
    (m : ScopedPermission) : (t.add m).Holds (held ++ [(m.kind, m.scope)]) := by
  unfold ScopeTokens.add
  split_ifs with hwild
  · refine ⟨?_, ?_, h.keys_nodup, h.values_nodup, h.values_ne⟩
    · intro kind
      rw [mem_setAdd, h.wildcard, hwild]
      simp [or_comm]
    · intro kind scope
      show scope ∈ t.valuesOf kind ↔ _
      rw [h.values, hwild, List.mem_append, List.mem_singleton, Prod.mk.injEq]
      tauto
  · have hget (kind : String) : ScopeTokens.valuesOf
        { t with scopedValues := t.scopedValues.set m.kind (setAdd (t.valuesOf m.kind) m.scope) }
          kind = if kind = m.kind then setAdd (t.valuesOf m.kind) m.scope else t.valuesOf kind := by
      unfold ScopeTokens.valuesOf
      rw [Dict.get?_set]
      split_ifs <;> rfl
    refine ⟨?_, ?_, Dict.nodup_set h.keys_nodup _ _, ?_, ?_⟩
    · intro kind
      rw [h.wildcard]
      simp [Ne.symm hwild]
    · intro kind scope
      rw [hget, List.mem_append, List.mem_singleton, Prod.mk.injEq]
      split_ifs with hkind
      · rw [mem_setAdd, h.values, hkind]
        constructor
        · rintro (rfl | hscope)
          · exact ⟨.inr ⟨rfl, rfl⟩, hwild⟩
          · exact ⟨.inl hscope.1, hscope.2⟩
        · rintro ⟨hmem | hnew, hne⟩
          · exact .inr ⟨hmem, hne⟩
          · exact .inl hnew.2
      · rw [h.values]
        simp [hkind]
    · intro e he
      rcases Dict.mem_set he with rfl | he
      · exact nodup_setAdd (h.nodup_valuesOf m.kind) m.scope
      · exact h.values_nodup e he
    · intro e he
      rcases Dict.mem_set he with rfl | he
      · exact setAdd_ne_nil _ _
      · exact h.values_ne e he

theorem scanTokens_holds (required : String) (permissions : List String) :
    (scanTokens required permissions).Holds (heldScopes required permissions) := by
  unfold scanTokens heldScopes
  induction permissions using List.reverseRecOn with
  | nil => exact ScopeTokens.holds_empty
  | append_singleton rest token ih =>
    rw [List.foldl_append, List.filterMap_append]
    simp only [List.foldl_cons, List.foldl_nil, ScopeTokens.scan]
    cases hmatch : scopedPermission? token with
    | none => simpa [hmatch] using ih
    | some m =>
      by_cases hrequired : m.permission = required
      · simpa [hmatch, hrequired] using ih.add m
      · simpa [hmatch, hrequired] using ih

/-! ## What the tables decide -/

/-- The entries of `scoped_values`, one by one. -/
def ScopeTokens.pairs (t : ScopeTokens) : List (String × String) :=
  t.scopedValues.flatMap fun e => e.2.map fun scope => (e.1, scope)

theorem length_pairs (t : ScopeTokens) : t.pairs.length = t.scopeCount := by
  unfold ScopeTokens.pairs ScopeTokens.scopeCount Dict.values
  rw [List.length_flatMap, List.map_map]
  simp [Function.comp_def]

section

variable {held held' : List (String × String)}

theorem ScopeTokens.Holds.mem_pairs (h : t.Holds held) {pair : String × String} :
    pair ∈ t.pairs ↔ pair ∈ held ∧ pair.2 ≠ "*" := by
  rw [← h.values pair.1 pair.2]
  simp only [ScopeTokens.pairs, List.mem_flatMap, List.mem_map, ScopeTokens.valuesOf]
  constructor
  · rintro ⟨e, he, scope, hscope, rfl⟩
    rw [(Dict.get?_eq_some_iff h.keys_nodup).mpr he]
    exact hscope
  · intro hmem
    cases hget : t.scopedValues.get? pair.1 with
    | none =>
      rw [hget] at hmem
      cases hmem
    | some values =>
      rw [hget] at hmem
      exact ⟨_, Dict.mem_of_get? hget, pair.2, hmem, rfl⟩

theorem ScopeTokens.Holds.nodup_pairs (h : t.Holds held) : t.pairs.Nodup := by
  unfold ScopeTokens.pairs
  rw [List.nodup_flatMap]
  constructor
  · intro e he
    exact (h.values_nodup e he).map fun a b hab => (Prod.mk.inj hab).2
  · have hkeys := h.keys_nodup
    rw [Dict.keys, List.Nodup, List.pairwise_map] at hkeys
    apply hkeys.imp
    intro e e' hne pair hpair hpair'
    obtain ⟨scope, -, rfl⟩ := List.mem_map.mp hpair
    obtain ⟨scope', -, heq⟩ := List.mem_map.mp hpair'
    exact hne (Prod.mk.inj heq).1.symm

theorem ScopeTokens.Holds.mem_keys (h : t.Holds held) {kind : String} :
    kind ∈ t.scopedValues.keys ↔ ∃ pair ∈ t.pairs, pair.1 = kind := by
  simp only [ScopeTokens.pairs, List.mem_flatMap, List.mem_map, Dict.keys]
  constructor
  · rintro ⟨e, he, rfl⟩
    obtain ⟨scope, hscope⟩ := List.exists_mem_of_ne_nil _ (h.values_ne e he)
    exact ⟨(e.1, scope), ⟨e, he, scope, hscope, rfl⟩, rfl⟩
  · rintro ⟨pair, ⟨e, he, scope, -, rfl⟩, rfl⟩
    exact ⟨e, he, rfl⟩

theorem length_keys_le {d : Dict (List String)} (h : ∀ e ∈ d, e.2 ≠ []) :
    d.keys.length ≤ (d.values.map List.length).sum := by
  induction d with
  | nil => simp [Dict.keys]
  | cons e rest ih =>
    have hpos := List.length_pos_iff.mpr (h e (by simp))
    have hrest := ih fun e he => h e (List.mem_cons_of_mem _ he)
    simp only [Dict.keys, Dict.values, List.map_cons, List.length_cons, List.sum_cons] at hrest ⊢
    omega

theorem firstKind?_eq_some {kinds : List String} {kind : String} :
    firstKind? kinds = some kind ↔ kind ∈ kinds ∧ ∀ other ∈ kinds, kind ≤ other := by
  have hsorted := List.pairwise_insertionSort (· ≤ ·) kinds
  have hmem (other : String) : other ∈ kinds.insertionSort (· ≤ ·) ↔ other ∈ kinds :=
    List.mem_insertionSort _
  unfold firstKind?
  constructor
  · intro h
    obtain ⟨rest, hrest⟩ : ∃ rest, kinds.insertionSort (· ≤ ·) = kind :: rest :=
      List.head?_eq_some_iff.mp h
    rw [hrest] at hsorted hmem
    refine ⟨(hmem kind).mp (by simp), ?_⟩
    intro other hother
    rcases List.mem_cons.mp ((hmem other).mpr hother) with rfl | hin
    · exact le_rfl
    · exact List.rel_of_pairwise_cons hsorted hin
  · intro h
    cases hlist : kinds.insertionSort (· ≤ ·) with
    | nil =>
      have := (hmem kind).mpr h.1
      simp [hlist] at this
    | cons first rest =>
      rw [hlist] at hsorted hmem
      have hle := h.2 first ((hmem first).mp (by simp))
      have hge : first ≤ kind := by
        rcases List.mem_cons.mp ((hmem kind).mpr h.1) with rfl | hin
        · exact le_rfl
        · exact List.rel_of_pairwise_cons hsorted hin
      rw [List.head?_cons, le_antisymm hge hle]

theorem firstKind?_congr {kinds kinds' : List String} (h : ∀ kind, kind ∈ kinds ↔ kind ∈ kinds') :
    firstKind? kinds = firstKind? kinds' := by
  ext kind
  simp only [firstKind?_eq_some, h]

/-- The scope is decided by the wildcard kinds, the other kinds, and the number of scopes. -/
theorem inferScope_congr (ht : t.Holds held) (hu : u.Holds held')
    (hwild : ∀ kind, kind ∈ t.wildcardKinds ↔ kind ∈ u.wildcardKinds)
    (hkeys : ∀ kind, kind ∈ t.scopedValues.keys ↔ kind ∈ u.scopedValues.keys)
    (hcount : t.scopeCount = u.scopeCount) : t.inferScope = u.inferScope := by
  unfold ScopeTokens.inferScope
  rw [firstKind?_congr hwild, firstKind?_congr hkeys, hcount]
  by_cases hone : u.scopeCount = 1
  · -- with one scope there is one kind, so the first key is the only one
    have hlt := length_keys_le ht.values_ne
    have hlu := length_keys_le hu.values_ne
    have hperm := (List.perm_ext_iff_of_nodup ht.keys_nodup hu.keys_nodup).mpr hkeys
    have hle : u.scopedValues.keys.length ≤ 1 := hlu.trans hone.le
    have hsame : t.scopedValues.keys = u.scopedValues.keys := by
      cases hcase : u.scopedValues.keys with
      | nil =>
        rw [hcase] at hperm
        exact hperm.eq_nil
      | cons kind rest =>
        rw [hcase, List.length_cons] at hle
        obtain rfl : rest = [] := List.eq_nil_of_length_eq_zero (by omega)
        rw [hcase] at hperm
        exact hperm.eq_singleton
    rw [hsame]
  · simp only [if_neg hone]

end

end AskLens.Catalog
