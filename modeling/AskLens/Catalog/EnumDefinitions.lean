import AskLens.Catalog.Registered

/-!
# Enum definitions

A definition that passed the checks of registration passes them again, also
with its declarations in another order.
-/
namespace AskLens.Catalog

open Python Checks

/-- What registration makes sure of. -/
structure EnumDefinition.WellFormed (d : EnumDefinition) (bindingType : String) : Prop where
  type : d.type.name = bindingType
  nonempty : d.values ≠ []
  typed : ∀ v ∈ d.values, v.Typed d.type
  labels : ∀ v ∈ d.values, ∀ label, v.label = some label → strip label = label
  distinct : (d.values.map EnumValue.value).Nodup
  unambiguous : d.Unambiguous

/-- The same declarations in another order. -/
structure EnumValue.Reorders (v v' : EnumValue) : Prop where
  value : v'.value = v.value
  label : v'.label = v.label
  aliases : v'.aliases.Perm v.aliases

structure EnumDefinition.Reorders (d d' : EnumDefinition) : Prop where
  type : d'.type = d.type
  values : ∃ values, List.Forall₂ EnumValue.Reorders d.values values ∧ values.Perm d'.values

section

variable {key bindingType : String} {type : EnumType} {scan scan' : EnumScan} {raw : PyObj}
  {v v' : EnumValue} {d d' : EnumDefinition}

/-! ## Accepted definitions -/

theorem validateEnumLabel_stripped {raw : Option PyObj} {label : Option String}
    (h : validateEnumLabel key raw = .ok label) : ∀ s, label = some s → strip s = s := by
  intro s hs
  subst hs
  unfold validateEnumLabel at h
  split at h
  · cases h
  · cases h
  · rename_i text
    split_ifs at h
    have hlabel := Option.some.inj (Except.ok.inj h)
    rw [← hlabel]
    exact strip_strip text
  · cases h

theorem validateEnumValue_ok (h : validateEnumValue key type scan raw = .ok scan') :
    ∃ v, scan'.values = scan.values ++ [v] ∧ v.value ∉ scan.values.map EnumValue.value ∧
      ∀ label, v.label = some label → strip label = label := by
  cases raw with
  | dict entries =>
    simp only [validateEnumValue, bind_eq_ok] at h
    obtain ⟨_, -, canonical, -, _, hnew, label, hlabel, aliases, -, accepted, -, h⟩ := h
    rw [raiseIf_eq_ok] at hnew
    have hscan := Except.ok.inj h
    rw [← hscan]
    exact ⟨⟨canonical, label, aliases⟩, rfl, hnew, validateEnumLabel_stripped hlabel⟩
  | _ => simp [validateEnumValue] at h

/-- The values scanned so far are distinct and their labels are stripped. -/
def EnumScan.Clean (scan : EnumScan) : Prop :=
  (scan.values.map EnumValue.value).Nodup ∧
    ∀ v ∈ scan.values, ∀ label, v.label = some label → strip label = label

theorem validateEnumValue_clean (hscan : scan.Clean)
    (h : validateEnumValue key type scan raw = .ok scan') : scan'.Clean := by
  obtain ⟨v, hvalues, hnew, hlabel⟩ := validateEnumValue_ok h
  rw [EnumScan.Clean, hvalues]
  constructor
  · rw [List.map_append, List.nodup_append]
    refine ⟨hscan.1, List.nodup_singleton _, ?_⟩
    intro c hc c' hc' heq
    obtain rfl := List.mem_singleton.mp hc'
    exact hnew (heq ▸ hc)
  · intro w hw
    rcases List.mem_append.mp hw with hw | hw
    · exact hscan.2 w hw
    · obtain rfl := List.mem_singleton.mp hw
      exact hlabel

theorem foldlM_validateEnumValue_ne_nil {items : List PyObj} (hne : scan.values ≠ [])
    (h : items.foldlM (validateEnumValue key type) scan = .ok scan') : scan'.values ≠ [] := by
  apply foldlM_invariant (P := fun scan : EnumScan => scan.values ≠ []) ?_ hne h
  intro scan raw scan' _ hstep
  obtain ⟨v, hvalues, -⟩ := validateEnumValue_ok hstep
  simp [hvalues]

theorem validateEnumMapping_wellFormed (h : validateEnumMapping key bindingType raw = .ok d) :
    d.WellFormed bindingType := by
  have hunambiguous := validateEnumMapping_unambiguous h
  obtain ⟨htype, htyped⟩ := validateEnumMapping_typed h
  cases raw with
  | dict entries =>
    simp only [validateEnumMapping, bind_eq_ok] at h
    obtain ⟨_, -, h⟩ := h
    split at h
    · cases h
    · obtain ⟨_, -, h⟩ := bind_eq_ok.mp h
      split at h
      · rename_i item items _
        obtain ⟨scan, hscan, hd⟩ := bind_eq_ok.mp h
        obtain rfl := Except.ok.inj hd
        have hclean : scan.Clean :=
          foldlM_invariant (fun b a b' hb hstep => validateEnumValue_clean hb hstep)
            (by simp [EnumScan.Clean]) hscan
        have hne : scan.values ≠ [] := by
          rw [List.foldlM_cons, bind_eq_ok] at hscan
          obtain ⟨first, hfirst, hrest⟩ := hscan
          obtain ⟨v, hvalues, -⟩ := validateEnumValue_ok hfirst
          exact foldlM_validateEnumValue_ne_nil (by simp [hvalues]) hrest
        exact ⟨htype, hne, htyped, hclean.2, hclean.1, hunambiguous⟩
      · cases h
  | _ => simp [validateEnumMapping] at h

/-! ## The mapping of a definition -/

theorem token?_toObj {token : PyScalar} (h : IsToken token) : token? token.toObj = some token := by
  rcases h with ⟨cls, s, rfl, -⟩ | ⟨cls, i, rfl⟩
  · rfl
  · rfl

theorem validateEnumScalar_self {canonical : PyScalar} (h : type.Allows canonical) :
    validateEnumScalar key type (some canonical.toObj) = .ok canonical := by
  cases type with
  | string =>
    obtain ⟨cls, s, rfl, hne⟩ := h
    simp [validateEnumScalar, PyScalar.toObj, token?, hne]
  | integer =>
    obtain ⟨cls, i, rfl⟩ := h
    rfl

theorem validateEnumAlias_self {token : PyScalar} (h : IsToken token) :
    validateEnumAlias key token.toObj = .ok token := by
  have hnonempty : isEmptyText token = false := by
    rcases h with ⟨cls, s, rfl, hne⟩ | ⟨cls, i, rfl⟩
    · simpa [isEmptyText] using hne
    · rfl
  simp [validateEnumAlias, token?_toObj h, hnonempty]

theorem mapM_validateEnumAlias_self {aliases : List PyScalar} (h : ∀ token ∈ aliases, IsToken token) :
    (aliases.map PyScalar.toObj).mapM (validateEnumAlias key) = .ok aliases := by
  rw [mapM_eq_ok, List.forall₂_map_left_iff, List.forall₂_same]
  intro token htoken
  exact validateEnumAlias_self (h token htoken)

theorem validateEnumLabel_self {label : Option String} (hne : label ≠ some "")
    (hstrip : ∀ s, label = some s → strip s = s) :
    validateEnumLabel key (label.map (.str none)) = .ok label := by
  cases label with
  | none => rfl
  | some s =>
    have hs : strip s ≠ "" := by
      rw [hstrip s rfl]
      simpa using hne
    simp only [Option.map_some, validateEnumLabel]
    rw [if_neg hs, hstrip s rfl]

theorem EnumValue.toObj_entries (v : EnumValue) : ∃ entries, v.toObj = .dict entries ∧
    onlyKeys entries ["value", "label", "aliases"] = true ∧
      lookupKey entries "value" = some v.value.toObj ∧
        lookupKey entries "label" = v.label.map (.str none) ∧
          sequence? ((lookupKey entries "aliases").getD (.tuple [])) =
            some (v.aliases.map PyScalar.toObj) := by
  obtain ⟨value, label, aliases⟩ := v
  refine ⟨_, rfl, ?_⟩
  cases label with
  | none =>
    cases aliases with
    | nil => exact ⟨rfl, rfl, rfl, rfl⟩
    | cons token rest => exact ⟨rfl, rfl, rfl, rfl⟩
  | some label =>
    cases aliases with
    | nil => exact ⟨rfl, rfl, rfl, rfl⟩
    | cons token rest => exact ⟨rfl, rfl, rfl, rfl⟩

theorem validateEnumValue_toObj {accepted : List (PyScalar × PyScalar)} (htyped : v.Typed type)
    (hlabel : ∀ label, v.label = some label → strip label = label)
    (hnew : v.value ∉ scan.values.map EnumValue.value)
    (haccepted : v.tokens.foldlM (acceptToken key v.value) scan.accepted = .ok accepted) :
    validateEnumValue key type scan v.toObj = .ok ⟨accepted, scan.values ++ [v]⟩ := by
  obtain ⟨entries, hentries, honly, hvalue, hlabelEntry, haliases⟩ := v.toObj_entries
  have haliasesOk : validateEnumAliases key (lookupKey entries "aliases") = .ok v.aliases := by
    rw [validateEnumAliases, haliases]
    exact mapM_validateEnumAlias_self htyped.aliases
  have hlabelOk : validateEnumLabel key (lookupKey entries "label") = .ok v.label := by
    rw [hlabelEntry]
    exact validateEnumLabel_self htyped.label hlabel
  rw [hentries]
  simp only [validateEnumValue, honly, hvalue, validateEnumScalar_self htyped.value, hlabelOk,
    haliasesOk, ok_bind, raiseIf_neg hnew, Bool.true_eq_false, raiseIf_neg not_false]
  rw [EnumValue.tokens] at haccepted
  rw [haccepted]
  rfl

def EnumDefinition.Accepts (d : EnumDefinition) (accepted : List (PyScalar × PyScalar)) : Prop :=
  ∀ token c, accepted.lookup token = some c → (token, c) ∈ d.tokenTable

theorem acceptToken_of_unambiguous {canonical token : PyScalar}
    {accepted : List (PyScalar × PyScalar)} (hd : d.Unambiguous) (haccepts : d.Accepts accepted)
    (hmem : (token, canonical) ∈ d.tokenTable) :
    ∃ accepted', acceptToken key canonical accepted token = .ok accepted' ∧
      d.Accepts accepted' := by
  unfold acceptToken
  cases hlookup : accepted.lookup token with
  | none =>
    refine ⟨_, rfl, ?_⟩
    intro t c ht
    rw [List.lookup_append] at ht
    cases hold : accepted.lookup t with
    | some c' =>
      rw [hold] at ht
      exact haccepts t c (hold.trans ht)
    | none =>
      rw [hold, Option.none_or] at ht
      by_cases heq : t = token
      · subst heq
        obtain rfl : canonical = c := by simpa using ht
        exact hmem
      · have hfalse : (t == token) = false := by simpa using heq
        simp [hfalse] at ht
  | some existing =>
    have hsame : existing = canonical := hd _ _ _ (haccepts token existing hlookup) hmem
    exact ⟨accepted, if_pos hsame, haccepts⟩

theorem foldlM_acceptToken_of_unambiguous {canonical : PyScalar} {tokens : List PyScalar}
    {accepted : List (PyScalar × PyScalar)} (hd : d.Unambiguous) (haccepts : d.Accepts accepted)
    (hmem : ∀ token ∈ tokens, (token, canonical) ∈ d.tokenTable) :
    ∃ accepted', tokens.foldlM (acceptToken key canonical) accepted = .ok accepted' ∧
      d.Accepts accepted' := by
  induction tokens generalizing accepted with
  | nil => exact ⟨accepted, rfl, haccepts⟩
  | cons token rest ih =>
    obtain ⟨next, hnext, hkeep⟩ :=
      acceptToken_of_unambiguous hd haccepts (hmem token List.mem_cons_self)
    obtain ⟨last, hlast, hlastAccepts⟩ :=
      ih hkeep fun t ht => hmem t (List.mem_cons_of_mem token ht)
    refine ⟨last, ?_, hlastAccepts⟩
    rw [List.foldlM_cons, hnext, ok_bind, hlast]

/-- The loop over the rest of the values, after the values before it. -/
theorem foldlM_validateEnumValue_toObj (h : d.WellFormed bindingType) {rest done : List EnumValue}
    {accepted : List (PyScalar × PyScalar)} (hvalues : done ++ rest = d.values)
    (haccepts : d.Accepts accepted) :
    ∃ accepted', (rest.map EnumValue.toObj).foldlM (validateEnumValue key d.type)
      ⟨accepted, done⟩ = .ok ⟨accepted', d.values⟩ := by
  induction rest generalizing done accepted with
  | nil =>
    rw [List.append_nil] at hvalues
    exact ⟨accepted, by rw [hvalues]; rfl⟩
  | cons v rest ih =>
    have hv : v ∈ d.values := by simp [← hvalues]
    have hnew : v.value ∉ done.map EnumValue.value := by
      have hdistinct := h.distinct
      rw [← hvalues, List.map_append, List.map_cons, List.nodup_append] at hdistinct
      intro hmem
      exact hdistinct.2.2 _ hmem _ List.mem_cons_self rfl
    have htable : ∀ token ∈ v.tokens, (token, v.value) ∈ d.tokenTable := by
      intro token htoken
      exact mem_tokenTable.mpr ⟨v, hv, htoken, rfl⟩
    obtain ⟨next, hnext, hkeep⟩ : ∃ next, v.tokens.foldlM (acceptToken key v.value) accepted =
        .ok next ∧ d.Accepts next :=
      foldlM_acceptToken_of_unambiguous h.unambiguous haccepts htable
    have hstep : validateEnumValue key d.type ⟨accepted, done⟩ v.toObj =
        .ok ⟨next, done ++ [v]⟩ :=
      validateEnumValue_toObj (h.typed v hv) (h.labels v hv) hnew hnext
    have hsplit : (done ++ [v]) ++ rest = d.values := by simpa using hvalues
    obtain ⟨last, hlast⟩ := ih hsplit hkeep
    refine ⟨last, ?_⟩
    rw [List.map_cons, List.foldlM_cons, hstep, ok_bind, hlast]

theorem enumType?_name : enumType? (some (.str none d.type.name)) = some d.type := by
  cases d.type with
  | string => rfl
  | integer => rfl

theorem validateEnumMapping_toObj (h : d.WellFormed bindingType) :
    validateEnumMapping key bindingType d.toObj = .ok d := by
  obtain ⟨v, rest, hvalues⟩ := List.exists_cons_of_ne_nil h.nonempty
  have hfirst : d.Accepts [] := by
    intro token c hlookup
    cases hlookup
  obtain ⟨accepted, hscan⟩ : ∃ accepted, (d.values.map EnumValue.toObj).foldlM
      (validateEnumValue key d.type) ⟨[], []⟩ = .ok ⟨accepted, d.values⟩ :=
    foldlM_validateEnumValue_toObj h (List.nil_append d.values) hfirst
  have hsequence : ((lookupKey [(.str none "type", .str none d.type.name),
      (.str none "values", .list (d.values.map EnumValue.toObj))] "values").bind sequence?) =
        some (v.toObj :: rest.map EnumValue.toObj) := by
    rw [hvalues]
    rfl
  have hlookup : lookupKey [(.str none "type", .str none d.type.name),
      (.str none "values", .list (d.values.map EnumValue.toObj))] "type" =
        some (.str none d.type.name) := rfl
  have honly : onlyKeys [(.str none "type", .str none d.type.name),
      (.str none "values", .list (d.values.map EnumValue.toObj))] ["type", "values"] = true := rfl
  have hmap : v.toObj :: rest.map EnumValue.toObj = d.values.map EnumValue.toObj := by
    rw [hvalues]
    rfl
  rw [EnumDefinition.toObj, validateEnumMapping]
  simp only [honly, hlookup, enumType?_name, hsequence, Bool.true_eq_false,
    raiseIf_neg not_false, raiseIf_neg (not_not.mpr h.type), ok_bind]
  rw [hmap, hscan]
  rfl

/-! ## Reordering -/

theorem EnumValue.Reorders.mem_tokens (h : v.Reorders v') (token : PyScalar) :
    token ∈ v'.tokens ↔ token ∈ v.tokens := by
  rw [EnumValue.tokens, EnumValue.tokens, List.mem_cons, List.mem_cons, h.value,
    h.aliases.mem_iff]

theorem EnumDefinition.Reorders.mem (h : d.Reorders d') : ∀ v' ∈ d'.values, ∃ v ∈ d.values,
    v.Reorders v' := by
  obtain ⟨values, hvalues, hperm⟩ := h.values
  intro v' hv'
  exact forall₂_mem_right hvalues (hperm.mem_iff.mpr hv')

theorem EnumDefinition.Reorders.mem_tokenTable (h : d.Reorders d') (token c : PyScalar) :
    (token, c) ∈ d'.tokenTable ↔ (token, c) ∈ d.tokenTable := by
  rw [Catalog.mem_tokenTable, Catalog.mem_tokenTable]
  constructor
  · rintro ⟨v', hv', htoken, rfl⟩
    obtain ⟨v, hv, hreorders⟩ := h.mem v' hv'
    exact ⟨v, hv, (hreorders.mem_tokens token).mp htoken, hreorders.value.symm⟩
  · rintro ⟨v, hv, htoken, rfl⟩
    obtain ⟨values, hvalues, hperm⟩ := h.values
    obtain ⟨v', hv', hreorders⟩ := forall₂_mem_left hvalues hv
    exact ⟨v', hperm.mem_iff.mp hv', (hreorders.mem_tokens token).mpr htoken, hreorders.value⟩

theorem EnumDefinition.Reorders.wellFormed (h : d.Reorders d') (hd : d.WellFormed bindingType) :
    d'.WellFormed bindingType where
  type := by
    rw [h.type]
    exact hd.type
  nonempty := by
    obtain ⟨values, hvalues, hperm⟩ := h.values
    intro hnil
    rw [hnil] at hperm
    rw [hperm.eq_nil] at hvalues
    exact hd.nonempty (List.forall₂_nil_right_iff.mp hvalues)
  typed := by
    intro v' hv'
    obtain ⟨v, hv, hreorders⟩ := h.mem v' hv'
    have htyped := hd.typed v hv
    refine ⟨?_, ?_, ?_⟩
    · rw [h.type, hreorders.value]
      exact htyped.value
    · rw [hreorders.label]
      exact htyped.label
    · intro token htoken
      exact htyped.aliases token (hreorders.aliases.mem_iff.mp htoken)
  labels := by
    intro v' hv'
    obtain ⟨v, hv, hreorders⟩ := h.mem v' hv'
    rw [hreorders.label]
    exact hd.labels v hv
  distinct := by
    obtain ⟨values, hvalues, hperm⟩ := h.values
    have hmap : values.map EnumValue.value = d.values.map EnumValue.value :=
      forall₂_map_eq (fun v w hreorders => hreorders.value) hvalues
    rw [← (hperm.map EnumValue.value).nodup_iff, hmap]
    exact hd.distinct
  unambiguous := by
    intro token c c' hc hc'
    rw [h.mem_tokenTable] at hc hc'
    exact hd.unambiguous token c c' hc hc'

theorem EnumDefinition.Reorders.resolve_eq (h : d.Reorders d') (hd : d.WellFormed bindingType)
    (token : PyScalar) : d'.resolve token = d.resolve token := by
  apply Option.ext
  intro c
  rw [resolve_eq_some_iff (h.wellFormed hd).unambiguous, resolve_eq_some_iff hd.unambiguous]
  exact h.mem_tokenTable token c

end

end AskLens.Catalog
