import AskLens.Catalog.Registration

/-!
# What registration establishes

Each check of `build` leaves a fact behind. `SemanticResource.Registered` names
the facts that later stages rely on, and `build` establishes all of them.
-/
namespace AskLens.Catalog

open Python Django Checks

/-! ## Names -/

theorem normalizeResourceName_ok {env : Environment} {value name : String}
    (h : normalizeResourceName env value = .ok name) :
    name = String.ofList (slugName env.unicode value.toList) ∧ name ≠ "" := by
  unfold normalizeResourceName at h
  simp only at h
  split_ifs at h with hempty
  obtain rfl : _ = name := by simpa using h
  exact ⟨rfl, hempty⟩

theorem normalizeResourceName_normalized {env : Environment} {value name : String}
    (h : normalizeResourceName env value = .ok name) : normalizeResourceName env name = .ok name := by
  obtain ⟨rfl, hne⟩ := normalizeResourceName_ok h
  unfold normalizeResourceName
  simp only [String.toList_ofList, slugName_slugName]
  rw [if_neg hne]

/-! ## Enum definitions -/

/-- A token stands for one canonical value only. -/
def EnumDefinition.Unambiguous (d : EnumDefinition) : Prop :=
  ∀ token c c', (token, c) ∈ d.tokenTable → (token, c') ∈ d.tokenTable → c = c'

def EnumScan.Covers (scan : EnumScan) : Prop :=
  ∀ v ∈ scan.values, ∀ token ∈ v.tokens, scan.accepted.lookup token = some v.value

theorem acceptToken_ok {key : String} {canonical token : PyScalar}
    {accepted accepted' : List (PyScalar × PyScalar)}
    (h : acceptToken key canonical accepted token = .ok accepted') :
    accepted'.lookup token = some canonical ∧
      ∀ t c, accepted.lookup t = some c → accepted'.lookup t = some c := by
  unfold acceptToken at h
  split at h
  · rename_i hnone
    obtain rfl : accepted ++ [(token, canonical)] = accepted' := by simpa using h
    refine ⟨?_, fun t c ht => ?_⟩
    · rw [List.lookup_append, hnone]
      simp
    · rw [List.lookup_append, ht]
      rfl
  · rename_i existing hsome
    split_ifs at h with heq
    obtain rfl : accepted = accepted' := by simpa using h
    exact ⟨heq ▸ hsome, fun t c ht => ht⟩

theorem foldlM_acceptToken_ok {key : String} {canonical : PyScalar} {tokens : List PyScalar}
    {accepted accepted' : List (PyScalar × PyScalar)}
    (h : tokens.foldlM (acceptToken key canonical) accepted = .ok accepted') :
    (∀ token ∈ tokens, accepted'.lookup token = some canonical) ∧
      ∀ t c, accepted.lookup t = some c → accepted'.lookup t = some c := by
  induction tokens generalizing accepted with
  | nil =>
    obtain rfl : accepted = accepted' := by simpa using h
    exact ⟨by simp, fun t c ht => ht⟩
  | cons token tokens ih =>
    rw [List.foldlM_cons, bind_eq_ok] at h
    obtain ⟨next, hnext, hrest⟩ := h
    obtain ⟨htoken, hkeep⟩ := acceptToken_ok hnext
    obtain ⟨htokens, hkeep'⟩ := ih hrest
    refine ⟨fun t ht => ?_, fun t c ht => hkeep' t c (hkeep t c ht)⟩
    rcases List.mem_cons.mp ht with rfl | ht
    · exact hkeep' _ _ htoken
    · exact htokens t ht

theorem validateEnumValue_covers {key : String} {type : EnumType} {scan scan' : EnumScan}
    {raw : PyObj} (hscan : scan.Covers) (h : validateEnumValue key type scan raw = .ok scan') :
    scan'.Covers := by
  cases raw with
  | dict entries =>
    simp only [validateEnumValue, bind_eq_ok] at h
    obtain ⟨_, -, canonical, -, _, -, label, -, aliases, -, accepted, haccepted, hresult⟩ := h
    obtain rfl : _ = scan' := by simpa using hresult
    obtain ⟨htokens, hkeep⟩ := foldlM_acceptToken_ok haccepted
    intro v hv token htoken
    rcases List.mem_append.mp hv with hv | hv
    · exact hkeep _ _ (hscan v hv token htoken)
    · obtain rfl := List.mem_singleton.mp hv
      exact htokens token htoken
  | _ => simp [validateEnumValue] at h

theorem mem_tokenTable {d : EnumDefinition} {token c : PyScalar} :
    (token, c) ∈ d.tokenTable ↔ ∃ v ∈ d.values, token ∈ v.tokens ∧ v.value = c := by
  simp [EnumDefinition.tokenTable]

theorem validateEnumMapping_unambiguous {key bindingType : String} {raw : PyObj}
    {d : EnumDefinition} (h : validateEnumMapping key bindingType raw = .ok d) :
    d.Unambiguous := by
  cases raw with
  | dict entries =>
    simp only [validateEnumMapping, bind_eq_ok] at h
    obtain ⟨_, -, h⟩ := h
    split at h
    · cases h
    · obtain ⟨_, -, h⟩ := bind_eq_ok.mp h
      split at h
      · obtain ⟨scan, hscan, hd⟩ := bind_eq_ok.mp h
        obtain rfl : _ = d := by simpa using hd
        have hcovers : scan.Covers :=
          foldlM_invariant (fun b a b' hb hstep => validateEnumValue_covers hb hstep)
            (by simp [EnumScan.Covers]) hscan
        intro token c c' hc hc'
        obtain ⟨v, hv, hvtoken, rfl⟩ := mem_tokenTable.mp hc
        obtain ⟨v', hv', hvtoken', rfl⟩ := mem_tokenTable.mp hc'
        have hfirst := hcovers v hv token hvtoken
        have hsecond := hcovers v' hv' token hvtoken'
        exact Option.some.inj (hfirst.symm.trans hsecond)
      · cases h
  | _ => simp [validateEnumMapping] at h

theorem EnumDefinition.mem_of_resolve {d : EnumDefinition} {token c : PyScalar}
    (h : d.resolve token = some c) : (token, c) ∈ d.tokenTable := by
  unfold EnumDefinition.resolve at h
  obtain ⟨l₁, l₂, hl, -⟩ := List.lookup_eq_some_iff.mp h
  have hmem : (token, c) ∈ d.tokenTable.reverse := by simp [hl]
  simpa using hmem

theorem EnumDefinition.resolve_eq_some_iff {d : EnumDefinition} (hd : d.Unambiguous)
    {token c : PyScalar} : d.resolve token = some c ↔ (token, c) ∈ d.tokenTable := by
  refine ⟨mem_of_resolve, fun h => ?_⟩
  have hsome : (d.resolve token).isSome := by
    unfold EnumDefinition.resolve
    rw [List.lookup_isSome_iff]
    exact ⟨(token, c), by simpa using h, by simp⟩
  obtain ⟨c', hc'⟩ := Option.isSome_iff_exists.mp hsome
  rw [hc', hd token c c' h (mem_of_resolve hc')]

theorem EnumDefinition.resolve_canonical {d : EnumDefinition} (hd : d.Unambiguous)
    {token c : PyScalar} (h : d.resolve token = some c) : d.resolve c = some c := by
  obtain ⟨v, hv, -, rfl⟩ := mem_tokenTable.mp (mem_of_resolve h)
  rw [resolve_eq_some_iff hd, mem_tokenTable]
  exact ⟨v, hv, by simp [EnumValue.tokens], rfl⟩

/-- A non-empty string or an integer. -/
def IsToken (v : PyScalar) : Prop :=
  (∃ cls, ∃ s : String, v = .str cls s ∧ s ≠ "") ∨ ∃ cls i, v = .int cls i

def EnumType.Allows (type : EnumType) (v : PyScalar) : Prop :=
  match type with
  | .string => ∃ cls, ∃ s : String, v = .str cls s ∧ s ≠ ""
  | .integer => ∃ cls i, v = .int cls i

structure EnumValue.Typed (type : EnumType) (v : EnumValue) : Prop where
  value : type.Allows v.value
  label : v.label ≠ some ""
  aliases : ∀ token ∈ v.aliases, IsToken token

theorem validateEnumScalar_ok {key : String} {type : EnumType} {value : Option PyObj}
    {v : PyScalar} (h : validateEnumScalar key type value = .ok v) : type.Allows v := by
  unfold validateEnumScalar at h
  split at h
  · split_ifs at h with hempty
    obtain rfl := Except.ok.inj h
    exact ⟨_, _, rfl, hempty⟩
  · cases h
  · obtain rfl := Except.ok.inj h
    exact ⟨_, _, rfl⟩
  · cases h

theorem validateEnumLabel_ok {key : String} {raw : Option PyObj} {label : Option String}
    (h : validateEnumLabel key raw = .ok label) : label ≠ some "" := by
  unfold validateEnumLabel at h
  split at h
  · obtain rfl := Except.ok.inj h
    simp
  · obtain rfl := Except.ok.inj h
    simp
  · split_ifs at h with hblank
    obtain rfl := Except.ok.inj h
    simpa using hblank
  · cases h

theorem validateEnumAliases_ok {key : String} {raw : Option PyObj} {aliases : List PyScalar}
    (h : validateEnumAliases key raw = .ok aliases) : ∀ token ∈ aliases, IsToken token := by
  unfold validateEnumAliases at h
  split at h
  · cases h
  · intro token htoken
    obtain ⟨o, -, ho⟩ := exists_of_mem_mapM h htoken
    unfold validateEnumAlias at ho
    split at ho
    · cases ho
    · rename_i t ht
      split_ifs at ho with hempty
      obtain rfl := Except.ok.inj ho
      cases o with
      | str cls s =>
        obtain rfl := Option.some.inj ht
        exact .inl ⟨cls, s, rfl, by simpa [isEmptyText] using hempty⟩
      | int cls i =>
        obtain rfl := Option.some.inj ht
        exact .inr ⟨cls, i, rfl⟩
      | _ => cases ht

theorem validateEnumValue_typed {key : String} {type : EnumType} {scan scan' : EnumScan}
    {raw : PyObj} (hscan : ∀ v ∈ scan.values, v.Typed type)
    (h : validateEnumValue key type scan raw = .ok scan') : ∀ v ∈ scan'.values, v.Typed type := by
  cases raw with
  | dict entries =>
    simp only [validateEnumValue, bind_eq_ok] at h
    obtain ⟨_, -, canonical, hcanonical, _, -, label, hlabel, aliases, haliases, _, -, h⟩ := h
    obtain rfl := Except.ok.inj h
    intro v hv
    rcases List.mem_append.mp hv with hv | hv
    · exact hscan v hv
    · obtain rfl := List.mem_singleton.mp hv
      exact ⟨validateEnumScalar_ok hcanonical, validateEnumLabel_ok hlabel,
        validateEnumAliases_ok haliases⟩
  | _ => simp [validateEnumValue] at h

theorem validateEnumMapping_typed {key bindingType : String} {raw : PyObj}
    {d : EnumDefinition} (h : validateEnumMapping key bindingType raw = .ok d) :
    d.type.name = bindingType ∧ ∀ v ∈ d.values, v.Typed d.type := by
  cases raw with
  | dict entries =>
    simp only [validateEnumMapping, bind_eq_ok] at h
    obtain ⟨_, -, h⟩ := h
    split at h
    · cases h
    · rename_i type _
      obtain ⟨_, htype, h⟩ := bind_eq_ok.mp h
      rw [raiseIf_eq_ok, not_not] at htype
      split at h
      · obtain ⟨scan, hscan, hd⟩ := bind_eq_ok.mp h
        obtain rfl := Except.ok.inj hd
        have htyped : ∀ v ∈ scan.values, v.Typed type :=
          foldlM_invariant (P := fun scan => ∀ v ∈ scan.values, v.Typed type)
            (fun b a b' hb hstep => validateEnumValue_typed hb hstep) (by simp) hscan
        exact ⟨htype, htyped⟩
      · cases h
  | _ => simp [validateEnumMapping] at h

/-! ## Fields -/

/-- The definition has passed the checks of registration, for a binding of this type. -/
def EnumDefinition.Validated (d : EnumDefinition) (bindingType : String) : Prop :=
  ∃ key raw, validateEnumMapping key bindingType raw = .ok d

/-- The semantic type fits the binding, and exactly the enum fields have a definition. -/
structure FieldSpec.TypeMatches (f : FieldSpec) (bindingType : String) : Prop where
  binding : f.type.name = bindingType ∨
    (f.type = .enum ∧ (bindingType = "integer" ∨ bindingType = "string"))
  enum : (f.type = .enum ∧ ∃ d, f.enum = some d ∧ d.Validated bindingType) ∨
    (f.type ≠ .enum ∧ f.enum = none)

structure FieldSpec.Registered (graph : ModelGraph) (model : ModelName) (key : String)
    (f : FieldSpec) : Prop where
  name_eq : f.name = key
  resolution : ∃ res, resolveFieldPath graph model f.binding = .ok res ∧
    f.relationDepth = res.relationDepth ∧ f.relationshipEdges = res.relationshipEdges ∧
    f.toManyRelationshipEdges = res.toManyRelationshipEdges ∧
    f.TypeMatches (getFieldType res.field) ∧ (res.nullable = true → f.nullable = true)

theorem validateEnumDefinition_ok {key bindingType : String} {type : FieldType}
    {raw : Option ConfigValue} {enum : Option EnumDefinition}
    (h : validateEnumDefinition key type bindingType raw = .ok enum) :
    (type = .enum ∧ ∃ d, enum = some d ∧ d.Validated bindingType) ∨
      (type ≠ .enum ∧ enum = none) := by
  unfold validateEnumDefinition at h
  split at h
  · cases h
  · cases h
  · rename_i o _
    cases hd : validateEnumMapping key bindingType o with
    | error e => simp [hd, Except.map] at h
    | ok d =>
      obtain rfl : some d = enum := by simpa [hd, Except.map] using h
      exact .inl ⟨rfl, d, rfl, key, _, hd⟩
  · rename_i d₀
    cases hd : validateEnumMapping key bindingType d₀.toObj with
    | error e => simp [hd, Except.map] at h
    | ok d =>
      obtain rfl : some d = enum := by simpa [hd, Except.map] using h
      exact .inl ⟨rfl, d, rfl, key, _, hd⟩
  · obtain rfl : none = enum := by simpa using h
    exact .inr ⟨by assumption, rfl⟩
  · obtain rfl : none = enum := by simpa using h
    exact .inr ⟨by assumption, rfl⟩
  · cases h

theorem validateFieldType_ok {key typeName bindingType : String} {raw : Option ConfigValue}
    {type : FieldType} {enum : Option EnumDefinition}
    (h : validateFieldType key typeName bindingType raw = .ok (type, enum)) :
    (type.name = bindingType ∨
      (type = .enum ∧ (bindingType = "integer" ∨ bindingType = "string"))) ∧
      ((type = .enum ∧ ∃ d, enum = some d ∧ d.Validated bindingType) ∨
        (type ≠ .enum ∧ enum = none)) := by
  unfold validateFieldType at h
  split at h
  · cases h
  · obtain ⟨_, hbinding, h⟩ := bind_eq_ok.mp h
    obtain ⟨enum', henum, h⟩ := bind_eq_ok.mp h
    obtain ⟨rfl, rfl⟩ : _ = type ∧ enum' = enum := by simpa using h
    rw [validateBindingType, raiseIf_eq_ok, not_not] at hbinding
    exact ⟨hbinding, validateEnumDefinition_ok henum⟩

theorem rejectNullableMismatch_ok {key : String} {bindingNullable nullable : Bool} {u : Unit}
    (h : rejectNullableMismatch key bindingNullable nullable = .ok u) :
    bindingNullable = true → nullable = true := by
  rw [rejectNullableMismatch, raiseIf_eq_ok] at h
  intro hb
  by_contra hn
  exact h ⟨hb, by simpa using hn⟩

theorem validateFieldSpec_registered {graph : ModelGraph} {model : ModelName} {key : String}
    {field : PrebuiltField} {res : FieldResolution} {f : FieldSpec}
    (hres : resolveFieldPath graph model field.binding = .ok res)
    (h : validateFieldSpec key field res = .ok f) : f.Registered graph model key := by
  simp only [validateFieldSpec, bind_eq_ok, raiseIf_eq_ok] at h
  obtain ⟨_, hname, _, -, ⟨type, enum⟩, htype, _, hnull, hf⟩ := h
  obtain rfl : _ = f := by simpa using hf
  obtain ⟨hbinding, henum⟩ := validateFieldType_ok htype
  exact ⟨not_not.mp hname, res, hres, rfl, rfl, rfl, ⟨hbinding, henum⟩,
    rejectNullableMismatch_ok hnull⟩

theorem buildConfiguredField_ok {env : Environment} {model : ModelName} {key : String}
    {config : Dict ConfigValue} {f : FieldSpec}
    (h : buildConfiguredField env model key config = .ok f) :
    f.Registered env.graph model key ∧ f.label = fieldLabel env config key := by
  simp only [buildConfiguredField, bind_eq_ok] at h
  obtain ⟨_, -, _, -, h⟩ := h
  split at h
  · cases h
  · obtain ⟨res, hres, h⟩ := bind_eq_ok.mp h
    split at h
    · cases h
    · obtain ⟨⟨type, enum⟩, htype, h⟩ := bind_eq_ok.mp h
      simp only at h
      split at h
      · simp only [bind_eq_ok] at h
        obtain ⟨_, hnull, _, -, _, -, _, -, _, -, _, -, _, -, hf⟩ := h
        obtain rfl : _ = f := by simpa using hf
        obtain ⟨hbinding, henum⟩ := validateFieldType_ok htype
        exact ⟨⟨rfl, res, hres, rfl, rfl, rfl, ⟨hbinding, henum⟩,
          rejectNullableMismatch_ok hnull⟩, rfl⟩
      · cases h

theorem buildFieldSpec_registered {env : Environment} {model : ModelName}
    {entry : String × FieldRegistration} {e : String × FieldSpec}
    (h : buildFieldSpec env model entry = .ok e) : e.2.Registered env.graph model e.1 := by
  obtain ⟨_, -, h⟩ := bind_eq_ok.mp h
  split at h
  · obtain ⟨_, -, h⟩ := bind_eq_ok.mp h
    obtain ⟨res, hres, h⟩ := bind_eq_ok.mp h
    obtain ⟨f, hf, h⟩ := bind_eq_ok.mp h
    obtain rfl : _ = e := by simpa using h
    exact validateFieldSpec_registered hres hf
  · obtain ⟨f, hf, h⟩ := bind_eq_ok.mp h
    obtain rfl : _ = e := by simpa using h
    exact (buildConfiguredField_ok hf).1

theorem buildFieldSpecs_ok {env : Environment} {model : ModelName}
    {fields : Dict FieldRegistration} {specs : Dict FieldSpec}
    (h : buildFieldSpecs env model fields = .ok specs) :
    specs.keys.Nodup ∧ ∀ e ∈ specs, ∃ entry ∈ fields, buildFieldSpec env model entry = .ok e := by
  obtain ⟨_, -, h⟩ := bind_eq_ok.mp h
  obtain ⟨entries, hentries, h⟩ := bind_eq_ok.mp h
  obtain rfl : _ = specs := by simpa using h
  refine ⟨Dict.nodup_ofEntries entries, fun e he => ?_⟩
  exact exists_of_mem_mapM hentries (Dict.mem_of_mem_ofEntries he)

theorem buildFieldSpecs_registered {env : Environment} {model : ModelName}
    {fields : Dict FieldRegistration} {specs : Dict FieldSpec}
    (h : buildFieldSpecs env model fields = .ok specs) :
    specs.keys.Nodup ∧ ∀ e ∈ specs, e.2.Registered env.graph model e.1 := by
  obtain ⟨hnodup, hentries⟩ := buildFieldSpecs_ok h
  refine ⟨hnodup, fun e he => ?_⟩
  obtain ⟨entry, -, hentry⟩ := hentries e he
  exact buildFieldSpec_registered hentry

/-! ## Metrics -/

/-- The facts about a metric's binding and, for a distinct count, its key. -/
structure Metric.Registered (graph : ModelGraph) (model : ModelName) (key : String)
    (m : Metric) : Prop where
  name_eq : m.name = key
  resolution : ∃ res bound, resolveFieldPath graph model m.binding = .ok res ∧
    boundResolutions graph model m res = .ok bound ∧
    m.relationDepth = (bound.map FieldResolution.relationDepth).foldl max 0 ∧
    m.relationshipEdges = (bound.flatMap FieldResolution.relationshipEdges).eraseDups ∧
    m.toManyRelationshipEdges =
      (bound.flatMap FieldResolution.toManyRelationshipEdges).eraseDups ∧
    validateMetricResultType m (getFieldType res.field) = .ok () ∧
    validateMetricCardinality graph model m res = .ok ()

theorem Metric.Registered.toMany_length {graph : ModelGraph} {model : ModelName} {m : Metric}
    {key : String} (h : m.Registered graph model key) : m.toManyRelationshipEdges.length ≤ 1 := by
  obtain ⟨res, bound, -, hbound, -, -, hedges, -, hcardinality⟩ := h.resolution
  rw [hedges]
  obtain ⟨_, -, hcardinality⟩ := bind_eq_ok.mp hcardinality
  unfold boundResolutions at hbound
  cases hpolicy : m.cardinalityPolicy with
  | toOneOnly =>
    rw [hpolicy] at hbound hcardinality
    obtain rfl : [res] = bound := Except.ok.inj hbound
    obtain ⟨_, -, htoMany⟩ := bind_eq_ok.mp hcardinality
    rw [raiseIf_eq_ok, not_not] at htoMany
    simp [htoMany]
  | countRows =>
    rw [hpolicy] at hbound hcardinality
    obtain rfl : [res] = bound := Except.ok.inj hbound
    obtain ⟨_, -, hcardinality⟩ := bind_eq_ok.mp hcardinality
    obtain ⟨_, hone, -⟩ := bind_eq_ok.mp hcardinality
    rw [raiseIf_eq_ok, not_not] at hone
    obtain ⟨edge, hedge⟩ := List.length_eq_one_iff.mp hone
    simp [hedge, List.eraseDups_cons]
  | countDistinct =>
    rw [hpolicy] at hbound hcardinality
    obtain ⟨_, -, hcardinality⟩ := bind_eq_ok.mp hcardinality
    obtain ⟨_, hone, hkey⟩ := bind_eq_ok.mp hcardinality
    rw [raiseIf_eq_ok, not_not] at hone
    obtain ⟨edge, hedge⟩ := List.length_eq_one_iff.mp hone
    cases hdistinct : m.distinctKey with
    | none =>
      rw [hdistinct] at hbound
      obtain rfl : [res] = bound := Except.ok.inj hbound
      simp [hedge, List.eraseDups_cons]
    | some distinctKey =>
      rw [hdistinct] at hbound hkey
      obtain ⟨distinct, hresolved, hbound⟩ := bind_eq_ok.mp hbound
      obtain rfl : [res, distinct] = bound := Except.ok.inj hbound
      obtain ⟨distinct', hresolved', hkey⟩ := bind_eq_ok.mp hkey
      obtain rfl : distinct = distinct' := by
        rw [hresolved] at hresolved'
        exact Except.ok.inj hresolved'
      obtain ⟨_, hsame, -⟩ := bind_eq_ok.mp hkey
      rw [raiseIf_eq_ok, not_not] at hsame
      simp [hsame, hedge, List.eraseDups_cons]

theorem buildMetricSpec_registered {graph : ModelGraph} {model : ModelName} {metric m : Metric}
    (h : buildMetricSpec graph model metric = .ok m) :
    m.Registered graph model metric.name := by
  simp only [buildMetricSpec, bind_eq_ok] at h
  obtain ⟨res, hres, _, htype, _, hcardinality, bound, hbound, hm⟩ := h
  obtain rfl : _ = m := by simpa using hm
  exact ⟨rfl, res, bound, hres, hbound, rfl, rfl, rfl, htype, hcardinality⟩

theorem buildMetricSpecs_registered {graph : ModelGraph} {model : ModelName}
    {metrics : List Metric} {specs result : Dict Metric} (hnodup : specs.keys.Nodup)
    (hspecs : ∀ e ∈ specs, e.2.Registered graph model e.1)
    (h : buildMetricSpecs graph model metrics specs = .ok result) :
    result.keys.Nodup ∧ ∀ e ∈ result, e.2.Registered graph model e.1 := by
  induction metrics generalizing specs with
  | nil =>
    obtain rfl : specs = result := by simpa [buildMetricSpecs] using h
    exact ⟨hnodup, hspecs⟩
  | cons metric metrics ih =>
    obtain ⟨_, hnew, h⟩ := bind_eq_ok.mp h
    obtain ⟨spec, hspec, h⟩ := bind_eq_ok.mp h
    rw [raiseIf_eq_ok] at hnew
    apply ih _ _ h
    · simp only [Dict.keys, List.map_append, List.map_cons, List.map_nil]
      exact hnodup.append (by simp) (by simpa [Dict.keys] using hnew)
    · intro e he
      rcases List.mem_append.mp he with he | he
      · exact hspecs e he
      · obtain rfl := List.mem_singleton.mp he
        exact buildMetricSpec_registered hspec

/-! ## Resources -/

/-- A non-null column of the model whose values are distinct. -/
def IsRowIdentity (graph : ModelGraph) (model : ModelName) (name : String) : Prop :=
  ∃ field, graph.getField? model name = some field ∧ field.kind.isConcrete = true ∧
    field.null = false ∧ (field.primaryKey = true ∨ field.unique = true ∨
      graph.hasUniqueConstraint model name = true)

structure SemanticResource.Registered (env : Environment) (r : SemanticResource) : Prop where
  name_normal : ∃ raw, normalizeResourceName env raw = .ok r.name
  fields_nodup : r.fields.keys.Nodup
  fields_registered : ∀ e ∈ r.fields, e.2.Registered env.graph r.model e.1
  metrics_nodup : r.metrics.keys.Nodup
  metrics_registered : ∀ e ∈ r.metrics, e.2.Registered env.graph r.model e.1
  defaultOrder_unrestricted : ∀ term ∈ r.defaultOrder,
    ∃ f, r.fields.get? term.1 = some f ∧ f.isUnrestricted = true
  defaultDateField_registered : ∀ name, r.defaultDateField = some name →
    ∃ f, r.fields.get? name = some f
  rowIdentity : IsRowIdentity env.graph r.model r.rowIdentity

theorem SemanticResource.Registered.field_of_visible {env : Environment} {r : SemanticResource}
    {access : Access} {f : FieldSpec} (h : r.Registered env) (hf : f ∈ r.visibleFields access) :
    r.fields.get? f.name = some f ∧ f.isCatalogVisible access = true := by
  obtain ⟨hmem, hvisible⟩ := List.mem_filter.mp hf
  exact ⟨Dict.get?_of_mem_values h.fields_nodup (fun e he => (h.fields_registered e he).name_eq)
    hmem, hvisible⟩

theorem SemanticResource.Registered.metric_of_visible {env : Environment} {r : SemanticResource}
    {access : Access} {m : Metric} (h : r.Registered env) (hm : m ∈ r.visibleMetrics access) :
    r.metrics.get? m.name = some m ∧ m.isCatalogVisible access.permissions = true := by
  obtain ⟨hmem, hvisible⟩ := List.mem_filter.mp hm
  exact ⟨Dict.get?_of_mem_values h.metrics_nodup (fun e he => (h.metrics_registered e he).name_eq)
    hmem, hvisible⟩

theorem SemanticResource.Registered.validated {env : Environment} {r : SemanticResource}
    {name : String} {f : FieldSpec} {d : EnumDefinition} (h : r.Registered env)
    (hf : r.fields.get? name = some f) (hd : f.enum = some d) : ∃ type, d.Validated type := by
  obtain ⟨res, -, -, -, -, htype, -⟩ := (h.fields_registered _ (Dict.mem_of_get? hf)).resolution
  rcases htype.enum with ⟨-, d', hd', hvalidated⟩ | ⟨-, hnone⟩
  · obtain rfl : d = d' := Option.some.inj (hd.symm.trans hd')
    exact ⟨_, hvalidated⟩
  · rw [hnone] at hd
    cases hd

theorem SemanticResource.Registered.unambiguous {env : Environment} {r : SemanticResource}
    {name : String} {f : FieldSpec} {d : EnumDefinition} (h : r.Registered env)
    (hf : r.fields.get? name = some f) (hd : f.enum = some d) : d.Unambiguous := by
  obtain ⟨type, key, raw, hvalidated⟩ := h.validated hf hd
  exact validateEnumMapping_unambiguous hvalidated

theorem normalizeDefaultOrder_ok {fields : Dict FieldSpec} {entries : List (String × String)}
    {seen : List String} {order : List (String × OrderDirection)}
    (h : normalizeDefaultOrder fields entries seen = .ok order) :
    ∀ term ∈ order, ∃ f, fields.get? term.1 = some f ∧ f.isUnrestricted = true := by
  induction entries generalizing seen order with
  | nil =>
    obtain rfl : [] = order := by simpa [normalizeDefaultOrder] using h
    simp
  | cons entry rest ih =>
    unfold normalizeDefaultOrder at h
    split at h
    · cases h
    · rename_i field hfield
      obtain ⟨_, hopen, h⟩ := bind_eq_ok.mp h
      obtain ⟨_, -, h⟩ := bind_eq_ok.mp h
      split at h
      · cases h
      · obtain ⟨tail, htail, h⟩ := bind_eq_ok.mp h
        obtain rfl : _ = order := by simpa using h
        intro term hterm
        rcases List.mem_cons.mp hterm with rfl | hterm
        · rw [raiseIf_eq_ok] at hopen
          exact ⟨field, hfield, by simpa using hopen⟩
        · exact ih htail term hterm

theorem validateRowIdentity_ok {graph : ModelGraph} {model : ModelName} {name : Option String}
    {identity : String} (h : validateRowIdentity graph model name = .ok identity) :
    IsRowIdentity graph model identity := by
  obtain ⟨_, -, h⟩ := bind_eq_ok.mp h
  split at h
  · cases h
  · rename_i field hfield
    simp only [bind_eq_ok, raiseIf_eq_ok, not_not] at h
    obtain ⟨_, hconcrete, _, hnull, _, hunique, h⟩ := h
    obtain rfl : _ = identity := by simpa using h
    exact ⟨field, hfield, by simpa using hconcrete, by simpa using hnull, hunique⟩

theorem validateDefaultDateField_ok {graph : ModelGraph} {model : ModelName} {resourceName : String}
    {fields : Dict FieldSpec} {defaultDateField : Option String} {u : Unit}
    (h : validateDefaultDateField graph model resourceName fields defaultDateField = .ok u) :
    ∀ name, defaultDateField = some name → ∃ f, fields.get? name = some f := by
  rintro name rfl
  unfold validateDefaultDateField at h
  simp only at h
  split at h
  · cases h
  · rename_i f hf
    exact ⟨f, hf⟩

theorem build_registered {env : Environment} {args : BuildArgs} {r : SemanticResource}
    (h : SemanticResource.build env args = .ok r) : r.Registered env := by
  simp only [SemanticResource.build, bind_eq_ok] at h
  obtain ⟨scope, -, mode, -, zone, -, name, hname, fields, hfields, _, hdate, metrics, hmetrics,
    order, horder, identity, hidentity, hr⟩ := h
  obtain rfl : _ = r := by simpa using hr
  obtain ⟨hfieldKeys, hfieldFacts⟩ := buildFieldSpecs_registered hfields
  obtain ⟨hmetricKeys, hmetricFacts⟩ :=
    buildMetricSpecs_registered (by simp [Dict.keys]) (by simp) hmetrics
  exact
    { name_normal := ⟨_, hname⟩
      fields_nodup := hfieldKeys
      fields_registered := hfieldFacts
      metrics_nodup := hmetricKeys
      metrics_registered := hmetricFacts
      defaultOrder_unrestricted := normalizeDefaultOrder_ok horder
      defaultDateField_registered := validateDefaultDateField_ok hdate
      rowIdentity := validateRowIdentity_ok hidentity }

end AskLens.Catalog
