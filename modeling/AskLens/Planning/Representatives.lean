import AskLens.Planning.FixedPoint

/-!
# Canonical representatives

The canonical form of a value, type by type, and which filters keep another
form: a value that equals its normal form is kept as it was written, although
an integer may equal a float and an alias the canonical value of an enum.
-/
namespace AskLens.Planning

open Python Catalog Checks

def FilterValue.operands : FilterValue → List PyScalar
  | .scalar v => [v]
  | .list items => items

/-- The value is written in the canonical form of the field's type. -/
def IsCanonical (unicode : Unicode) (f : FieldSpec) (v : PyScalar) : Prop :=
  match f.type with
  | .string => ∃ cls s, v = .str cls s
  | .boolean => ∃ b, v = .bool b
  | .integer => ∃ cls i, v = .int cls i
  | .decimal => ∃ cls, ∃ s : String, v = .str cls s ∧ decimalKind unicode s = .finite
  | .float => ∃ x : Binary64, v = .float x ∧ x.isFinite = true
  | .date => ∃ d : Date, v = .str none (String.ofList d.isoformat)
  | .datetime => ∃ d : Datetime, v = .str none (String.ofList d.isoformat)
  | .time => ∃ t : Time, v = .str none (String.ofList t.isoformat)
  | .uuid => ∃ n, n < 16 ^ 32 ∧ v = .str none (formatUuid n)
  | .enum => ∃ d, f.enum = some d ∧ ∃ c ∈ d.values, v = c.value

/-- A value in another form that equals its canonical form: an integer that a float represents
exactly, or an alias of an enum value that differs from it by its class only. -/
def EqualsOtherForm (f : FieldSpec) (v : PyScalar) : Prop :=
  (f.type = .float ∧ ∃ cls i, v = .int cls i ∧ (Binary64.ofInt i).numEqInt i = true) ∨
    (f.type = .enum ∧ ∃ d, f.enum = some d ∧ ∃ c ∈ d.values, v ∈ c.tokens ∧ v ≠ c.value ∧
      c.value.pyEq v = true)

/-- The operands of a filter are canonical, where the operator calls for it. -/
def HoldsCanonical (unicode : Unicode) (f : FieldSpec) (x : FilterSpec) : Prop :=
  keepsValue x.op = false → ∀ v ∈ x.value.operands, IsCanonical unicode f v

/-- Every operand equals its canonical form, and one of them is written in another form. -/
def KeepsOtherForm (unicode : Unicode) (f : FieldSpec) (x : FilterSpec) : Prop :=
  keepsValue x.op = false ∧ (∃ v ∈ x.value.operands, EqualsOtherForm f v) ∧
    ∀ v ∈ x.value.operands, IsCanonical unicode f v ∨ EqualsOtherForm f v

section

variable {unicode : Unicode} {f : FieldSpec} {v w : PyScalar}

theorem normalizeEnumScalar_ok (hf : ∀ d, f.enum = some d → d.Unambiguous) :
    normalizeEnumScalar f v = .ok w ↔
      ∃ d, f.enum = some d ∧ ∃ c ∈ d.values, v ∈ c.tokens ∧ c.value = w := by
  unfold normalizeEnumScalar
  cases hd : f.enum with
  | none => simp
  | some d =>
    have hresolve : d.resolve v = some w ↔ (v, w) ∈ d.tokenTable :=
      EnumDefinition.resolve_eq_some_iff (hf d hd)
    rw [mem_tokenTable] at hresolve
    cases hv : d.resolve v with
    | none => simp_all
    | some c => simp_all

theorem isCanonical_of_normal (h : normalizeCanonicalScalar unicode f v = .ok w) :
    IsCanonical unicode f w := by
  unfold IsCanonical
  cases normalForm_of_ok h with
  | string htype | integer htype =>
    rw [htype]
    exact ⟨_, _, rfl⟩
  | boolean htype =>
    rw [htype]
    exact ⟨_, rfl⟩
  | decimal htype hkind =>
    rw [htype]
    exact ⟨_, _, rfl, hkind⟩
  | float htype hx hfinite =>
    rw [htype]
    exact ⟨_, rfl, hfinite⟩
  | date htype hread | datetime htype hread | time htype hread =>
    rw [htype]
    exact ⟨_, rfl⟩
  | uuid htype hn =>
    rw [htype]
    exact ⟨_, readUuid_lt hn, rfl⟩
  | enum htype hd hw =>
    rw [htype]
    obtain ⟨c, hc, -, rfl⟩ := mem_tokenTable.mp (EnumDefinition.mem_of_resolve hw)
    exact ⟨_, hd, c, hc, rfl⟩

theorem normal_of_isCanonical (hf : ∀ d, f.enum = some d → d.Unambiguous)
    (h : IsCanonical unicode f v) : normalizeCanonicalScalar unicode f v = .ok v := by
  apply NormalForm.ok
  unfold IsCanonical at h
  cases htype : f.type with
  | string =>
    rw [htype] at h
    obtain ⟨cls, s, rfl⟩ := h
    exact .string htype
  | boolean =>
    rw [htype] at h
    obtain ⟨b, rfl⟩ := h
    exact .boolean htype
  | integer =>
    rw [htype] at h
    obtain ⟨cls, i, rfl⟩ := h
    exact .integer htype
  | decimal =>
    rw [htype] at h
    obtain ⟨cls, s, rfl, hkind⟩ := h
    exact .decimal htype hkind
  | float =>
    rw [htype] at h
    obtain ⟨x, rfl, hfinite⟩ := h
    exact .float htype rfl hfinite
  | date =>
    rw [htype] at h
    obtain ⟨d, rfl⟩ := h
    exact .date htype (readText_written Date.fromisoformat_isoformat none d)
  | datetime =>
    rw [htype] at h
    obtain ⟨d, rfl⟩ := h
    exact .datetime htype (readText_written Datetime.fromisoformat_isoformat none d)
  | time =>
    rw [htype] at h
    obtain ⟨t, rfl⟩ := h
    exact .time htype (readText_written Time.fromisoformat_isoformat none t)
  | uuid =>
    rw [htype] at h
    obtain ⟨n, hn, rfl⟩ := h
    exact .uuid htype (readUuid_formatUuid unicode hn)
  | enum =>
    rw [htype] at h
    obtain ⟨d, hd, c, hc, rfl⟩ := h
    exact .enum htype hd ((EnumDefinition.resolve_eq_some_iff (hf d hd)).mpr
      (mem_tokenTable.mpr ⟨c, hc, by simp [EnumValue.tokens], rfl⟩))

theorem isCanonical_iff_normal (hf : ∀ d, f.enum = some d → d.Unambiguous) :
    IsCanonical unicode f v ↔ normalizeCanonicalScalar unicode f v = .ok v :=
  ⟨normal_of_isCanonical hf, isCanonical_of_normal⟩

theorem eq_of_pyEq_text {s : PyStr} (hplain : v.plain = v)
    (h : (PyScalar.str none s).pyEq v = true) : v = .str none s := by
  cases v with
  | str cls t =>
    have hcls : none = cls := (PyScalar.str.inj hplain).1
    have htext : s = t := by simpa [PyScalar.pyEq] using h
    rw [← hcls, htext]
  | _ => simp [PyScalar.pyEq, PyScalar.asInt?] at h

/-- A value that equals its normal form is canonical or written in another form. -/
theorem canonical_or_other_of_pyEq (hplain : v.plain = v)
    (h : normalizeCanonicalScalar unicode f v = .ok w) (heq : w.pyEq v = true) :
    IsCanonical unicode f v ∨ EqualsOtherForm f v := by
  have hw := isCanonical_of_normal h
  cases normalForm_of_ok h with
  | string | boolean | integer | decimal => exact .inl hw
  | float htype hx hfinite =>
    cases v with
    | float y =>
      obtain rfl := Option.some.inj hx
      exact .inl hw
    | int cls i =>
      obtain rfl := Option.some.inj hx
      exact .inr (.inl ⟨htype, cls, i, rfl, heq⟩)
    | _ => cases hx
  | date | datetime | time | uuid =>
    rw [eq_of_pyEq_text hplain heq]
    exact .inl hw
  | enum htype hd hresolve =>
    by_cases hne : v = w
    · rw [hne]
      exact .inl hw
    · obtain ⟨c, hc, hv, rfl⟩ := mem_tokenTable.mp (EnumDefinition.mem_of_resolve hresolve)
      exact .inr (.inr ⟨htype, _, hd, c, hc, hv, hne, heq⟩)

theorem EqualsOtherForm.normal (hf : ∀ d, f.enum = some d → d.Unambiguous)
    (h : EqualsOtherForm f v) (hv : normalizeCanonicalScalar unicode f v = .ok w) :
    w.pyEq v = true ∧ ¬ IsCanonical unicode f v := by
  rw [isCanonical_iff_normal hf, hv]
  unfold normalizeCanonicalScalar at hv
  rcases h with ⟨htype, cls, i, rfl, heq⟩ | ⟨htype, d, hd, c, hc, hmem, hne, heq⟩
  · simp only [htype, normalizeFloat, toFloat?] at hv
    split_ifs at hv with hfinite
    obtain rfl := Except.ok.inj hv
    exact ⟨heq, by simp⟩
  · simp only [htype] at hv
    have hnormal := (normalizeEnumScalar_ok hf).mpr ⟨d, hd, c, hc, hmem, rfl⟩
    obtain rfl : c.value = w := Except.ok.inj (hnormal.symm.trans hv)
    exact ⟨heq, fun hsame => hne (Except.ok.inj hsame).symm⟩

end

/-! ## Filters -/

section

variable {unicode : Unicode} {f : FieldSpec} {x y : FilterSpec}

theorem normalizes_operands {old new : FilterValue} (h : Normalizes unicode f old new) :
    List.Forall₂ (fun v w => normalizeCanonicalScalar unicode f v = .ok w)
      old.operands new.operands := by
  cases h with
  | scalar h => exact .cons h .nil
  | list h => exact h

theorem pyEq_iff_operands {old new : FilterValue} (h : Normalizes unicode f old new) :
    new.pyEq old = true ↔ List.Forall₂ (fun v w => w.pyEq v = true) old.operands new.operands := by
  cases h with
  | scalar h => simp [FilterValue.pyEq, FilterValue.operands]
  | list h =>
    simp only [FilterValue.pyEq, FilterValue.operands, Bool.and_eq_true, beq_iff_eq]
    clear h
    rename_i vs ws
    induction vs generalizing ws with
    | nil => cases ws <;> simp
    | cons v vs ih =>
      cases ws with
      | nil => simp
      | cons w ws =>
        simp only [List.length_cons, Nat.add_right_cancel_iff, List.zip_cons_cons, List.all_cons,
          Bool.and_eq_true, List.forall₂_cons, ← ih]
        tauto

/-- A canonical value of a type with other forms equals itself. -/
theorem IsCanonical.pyEq_self {v u : PyScalar} (h : IsCanonical unicode f v)
    (hf : ∀ d, f.enum = some d → ∃ type, d.Validated type) (hother : EqualsOtherForm f u) :
    v.pyEq v = true := by
  apply PyScalar.pyEq_refl
  rintro x rfl
  unfold IsCanonical at h
  rcases hother with ⟨htype, -⟩ | ⟨htype, -⟩
  · simp only [htype] at h
    obtain ⟨y, hxy, hfinite⟩ := h
    obtain rfl := PyScalar.float.inj hxy
    exact hfinite
  · simp only [htype] at h
    obtain ⟨d, hd, c, hc, hvalue⟩ := h
    obtain ⟨type, key, raw, hvalidated⟩ := hf d hd
    have htyped := ((validateEnumMapping_typed hvalidated).2 c hc).value
    rw [← hvalue] at htyped
    cases hkind : d.type <;> simp [EnumType.Allows, hkind] at htyped

theorem dateRange_canonical {old new : FilterValue} (h : normalizeDateRangeFilter f old = .ok new) :
    (f.type = .date ∨ f.type = .datetime) ∧ ∀ v ∈ new.operands, IsCanonical unicode f v := by
  unfold normalizeDateRangeFilter at h
  split at h
  · split at h
    · rename_i htype
      obtain ⟨items, hitems, rfl⟩ := map_list_ok h
      simp only [normalizeRange, bind_eq_ok] at hitems
      obtain ⟨a, ha, b, hb, _, -, _, -, _, -, hitems⟩ := hitems
      obtain rfl := Except.ok.inj hitems
      obtain ⟨da, -, rfl⟩ := normalizeText_ok ha
      obtain ⟨db, -, rfl⟩ := normalizeText_ok hb
      refine ⟨.inl htype, fun v hv => ?_⟩
      simp only [IsCanonical, htype]
      rcases List.mem_cons.mp hv with rfl | hv
      · exact ⟨da, rfl⟩
      · exact ⟨db, List.mem_singleton.mp hv⟩
    · rename_i htype
      obtain ⟨items, hitems, rfl⟩ := map_list_ok h
      simp only [normalizeRange, bind_eq_ok] at hitems
      obtain ⟨a, ha, b, hb, _, -, _, -, _, -, hitems⟩ := hitems
      obtain rfl := Except.ok.inj hitems
      obtain ⟨da, -, rfl⟩ := normalizeText_ok ha
      obtain ⟨db, -, rfl⟩ := normalizeText_ok hb
      refine ⟨.inr htype, fun v hv => ?_⟩
      simp only [IsCanonical, htype]
      rcases List.mem_cons.mp hv with rfl | hv
      · exact ⟨da, rfl⟩
      · exact ⟨db, List.mem_singleton.mp hv⟩
    · cases h
  · cases h

theorem not_other_of_date {v : PyScalar} (h : f.type = .date ∨ f.type = .datetime) :
    ¬ EqualsOtherForm f v := by
  rintro (⟨htype, -⟩ | ⟨htype, -⟩)
  · rcases h with h | h <;> simp [h] at htype
  · rcases h with h | h <;> simp [h] at htype

/-- The filter that normalization returns is canonical unless it keeps another form. -/
theorem holdsCanonical_iff (hf : ∀ d, f.enum = some d → ∃ type, d.Validated type)
    (hplain : x.value.IsPlain) (h : normalizeFilterValue unicode f x = .ok y) :
    HoldsCanonical unicode f y ↔ ¬ KeepsOtherForm unicode f x := by
  have hunambiguous : ∀ d, f.enum = some d → d.Unambiguous := by
    intro d hd
    obtain ⟨type, key, raw, hvalidated⟩ := hf d hd
    exact validateEnumMapping_unambiguous hvalidated
  rcases normalizeFilterValue_cases h with ⟨hkeeps, rfl⟩ | ⟨hop, value, hvalue, rfl⟩ |
    ⟨hkeeps, hrange, value, hvalue, hy⟩
  · simp [HoldsCanonical, KeepsOtherForm, hkeeps]
  · obtain ⟨htype, hcanonical⟩ := dateRange_canonical hvalue
    constructor
    · rintro - ⟨-, ⟨v, -, hother⟩, -⟩
      exact not_other_of_date htype hother
    · intro _ _ v hv
      exact hcanonical v hv
  · have hnormal := normalizedValue_ok hvalue
    have hpairs := normalizes_operands hnormal
    have hplain' : ∀ v ∈ x.value.operands, v.plain = v := by
      intro v hv
      cases hx : x.value with
      | scalar u =>
        rw [hx] at hv hplain
        obtain rfl := List.mem_singleton.mp hv
        exact hplain
      | list items =>
        rw [hx] at hv hplain
        exact hplain v hv
    by_cases heq : value.pyEq x.value = true
    · rw [if_pos heq] at hy
      subst hy
      have hequal := (pyEq_iff_operands hnormal).mp heq
      have hforms : ∀ v ∈ y.value.operands, IsCanonical unicode f v ∨ EqualsOtherForm f v := by
        intro v hv
        obtain ⟨w, -, hw, hvw⟩ := forall₂_mem_left (forall₂_and hpairs hequal) hv
        exact canonical_or_other_of_pyEq (hplain' v hv) hw hvw
      constructor
      · rintro hholds ⟨-, ⟨v, hv, hother⟩, -⟩
        obtain ⟨w, -, hw⟩ := forall₂_mem_left hpairs hv
        exact (hother.normal hunambiguous hw).2 (hholds hkeeps v hv)
      · intro hnot _ v hv
        rcases hforms v hv with hcanonical | hother
        · exact hcanonical
        · exact (hnot ⟨hkeeps, ⟨v, hv, hother⟩, hforms⟩).elim
    · rw [if_neg heq] at hy
      subst hy
      constructor
      · rintro - ⟨-, ⟨u, -, hu⟩, hforms⟩
        -- all operands would equal their normal forms
        apply heq
        rw [pyEq_iff_operands hnormal]
        refine List.Forall₂.imp ?_ ((List.forall₂_and_left _ _).mpr ⟨fun v hv => hv, hpairs⟩)
        rintro v w ⟨hv, hw⟩
        rcases hforms v hv with hcanonical | hother
        · obtain rfl : v = w :=
            Except.ok.inj ((normal_of_isCanonical hunambiguous hcanonical).symm.trans hw)
          exact hcanonical.pyEq_self hf hu
        · exact (hother.normal hunambiguous hw).1
      · intro _ _ w hw
        obtain ⟨v, -, hv⟩ := forall₂_mem_right hpairs hw
        exact isCanonical_of_normal hv

end

/-! ## Accepted plans -/

/-- Normalizing a normalized filter returns it, and the filters of an accepted plan are canonical
exactly when no filter of the payload keeps another form. -/
theorem accepted_canonical_iff {env : Environment} {registry : CatalogRegistry env}
    {limits : PlanLimits} {access : Access} {raw : RawPlan} {plan p : QueryPlan}
    {resource : SemanticResource}
    (haccepted : parseAndValidateQueryPlan registry limits access raw = .ok p)
    (hplan : parseQueryPlan env raw = .ok plan)
    (hresource : registry.get p.resource = .ok resource) :
    (∀ name f, resource.fields.get? name = some f → ∀ x y,
      normalizeFilterValue env.unicode f x = .ok y →
        normalizeFilterValue env.unicode f y = .ok y) ∧
    ((∀ y ∈ p.filters, ∀ f, resource.fields.get? y.field = some f →
        HoldsCanonical env.unicode f y) ↔
      ∀ x ∈ plan.filters, ∀ f, resource.fields.get? x.field = some f →
        ¬ KeepsOtherForm env.unicode f x) := by
  have hregistered := (CatalogRegistry.get_ok hresource).2.2
  refine ⟨fun name f hf x y h =>
    normalizeFilterValue_normal (fun d hd => hregistered.unambiguous hf hd) h, ?_⟩
  have hforall : List.Forall₂ (fun x y => normalizeFilter env.unicode resource x = .ok y)
      plan.filters p.filters := by
    simp only [parseAndValidateQueryPlan, validateQueryPlan, bind_eq_ok] at haccepted
    obtain ⟨_, -, plan', hplan', r, hr, hvalidated⟩ := haccepted
    obtain rfl := Except.ok.inj (hplan'.symm.trans hplan)
    have hname := (validateForResource_ok (parseQueryPlan_ok hplan') hvalidated).resource_name
    rw [hname, CatalogRegistry.get_name hr] at hresource
    obtain rfl := Except.ok.inj hresource
    simp only [validateForResource, bind_eq_ok] at hvalidated
    obtain ⟨_, -, _, -, q, hq, _, -, h⟩ := hvalidated
    obtain rfl := Except.ok.inj h
    exact (normalizeFilterValues_ok hq).1
  have hfilter : ∀ x ∈ plan.filters, ∀ y,
      normalizeFilter env.unicode resource x = .ok y → y.field = x.field ∧
      ∀ f, resource.fields.get? x.field = some f →
        (HoldsCanonical env.unicode f y ↔ ¬ KeepsOtherForm env.unicode f x) := by
    intro x hx y hxy
    obtain ⟨f, hf, hnormal⟩ := normalizeFilter_ok.mp hxy
    refine ⟨congrArg PyStr.shown (normalizeFilterValue_same hnormal).1, fun g hg => ?_⟩
    obtain rfl := Option.some.inj (hf.symm.trans hg)
    exact holdsCanonical_iff (fun d hd => hregistered.validated hf hd)
      ((parseQueryPlan_ok hplan).filters x hx).plain hnormal
  constructor
  · intro h x hx f hf
    obtain ⟨y, hy, hxy⟩ := forall₂_mem_left hforall hx
    obtain ⟨hfield, hiff⟩ := hfilter x hx y hxy
    exact (hiff f hf).mp (h y hy f (by rw [hfield]; exact hf))
  · intro h y hy f hf
    obtain ⟨x, hx, hxy⟩ := forall₂_mem_right hforall hy
    obtain ⟨hfield, hiff⟩ := hfilter x hx y hxy
    rw [hfield] at hf
    exact (hiff f hf).mpr (h x hx f hf)

def gaugeModel : Django.DjangoModel where
  label := "plant.Gauge"
  verboseNamePlural := "gauges"
  pk := "id"
  fields := [("id", Sample.primaryKey "gauge"), ("ratio", Sample.column "gauge" "ratio" "float")]
  uniqueTogether := []
  constraints := []
  names_plain := by decide

def plant : Environment := { Sample.environment with graph := fun _ => gaugeModel }

def gauges : CatalogRegistry plant :=
  match (CatalogRegistry.empty plant).register
      { Sample.orderArgs [("ratio", .config (Sample.fieldConfig "ratio" "float"))] with
        name := some "gauges" } with
  | .ok registry => registry
  | .error _ => .empty plant

def ratioPlan (ratios : List PyScalar) : QueryPlan :=
  { Sample.listPlan ["ratio"] with
    resourceName := "gauges"
    filters? := some [⟨"ratio", .in, .list ratios⟩] }

def validatedGauges (p : QueryPlan) : Py QueryPlan :=
  parseAndValidateQueryPlan gauges Sample.limits (.ofPermissions []) (.mapping p.dump)

def half : PyScalar := .float (Binary64.ofRatio false 1 2)

theorem halfGauges_canonical_iff :
    ∃ resource, gauges.get "gauges" = .ok resource ∧
      (∀ name f, resource.fields.get? name = some f → ∀ x y,
        normalizeFilterValue plant.unicode f x = .ok y →
          normalizeFilterValue plant.unicode f y = .ok y) ∧
      ((∀ y ∈ (ratioPlan [half]).filters, ∀ f, resource.fields.get? y.field = some f →
          HoldsCanonical plant.unicode f y) ↔
        ∀ x ∈ (ratioPlan [half]).filters, ∀ f, resource.fields.get? x.field = some f →
          ¬ KeepsOtherForm plant.unicode f x) := by
  have haccepted : validatedGauges (ratioPlan [half]) = .ok (ratioPlan [half]) := by
    decide +kernel
  have hplan : parseQueryPlan plant (.mapping (ratioPlan [half]).dump) =
      .ok (ratioPlan [half]) := by decide +kernel
  exact ⟨_, rfl, accepted_canonical_iff haccepted hplan rfl⟩

/-- The integer 1 equals the float 1.0 and stays an integer. -/
theorem integer_kept_on_float_field :
    ¬ ∀ (env : Environment) (registry : CatalogRegistry env) (limits : PlanLimits)
      (access : Access) (raw : RawPlan) (p : QueryPlan) (resource : SemanticResource),
      parseAndValidateQueryPlan registry limits access raw = .ok p →
        registry.get p.resource = .ok resource →
          ∀ y ∈ p.filters, ∀ f, resource.fields.get? y.field = some f →
            HoldsCanonical env.unicode f y := by
  intro h
  have haccepted : validatedGauges (ratioPlan [.int none 1]) = .ok (ratioPlan [.int none 1]) := by
    decide +kernel
  have hcanonical := h plant gauges _ _ _ _ _ haccepted rfl
    ⟨"ratio", .in, .list [.int none 1]⟩ (List.mem_singleton.mpr rfl) _ rfl rfl (.int none 1)
    (List.mem_singleton.mpr rfl)
  obtain ⟨x, hx, -⟩ := hcanonical
  cases hx

end AskLens.Planning
