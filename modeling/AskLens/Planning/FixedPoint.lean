import AskLens.Planning.Canonical
import AskLens.Python.Uuid
import AskLens.Sample

/-!
# Validating a validated plan again

Normal forms are their own normal forms, for every type and operator, and the
checks see nothing else of a filter than its field, operator and size. So only
the size of the dump decides whether a validated plan passes once more.
-/
namespace AskLens.Planning

open Python Catalog Checks

/-! ## Normal forms -/

section

variable {unicode : Unicode} {f : FieldSpec}

theorem normalizeCanonicalScalar_normal {v w : PyScalar}
    (hf : ∀ d, f.enum = some d → d.Unambiguous)
    (h : normalizeCanonicalScalar unicode f v = .ok w) :
    normalizeCanonicalScalar unicode f w = .ok w := by
  apply NormalForm.ok
  cases normalForm_of_ok h with
  | string htype => exact .string htype
  | boolean htype => exact .boolean htype
  | integer htype => exact .integer htype
  | decimal htype hkind => exact .decimal htype hkind
  | float htype hx hfinite => exact .float htype rfl hfinite
  | date htype hread => exact .date htype (readText_written Date.fromisoformat_isoformat _ _)
  | datetime htype hread =>
    exact .datetime htype (readText_written Datetime.fromisoformat_isoformat _ _)
  | time htype hread => exact .time htype (readText_written Time.fromisoformat_isoformat _ _)
  | uuid htype hn => exact .uuid htype (readUuid_formatUuid unicode (readUuid_lt hn))
  | enum htype hd hw => exact .enum htype hd (EnumDefinition.resolve_canonical (hf _ hd) hw)

theorem normalizedValue_normal {x : FilterSpec} {value : FilterValue}
    (hf : ∀ d, f.enum = some d → d.Unambiguous) (h : normalizedValue unicode f x = .ok value) :
    normalizedValue unicode f { x with value := value } = .ok value := by
  have hnormal := normalizedValue_ok h
  obtain ⟨field, op, old⟩ := x
  cases hnormal with
  | scalar hv =>
    have hw := normalizeCanonicalScalar_normal hf hv
    cases op <;> simp_all [normalizedValue, Except.map]
  | list hvs =>
    rename_i vs ws
    have hws : ws.mapM (normalizeCanonicalScalar unicode f) = .ok ws := by
      rw [mapM_eq_ok, List.forall₂_same]
      intro w hw
      obtain ⟨v, -, hv⟩ := forall₂_mem_right hvs hw
      exact normalizeCanonicalScalar_normal hf hv
    cases op <;> simp_all [normalizedValue, Except.map]

theorem normalizeRange_normal {α : Type} {normalize : PyScalar → Py PyScalar}
    {parse : PyScalar → Py α} {ordered : α → α → Bool} {e : PyException} {a b : PyScalar}
    {items : List PyScalar} (hnormal : ∀ v w, normalize v = .ok w → normalize w = .ok w)
    (h : normalizeRange normalize parse ordered e a b = .ok items) :
    ∃ na nb, items = [na, nb] ∧ normalizeRange normalize parse ordered e na nb = .ok items := by
  simp only [normalizeRange, bind_eq_ok] at h
  obtain ⟨na, hna, nb, hnb, start, hstart, stop, hstop, _, hordered, h⟩ := h
  obtain rfl := Except.ok.inj h
  refine ⟨na, nb, rfl, ?_⟩
  rw [normalizeRange, hnormal a na hna, ok_bind, hnormal b nb hnb, ok_bind, hstart, ok_bind,
    hstop, ok_bind, hordered, ok_bind]

theorem normalizeDateRangeFilter_normal {old new : FilterValue}
    (h : normalizeDateRangeFilter f old = .ok new) : normalizeDateRangeFilter f new = .ok new := by
  unfold normalizeDateRangeFilter at h
  split at h
  · split at h
    · rename_i htype
      obtain ⟨items, hitems, rfl⟩ := map_list_ok h
      have hnormal : ∀ v w, normalizeDateString v = .ok w → normalizeDateString w = .ok w :=
        fun v w hw => normalizeText_normalized Date.fromisoformat_isoformat hw
      obtain ⟨na, nb, rfl, hagain⟩ := normalizeRange_normal hnormal hitems
      simp only [normalizeDateRangeFilter, htype, hagain]
      rfl
    · rename_i htype
      obtain ⟨items, hitems, rfl⟩ := map_list_ok h
      have hnormal : ∀ v w, normalizeDatetimeString v = .ok w → normalizeDatetimeString w = .ok w :=
        fun v w hw => normalizeText_normalized Datetime.fromisoformat_isoformat hw
      obtain ⟨na, nb, rfl, hagain⟩ := normalizeRange_normal hnormal hitems
      simp only [normalizeDateRangeFilter, htype, hagain]
      rfl
    · cases h
  · cases h

theorem normalizeFilterValue_normal {x y : FilterSpec}
    (hf : ∀ d, f.enum = some d → d.Unambiguous)
    (h : normalizeFilterValue unicode f x = .ok y) : normalizeFilterValue unicode f y = .ok y := by
  rcases normalizeFilterValue_cases h with ⟨-, rfl⟩ | ⟨hop, value, hvalue, rfl⟩ |
    ⟨hkeeps, hrange, value, hvalue, hy⟩
  · exact h
  · rw [normalizeFilterValue_range (x := { x with value := value }) hop,
      normalizeDateRangeFilter_normal hvalue]
    rfl
  · split_ifs at hy with heq
    · obtain rfl := hy
      exact h
    · subst hy
      rw [normalizeFilterValue_scalars (x := { x with value := value }) hkeeps hrange,
        normalizedValue_normal hf hvalue, ok_bind]
      split_ifs
      · rfl
      · rfl

end

/-! ## Well-formed plans -/

section

variable {env : Environment} {resource : SemanticResource} {limits : PlanLimits}
  {access : Access} {f : FieldSpec} {x : FilterSpec}

theorem normalizeText_ne {α : Type} {read : List Char → Option α} {write : α → List Char}
    {invalid : PyException} {v : PyScalar} {s : String} (hread : ∀ a, read (write a) = some a)
    (hempty : read [] = none)
    (h : normalizeText read write invalid v = .ok (.str none s)) : s ≠ "" := by
  rintro rfl
  obtain ⟨a, -, ha⟩ := normalizeText_ok h
  have hwrite : write a = [] := by simpa using ha
  have := hread a
  rw [hwrite, hempty] at this
  cases this

theorem normalizeRange_dated {α : Type} {normalize : PyScalar → Py PyScalar}
    {parse : PyScalar → Py α} {ordered : α → α → Bool} {e : PyException} {a b : PyScalar}
    {items : List PyScalar}
    (htext : ∀ v w, normalize v = .ok w → ∃ s : String, w = .str none s ∧ s ≠ "")
    (h : normalizeRange normalize parse ordered e a b = .ok items) :
    validateFilterValue .dateRange (.list items) = none := by
  simp only [normalizeRange, bind_eq_ok] at h
  obtain ⟨na, hna, nb, hnb, _, -, _, -, _, -, h⟩ := h
  obtain rfl := Except.ok.inj h
  obtain ⟨s, rfl, hs⟩ := htext a na hna
  obtain ⟨t, rfl, ht⟩ := htext b nb hnb
  have hs : PyStr.text s ≠ "" := by simpa using hs
  have ht : PyStr.text t ≠ "" := by simpa using ht
  exact validateFilterValue_eq_none.mpr ⟨none, s, none, t, rfl, hs, ht⟩

theorem normalizeDateRangeFilter_valid {old new : FilterValue}
    (h : normalizeDateRangeFilter f old = .ok new) :
    validateFilterValue .dateRange new = none := by
  have htext : ∀ {α : Type} {read : List Char → Option α} {write : α → List Char}
      {invalid : PyException} (_ : ∀ a, read (write a) = some a) (_ : read [] = none)
      (v w : PyScalar), normalizeText read write invalid v = .ok w →
      ∃ s : String, w = .str none s ∧ s ≠ "" := by
    intro α read write invalid hread hempty v w hw
    obtain ⟨a, -, rfl⟩ := normalizeText_ok hw
    exact ⟨_, rfl, normalizeText_ne hread hempty hw⟩
  unfold normalizeDateRangeFilter at h
  split at h
  · split at h
    · obtain ⟨items, hitems, rfl⟩ := map_list_ok h
      exact normalizeRange_dated (htext Date.fromisoformat_isoformat rfl) hitems
    · obtain ⟨items, hitems, rfl⟩ := map_list_ok h
      exact normalizeRange_dated (htext Datetime.fromisoformat_isoformat rfl) hitems
    · cases h
  · cases h

theorem contains_string (hoperator : x.op ∈ operatorsByFieldType f.type)
    (hop : x.op = .contains ∨ x.op = .icontains) : f.type = .string := by
  rcases hop with hop | hop
  all_goals
    rw [hop] at hoperator
    cases htype : f.type <;> simp_all [operatorsByFieldType]

theorem normalizedValue_valid {value : FilterValue} (hx : validateFilterValue x.op x.value = none)
    (hoperator : x.op ∈ operatorsByFieldType f.type)
    (hkeeps : keepsValue x.op = false) (hrange : x.op ≠ .dateRange)
    (h : normalizedValue env.unicode f x = .ok value) :
    validateFilterValue x.op value = none := by
  have hcontains := contains_string hoperator
  have hnormal := normalizedValue_ok h
  rw [validateFilterValue_eq_none] at hx ⊢
  obtain ⟨field, op, old⟩ := x
  cases hnormal with
  | scalar hv =>
    cases op with
    | contains | icontains =>
      have htype : f.type = .string := hcontains (by simp)
      rename_i v w
      have hsame : v = w := by
        cases v <;> simp_all [normalizeCanonicalScalar]
      rw [← hsame]
      exact hx
    | _ => simp_all [TakesValue, keepsValue]
  | list hvs =>
    by_cases hin : op = .in
    · subst hin
      obtain ⟨_, _, hitems⟩ := hx
      cases hitems
      cases hvs with
      | cons _ _ => exact ⟨_, _, rfl⟩
    · cases op <;> simp_all [TakesValue, keepsValue]

/-- An accepted filter with plain operands could have been read as it is. -/
theorem AcceptedFilter.wellFormed (h : AcceptedFilter env resource limits access f x)
    (hplain : x.value.IsPlain) : x.WellFormed := by
  obtain ⟨raw, hraw, hfield, hop, hnormal⟩ := h.canonical
  refine ⟨hfield ▸ hraw.field, ?_, hplain⟩
  have hoperator : raw.op ∈ operatorsByFieldType f.type := hop ▸ h.operator
  rcases normalizeFilterValue_cases hnormal with ⟨-, rfl⟩ | ⟨hrange, value, hvalue, rfl⟩ |
    ⟨hkeeps, hrange, value, hvalue, hx⟩
  · exact hraw.value
  · rw [hrange]
    exact normalizeDateRangeFilter_valid hvalue
  · split_ifs at hx with heq
    · rw [hx]
      exact hraw.value
    · rw [hx]
      exact normalizedValue_valid (x := raw) hraw.value hoperator hkeeps hrange hvalue

end

theorem isName_normalized {env : Environment} {value name : String}
    (h : normalizeResourceName env value = .ok name) : IsName name := by
  obtain ⟨rfl, hne⟩ := normalizeResourceName_ok h
  refine isName_text.mpr ⟨?_, hne⟩
  rw [strip, String.toList_ofList, stripBy_eq_self fun c hc => ?_]
  have hseparator := (isSlugChar_of_mem_slugName hc).not_separator
  simp only [isSlugSeparator, Bool.or_eq_false_iff] at hseparator
  exact hseparator.2

/-! ## The second validation -/

section

variable {env : Environment} {resource : SemanticResource} {limits : PlanLimits}
  {access : Access}

theorem validateFilter_congr {x y : FilterSpec} (hfield : y.fieldName = x.fieldName)
    (hop : y.op = x.op) :
    validateFilter limits access resource y = validateFilter limits access resource x := by
  rw [validateFilter, validateFilter, hfield]
  simp only [validateFilterOperator, hop]

theorem validateBeforeNormalization_normalized {p q : QueryPlan} {u v : Unit}
    (h : validateBeforeNormalization env resource limits access p = .ok u)
    (hq : normalizeFilterValues env.unicode resource p = .ok q)
    (hduplicates : validateNoMeaninglessDuplicates env q = .ok v) :
    validateBeforeNormalization env resource limits access q = .ok () := by
  obtain ⟨hforall, hsame⟩ := normalizeFilterValues_ok hq
  have houtline : SameOutline p.filters (q.filters?.getD []) := sameOutline_normalized hforall
  have hfilters : p.filters.forM (validateFilter limits access resource) = .ok () →
      q.filters.forM (validateFilter limits access resource) = .ok () := by
    intro hp
    rw [forM_eq_ok] at hp ⊢
    intro y hy
    obtain ⟨x, hx, hxy⟩ := forall₂_mem_right hforall hy
    obtain ⟨f, -, hf⟩ := normalizeFilter_ok.mp hxy
    rw [validateFilter_congr (normalizeFilterValue_same hf).1 (normalizeFilterValue_same hf).2]
    exact hp x hx
  simp only [validateBeforeNormalization, validatePlanLimits, validatePlanFields, bind_eq_ok] at h
  obtain ⟨_, hshape, _, ⟨_, hcounts, _, hedges, -⟩, _, -, _, hselect, _, hfiltered, _, hgroupBy,
    names, hmetrics, _, hpolicy, horderBy⟩ := h
  have hcounts' : validateCounts q limits = .ok () := by
    rw [hsame, validateCounts_congr houtline]
    exact hcounts
  have hedges' : validateEdgeBudget resource limits q = .ok () := by
    rw [validateEdgeBudget, hsame, collectRelationshipEdges_congr houtline]
    exact hedges
  have hpolicy' : validateAggregateRelationshipPolicy resource q = .ok () := by
    rw [hsame, validateAggregateRelationshipPolicy_congr houtline]
    exact hpolicy
  have hfields : validatePlanFields resource limits access q = .ok () := by
    rw [validatePlanFields, hfilters hfiltered, hpolicy']
    rw [hsame]
    show (p.selectNames.forM _ >>= fun _ => _ >>= fun _ => p.groupBy.forM _ >>= fun _ =>
      validateMetrics limits access resource p.metrics [] >>= fun names => _ >>= fun _ =>
        p.orderBy.forM _) = _
    rw [hselect, ok_bind, ok_bind, hgroupBy, ok_bind, hmetrics, ok_bind, ok_bind]
    exact horderBy
  have hshape' : validatePlanShape q = .ok () := by
    rw [hsame]
    exact hshape
  rw [validateBeforeNormalization, validatePlanLimits, hshape', ok_bind, hcounts', ok_bind,
    hedges', ok_bind, hduplicates, ok_bind, ok_bind]
  exact hfields

theorem validateForResource_fixed {raw p : QueryPlan} (hresource : resource.Registered env)
    (h : validateForResource env resource limits access raw = .ok p) :
    validateForResource env resource limits access p = .ok p := by
  obtain ⟨_, hpermission, h⟩ := bind_eq_ok.mp h
  obtain ⟨_, hchecks, h⟩ := bind_eq_ok.mp h
  obtain ⟨q, hq, h⟩ := bind_eq_ok.mp h
  obtain ⟨_, hduplicates, h⟩ := bind_eq_ok.mp h
  obtain rfl := Except.ok.inj h
  obtain ⟨hforall, hsame⟩ := normalizeFilterValues_ok hq
  have hdefaults : withDefaults resource limits q = q := by
    rw [hsame]
    rfl
  have hnormal : q.filters.mapM (normalizeFilter env.unicode resource) = .ok q.filters := by
    rw [mapM_eq_ok, List.forall₂_same]
    intro y hy
    obtain ⟨x, -, hxy⟩ := forall₂_mem_right hforall hy
    obtain ⟨f, hf, hnormal⟩ := normalizeFilter_ok.mp hxy
    refine normalizeFilter_ok.mpr ⟨f, ?_, ?_⟩
    · rw [FilterSpec.field, (normalizeFilterValue_same hnormal).1]
      exact hf
    · exact normalizeFilterValue_normal (fun d hd => hresource.unambiguous hf hd) hnormal
  have hfixed : normalizeFilterValues env.unicode resource q = .ok q := by
    rw [normalizeFilterValues, hnormal, ok_bind, if_pos rfl]
  unfold validateForResource
  rw [hpermission, ok_bind]
  simp only [hdefaults, validateBeforeNormalization_normalized hchecks hq hduplicates, hfixed,
    hduplicates, ok_bind]

/-- A validated plan with plain operands could have been read as it is. -/
theorem wellFormed_of_validateForResource {raw p : QueryPlan} (hraw : raw.WellFormed)
    (hresource : resource.Registered env)
    (h : validateForResource env resource limits access raw = .ok p)
    (hplain : ∀ x ∈ p.filters, x.value.IsPlain) : p.WellFormed := by
  have haccepted := validateForResource_ok hraw h
  have hsame : p = { withDefaults resource limits raw with filters? := p.filters? } := by
    obtain ⟨_, -, h⟩ := bind_eq_ok.mp h
    obtain ⟨_, -, h⟩ := bind_eq_ok.mp h
    obtain ⟨q, hq, h⟩ := bind_eq_ok.mp h
    obtain ⟨_, -, h⟩ := bind_eq_ok.mp h
    obtain rfl := Except.ok.inj h
    exact (normalizeFilterValues_ok hq).2
  refine
    { resource := ?_
      filters := fun x hx => ?_
      groupBy := by rw [hsame]; exact hraw.groupBy
      metrics := by rw [hsame]; exact hraw.metrics
      select := by rw [hsame]; exact hraw.select
      orderBy := by rw [hsame]; exact hraw.orderBy
      limit := fun n hn => ?_ }
  · obtain ⟨name, hname⟩ := hresource.name_normal
    rw [haccepted.resource_eq]
    exact isName_normalized hname
  · obtain ⟨f, hf⟩ := haccepted.filters x hx
    exact hf.wellFormed (hplain x hx)
  · obtain ⟨m, hm, hpos⟩ := haccepted.limit_set
    obtain rfl : m = n := Option.some.inj (hm.symm.trans hn)
    exact hpos

end

/-- Only the size of its dump decides whether a validated plan passes again. -/
theorem revalidate_dump {env : Environment} {registry : CatalogRegistry env} {limits : PlanLimits}
    {access : Access} {raw : RawPlan} {p : QueryPlan}
    (h : parseAndValidateQueryPlan registry limits access raw = .ok p)
    (hplain : ∀ x ∈ p.filters, x.value.IsPlain) :
    parseAndValidateQueryPlan registry limits access (.mapping p.dump) =
      validatePlanPayloadSize env limits.maxPlanBytes (.mapping p.dump) >>= fun _ => .ok p := by
  simp only [parseAndValidateQueryPlan, validateQueryPlan, bind_eq_ok] at h
  obtain ⟨_, -, plan, hplan, resource, hresource, hvalidated⟩ := h
  have hregistered := (CatalogRegistry.get_ok hresource).2.2
  have hwellFormed :=
    wellFormed_of_validateForResource (parseQueryPlan_ok hplan) hregistered hvalidated hplain
  have hname : p.resource = resource.name :=
    (validateForResource_ok (parseQueryPlan_ok hplan) hvalidated).resource_name
  have hparse : parseQueryPlan env (.mapping p.dump) = .ok p := by
    rw [parseQueryPlan, parsePlanPayload, ok_bind, parseQueryPlanModel_dump env hwellFormed]
  have hget : registry.get p.resource = .ok resource := by
    rw [hname]
    exact CatalogRegistry.get_name hresource
  rw [parseAndValidateQueryPlan, hparse]
  simp only [ok_bind, validateQueryPlan, hget, validateForResource_fixed hregistered hvalidated]

/-- Orders whose status is an enum: `paid` is an instance of a class and has the alias `settled`. -/
def statusOrders : CatalogRegistry Sample.environment :=
  Sample.registryOf (Sample.orderArgs
    [("status", .config (("enum", .enumDefinition ⟨.string,
        [⟨.str (some "Status") "paid", none, [.str none "settled"]⟩,
          ⟨.str none "open", none, []⟩]⟩) ::
      Sample.fieldConfig "status" "enum"))])

def statusPlan (status : PyScalar) : QueryPlan :=
  { Sample.listPlan ["status"] with filters? := some [⟨"status", .eq, .scalar status⟩] }

def openOrders : QueryPlan := statusPlan (.str none "open")

theorem openOrders_revalidated :
    Sample.validated statusOrders Sample.limits openOrders =
      validatePlanPayloadSize Sample.environment Sample.limits.maxPlanBytes
        (.mapping openOrders.dump) >>= fun _ => .ok openOrders := by
  have haccepted : Sample.validated statusOrders Sample.limits openOrders = .ok openOrders := by
    decide +kernel
  refine revalidate_dump haccepted fun x hx => ?_
  obtain rfl := List.mem_singleton.mp hx
  rfl

/-- Just enough bytes for a plan without a limit. -/
def tightLimits : PlanLimits :=
  { Sample.limits with maxPlanBytes := 57, maxPlanBytes_pos := by decide }

/-- The default limit makes the dump too long, and an instance of a class is dumped as a plain
text that names no value of the enum. -/
theorem dump_refused :
    (∃ p, Sample.validated statusOrders tightLimits
          { Sample.listPlan ["status"] with limit? := none } = .ok p ∧
        Sample.validated statusOrders tightLimits p =
          .error (budgetExceeded "QueryPlan payload exceeds MAX_PLAN_BYTES 57.")) ∧
      ∃ p, Sample.validated statusOrders Sample.limits (statusPlan (.str none "settled")) = .ok p ∧
        Sample.validated statusOrders Sample.limits p = .error (planInvalid
          "Filter value for field 'status' must be a registered enum value or alias.") :=
  ⟨⟨{ Sample.listPlan ["status"] with limit? := some 100 }, by decide +kernel, by decide +kernel⟩,
    statusPlan (.str (some "Status") "paid"), by decide +kernel, by decide +kernel⟩

end AskLens.Planning
