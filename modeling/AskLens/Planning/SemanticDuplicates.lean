import AskLens.Planning.Representatives
import AskLens.Python.DecimalValues

/-!
# Operands that denote the same value

Duplicates are found by their representation. Where a type has one canonical
form for each value, two operands that denote the same value have the same
representation; decimals keep their text and datetimes their offset.
-/
namespace AskLens.Planning

open Python Catalog Checks

/-- The number that an operand of a decimal field denotes. -/
def decimalOf (unicode : Unicode) : PyScalar → Option ℚ
  | .str _ (.text s) => decimalValue unicode s
  | _ => none

def uuidOf (unicode : Unicode) : PyScalar → Option ℕ
  | .str _ (.text s) => readUuid unicode s
  | _ => none

/-- The operands denote the same value of the field's canonical type. -/
def SameValue (unicode : Unicode) (f : FieldSpec) (v w : PyScalar) : Prop :=
  match f.type with
  | .string | .boolean | .integer => v.pyEq w = true
  | .decimal => ∃ q, decimalOf unicode v = some q ∧ decimalOf unicode w = some q
  | .float => ∃ x y, toFloat? v = some x ∧ toFloat? w = some y ∧ x.numEq y = true
  | .date => ∃ d, parseDateString v = .ok d ∧ parseDateString w = .ok d
  | .datetime => ∃ a b, parseDatetimeString v = .ok a ∧ parseDatetimeString w = .ok b ∧
      a.moment = b.moment
  | .time => ∃ t, parseTimeString v = .ok t ∧ parseTimeString w = .ok t
  | .uuid => ∃ n, uuidOf unicode v = some n ∧ uuidOf unicode w = some n
  | .enum => ∃ d c, f.enum = some d ∧ d.resolve v = some c ∧ d.resolve w = some c

/-- What two accepted operands for one value can differ in: decimals in their text, datetimes in
their offset, floats in the sign of zero. Floats and enum values that are kept in another form than
the canonical one are left open. -/
def DiffersInForm (unicode : Unicode) (f : FieldSpec) (v w : PyScalar) : Prop :=
  match f.type with
  | .decimal => v ≠ w
  | .float => ¬ (IsCanonical unicode f v ∧ IsCanonical unicode f w) ∨
      ∃ neg, v = .float (.zero neg) ∧ w = .float (.zero !neg)
  | .datetime => ∃ a b, parseDatetimeString v = .ok a ∧ parseDatetimeString w = .ok b ∧
      a.offset ≠ b.offset
  | .enum => ¬ (IsCanonical unicode f v ∧ IsCanonical unicode f w)
  | _ => False

/-- The operands denote the same value; the operators that keep their value take plain booleans and
integers. -/
def SameOperand (unicode : Unicode) (op : FilterOperator) (f : FieldSpec) (v w : PyScalar) : Prop :=
  if keepsValue op = true then v.pyEq w = true else SameValue unicode f v w

/-- Two filter values of one shape whose operands are related one by one. -/
inductive FilterValue.Related (R : PyScalar → PyScalar → Prop) : FilterValue → FilterValue → Prop
  | scalar {v w : PyScalar} (h : R v w) : Related R (.scalar v) (.scalar w)
  | list {vs ws : List PyScalar} (h : List.Forall₂ R vs ws) : Related R (.list vs) (.list ws)

/-- Operands that denote the same value differ, in one `in` list and across the filters with the
same field and operator. -/
structure NoSemanticDuplicates (unicode : Unicode) (resource : SemanticResource) (p : QueryPlan)
    (differs : FieldSpec → PyScalar → PyScalar → Prop) : Prop where
  elements : ∀ x ∈ p.filters, x.op = .in → ∀ f, resource.fields.get? x.field = some f →
    x.value.operands.Pairwise fun v w => SameOperand unicode x.op f v w → differs f v w
  filters : p.filters.Pairwise fun x y => x.field = y.field → x.op = y.op →
    ∀ f, resource.fields.get? x.field = some f →
      ¬ FilterValue.Related (fun v w => SameOperand unicode x.op f v w ∧ ¬ differs f v w)
        x.value y.value

section

variable {env : Environment} {resource : SemanticResource} {limits : PlanLimits} {access : Access}
  {unicode : Unicode} {f : FieldSpec} {x y : FilterSpec} {v w : PyScalar} {p : QueryPlan}

/-! ## Representations -/

theorem rejectDuplicateKeys_nodup {α κ : Type} [DecidableEq κ] {label : String} {key : α → Py κ}
    {items : List α} {seen : List κ} {u : Unit}
    (h : rejectDuplicateKeys label key items seen = .ok u) : items.Nodup := by
  obtain ⟨keys, hkeys, hnodup, -⟩ := rejectDuplicateKeys_ok h
  clear h
  induction items generalizing keys with
  | nil => exact List.nodup_nil
  | cons a rest ih =>
    rw [List.mapM_cons, bind_eq_ok] at hkeys
    obtain ⟨k, hk, hkeys⟩ := hkeys
    obtain ⟨ks, hks, hkeys⟩ := bind_eq_ok.mp hkeys
    obtain rfl := Except.ok.inj hkeys
    obtain ⟨hnew, hks'⟩ := List.nodup_cons.mp hnodup
    refine List.nodup_cons.mpr ⟨?_, ih ks hks hks'⟩
    intro hmem
    obtain ⟨k', hk', hkey⟩ := exists_result_of_mapM hks hmem
    obtain rfl := Except.ok.inj (hk.symm.trans hkey)
    exact hnew hk'

theorem NoDuplicates.filters_nodup (h : NoDuplicates env p) : p.filters.Nodup := by
  obtain ⟨keys, hkeys, hnodup⟩ := h.filters
  have hpass : rejectDuplicateKeys "filter" (filterKey env) p.filters [] = .ok () :=
    rejectDuplicateKeys_of_nodup hkeys hnodup (by simp)
  exact rejectDuplicateKeys_nodup hpass

theorem NoDuplicates.operands_nodup (h : NoDuplicates env p) (hx : x ∈ p.filters)
    (hop : x.op = .in) : x.value.operands.Nodup := by
  have hpass := h.inValues x hx
  cases hvalue : x.value with
  | scalar v => exact List.nodup_singleton v
  | list items =>
    rw [rejectDuplicateInValues, hop, hvalue] at hpass
    exact rejectDuplicateKeys_nodup hpass

/-! ## Accepted operands -/

/-- The operand is canonical, and of a built-in class unless it is an enum value. -/
structure Regular (unicode : Unicode) (f : FieldSpec) (v : PyScalar) : Prop where
  canonical : IsCanonical unicode f v
  plain : f.type ≠ .enum → v.plain = v

/-- The normal form of a value of a built-in class has a built-in class. -/
theorem plain_of_normal (h : normalizeCanonicalScalar unicode f v = .ok w) (hplain : v.plain = v)
    (htype : f.type ≠ .enum) : w.plain = w := by
  cases normalForm_of_ok h with
  | string | boolean | integer | decimal => exact hplain
  | float | date | datetime | time | uuid => rfl
  | enum henum => exact absurd henum htype

theorem regular_of_dateRange (unicode : Unicode) {old new : FilterValue}
    (h : normalizeDateRangeFilter f old = .ok new) : ∀ v ∈ new.operands, Regular unicode f v := by
  obtain ⟨htype, hcanonical⟩ : (f.type = .date ∨ f.type = .datetime) ∧
      ∀ v ∈ new.operands, IsCanonical unicode f v := dateRange_canonical h
  intro v hv
  refine ⟨hcanonical v hv, fun _ => ?_⟩
  have hform := hcanonical v hv
  unfold IsCanonical at hform
  rcases htype with htype | htype
  · rw [htype] at hform
    obtain ⟨d, rfl⟩ := hform
    rfl
  · rw [htype] at hform
    obtain ⟨d, rfl⟩ := hform
    rfl

/-- An operand of an accepted filter is regular, unless it is a float or an enum value that is kept
in another form. -/
theorem AcceptedFilter.operand (h : AcceptedFilter env resource limits access f x)
    (hkeeps : keepsValue x.op = false) (hv : v ∈ x.value.operands) :
    Regular env.unicode f v ∨ EqualsOtherForm f v := by
  obtain ⟨raw, hraw, -, hop, hnormal⟩ := h.canonical
  have hplain : ∀ v ∈ raw.value.operands, v.plain = v := by
    have hvalue := hraw.plain
    cases hr : raw.value with
    | scalar u =>
      rw [hr] at hvalue
      intro v hv
      obtain rfl := List.mem_singleton.mp hv
      exact hvalue
    | list items =>
      rw [hr] at hvalue
      exact hvalue
  rcases normalizeFilterValue_cases hnormal with ⟨hk, -⟩ | ⟨-, value, hvalue, rfl⟩ |
    ⟨-, -, value, hvalue, hx⟩
  · rw [hop, hkeeps] at hk
    cases hk
  · exact .inl (regular_of_dateRange env.unicode hvalue v hv)
  · have hnormals := normalizedValue_ok hvalue
    have hpairs := normalizes_operands hnormals
    by_cases heq : value.pyEq raw.value = true
    · rw [if_pos heq] at hx
      subst hx
      obtain ⟨w, -, hw, hvw⟩ :=
        forall₂_mem_left (forall₂_and hpairs ((pyEq_iff_operands hnormals).mp heq)) hv
      rcases canonical_or_other_of_pyEq (hplain v hv) hw hvw with hcanonical | hother
      · exact .inl ⟨hcanonical, fun _ => hplain v hv⟩
      · exact .inr hother
    · rw [if_neg heq] at hx
      subst hx
      obtain ⟨u, hu, hnormal⟩ := forall₂_mem_right hpairs hv
      exact .inl ⟨isCanonical_of_normal hnormal, plain_of_normal hnormal (hplain u hu)⟩

/-! ## Canonical forms -/

theorem parse_written {α : Type} {read : List Char → Option α} {write : α → List Char}
    {invalid : PyException} (hread : ∀ a, read (write a) = some a) (cls : PyClass) (a : α) :
    (normalizeText read write invalid (.str cls (String.ofList (write a))) >>=
      readText read invalid) = .ok a := by
  rw [normalizeText, readText_written hread, ok_bind, ok_bind, readText_written hread]

@[simp] theorem parseDateString_isoformat (d : Date) :
    parseDateString (.str none (String.ofList d.isoformat)) = .ok d :=
  parse_written Date.fromisoformat_isoformat none d

@[simp] theorem parseDatetimeString_isoformat (d : Datetime) :
    parseDatetimeString (.str none (String.ofList d.isoformat)) = .ok d :=
  parse_written Datetime.fromisoformat_isoformat none d

@[simp] theorem parseTimeString_isoformat (t : Time) :
    parseTimeString (.str none (String.ofList t.isoformat)) = .ok t :=
  parse_written Time.fromisoformat_isoformat none t

theorem eq_or_zeros_of_numEq {x y : Binary64} (h : x.numEq y = true) (hx : x.isFinite = true) :
    x = y ∨ ∃ neg, x = .zero neg ∧ y = .zero !neg := by
  cases x with
  | finite neg mant exp hcanonical =>
    cases y with
    | finite neg' mant' exp' hcanonical' =>
      have hzero : ∀ {n m e} (hc : Binary64.Canonical m e), m = 0 →
          Binary64.finite n m e hc = .zero n := by
        rintro n m e hc rfl
        obtain ⟨-, -, -, hbig | rfl⟩ := hc
        · omega
        · rfl
      simp only [Binary64.numEq, Bool.or_eq_true, Bool.and_eq_true, beq_iff_eq] at h
      rcases h with ⟨hm, hm'⟩ | ⟨⟨rfl, rfl⟩, rfl⟩
      · rw [hzero hcanonical hm, hzero hcanonical' hm']
        by_cases hneg : neg = neg'
        · exact .inl (by rw [hneg])
        · exact .inr ⟨neg, rfl, by rw [Bool.eq_not_of_ne (Ne.symm hneg)]⟩
      · exact .inl rfl
    | _ => cases h
  | _ => cases hx

theorem eq_of_pyEq_str {cls cls' : PyClass} {s s' : PyStr}
    (hv : (PyScalar.str cls s).plain = .str cls s) (hw : (PyScalar.str cls' s').plain = .str cls' s')
    (h : (PyScalar.str cls s).pyEq (.str cls' s') = true) :
    PyScalar.str cls s = .str cls' s' := by
  obtain rfl : s = s' := by simpa [PyScalar.pyEq] using h
  exact hv.symm.trans hw

theorem eq_of_pyEq_int {cls cls' : PyClass} {i i' : ℤ}
    (hv : (PyScalar.int cls i).plain = .int cls i) (hw : (PyScalar.int cls' i').plain = .int cls' i')
    (h : (PyScalar.int cls i).pyEq (.int cls' i') = true) :
    PyScalar.int cls i = .int cls' i' := by
  obtain rfl : i = i' := by simpa [PyScalar.pyEq, PyScalar.asInt?] using h
  exact hv.symm.trans hw

/-- Regular operands that denote the same value and do not differ in form are the same. -/
theorem Regular.eq (hf : ∀ d, f.enum = some d → d.Unambiguous) (hv : Regular unicode f v)
    (hw : Regular unicode f w) (hsame : SameValue unicode f v w)
    (hform : ¬ DiffersInForm unicode f v w) : v = w := by
  obtain ⟨hcv, hpv⟩ := hv
  obtain ⟨hcw, hpw⟩ := hw
  unfold DiffersInForm at hform
  unfold SameValue at hsame
  unfold IsCanonical at hcv hcw
  cases htype : f.type with
  | string =>
    simp only [htype] at hcv hcw hsame hpv hpw
    obtain ⟨cls, s, rfl⟩ := hcv
    obtain ⟨cls', s', rfl⟩ := hcw
    exact eq_of_pyEq_str (hpv (by decide)) (hpw (by decide)) hsame
  | boolean =>
    simp only [htype] at hcv hcw hsame
    obtain ⟨b, rfl⟩ := hcv
    obtain ⟨b', rfl⟩ := hcw
    cases b <;> cases b' <;> simp_all [PyScalar.pyEq, PyScalar.asInt?]
  | integer =>
    simp only [htype] at hcv hcw hsame hpv hpw
    obtain ⟨cls, i, rfl⟩ := hcv
    obtain ⟨cls', i', rfl⟩ := hcw
    exact eq_of_pyEq_int (hpv (by decide)) (hpw (by decide)) hsame
  | decimal =>
    simp only [htype, not_not] at hform
    exact hform
  | float =>
    simp only [htype] at hcv hcw hsame hform
    obtain ⟨a, rfl, hfinite⟩ := hcv
    obtain ⟨b, rfl, -⟩ := hcw
    obtain ⟨x, y, hx, hy, heq⟩ := hsame
    obtain rfl := Option.some.inj hx
    obtain rfl := Option.some.inj hy
    rcases eq_or_zeros_of_numEq heq hfinite with rfl | ⟨neg, rfl, rfl⟩
    · rfl
    · exact absurd (.inr ⟨neg, rfl, rfl⟩) hform
  | date =>
    simp only [htype] at hcv hcw hsame
    obtain ⟨a, rfl⟩ := hcv
    obtain ⟨b, rfl⟩ := hcw
    obtain ⟨d, ha, hb⟩ := hsame
    rw [parseDateString_isoformat] at ha hb
    rw [Except.ok.inj ha, Except.ok.inj hb]
  | datetime =>
    simp only [htype] at hcv hcw hsame hform
    obtain ⟨a, rfl⟩ := hcv
    obtain ⟨b, rfl⟩ := hcw
    obtain ⟨a', b', ha, hb, hmoment⟩ := hsame
    rw [parseDatetimeString_isoformat] at ha hb
    obtain rfl := Except.ok.inj ha
    obtain rfl := Except.ok.inj hb
    by_cases hoffset : a.offset = b.offset
    · rw [Datetime.eq_of_moment_eq hmoment hoffset]
    · exact absurd ⟨a, b, parseDatetimeString_isoformat a, parseDatetimeString_isoformat b, hoffset⟩
        hform
  | time =>
    simp only [htype] at hcv hcw hsame
    obtain ⟨a, rfl⟩ := hcv
    obtain ⟨b, rfl⟩ := hcw
    obtain ⟨t, ha, hb⟩ := hsame
    rw [parseTimeString_isoformat] at ha hb
    rw [Except.ok.inj ha, Except.ok.inj hb]
  | uuid =>
    simp only [htype] at hcv hcw hsame
    obtain ⟨a, ha, rfl⟩ := hcv
    obtain ⟨b, hb, rfl⟩ := hcw
    obtain ⟨n, hna, hnb⟩ := hsame
    rw [uuidOf, readUuid_formatUuid unicode ha] at hna
    rw [uuidOf, readUuid_formatUuid unicode hb] at hnb
    rw [Option.some.inj hna, Option.some.inj hnb]
  | enum =>
    simp only [htype] at hcv hcw hsame
    obtain ⟨d, hd, a, ha, rfl⟩ := hcv
    obtain ⟨d', hd', b, hb, rfl⟩ := hcw
    obtain ⟨d'', c, hd'', hca, hcb⟩ := hsame
    obtain rfl := Option.some.inj (hd.symm.trans hd')
    obtain rfl := Option.some.inj (hd.symm.trans hd'')
    have hself : ∀ u ∈ d.values, d.resolve u.value = some u.value := by
      intro u hu
      rw [EnumDefinition.resolve_eq_some_iff (hf d hd), mem_tokenTable]
      exact ⟨u, hu, List.mem_cons_self, rfl⟩
    rw [hself a ha] at hca
    rw [hself b hb] at hcb
    exact (Option.some.inj hca).trans (Option.some.inj hcb).symm

theorem EqualsOtherForm.not_canonical (hf : ∀ d, f.enum = some d → d.Unambiguous)
    (h : EqualsOtherForm f v) : ¬ IsCanonical unicode f v := by
  intro hcanonical
  unfold IsCanonical at hcanonical
  rcases h with ⟨htype, cls, i, rfl, -⟩ | ⟨htype, d, hd, c, hc, hmem, hne, -⟩
  · simp only [htype] at hcanonical
    obtain ⟨x, hx, -⟩ := hcanonical
    cases hx
  · simp only [htype] at hcanonical
    obtain ⟨d', hd', c', hc', rfl⟩ := hcanonical
    obtain rfl := Option.some.inj (hd.symm.trans hd')
    have htoken : (c'.value, c.value) ∈ d.tokenTable := mem_tokenTable.mpr ⟨c, hc, hmem, rfl⟩
    have hself : (c'.value, c'.value) ∈ d.tokenTable :=
      mem_tokenTable.mpr ⟨c', hc', List.mem_cons_self, rfl⟩
    exact hne (hf d hd _ _ _ hself htoken)

theorem EqualsOtherForm.differs (hf : ∀ d, f.enum = some d → d.Unambiguous)
    (h : EqualsOtherForm f v ∨ EqualsOtherForm f w) : DiffersInForm unicode f v w := by
  have hnot : ¬ (IsCanonical unicode f v ∧ IsCanonical unicode f w) := by
    rintro ⟨hv, hw⟩
    rcases h with h | h
    · exact h.not_canonical hf hv
    · exact h.not_canonical hf hw
  have htype : f.type = .float ∨ f.type = .enum := by
    rcases h with (⟨htype, -⟩ | ⟨htype, -⟩) | (⟨htype, -⟩ | ⟨htype, -⟩)
    · exact .inl htype
    · exact .inr htype
    · exact .inl htype
    · exact .inr htype
  unfold DiffersInForm
  rcases htype with htype | htype
  · rw [htype]
    exact .inl hnot
  · rw [htype]
    exact hnot

/-! ## Accepted plans -/

/-- The operand of an operator that keeps its value: a boolean for `isnull`, else an integer. -/
theorem AcceptedFilter.kept_operand (h : AcceptedFilter env resource limits access f x)
    (hkeeps : keepsValue x.op = true) (hv : v ∈ x.value.operands) :
    (x.op = .isnull ∧ ∃ b, v = .bool b) ∨ (x.op ≠ .isnull ∧ ∃ i, v = .int none i) := by
  have hplain := (h.kept hkeeps).plain
  have hcases : x.op = .isnull ∨ x.op = .lastNDays ∨ x.op = .lastNMonths := by
    cases hop : x.op <;> simp [hop, keepsValue] at hkeeps ⊢
  rcases hcases with hop | hop
  · obtain ⟨b, hvalue⟩ := h.isnull_value hop
    rw [hvalue] at hv
    exact .inl ⟨hop, b, List.mem_singleton.mp hv⟩
  · have hne : x.op ≠ .isnull := by
      rcases hop with hop | hop <;> rw [hop] <;> decide
    obtain ⟨cls, n, -, hvalue⟩ := h.relative_value hop
    rw [hvalue] at hv hplain
    have hcls : none = cls := (PyScalar.int.inj hplain).1
    refine .inr ⟨hne, n, ?_⟩
    rw [hcls]
    exact List.mem_singleton.mp hv

/-- Operands of accepted filters that denote the same value and do not differ in form are the
same. -/
theorem eq_of_sameOperand (hf : ∀ d, f.enum = some d → d.Unambiguous)
    (hx : AcceptedFilter env resource limits access f x)
    (hy : AcceptedFilter env resource limits access f y) (hop : x.op = y.op)
    (hv : v ∈ x.value.operands) (hw : w ∈ y.value.operands)
    (hsame : SameOperand env.unicode x.op f v w) (hform : ¬ DiffersInForm env.unicode f v w) :
    v = w := by
  unfold SameOperand at hsame
  by_cases hkeeps : keepsValue x.op = true
  · rw [if_pos hkeeps] at hsame
    rcases hx.kept_operand hkeeps hv with ⟨hnull, b, rfl⟩ | ⟨hnull, i, rfl⟩
    · rcases hy.kept_operand (hop ▸ hkeeps) hw with ⟨-, b', rfl⟩ | ⟨hnot, -⟩
      · cases b <;> cases b' <;> simp_all [PyScalar.pyEq, PyScalar.asInt?]
      · exact absurd (hop ▸ hnull) hnot
    · rcases hy.kept_operand (hop ▸ hkeeps) hw with ⟨hnot, -⟩ | ⟨-, i', rfl⟩
      · exact absurd (hop.trans hnot) hnull
      · exact eq_of_pyEq_int rfl rfl hsame
  · rw [if_neg hkeeps] at hsame
    rw [Bool.not_eq_true] at hkeeps
    rcases hx.operand hkeeps hv with hv | hv
    · rcases hy.operand (hop ▸ hkeeps) hw with hw | hw
      · exact hv.eq hf hw hsame hform
      · exact absurd (EqualsOtherForm.differs hf (.inr hw)) hform
    · exact absurd (EqualsOtherForm.differs hf (.inl hv)) hform

theorem forall₂_eq_of_mem {R : PyScalar → PyScalar → Prop} {vs ws : List PyScalar}
    (h : List.Forall₂ R vs ws) (heq : ∀ v ∈ vs, ∀ w ∈ ws, R v w → v = w) : vs = ws := by
  induction h with
  | nil => rfl
  | cons hvw _ ih =>
    rw [heq _ List.mem_cons_self _ List.mem_cons_self hvw, ih]
    intro v hv w hw
    exact heq v (List.mem_cons_of_mem _ hv) w (List.mem_cons_of_mem _ hw)

theorem FilterValue.Related.eq {R : PyScalar → PyScalar → Prop} {a b : FilterValue}
    (h : FilterValue.Related R a b) (heq : ∀ v ∈ a.operands, ∀ w ∈ b.operands, R v w → v = w) :
    a = b := by
  cases h with
  | scalar h => rw [heq _ List.mem_cons_self _ List.mem_cons_self h]
  | list h => rw [forall₂_eq_of_mem h heq]

/-- Operands of an accepted plan that denote the same value differ in form. -/
theorem accepted_noSemanticDuplicates {registry : CatalogRegistry env} {raw : RawPlan}
    (haccepted : parseAndValidateQueryPlan registry limits access raw = .ok p)
    (hresource : registry.get p.resource = .ok resource) :
    NoSemanticDuplicates env.unicode resource p (DiffersInForm env.unicode) := by
  obtain ⟨r, hr, hregistered, h⟩ := parseAndValidateQueryPlan_ok haccepted
  obtain rfl := Except.ok.inj (hr.symm.trans hresource)
  have hfilter : ∀ x ∈ p.filters, ∀ f, r.fields.get? x.field = some f →
      AcceptedFilter env r limits access f x ∧ ∀ d, f.enum = some d → d.Unambiguous := by
    intro x hx f hf
    obtain ⟨g, hg⟩ := h.filters x hx
    obtain rfl := Option.some.inj (hg.usable.1.symm.trans hf)
    exact ⟨hg, fun d hd => hregistered.unambiguous hf hd⟩
  constructor
  · intro x hx hop f hf
    obtain ⟨hxf, hunambiguous⟩ := hfilter x hx f hf
    apply (h.noDuplicates.operands_nodup hx hop).imp_of_mem
    intro v w hv hw hne hsame
    by_contra hform
    exact hne (eq_of_sameOperand hunambiguous hxf hxf rfl hv hw hsame hform)
  · apply h.noDuplicates.filters_nodup.imp_of_mem
    intro x y hx hy hne hfield hop f hf hrelated
    obtain ⟨hxf, hunambiguous⟩ := hfilter x hx f hf
    obtain ⟨hyf, -⟩ := hfilter y hy f (hfield ▸ hf)
    have hvalue : x.value = y.value := by
      apply hrelated.eq
      rintro v hv w hw ⟨hsame, hform⟩
      exact eq_of_sameOperand hunambiguous hxf hyf hop hv hw hsame hform
    have hname : x.fieldName = y.fieldName := by
      rw [(h.texts.filters x hx).eq, (h.texts.filters y hy).eq]
      exact congrArg PyStr.text hfield
    apply hne
    cases x
    cases y
    simp_all

end

def entryModel : Django.DjangoModel where
  label := "ledger.Entry"
  verboseNamePlural := "entries"
  pk := "id"
  fields := [("id", Sample.primaryKey "entry"), ("amount", Sample.column "entry" "amount" "decimal")]
  uniqueTogether := []
  constraints := []
  names_plain := by decide

def ledger : Environment := { Sample.environment with graph := fun _ => entryModel }

def ledgerEntries : CatalogRegistry ledger :=
  match (CatalogRegistry.empty ledger).register
      { Sample.orderArgs [("amount", .config (Sample.fieldConfig "amount" "decimal"))] with
        name := some "entries" } with
  | .ok registry => registry
  | .error _ => .empty ledger

/-- Entries whose amount is one of the values. -/
def amountPlan (amounts : List PyScalar) : QueryPlan :=
  { Sample.listPlan ["amount"] with
    resourceName := "entries"
    filters? := some [⟨"amount", .in, .list amounts⟩] }

def validatedEntries (p : QueryPlan) : Py QueryPlan :=
  parseAndValidateQueryPlan ledgerEntries Sample.limits (.ofPermissions []) (.mapping p.dump)

theorem amounts_accepted :
    validatedEntries (amountPlan [.str none "1.0", .str none "1.00"]) =
      .ok (amountPlan [.str none "1.0", .str none "1.00"]) := by
  decide +kernel

theorem amounts_noSemanticDuplicates :
    ∃ resource, ledgerEntries.get "entries" = .ok resource ∧
      NoSemanticDuplicates ledger.unicode resource (amountPlan [.str none "1.0", .str none "1.00"])
        (DiffersInForm ledger.unicode) :=
  ⟨_, rfl, accepted_noSemanticDuplicates amounts_accepted rfl⟩

/-- The decimals 1.0 and 1.00 are the same number and both stay. -/
theorem equal_decimals_survive :
    ¬ ∀ (env : Environment) (registry : CatalogRegistry env) (limits : PlanLimits)
      (access : Access) (raw : RawPlan) (p : QueryPlan) (resource : SemanticResource),
      parseAndValidateQueryPlan registry limits access raw = .ok p →
        registry.get p.resource = .ok resource →
          NoSemanticDuplicates env.unicode resource p fun _ _ _ => False := by
  intro h
  have hdistinct := (h ledger ledgerEntries _ _ _ _ _ amounts_accepted rfl).elements _
    List.mem_cons_self rfl _ rfl
  have hpair := (List.pairwise_cons.mp hdistinct).1 (.str none "1.00") List.mem_cons_self
  apply hpair
  have hvalue : ∀ text parts, decimalKind ledger.unicode text = .finite →
      decimalParts ledger.unicode text = parts → decimalOf ledger.unicode (.str none text) =
        some ((if parts.1 then -1 else 1) * parts.2.1 * (10 : ℚ) ^ parts.2.2) := by
    rintro text parts hkind rfl
    rw [decimalOf, decimalValue, if_pos hkind]
  refine ⟨1, ?_, ?_⟩
  · rw [hvalue "1.0" (false, 10, -1) (by decide) (by decide)]
    norm_num
  · rw [hvalue "1.00" (false, 100, -2) (by decide) (by decide)]
    norm_num

end AskLens.Planning
