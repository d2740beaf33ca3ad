import AskLens.Planning.Accepted

/-!
# Canonical filter values

Which value an accepted filter carries, operator by operator, and that the
temporal ones can be read again.
-/
namespace AskLens.Planning

open Python Catalog Checks

/-! ## Temporal texts -/

/-- A scalar that was normalized can be read, and so can its normal form. -/
theorem readNormalized_ok {α : Type} {read : List Char → Option α} {write : α → List Char}
    {invalid : PyException} {value normalized : PyScalar}
    (hread : ∀ a, read (write a) = some a)
    (h : normalizeText read write invalid value = .ok normalized) :
    (∃ a, (normalizeText read write invalid value >>= readText read invalid) = .ok a) ∧
      ∃ a, (normalizeText read write invalid normalized >>= readText read invalid) = .ok a := by
  obtain ⟨a, -, ha⟩ := readText_ok_of_normalizeText hread h
  refine ⟨⟨a, ?_⟩, a, ?_⟩
  · rw [h, ok_bind, ha]
  · rw [normalizeText_normalized hread h, ok_bind, ha]

theorem parseDateString_ok {value normalized : PyScalar}
    (h : normalizeDateString value = .ok normalized) :
    (∃ d, parseDateString value = .ok d) ∧ ∃ d, parseDateString normalized = .ok d :=
  readNormalized_ok Date.fromisoformat_isoformat h

theorem parseDatetimeString_ok {value normalized : PyScalar}
    (h : normalizeDatetimeString value = .ok normalized) :
    (∃ d, parseDatetimeString value = .ok d) ∧ ∃ d, parseDatetimeString normalized = .ok d :=
  readNormalized_ok Datetime.fromisoformat_isoformat h

theorem parseTimeString_ok {value normalized : PyScalar}
    (h : normalizeTimeString value = .ok normalized) :
    (∃ t, parseTimeString value = .ok t) ∧ ∃ t, parseTimeString normalized = .ok t :=
  readNormalized_ok Time.fromisoformat_isoformat h

/-! ## Normal forms -/

/-- A scalar that fits the field's type, and the form it is brought to. -/
inductive NormalForm (unicode : Unicode) (f : FieldSpec) : PyScalar → PyScalar → Prop where
  | string {cls : PyClass} {s : PyStr} (htype : f.type = .string) :
    NormalForm unicode f (.str cls s) (.str cls s)
  | boolean {b : Bool} (htype : f.type = .boolean) : NormalForm unicode f (.bool b) (.bool b)
  | integer {cls : PyClass} {i : ℤ} (htype : f.type = .integer) :
    NormalForm unicode f (.int cls i) (.int cls i)
  | decimal {cls : PyClass} {s : String} (htype : f.type = .decimal)
    (hkind : decimalKind unicode s = .finite) : NormalForm unicode f (.str cls s) (.str cls s)
  | float {v : PyScalar} {x : Binary64} (htype : f.type = .float) (hx : toFloat? v = some x)
    (hfinite : x.isFinite = true) : NormalForm unicode f v (.float x)
  | date {v : PyScalar} {d : Date} (htype : f.type = .date)
    (hread : readText Date.fromisoformat invalidDate v = .ok d) :
    NormalForm unicode f v (.str none (String.ofList d.isoformat))
  | datetime {v : PyScalar} {d : Datetime} (htype : f.type = .datetime)
    (hread : readText Datetime.fromisoformat invalidDatetime v = .ok d) :
    NormalForm unicode f v (.str none (String.ofList d.isoformat))
  | time {v : PyScalar} {t : Time} (htype : f.type = .time)
    (hread : readText Time.fromisoformat invalidTime v = .ok t) :
    NormalForm unicode f v (.str none (String.ofList t.isoformat))
  | uuid {cls : PyClass} {s : String} {n : ℕ} (htype : f.type = .uuid)
    (hn : readUuid unicode s = some n) :
    NormalForm unicode f (.str cls s) (.str none (formatUuid n))
  | enum {v w : PyScalar} {definition : EnumDefinition} (htype : f.type = .enum)
    (hd : f.enum = some definition) (hw : definition.resolve v = some w) : NormalForm unicode f v w

theorem normalForm_of_ok {unicode : Unicode} {f : FieldSpec} {v w : PyScalar}
    (h : normalizeCanonicalScalar unicode f v = .ok w) : NormalForm unicode f v w := by
  unfold normalizeCanonicalScalar at h
  cases htype : f.type with
  | string =>
    simp only [htype] at h
    cases v with
    | str cls s =>
      cases h
      exact .string htype
    | _ => cases h
  | boolean =>
    simp only [htype] at h
    cases v with
    | bool b =>
      cases h
      exact .boolean htype
    | _ => cases h
  | integer =>
    simp only [htype] at h
    cases v with
    | int cls i =>
      cases h
      exact .integer htype
    | _ => cases h
  | decimal =>
    simp only [htype, normalizeDecimal] at h
    cases v with
    | str cls s =>
      cases s with
      | surrogates t lone => cases h
      | text s =>
        cases hkind : decimalKind unicode s with
        | finite =>
          simp only [hkind] at h
          cases h
          exact .decimal htype hkind
        | _ => simp [hkind] at h
    | _ => cases h
  | float =>
    simp only [htype, normalizeFloat] at h
    cases hx : toFloat? v with
    | none => simp [hx] at h
    | some x =>
      simp only [hx] at h
      split_ifs at h with hfinite
      cases h
      exact .float htype hx hfinite
  | date =>
    simp only [htype] at h
    obtain ⟨d, hread, rfl⟩ := normalizeText_ok h
    exact .date htype hread
  | datetime =>
    simp only [htype] at h
    obtain ⟨d, hread, rfl⟩ := normalizeText_ok h
    exact .datetime htype hread
  | time =>
    simp only [htype] at h
    obtain ⟨t, hread, rfl⟩ := normalizeText_ok h
    exact .time htype hread
  | uuid =>
    simp only [htype, normalizeUuid] at h
    cases v with
    | str cls s =>
      cases s with
      | surrogates t lone => cases h
      | text s =>
        cases hn : readUuid unicode s with
        | none => simp [hn] at h
        | some n =>
          simp only [hn] at h
          cases h
          exact .uuid htype hn
    | _ => cases h
  | enum =>
    simp only [htype, normalizeEnumScalar] at h
    cases hd : f.enum with
    | none => simp [hd] at h
    | some definition =>
      simp only [hd] at h
      cases hw : definition.resolve v with
      | none => simp [hw] at h
      | some c =>
        simp only [hw] at h
        cases h
        exact .enum htype hd hw

theorem NormalForm.ok {unicode : Unicode} {f : FieldSpec} {v w : PyScalar}
    (h : NormalForm unicode f v w) : normalizeCanonicalScalar unicode f v = .ok w := by
  unfold normalizeCanonicalScalar
  cases h with
  | string htype | boolean htype | integer htype => rw [htype]
  | decimal htype hkind => simp [htype, normalizeDecimal, hkind]
  | float htype hx hfinite => simp [htype, normalizeFloat, hx, hfinite]
  | date htype hread => simp [htype, normalizeDateString, normalizeText, hread]
  | datetime htype hread => simp [htype, normalizeDatetimeString, normalizeText, hread]
  | time htype hread => simp [htype, normalizeTimeString, normalizeText, hread]
  | uuid htype hn => simp [htype, normalizeUuid, hn]
  | enum htype hd hw => simp [htype, normalizeEnumScalar, hd, hw]

/-! ## The values of accepted filters -/

/-- A value that was read, and its normal form. -/
inductive Normalizes (unicode : Unicode) (f : FieldSpec) : FilterValue → FilterValue → Prop where
  | scalar {v w : PyScalar} (h : normalizeCanonicalScalar unicode f v = .ok w) :
    Normalizes unicode f (.scalar v) (.scalar w)
  | list {vs ws : List PyScalar}
    (h : List.Forall₂ (fun v w => normalizeCanonicalScalar unicode f v = .ok w) vs ws) :
    Normalizes unicode f (.list vs) (.list ws)

theorem normalizedValue_ok {unicode : Unicode} {f : FieldSpec} {x : FilterSpec}
    {value : FilterValue} (h : normalizedValue unicode f x = .ok value) :
    Normalizes unicode f x.value value := by
  cases hx : x.value with
  | list items =>
    have hin : x.op = .in := by
      cases hop : x.op <;> simp [normalizedValue, hx, hop] at h ⊢
    simp only [normalizedValue, hx, hin] at h
    obtain ⟨ws, hws, rfl⟩ := map_list_ok h
    exact .list (mapM_eq_ok.mp hws)
  | scalar v =>
    cases hv : normalizeCanonicalScalar unicode f v with
    | error e => cases hop : x.op <;> simp [normalizedValue, hx, hop, hv, Except.map] at h
    | ok w =>
      have hw : FilterValue.scalar w = value := by
        cases hop : x.op <;> simp [normalizedValue, hx, hop, hv, Except.map] at h <;> exact h
      rw [← hw]
      exact .scalar hv

section

variable {env : Environment} {resource : SemanticResource} {limits : PlanLimits}
  {access : Access} {f : FieldSpec} {x : FilterSpec}

/-- The raw filter itself, when normalization keeps its value. -/
theorem AcceptedFilter.kept (h : AcceptedFilter env resource limits access f x)
    (hkeeps : keepsValue x.op = true) : x.WellFormed := by
  obtain ⟨raw, hraw, -, hop, hnormal⟩ := h.canonical
  rw [normalizeFilterValue_keeps (by rw [hop]; exact hkeeps)] at hnormal
  obtain rfl := Except.ok.inj hnormal
  exact hraw

theorem AcceptedFilter.isnull_value (h : AcceptedFilter env resource limits access f x)
    (hop : x.op = .isnull) : ∃ b, x.value = .scalar (.bool b) := by
  have hvalue := (h.kept (by rw [hop]; rfl)).value
  rw [hop] at hvalue
  exact validateFilterValue_eq_none.mp hvalue

theorem AcceptedFilter.relative_value (h : AcceptedFilter env resource limits access f x)
    (hop : x.op = .lastNDays ∨ x.op = .lastNMonths) :
    ∃ cls n, 1 ≤ n ∧ x.value = .scalar (.int cls n) := by
  have hvalue := (h.kept (by rcases hop with hop | hop <;> rw [hop] <;> rfl)).value
  have htaken : ∃ cls n, x.value = .scalar (.int cls n) ∧ 1 ≤ n := by
    rcases hop with hop | hop <;> rw [hop] at hvalue
    · exact validateFilterValue_eq_none.mp hvalue
    · exact validateFilterValue_eq_none.mp hvalue
  obtain ⟨cls, n, hx, hn⟩ := htaken
  exact ⟨cls, n, hn, hx⟩

theorem AcceptedFilter.date_range_value (h : AcceptedFilter env resource limits access f x)
    (hop : x.op = .dateRange) : ∃ a b, x.value = .list [a, b] ∧
      ((f.type = .date ∧ (∃ d, parseDateString a = .ok d) ∧ ∃ d, parseDateString b = .ok d) ∨
        (f.type = .datetime ∧ (∃ d, parseDatetimeString a = .ok d) ∧
          ∃ d, parseDatetimeString b = .ok d)) := by
  obtain ⟨raw, -, -, hraw, hnormal⟩ := h.canonical
  rw [normalizeFilterValue_range (hraw.trans hop)] at hnormal
  obtain ⟨value, hvalue, hnormal⟩ := bind_eq_ok.mp hnormal
  obtain rfl := Except.ok.inj hnormal
  unfold normalizeDateRangeFilter at hvalue
  split at hvalue
  · split at hvalue
    · obtain ⟨items, hitems, rfl⟩ := map_list_ok hvalue
      simp only [normalizeRange, bind_eq_ok] at hitems
      obtain ⟨a, ha, b, hb, _, -, _, -, _, -, hitems⟩ := hitems
      obtain rfl := Except.ok.inj hitems
      exact ⟨a, b, rfl, .inl ⟨by assumption, (parseDateString_ok ha).2, (parseDateString_ok hb).2⟩⟩
    · obtain ⟨items, hitems, rfl⟩ := map_list_ok hvalue
      simp only [normalizeRange, bind_eq_ok] at hitems
      obtain ⟨a, ha, b, hb, _, -, _, -, _, -, hitems⟩ := hitems
      obtain rfl := Except.ok.inj hitems
      exact ⟨a, b, rfl, .inr ⟨by assumption, (parseDatetimeString_ok ha).2,
        (parseDatetimeString_ok hb).2⟩⟩
    · cases hvalue
  · cases hvalue

theorem AcceptedFilter.normal_value (h : AcceptedFilter env resource limits access f x)
    (hkeeps : keepsValue x.op = false) (hrange : x.op ≠ .dateRange) :
    ∃ read normal, Normalizes env.unicode f read normal ∧ (x.value = read ∨ x.value = normal) := by
  obtain ⟨raw, -, -, hop, hnormal⟩ := h.canonical
  rw [← hop] at hkeeps hrange
  rw [normalizeFilterValue_scalars hkeeps hrange, bind_eq_ok] at hnormal
  obtain ⟨value, hvalue, hnormal⟩ := hnormal
  have hx : x.value = raw.value ∨ x.value = value := by
    split_ifs at hnormal
    · exact .inl (congrArg FilterSpec.value (Except.ok.inj hnormal)).symm
    · exact .inr (congrArg FilterSpec.value (Except.ok.inj hnormal)).symm
  exact ⟨raw.value, value, normalizedValue_ok hvalue, hx⟩

end

end AskLens.Planning
