import AskLens.Catalog.EnumDefinitions
import AskLens.Planning.Representatives
import AskLens.Sample

/-!
# Enum operands

A filter operand names a canonical value or an alias. The table is keyed by the
class of a token too, and an operand from JSON has a built-in class.
-/
namespace AskLens.Planning

open Python Catalog Checks

/-- A JSON scalar: its class is a built-in one. -/
def IsJson (v : PyScalar) : Prop := v.plain = v

instance (v : PyScalar) : Decidable (IsJson v) := inferInstanceAs (Decidable (_ = _))

/-- A string or an integer that equals a token which the definition declares for `v`. -/
def NamesValue (operand : PyScalar) (v : EnumValue) : Prop :=
  IsToken operand ∧ ∃ token ∈ v.tokens, operand.pyEq token = true

/-- The definition `d` of the field is unambiguous and usable. -/
structure EnumUsable (unicode : Unicode) (key bindingType : String) (f : FieldSpec)
    (d : EnumDefinition) : Prop where
  /-- A declared operand resolves to one canonical value, equal to its own. -/
  resolves : ∀ operand, IsJson operand → ∀ v ∈ d.values, NamesValue operand v →
    ∃ c, normalizeCanonicalScalar unicode f operand = .ok c ∧
      c ∈ d.values.map EnumValue.value ∧ c.pyEq v.value = true
  /-- A canonical value resolves to itself. -/
  canonical : ∀ v ∈ d.values, normalizeCanonicalScalar unicode f v.value = .ok v.value
  /-- Normalizing twice is normalizing once. -/
  stable : ∀ operand c, normalizeCanonicalScalar unicode f operand = .ok c →
    normalizeCanonicalScalar unicode f c = .ok c
  /-- Every other JSON scalar is rejected. -/
  rejects : ∀ operand, IsJson operand → (∀ v ∈ d.values, ¬ NamesValue operand v) →
    ∃ e, normalizeCanonicalScalar unicode f operand = .error e
  /-- The order of the declarations does not matter. -/
  order : ∀ d', d.Reorders d' →
    validateEnumDefinition key .enum bindingType (some (.obj d'.toObj)) = .ok (some d') ∧
      ∀ operand, d'.resolve operand = d.resolve operand
  /-- The definition is accepted again as it is. -/
  revalidates : validateEnumDefinition key .enum bindingType (some (.enumDefinition d)) =
    .ok (some d)

/-- A token of a subclass is also declared in its built-in class, for an equal value. -/
def SubclassTokensCovered (d : EnumDefinition) : Prop :=
  ∀ v ∈ d.values, ∀ token ∈ v.tokens, token.plain ≠ token →
    ∃ v' ∈ d.values, token.plain ∈ v'.tokens ∧ v'.value.pyEq v.value = true

section

variable {unicode : Unicode} {key bindingType : String} {f : FieldSpec} {d : EnumDefinition}
  {operand c : PyScalar}

theorem isToken_plain {token : PyScalar} (h : IsToken token) : IsToken token.plain := by
  rcases h with ⟨cls, s, rfl, hne⟩ | ⟨cls, i, rfl⟩
  · exact .inl ⟨none, s, rfl, hne⟩
  · exact .inr ⟨none, i, rfl⟩

theorem pyEq_self_of_isToken {token : PyScalar} (h : IsToken token) : token.pyEq token = true := by
  apply PyScalar.pyEq_refl
  rintro x rfl
  rcases h with ⟨cls, s, h, -⟩ | ⟨cls, i, h⟩
  · cases h
  · cases h

/-- A JSON scalar equals a token exactly when it is the token in its built-in class. -/
theorem eq_plain_of_pyEq (hjson : IsJson operand) (hoperand : IsToken operand) {token : PyScalar}
    (htoken : IsToken token) (h : operand.pyEq token = true) : operand = token.plain := by
  rw [← hjson]
  rcases hoperand with ⟨cls, s, rfl, -⟩ | ⟨cls, i, rfl⟩
  · rcases htoken with ⟨cls', s', rfl, -⟩ | ⟨cls', i', rfl⟩
    · obtain rfl : s = s' := by simpa [PyScalar.pyEq] using h
      rfl
    · simp [PyScalar.pyEq, PyScalar.asInt?] at h
  · rcases htoken with ⟨cls', s', rfl, -⟩ | ⟨cls', i', rfl⟩
    · simp [PyScalar.pyEq, PyScalar.asInt?] at h
    · obtain rfl : i = i' := by simpa [PyScalar.pyEq, PyScalar.asInt?] using h
      rfl

theorem isToken_of_mem (hd : d.WellFormed bindingType) {v : EnumValue} (hv : v ∈ d.values)
    {token : PyScalar} (htoken : token ∈ v.tokens) : IsToken token := by
  rcases List.mem_cons.mp htoken with rfl | htoken
  · have hallows := (hd.typed v hv).value
    cases htype : d.type with
    | string =>
      rw [htype] at hallows
      exact .inl hallows
    | integer =>
      rw [htype] at hallows
      exact .inr hallows
  · exact (hd.typed v hv).aliases token htoken

theorem normalize_enum_ok_iff (hd : d.WellFormed bindingType) (htype : f.type = .enum)
    (henum : f.enum = some d) : normalizeCanonicalScalar unicode f operand = .ok c ↔
      ∃ v ∈ d.values, operand ∈ v.tokens ∧ v.value = c := by
  have hunambiguous : ∀ d', f.enum = some d' → d'.Unambiguous := by
    intro d' hd'
    obtain rfl := Option.some.inj (henum.symm.trans hd')
    exact hd.unambiguous
  simp only [normalizeCanonicalScalar, htype, normalizeEnumScalar_ok hunambiguous, henum,
    Option.some.injEq, exists_eq_left']

theorem plain_declared (h : SubclassTokensCovered d) {v : EnumValue} (hv : v ∈ d.values)
    {token : PyScalar} (htoken : token ∈ v.tokens) (hself : v.value.pyEq v.value = true) :
    ∃ v' ∈ d.values, token.plain ∈ v'.tokens ∧ v'.value.pyEq v.value = true := by
  by_cases hplain : token.plain = token
  · rw [hplain]
    exact ⟨v, hv, htoken, hself⟩
  · exact h v hv token htoken hplain

/-- An accepted definition is usable if and only if each token of a subclass is also declared in
its built-in class. -/
theorem enumUsable_iff {raw : ConfigValue}
    (haccepted : validateEnumDefinition key .enum bindingType (some raw) = .ok (some d))
    (htype : f.type = .enum) (henum : f.enum = some d) :
    EnumUsable unicode key bindingType f d ↔ SubclassTokensCovered d := by
  have hd : d.WellFormed bindingType := by
    rcases validateEnumDefinition_ok haccepted with ⟨-, d', hd', key', raw', hraw⟩ | ⟨hne, -⟩
    · obtain rfl := Option.some.inj hd'
      exact validateEnumMapping_wellFormed hraw
    · exact absurd rfl hne
  have hnormalize : ∀ operand c, normalizeCanonicalScalar unicode f operand = .ok c ↔
      ∃ v ∈ d.values, operand ∈ v.tokens ∧ v.value = c :=
    fun operand c => normalize_enum_ok_iff hd htype henum
  constructor
  · intro h v hv token htoken _
    have hoperand := isToken_of_mem hd hv htoken
    have hnames : NamesValue token.plain v := by
      refine ⟨isToken_plain hoperand, token, htoken, ?_⟩
      rw [PyScalar.pyEq_plain_left]
      exact pyEq_self_of_isToken hoperand
    obtain ⟨c, hc, -, heq⟩ := h.resolves token.plain (PyScalar.plain_plain token) v hv hnames
    obtain ⟨v', hv', htoken', rfl⟩ := (hnormalize _ _).mp hc
    exact ⟨v', hv', htoken', heq⟩
  · intro h
    constructor
    · rintro operand hjson v hv ⟨hoperand, token, htoken, heq⟩
      obtain rfl := eq_plain_of_pyEq hjson hoperand (isToken_of_mem hd hv htoken) heq
      have hself := pyEq_self_of_isToken (isToken_of_mem hd hv List.mem_cons_self)
      obtain ⟨v', hv', htoken', hsame⟩ := plain_declared h hv htoken hself
      exact ⟨v'.value, (hnormalize _ _).mpr ⟨v', hv', htoken', rfl⟩, List.mem_map_of_mem hv', hsame⟩
    · intro v hv
      exact (hnormalize _ _).mpr ⟨v, hv, List.mem_cons_self, rfl⟩
    · intro operand c hc
      obtain ⟨v, hv, -, rfl⟩ := (hnormalize _ _).mp hc
      exact (hnormalize _ _).mpr ⟨v, hv, List.mem_cons_self, rfl⟩
    · intro operand hjson hother
      cases hresult : normalizeCanonicalScalar unicode f operand with
      | error e => exact ⟨e, rfl⟩
      | ok c =>
        obtain ⟨v, hv, hmem, -⟩ := (hnormalize _ _).mp hresult
        have hoperand := isToken_of_mem hd hv hmem
        exact absurd ⟨hoperand, operand, hmem, pyEq_self_of_isToken hoperand⟩ (hother v hv)
    · intro d' hreorders
      constructor
      · exact congrArg (Except.map some) (validateEnumMapping_toObj (hreorders.wellFormed hd))
      · exact fun operand => hreorders.resolve_eq hd operand
    · exact congrArg (Except.map some) (validateEnumMapping_toObj hd)

end

/-- The statuses of an order; the canonical value of the first is of the given class. -/
def statuses (cls : PyClass) : EnumDefinition where
  type := .string
  values :=
    [⟨.str cls "paid", some "Paid", [.str none "settled"]⟩,
      ⟨.str none "open", none, [.str none "new", .int none 1]⟩]

def statusField (d : EnumDefinition) : FieldSpec where
  name := "status"
  label := "Status"
  type := .enum
  nullable := false
  binding := "status"
  relationDepth := 0
  relationshipEdges := []
  toManyRelationshipEdges := []
  enum := some d
  sensitive := false
  llmVisible := true
  resultVisible := true
  filterOnly := false
  requiresPermission := none
  scopeDimension := false

theorem statuses_enumUsable_iff :
    EnumUsable Sample.asciiTables "status" "string" (statusField (statuses none)) (statuses none) ↔
      SubclassTokensCovered (statuses none) :=
  enumUsable_iff (show validateEnumDefinition "status" .enum "string"
    (some (.obj (statuses none).toObj)) = .ok (some (statuses none)) by decide +kernel) rfl rfl

/-- A member of a `str` enumeration is accepted as canonical value, but no JSON text reaches it. -/
theorem choices_member_unreachable :
    ¬ ∀ (unicode : Unicode) (key bindingType : String) (f : FieldSpec) (d : EnumDefinition)
      (raw : ConfigValue),
      validateEnumDefinition key .enum bindingType (some raw) = .ok (some d) → f.type = .enum →
        f.enum = some d → EnumUsable unicode key bindingType f d := by
  intro h
  have husable := h Sample.asciiTables "status" "string" (statusField (statuses (some "Status")))
    (statuses (some "Status")) (.obj (statuses (some "Status")).toObj) (by decide +kernel) rfl rfl
  have hnames : NamesValue (.str none "paid")
      ⟨.str (some "Status") "paid", some "Paid", [.str none "settled"]⟩ :=
    ⟨.inl ⟨none, "paid", rfl, by decide⟩, _, List.mem_cons_self, rfl⟩
  obtain ⟨c, hc, -⟩ := husable.resolves (.str none "paid") (by decide) _ List.mem_cons_self hnames
  have hrejected : (normalizeCanonicalScalar Sample.asciiTables
      (statusField (statuses (some "Status"))) (.str none "paid")).isOk = false := by
    decide +kernel
  rw [hc] at hrejected
  cases hrejected

end AskLens.Planning
