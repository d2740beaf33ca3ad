import AskLens.Planning.Canonical
import AskLens.Python.Scanning
import AskLens.Sample

/-!
# Which exceptions escape the parser

Every check raises typed errors only. What remains are the conversions between
integers and text and the nesting of the payload: there the `json` module may
raise an exception that nothing translates.
-/
namespace AskLens.Planning

open Python Catalog Checks

variable {env : Environment}

/-! ## Printable operands -/

def FilterValue.scalars : FilterValue → List PyScalar
  | .scalar v => [v]
  | .list items => items

/-- The integers among the operands can be converted to text. -/
def FilterSpec.Printable (x : FilterSpec) : Prop :=
  ∀ cls i, .int cls i ∈ x.value.scalars → Python.Printable i

theorem encodeScalar_toObj {v : PyScalar} (h : ∀ cls i, v = .int cls i → Printable i) :
    ∃ text, encodeScalar v.toObj = .ok text := by
  cases v with
  | int cls i => exact ⟨_, if_pos (h cls i rfl)⟩
  | str cls s => cases s <;> exact ⟨_, rfl⟩
  | _ => exact ⟨_, rfl⟩

theorem encodeScalar_toObj_error {v : PyScalar} {e : BuiltinError}
    (h : encodeScalar v.toObj = .error e) : e = .valueError := by
  cases v with
  | int cls i => exact intText_error h
  | str cls s => cases s <;> cases h
  | _ => cases h

theorem encodeScalar_tooLong {cls : PyClass} {i : ℤ} (h : ¬ Printable i) :
    encodeScalar (PyScalar.int cls i).toObj = .error .valueError :=
  if_neg h

theorem isContainer_toObj (v : PyScalar) : isContainer v.toObj = false := by
  cases v with
  | str cls s => cases s <;> rfl
  | _ => rfl

theorem encode_toObj (depth : ℕ) (v : PyScalar) : encode depth v.toObj = encodeScalar v.toObj := by
  cases depth with
  | zero => simp [encode, isContainer_toObj]
  | succ depth =>
    cases v with
    | str cls s => cases s <;> rfl
    | _ => rfl

theorem scalarKey_ok {v : PyScalar} (h : ∀ cls i, v = .int cls i → Printable i) :
    ∃ key, scalarKey env v = .ok key := by
  obtain ⟨text, htext⟩ := encodeScalar_toObj h
  refine ⟨(v.typeName, text), ?_⟩
  simp [scalarKey, jsonValueKey, dumps, encode_toObj, htext]

theorem dumps_list (interp : Interpreter) (items : List PyScalar) :
    dumps interp (.list (items.map PyScalar.toObj)) =
      (items.mapM fun v => encodeScalar v.toObj) >>= fun parts =>
        .ok (0x5B :: (joinComma parts ++ [0x5D])) := by
  obtain ⟨depth, hdepth⟩ := Nat.exists_eq_succ_of_ne_zero interp.recursionLimit_pos.ne'
  have hitems : (items.map PyScalar.toObj).mapM (encode depth) =
      items.mapM fun v => encodeScalar v.toObj := by
    rw [List.mapM_map]
    exact mapM_congr fun v _ => encode_toObj depth v
  rw [dumps, hdepth, encode, hitems]

theorem filterKey_ok {x : FilterSpec} (h : x.Printable) : ∃ key, filterKey env x = .ok key := by
  unfold filterKey
  cases hvalue : x.value with
  | scalar v =>
    obtain ⟨key, hkey⟩ : ∃ key, scalarKey env v = .ok key :=
      scalarKey_ok fun cls i hv => h cls i (by simp [hvalue, FilterValue.scalars, hv])
    exact ⟨_, bind_eq_ok.mpr ⟨key, hkey, rfl⟩⟩
  | list items =>
    have hitems : ∀ v ∈ items, ∃ text, encodeScalar v.toObj = .ok text := fun v hv =>
      encodeScalar_toObj fun cls i hi => h cls i (by simpa [hvalue, FilterValue.scalars, ← hi])
    obtain ⟨parts, hparts⟩ := mapM_ok_iff.mpr hitems
    simp only [jsonValueKey, dumps_list, hparts, ok_bind]
    exact ⟨_, rfl⟩

theorem filterKey_tooLong {x : FilterSpec} (h : ¬ x.Printable) :
    filterKey env x = .error (.builtin .valueError) := by
  obtain ⟨cls, i, hmem, hi⟩ : ∃ cls i, .int cls i ∈ x.value.scalars ∧ ¬ Printable i := by
    simpa [FilterSpec.Printable] using h
  unfold filterKey
  cases hvalue : x.value with
  | scalar v =>
    obtain rfl : .int cls i = v := by simpa [hvalue, FilterValue.scalars] using hmem
    simp [scalarKey, jsonValueKey, dumps, encode_toObj, encodeScalar_tooLong hi]
  | list items =>
    rw [hvalue, FilterValue.scalars] at hmem
    have herror : items.mapM (fun v => encodeScalar v.toObj) = .error .valueError := by
      cases hparts : items.mapM fun v => encodeScalar v.toObj with
      | ok parts =>
        obtain ⟨part, -, hpart⟩ := exists_result_of_mapM hparts hmem
        rw [encodeScalar_tooLong hi] at hpart
        cases hpart
      | error e =>
        obtain ⟨_, v, _, -, -, he⟩ := mapM_eq_error.mp hparts
        rw [encodeScalar_toObj_error he]
    simp only [jsonValueKey, dumps_list, herror, error_bind]

/-! ## Operands that were read -/

theorem parseScalar_printable {depth : ℕ} {v : PyObj} {w : PyScalar} (hv : Encodable depth v)
    (h : parseScalar v = .ok w) : ∀ cls i, w = .int cls i → Printable i := by
  rintro cls i rfl
  cases v with
  | int c j =>
    obtain ⟨-, rfl⟩ : none = cls ∧ j = i := by simpa [parseScalar] using h
    exact hv.printable
  | str c t => simp [parseScalar, parseStr, Except.map] at h
  | _ => simp [parseScalar, parseStr, fail, under, Except.map] at h

theorem parseJsonValue_printable {depth : ℕ} {v : PyObj} {value : FilterValue}
    (hv : Encodable depth v) (h : parseJsonValue v = .ok value) :
    ∀ cls i, .int cls i ∈ value.scalars → Printable i := by
  intro cls i hi
  rcases parseJsonValue_ok h with ⟨w, hw, rfl⟩ | ⟨items, scalars, hitems, hscalars, rfl⟩
  · exact parseScalar_printable hv hw cls i (List.mem_singleton.mp hi).symm
  · obtain ⟨d, hd⟩ := hv.item hitems
    obtain ⟨w, hw, hwi⟩ := exists_of_mem_mapM hscalars hi
    exact parseScalar_printable (hd w hw) hwi cls i rfl

theorem parseFilterSpec_printable {depth : ℕ} {v : PyObj} {x : FilterSpec}
    (hv : Encodable depth v) (h : parseFilterSpec env v = .ok x) : x.Printable := by
  simp only [parseFilterSpec, bind_eq_ok] at h
  obtain ⟨entries, hentries, field, -, op, -, value, hvalue, _, -, h⟩ := h
  obtain rfl : v = .dict entries := by
    cases v <;> simp_all [modelEntries, fail]
  obtain ⟨u, hlookup, hu⟩ := required_ok hvalue
  obtain ⟨d, hd⟩ := hv.lookup hlookup
  split at h
  · cases h
  · obtain rfl := Except.ok.inj h
    exact parseJsonValue_printable hd hu

theorem parseQueryPlanModel_printable {depth : ℕ} {entries : Entries} {p : QueryPlan}
    (hentries : Encodable depth (.dict entries)) (h : parseQueryPlanModel env entries = .ok p) :
    ∀ x ∈ p.filters, x.Printable := by
  simp only [parseQueryPlanModel, bind_eq_ok] at h
  obtain ⟨resource, -, intent, -, filters, hfilters, groupBy, -, metrics, -, select, -, orderBy, -,
    limit, -, _, -, h⟩ := h
  obtain rfl := Except.ok.inj h
  intro x hx
  cases filters with
  | none => simp [QueryPlan.filters] at hx
  | some xs =>
    obtain ⟨v, hlookup, hv⟩ := optional_ok hfilters xs rfl
    obtain ⟨d, hd⟩ := hentries.lookup hlookup
    obtain ⟨items, hitems, hxs⟩ := parseTuple_ok hv
    obtain ⟨d', hd'⟩ := hd.item hitems
    obtain ⟨w, hw, hwx⟩ := hxs x (by simpa [QueryPlan.filters] using hx)
    exact parseFilterSpec_printable (hd' w hw) hwx

/-! ## Payloads -/

/-- The text that `json.loads` gets; `none` for a mapping or bytes that are no UTF-8. -/
def RawPlan.text? : RawPlan → Option PyText
  | .text t => some t
  | .bytes b => decodeUtf8 b
  | .mapping _ => none

theorem contained_payloadBytes_iff {raw : RawPlan} :
    Contained (payloadBytes env raw) ↔
      ∀ entries, raw = .mapping entries → dumps env.interp (.dict entries) ≠ .error .recursionError := by
  cases raw with
  | bytes b => simp [payloadBytes, Contained]
  | text t =>
    dsimp only [payloadBytes]
    cases t.encodedLength with
    | none => simp [contained_exc]
    | some n => simp [contained_ok]
  | mapping entries =>
    simp only [RawPlan.mapping.injEq, forall_eq']
    dsimp only [payloadBytes]
    cases hdumps : dumps env.interp (.dict entries) with
    | ok text =>
      dsimp only
      cases text.encodedLength with
      | none => simp [contained_exc]
      | some n => simp [contained_ok]
    | error e =>
      rcases encode_error hdumps with rfl | rfl | rfl
      · simp [contained_exc]
      · simp [contained_exc]
      · simp [not_contained_builtin]

/-- Sizes that were counted belong to payloads whose operands can be written. -/
theorem payloadBytes_encodable {entries : Entries} {n : ℕ}
    (h : payloadBytes env (.mapping entries) = .ok n) :
    Encodable env.interp.recursionLimit (.dict entries) := by
  unfold payloadBytes at h
  dsimp only at h
  split at h
  · rename_i text htext
    exact ⟨text, htext⟩
  all_goals cases h

theorem contained_parsePlanText_iff {t : PyText} :
    Contained (parsePlanText env t) ↔
      loads env.interp t ≠ .error .valueError ∧ loads env.interp t ≠ .error .recursionError := by
  unfold parsePlanText
  cases hloads : loads env.interp t with
  | ok v => cases v <;> simp [contained_exc, contained_ok]
  | error e =>
    rcases loads_error hloads with rfl | ⟨rfl, -⟩ | ⟨rfl, -⟩
    · simp [contained_exc]
    · simp [not_contained_builtin]
    · simp [not_contained_builtin]

theorem contained_parseQueryPlan_iff {raw : RawPlan} :
    Contained (parseQueryPlan env raw) ↔ ∀ t, raw.text? = some t →
      loads env.interp t ≠ .error .valueError ∧ loads env.interp t ≠ .error .recursionError := by
  have hpayload : Contained (parsePlanPayload env raw) ↔ ∀ t, raw.text? = some t →
      loads env.interp t ≠ .error .valueError ∧
        loads env.interp t ≠ .error .recursionError := by
    cases raw with
    | mapping entries => simp [parsePlanPayload, RawPlan.text?, contained_ok]
    | text t => simp [parsePlanPayload, RawPlan.text?, contained_parsePlanText_iff]
    | bytes b =>
      dsimp only [parsePlanPayload]
      cases hb : decodeUtf8 b with
      | none => simp [RawPlan.text?, hb, contained_exc]
      | some t => simp [RawPlan.text?, hb, contained_parsePlanText_iff]
  rw [parseQueryPlan, contained_bind_iff, hpayload]
  apply and_iff_left
  intro payload _
  cases parseQueryPlanModel env payload with
  | ok plan => exact contained_ok plan
  | error e => exact contained_exc _ _

theorem parseQueryPlan_printable {maxBytes : ℕ} {raw : RawPlan} {p : QueryPlan} {u : Unit}
    (hsize : validatePlanPayloadSize env maxBytes raw = .ok u)
    (h : parseQueryPlan env raw = .ok p) : ∀ x ∈ p.filters, x.Printable := by
  obtain ⟨payload, hpayload, h⟩ := bind_eq_ok.mp h
  have hencodable : ∃ depth, Encodable depth (.dict payload) := by
    have htext : ∀ t, parsePlanText env t = .ok payload → ∃ depth, Encodable depth (.dict payload) := by
      intro t ht
      unfold parsePlanText at ht
      split at ht
      · rename_i entries hloads
        obtain rfl := Except.ok.inj ht
        exact ⟨_, loads_ok hloads⟩
      all_goals cases ht
    cases raw with
    | mapping entries =>
      obtain rfl := Except.ok.inj hpayload
      obtain ⟨n, hn, -⟩ := bind_eq_ok.mp hsize
      exact ⟨_, payloadBytes_encodable hn⟩
    | text t => exact htext t hpayload
    | bytes b =>
      unfold parsePlanPayload at hpayload
      dsimp only at hpayload
      split at hpayload
      · exact htext _ hpayload
      · cases hpayload
  obtain ⟨depth, hdepth⟩ := hencodable
  split at h
  · rename_i plan hplan
    obtain rfl := Except.ok.inj h
    exact parseQueryPlanModel_printable hdepth hplan
  · cases h

/-! ## Duplicates -/

theorem contained_rejectDuplicateKeys_iff {α κ : Type} [DecidableEq κ] {label : String}
    {key : α → Py κ} {items : List α} {seen : List κ} :
    Contained (rejectDuplicateKeys label key items seen) ↔
      ∀ pre x post keys, items = pre ++ x :: post → pre.mapM key = .ok keys → keys.Nodup →
        (∀ k ∈ keys, k ∉ seen) → Contained (key x) := by
  induction items generalizing seen with
  | nil => simp [rejectDuplicateKeys, contained_ok]
  | cons a rest ih =>
    rw [rejectDuplicateKeys, contained_bind_iff]
    constructor
    · rintro ⟨ha, hrest⟩ pre x post keys hitems hkeys hnodup hseen
      cases pre with
      | nil =>
        obtain ⟨rfl, -⟩ : a = x ∧ rest = post := by simpa using hitems
        exact ha
      | cons b pre =>
        obtain ⟨rfl, hpost⟩ : a = b ∧ rest = pre ++ x :: post := by simpa using hitems
        rw [List.mapM_cons, bind_eq_ok] at hkeys
        obtain ⟨k, hk, hkeys⟩ := hkeys
        obtain ⟨ks, hks, hkeys⟩ := bind_eq_ok.mp hkeys
        obtain rfl : k :: ks = keys := by simpa using hkeys
        rw [List.nodup_cons] at hnodup
        have hnew := hrest k hk
        rw [raiseIf_neg (hseen k (by simp)), ok_bind, ih] at hnew
        refine hnew pre x post ks hpost hks hnodup.2 fun j hj => ?_
        rw [List.mem_cons, not_or]
        exact ⟨fun h => hnodup.1 (h ▸ hj), hseen j (by simp [hj])⟩
    · intro h
      refine ⟨h [] a rest [] rfl rfl List.nodup_nil (by simp), fun k hk => ?_⟩
      rw [contained_bind_iff]
      refine ⟨contained_raiseIf _ _ _, fun _ hnew => ?_⟩
      rw [raiseIf_eq_ok] at hnew
      refine ih.mpr fun pre x post keys hitems hkeys hnodup hseen => ?_
      have hmapM : (a :: pre).mapM key = .ok (k :: keys) := by
        rw [List.mapM_cons, hk, ok_bind, hkeys]
        rfl
      refine h (a :: pre) x post (k :: keys) (by rw [hitems]; rfl) hmapM ?_ ?_
      · exact List.nodup_cons.mpr ⟨fun hmem => hseen k hmem (by simp), hnodup⟩
      · intro j hj
        rcases List.mem_cons.mp hj with rfl | hj
        · exact hnew
        · exact fun hmem => hseen j hj (by simp [hmem])

theorem contained_filterKey_iff {x : FilterSpec} :
    Contained (filterKey env x) ↔ x.Printable := by
  by_cases h : x.Printable
  · obtain ⟨key, hkey⟩ : ∃ key, filterKey env x = .ok key := filterKey_ok h
    simp [hkey, h, contained_ok]
  · simp [filterKey_tooLong h, h, not_contained_builtin]

/-- The operands of a filter are printable when no earlier filter is repeated. -/
def PrintableFilters (env : Environment) (filters : List FilterSpec) : Prop :=
  ∀ pre x post keys, filters = pre ++ x :: post → pre.mapM (filterKey env) = .ok keys →
    keys.Nodup → x.Printable

theorem contained_rejectDuplicateFilters_iff {filters : List FilterSpec} :
    Contained (rejectDuplicateKeys "filter" (filterKey env) filters []) ↔
      PrintableFilters env filters := by
  simp [contained_rejectDuplicateKeys_iff, contained_filterKey_iff, PrintableFilters]

theorem contained_rejectPlain {α κ : Type} [DecidableEq κ] (label : String) (key : α → κ)
    (items : List α) : Contained (rejectDuplicateKeys label (fun a => .ok (key a)) items []) :=
  contained_rejectDuplicateKeys_iff.mpr fun _ x _ _ _ _ _ _ => contained_ok (key x)

theorem contained_rejectDuplicateInValues {x : FilterSpec} (h : x.Printable) :
    Contained (rejectDuplicateInValues env x) := by
  unfold rejectDuplicateInValues
  split
  · rename_i items _ hvalue
    refine contained_rejectDuplicateKeys_iff.mpr fun pre v post _ hitems _ _ _ => ?_
    obtain ⟨key, hkey⟩ : ∃ key, scalarKey env v = .ok key :=
      scalarKey_ok fun cls i hi => h cls i (by simp [hvalue, FilterValue.scalars, hitems, hi])
    rw [hkey]
    exact contained_ok key
  · exact contained_ok _

theorem contained_noDuplicates {p : QueryPlan} (h : PrintableFilters env p.filters) :
    Contained (validateNoMeaninglessDuplicates env p) := by
  unfold validateNoMeaninglessDuplicates
  simp only [contained_bind_iff]
  refine ⟨contained_rejectPlain _ _ _, fun _ _ => ⟨contained_rejectPlain _ _ _, fun _ _ =>
    ⟨contained_rejectPlain _ _ _, fun _ _ => ⟨contained_rejectDuplicateFilters_iff.mpr h,
      fun _ hfilters => contained_forM fun x hx => contained_rejectDuplicateInValues ?_⟩⟩⟩⟩
  obtain ⟨keys, hkeys, -, -⟩ := rejectDuplicateKeys_ok hfilters
  obtain ⟨key, -, hkey⟩ := exists_result_of_mapM hkeys hx
  exact contained_filterKey_iff.mp (hkey ▸ contained_ok key)

theorem printableFilters_of_contained {p : QueryPlan} (hselect : p.selectNames.Nodup)
    (hgroupBy : (p.groupBy.map GroupBySpec.fieldName).Nodup)
    (horderBy : (p.orderBy.map OrderBySpec.target).Nodup)
    (h : Contained (validateNoMeaninglessDuplicates env p)) : PrintableFilters env p.filters := by
  have hplain : ∀ {α κ : Type} [DecidableEq κ] {label : String} {key : α → κ} {items : List α},
      (items.map key).Nodup →
        rejectDuplicateKeys label (fun a => (.ok (key a) : Py κ)) items [] = .ok () := by
    intro α κ _ label key items hnodup
    refine rejectDuplicateKeys_of_nodup (mapM_eq_ok.mpr ?_) hnodup (by simp)
    rw [List.forall₂_map_right_iff, List.forall₂_same]
    exact fun _ _ => rfl
  simp only [validateNoMeaninglessDuplicates, contained_bind_iff] at h
  obtain ⟨-, h⟩ := h
  obtain ⟨-, h⟩ := h () (hplain (by simpa using hselect))
  obtain ⟨-, h⟩ := h () (hplain hgroupBy)
  obtain ⟨hfilters, -⟩ := h () (hplain horderBy)
  exact contained_rejectDuplicateFilters_iff.mp hfilters

/-! ## Plan errors -/

theorem contained_of_not_escapes {α : Type} {x : Py α} (h : ¬ Escapes isPlanValidationError x) :
    Contained x := by
  cases x with
  | ok a => exact contained_ok a
  | error e =>
    cases e with
    | askLens exc => exact .inr ⟨exc, rfl⟩
    | builtin e => exact absurd (escapes_error_iff.mpr rfl) h

theorem not_escapes_error_planInvalid {α : Type} (msg : String) :
    ¬ Escapes isPlanValidationError (.error (planInvalid msg) : Py α) := by
  rw [escapes_error_iff]
  exact Bool.noConfusion

/-! ## Members -/

section

variable {resource : SemanticResource} {limits : PlanLimits} {access : Access}

theorem not_escapes_shape (p : QueryPlan) :
    ¬ Escapes isPlanValidationError (validatePlanShape p) := by
  unfold validatePlanShape
  split
  · apply not_escapes_bind (not_escapes_raiseIf rfl)
    intro _
    apply not_escapes_bind (not_escapes_raiseIf rfl)
    intro _
    exact not_escapes_raiseIf rfl
  · apply not_escapes_bind (not_escapes_raiseIf rfl)
    intro _
    exact not_escapes_raiseIf rfl

theorem not_escapes_counts (p : QueryPlan) :
    ¬ Escapes isPlanValidationError (validateCounts p limits) := by
  unfold validateCounts
  apply not_escapes_bind (not_escapes_forM fun count _ => not_escapes_raiseIf rfl)
  intro _
  apply not_escapes_bind (not_escapes_raiseIf rfl)
  intro _
  apply not_escapes_bind (not_escapes_forM fun x _ => not_escapes_raiseIf rfl)
  intro _
  exact not_escapes_raiseIf rfl

theorem contained_fieldUsage (usage : FieldUsage) (name : PyStr) :
    Contained (validateFieldUsage limits access resource usage name) := by
  unfold validateFieldUsage
  split
  · exact contained_exc _ _
  · unfold checkFieldUsage
    simp only [contained_bind_iff]
    exact ⟨⟨contained_raiseIf _ _ _, fun _ _ => ⟨contained_raiseIf _ _ _, fun _ _ =>
      ⟨contained_raiseIf _ _ _, fun _ _ => ⟨contained_raiseIf _ _ _, fun _ _ =>
        ⟨contained_raiseIf _ _ _, fun _ _ => contained_raiseIf _ _ _⟩⟩⟩⟩⟩,
      fun _ _ => contained_ok _⟩

theorem contained_metrics (specs : List MetricSpec) (seen : List PyStr) :
    Contained (validateMetrics limits access resource specs seen) := by
  induction specs generalizing seen with
  | nil => exact contained_ok seen
  | cons spec rest ih =>
    rw [validateMetrics, contained_bind_iff]
    refine ⟨contained_raiseIf _ _ _, fun _ _ => ?_⟩
    split
    · exact contained_exc _ _
    · rw [contained_bind_iff, validateMetricUsage, contained_bind_iff]
      exact ⟨⟨contained_raiseIf _ _ _, fun _ _ => contained_raiseIf _ _ _⟩, fun _ _ => ih _⟩

/-- The metrics of the policy are known, because `validate_metrics` has passed. -/
theorem not_escapes_policy {p : QueryPlan} {names : List PyStr}
    (h : validateMetrics limits access resource p.metrics [] = .ok names) :
    ¬ Escapes isPlanValidationError (validateAggregateRelationshipPolicy resource p) := by
  obtain ⟨-, -, hknown, -⟩ := validateMetrics_ok h
  unfold validateAggregateRelationshipPolicy
  split
  · exact not_escapes_ok _
  · apply not_escapes_bind
    · apply not_escapes_mapM
      intro spec hspec
      obtain ⟨-, m, hm, -⟩ := hknown spec hspec
      rw [metricAt_ok.mpr hm]
      exact not_escapes_ok m
    · intro metrics
      apply not_escapes_bind (not_escapes_raiseIf rfl)
      intro _
      split_ifs
      · exact not_escapes_ok _
      · apply not_escapes_forM
        intro m _
        apply not_escapes_bind (not_escapes_raiseIf rfl)
        intro _
        exact not_escapes_raiseIf rfl

theorem contained_fields (p : QueryPlan) :
    Contained (validatePlanFields resource limits access p) := by
  unfold validatePlanFields
  simp only [contained_bind_iff]
  refine ⟨contained_forM fun name _ => ?_, fun _ _ => ⟨contained_forM fun x _ => ?_, fun _ _ =>
    ⟨contained_forM fun g _ => ?_, fun _ _ => ⟨contained_metrics _ _, fun names hnames =>
      ⟨contained_of_not_escapes (not_escapes_policy hnames),
        fun _ _ => contained_forM fun term _ => ?_⟩⟩⟩⟩⟩
  · rw [validateSelect, contained_bind_iff]
    exact ⟨contained_fieldUsage _ _, fun _ _ => contained_ok _⟩
  · rw [validateFilter, contained_bind_iff]
    exact ⟨contained_fieldUsage _ _, fun _ _ => contained_raiseIf _ _ _⟩
  · rw [validateGroupBy, contained_bind_iff]
    exact ⟨contained_fieldUsage _ _, fun _ _ => contained_raiseIf _ _ _⟩
  · unfold validateOrderTerm
    split
    · rw [contained_bind_iff]
      exact ⟨contained_fieldUsage _ _, fun _ _ => contained_raiseIf _ _ _⟩
    · exact contained_raiseIf _ _ _

/-! ## Normalization -/

theorem not_escapes_readText {α : Type} {read : List Char → Option α} {e : PyException}
    (he : isPlanValidationError e = true) (value : PyScalar) :
    ¬ Escapes isPlanValidationError (readText read e value) := by
  have herror : ¬ Escapes isPlanValidationError (.error e : Py α) := by
    rw [escapes_error_iff, he]
    exact Bool.noConfusion
  unfold readText
  split
  · split
    · exact not_escapes_ok _
    · exact herror
  · exact herror

theorem not_escapes_normalizeText {α : Type} {read : List Char → Option α}
    {write : α → List Char} {e : PyException} (he : isPlanValidationError e = true)
    (value : PyScalar) : ¬ Escapes isPlanValidationError (normalizeText read write e value) := by
  apply not_escapes_bind (not_escapes_readText he value)
  intro _
  exact not_escapes_ok _

theorem not_escapes_invalidFilterValue {α : Type} (f : FieldSpec) (detail : String) :
    ¬ Escapes isPlanValidationError (.error (invalidFilterValue f detail) : Py α) := by
  rw [escapes_error_iff]
  exact Bool.noConfusion

theorem not_escapes_wrongValueType {α : Type} (f : FieldSpec) :
    ¬ Escapes isPlanValidationError (.error (wrongValueType f) : Py α) := by
  rw [escapes_error_iff]
  unfold wrongValueType
  cases f.type <;> exact Bool.noConfusion

theorem not_escapes_normalizeCanonicalScalar (unicode : Unicode) (f : FieldSpec) (v : PyScalar) :
    ¬ Escapes isPlanValidationError (normalizeCanonicalScalar unicode f v) := by
  have hwrong : ¬ Escapes isPlanValidationError (.error (wrongValueType f) : Py PyScalar) :=
    not_escapes_wrongValueType f
  unfold normalizeCanonicalScalar
  split
  · split
    · exact not_escapes_ok _
    · exact hwrong
  · split
    · exact not_escapes_ok _
    · exact hwrong
  · split
    · exact not_escapes_ok _
    · exact hwrong
  · unfold normalizeDecimal
    split
    · split
      · exact not_escapes_invalidFilterValue _ _
      · exact not_escapes_invalidFilterValue _ _
      · exact not_escapes_ok _
    · exact not_escapes_invalidFilterValue _ _
    · exact hwrong
  · unfold normalizeFloat
    split
    · exact hwrong
    · split_ifs
      · exact not_escapes_ok _
      · exact not_escapes_invalidFilterValue _ _
  · exact not_escapes_normalizeText rfl v
  · exact not_escapes_normalizeText rfl v
  · exact not_escapes_normalizeText rfl v
  · unfold normalizeUuid
    split
    · split
      · exact not_escapes_ok _
      · exact hwrong
    · exact hwrong
  · unfold normalizeEnumScalar
    split
    · exact not_escapes_invalidFilterValue _ _
    · split
      · exact not_escapes_ok _
      · exact hwrong

theorem not_escapes_normalizedValue (unicode : Unicode) (f : FieldSpec) (x : FilterSpec) :
    ¬ Escapes isPlanValidationError (normalizedValue unicode f x) := by
  unfold normalizedValue
  split
  · rw [escapes_map_iff]
    apply not_escapes_mapM
    intro v _
    exact not_escapes_normalizeCanonicalScalar unicode f v
  · exact not_escapes_error_planInvalid _
  · rw [escapes_map_iff]
    exact not_escapes_normalizeCanonicalScalar unicode f _
  · exact not_escapes_wrongValueType f

theorem not_escapes_normalizeRange {α : Type} {normalize : PyScalar → Py PyScalar}
    {parse : PyScalar → Py α} {ordered : α → α → Bool} {disordered : PyException}
    {a b : PyScalar} (hdisordered : isPlanValidationError disordered = true)
    (hnormalize : ∀ v, ¬ Escapes isPlanValidationError (normalize v))
    (hparse : ∀ v, ¬ Escapes isPlanValidationError (parse v)) :
    ¬ Escapes isPlanValidationError (normalizeRange normalize parse ordered disordered a b) := by
  apply not_escapes_bind (hnormalize a)
  intro _
  apply not_escapes_bind (hnormalize b)
  intro _
  apply not_escapes_bind (hparse _)
  intro _
  apply not_escapes_bind (hparse _)
  intro _
  apply not_escapes_bind (not_escapes_raiseIf hdisordered)
  intro _
  exact not_escapes_ok _

theorem not_escapes_normalizeDateRangeFilter (f : FieldSpec) (value : FilterValue) :
    ¬ Escapes isPlanValidationError (normalizeDateRangeFilter f value) := by
  unfold normalizeDateRangeFilter
  split
  · split
    · rw [escapes_map_iff]
      apply not_escapes_normalizeRange rfl (fun v => not_escapes_normalizeText rfl v)
      intro v
      apply not_escapes_bind (not_escapes_normalizeText rfl v)
      intro _
      exact not_escapes_readText rfl _
    · rw [escapes_map_iff]
      apply not_escapes_normalizeRange rfl (fun v => not_escapes_normalizeText rfl v)
      intro v
      apply not_escapes_bind (not_escapes_normalizeText rfl v)
      intro _
      exact not_escapes_readText rfl _
    · exact not_escapes_invalidFilterValue _ _
  · exact not_escapes_error_planInvalid _

theorem not_escapes_normalizeFilterValue (unicode : Unicode) (f : FieldSpec) (x : FilterSpec) :
    ¬ Escapes isPlanValidationError (normalizeFilterValue unicode f x) := by
  unfold normalizeFilterValue
  split
  · exact not_escapes_ok x
  · exact not_escapes_ok x
  · exact not_escapes_ok x
  · apply not_escapes_bind (not_escapes_normalizeDateRangeFilter f x.value)
    intro _
    exact not_escapes_ok _
  · apply not_escapes_bind (not_escapes_normalizedValue unicode f x)
    intro value
    split_ifs
    · exact not_escapes_ok _
    · exact not_escapes_ok _

end

/-! ## Enum values -/

/-- The filter names an enum value that is an integer too long to print. -/
def NamesLongInteger (resource : SemanticResource) (x : FilterSpec) : Prop :=
  keepsValue x.op = false ∧ ∃ f definition cls i, resource.fields.get? x.field = some f ∧
    f.type = .enum ∧ f.enum = some definition ∧
    (∃ v ∈ x.value.scalars, definition.resolve v = some (.int cls i)) ∧ ¬ Printable i

/-- An integer is the normal form of itself or of a name in an enum. -/
theorem normalizeCanonicalScalar_int {unicode : Unicode} {f : FieldSpec} {v : PyScalar}
    {cls : PyClass} {i : ℤ} (h : normalizeCanonicalScalar unicode f v = .ok (.int cls i)) :
    v = .int cls i ∨
      (f.type = .enum ∧ ∃ d, f.enum = some d ∧ d.resolve v = some (.int cls i)) := by
  cases normalForm_of_ok h with
  | integer htype => exact .inl rfl
  | enum htype hd hw => exact .inr ⟨htype, _, hd, hw⟩

theorem printable_of_pyEq {cls : PyClass} {i : ℤ} {v : PyScalar}
    (hv : ∀ c j, v = .int c j → Printable j) (h : (PyScalar.int cls i).pyEq v = true) :
    Printable i := by
  have hbound : ∀ k ≤ maxStrDigits, i.natAbs < 2 ^ k → Printable i := by
    intro k hk hi
    rw [Printable, Nat.length_toDigits_le_iff (by decide) (by decide)]
    calc i.natAbs < 2 ^ k := hi
      _ ≤ 10 ^ k := Nat.pow_le_pow_left (by decide) k
      _ ≤ 10 ^ maxStrDigits := Nat.pow_le_pow_right (by decide) hk
  cases v with
  | str c s => cases h
  | int c j =>
    obtain rfl : i = j := by simpa [PyScalar.pyEq, PyScalar.asInt?] using h
    exact hv c i rfl
  | float x =>
    have hx : x.numEqInt i = true := h
    exact hbound 1024 (by decide) (Binary64.natAbs_lt_of_numEqInt hx)
  | bool b =>
    refine hbound 1 (by decide) ?_
    obtain rfl : i = if b = true then 1 else 0 := by
      simpa [PyScalar.pyEq, PyScalar.asInt?] using h
    cases b <;> norm_num

theorem Normalizes.scalars {unicode : Unicode} {f : FieldSpec} {old new : FilterValue}
    (h : Normalizes unicode f old new) :
    List.Forall₂ (fun v w => normalizeCanonicalScalar unicode f v = .ok w) old.scalars
      new.scalars := by
  cases h with
  | scalar h => exact .cons h .nil
  | list h => exact h

theorem pyEq_scalars {a b : FilterValue} (h : a.pyEq b = true) :
    List.Forall₂ (fun v w => v.pyEq w = true) a.scalars b.scalars := by
  cases a with
  | scalar v =>
    cases b with
    | scalar w => exact .cons h .nil
    | list ws => cases h
  | list vs =>
    cases b with
    | scalar w => cases h
    | list ws =>
      simp only [FilterValue.pyEq, Bool.and_eq_true, beq_iff_eq, List.all_eq_true] at h
      exact List.forall₂_iff_zip.mpr ⟨h.1, fun {v w} hvw => h.2 (v, w) hvw⟩

theorem normalizeRange_texts {α : Type} {normalize : PyScalar → Py PyScalar}
    {parse : PyScalar → Py α} {ordered : α → α → Bool} {e : PyException} {a b : PyScalar}
    {items : List PyScalar} (htext : ∀ v w, normalize v = .ok w → ∃ s, w = .str none s)
    (h : normalizeRange normalize parse ordered e a b = .ok items) :
    ∀ w ∈ items, ∃ s, w = .str none s := by
  simp only [normalizeRange, bind_eq_ok] at h
  obtain ⟨na, hna, nb, hnb, _, -, _, -, _, -, h⟩ := h
  obtain rfl := Except.ok.inj h
  intro w hw
  rcases List.mem_cons.mp hw with rfl | hw
  · exact htext _ _ hna
  · obtain rfl := List.mem_singleton.mp hw
    exact htext _ _ hnb

theorem normalizeDateRangeFilter_texts {f : FieldSpec} {old new : FilterValue}
    (h : normalizeDateRangeFilter f old = .ok new) :
    f.type.isDate = true ∧ ∀ w ∈ new.scalars, ∃ s, w = .str none s := by
  have htext : ∀ {α : Type} {read : List Char → Option α} {write : α → List Char}
      {e : PyException} (v w : PyScalar), normalizeText read write e v = .ok w →
      ∃ s, w = .str none s := by
    intro α read write e v w h
    obtain ⟨a, -, rfl⟩ := normalizeText_ok h
    exact ⟨_, rfl⟩
  unfold normalizeDateRangeFilter at h
  split at h
  · split at h
    · rename_i htype
      obtain ⟨items, hitems, rfl⟩ := map_list_ok h
      exact ⟨by rw [htype]; rfl, normalizeRange_texts htext hitems⟩
    · rename_i htype
      obtain ⟨items, hitems, rfl⟩ := map_list_ok h
      exact ⟨by rw [htype]; rfl, normalizeRange_texts htext hitems⟩
    · cases h
  · cases h

/-- A normalized filter cannot be printed exactly when it has named a long enum value. -/
theorem normalizeFilter_printable_iff {unicode : Unicode} {resource : SemanticResource}
    {x y : FilterSpec} (hx : x.Printable) (h : normalizeFilter unicode resource x = .ok y) :
    y.Printable ↔ ¬ NamesLongInteger resource x := by
  obtain ⟨f, hf, hy⟩ := normalizeFilter_ok.mp h
  rcases normalizeFilterValue_cases hy with ⟨hkeeps, rfl⟩ | ⟨hop, value, hvalue, rfl⟩ |
    ⟨hkeeps, hrange, value, hvalue, rfl⟩
  · simp [NamesLongInteger, hkeeps, hx]
  · obtain ⟨hdate, htexts⟩ := normalizeDateRangeFilter_texts hvalue
    refine iff_of_true (fun cls i hi => ?_) ?_
    · obtain ⟨s, hs⟩ := htexts _ hi
      cases hs
    · rintro ⟨-, g, _, _, _, hg, htype, -⟩
      obtain rfl : f = g := Option.some.inj (hf.symm.trans hg)
      rw [htype] at hdate
      cases hdate
  · have hscalars := (normalizedValue_ok hvalue).scalars
    constructor
    · rintro hprintable ⟨-, g, d, cls, i, hg, htype, hd, ⟨v, hv, hresolve⟩, hlong⟩
      obtain rfl : f = g := Option.some.inj (hf.symm.trans hg)
      apply hlong
      have hnormal : normalizeCanonicalScalar unicode f v = .ok (.int cls i) := by
        simp [normalizeCanonicalScalar, htype, normalizeEnumScalar, hd, hresolve]
      obtain ⟨w, hw, hvw⟩ := forall₂_mem_left hscalars hv
      obtain rfl : w = .int cls i := Except.ok.inj (hvw.symm.trans hnormal)
      split_ifs at hprintable with heq
      · obtain ⟨u, hu, hwu⟩ := forall₂_mem_left (pyEq_scalars heq) hw
        exact printable_of_pyEq (fun c j hj => hx c j (hj ▸ hu)) hwu
      · exact hprintable cls i hw
    · intro hshort
      split_ifs with heq
      · exact hx
      · intro cls i hi
        obtain ⟨v, hv, hvi⟩ := forall₂_mem_right hscalars hi
        rcases normalizeCanonicalScalar_int hvi with rfl | ⟨htype, d, hd, hresolve⟩
        · exact hx cls i hv
        · by_contra hlong
          exact hshort ⟨hkeeps, f, d, cls, i, hf, htype, hd, ⟨v, hv, hresolve⟩, hlong⟩

/-- Up to the first filter that repeats another one, no filter names a long integer. -/
def NamesPrintable (env : Environment) (resource : SemanticResource) (filters : List FilterSpec) :
    Prop :=
  ∀ pre x post ys keys, filters = pre ++ x :: post →
    pre.mapM (normalizeFilter env.unicode resource) = .ok ys → ys.mapM (filterKey env) = .ok keys →
    keys.Nodup → ¬ NamesLongInteger resource x

theorem printableFilters_iff {resource : SemanticResource} {xs ys : List FilterSpec}
    (hxs : ∀ x ∈ xs, x.Printable)
    (h : List.Forall₂ (fun x y => normalizeFilter env.unicode resource x = .ok y) xs ys) :
    PrintableFilters env ys ↔ NamesPrintable env resource xs := by
  constructor
  · rintro hys pre x post zs keys rfl hzs hkeys hnodup
    obtain ⟨zs', y, post', rfl, hpre, hxy⟩ := forall₂_split_left h
    obtain rfl : zs = zs' := Except.ok.inj (hzs.symm.trans (mapM_eq_ok.mpr hpre))
    rw [← normalizeFilter_printable_iff (hxs x (by simp)) hxy]
    exact hys zs y post' keys rfl hkeys hnodup
  · rintro hnames pre y post keys rfl hkeys hnodup
    obtain ⟨pre', x, post', rfl, hpre, hxy⟩ := forall₂_split_right h
    rw [normalizeFilter_printable_iff (hxs x (by simp)) hxy]
    exact hnames pre' x post' pre keys rfl (mapM_eq_ok.mpr hpre) hkeys hnodup

theorem printableFilters_of_forall {filters : List FilterSpec}
    (h : ∀ x ∈ filters, x.Printable) : PrintableFilters env filters := by
  rintro pre x post keys rfl - -
  exact h x (by simp)

/-! ## The validator -/

section

variable {resource : SemanticResource} {limits : PlanLimits} {access : Access}

theorem contained_beforeNormalization {p : QueryPlan} (hp : ∀ x ∈ p.filters, x.Printable) :
    Contained (validateBeforeNormalization env resource limits access p) := by
  have hduplicates : Contained (validateNoMeaninglessDuplicates env p) :=
    contained_noDuplicates (printableFilters_of_forall hp)
  unfold validateBeforeNormalization validatePlanLimits
  simp only [contained_bind_iff]
  exact ⟨contained_of_not_escapes (not_escapes_shape p), fun _ _ =>
    ⟨⟨contained_of_not_escapes (not_escapes_counts p), fun _ _ =>
    ⟨contained_raiseIf _ _ _, fun _ _ => hduplicates⟩⟩, fun _ _ => ⟨hduplicates,
      fun _ _ => contained_fields p⟩⟩⟩

/-- The checks before normalization leave no repetition and no unknown filter field. -/
theorem validateBeforeNormalization_ok {p : QueryPlan} {u : Unit}
    (h : validateBeforeNormalization env resource limits access p = .ok u) :
    NoDuplicates env p ∧ ∀ x ∈ p.filters, ∃ f, resource.fields.get? x.field = some f := by
  simp only [validateBeforeNormalization, validatePlanFields, bind_eq_ok] at h
  obtain ⟨_, -, _, -, _, hduplicates, _, -, _, hfilters, -⟩ := h
  refine ⟨validateNoMeaninglessDuplicates_ok hduplicates, fun x hx => ?_⟩
  obtain ⟨f, hf, -⟩ := bind_eq_ok.mp (forM_eq_ok.mp hfilters x hx)
  exact ⟨f, (validateFieldUsage_ok.mp hf).2.1⟩

theorem not_escapes_normalizeFilterValues {unicode : Unicode} {p : QueryPlan}
    (h : ∀ x ∈ p.filters, ∃ f, resource.fields.get? x.field = some f) :
    ¬ Escapes isPlanValidationError (normalizeFilterValues unicode resource p) := by
  apply not_escapes_bind
  · apply not_escapes_mapM
    intro x hx
    obtain ⟨f, hf⟩ := h x hx
    rw [normalizeFilter, fieldAt_ok.mpr hf, ok_bind]
    exact not_escapes_normalizeFilterValue unicode f x
  · intro filters
    split_ifs
    · exact not_escapes_ok _
    · exact not_escapes_ok _

/-- The second duplicate check is reached with the normal forms of the filters. -/
structure ReachesNormalForms (env : Environment) (resource : SemanticResource)
    (limits : PlanLimits) (access : Access) (p : QueryPlan) : Prop where
  permission : validateResourcePermission resource access.permissions = .ok ()
  checks : validateBeforeNormalization env resource limits access
    (withDefaults resource limits p) = .ok ()
  normalizes : ∃ q,
    normalizeFilterValues env.unicode resource (withDefaults resource limits p) = .ok q

theorem contained_validateForResource_iff {p : QueryPlan} (hp : ∀ x ∈ p.filters, x.Printable) :
    Contained (validateForResource env resource limits access p) ↔
      (ReachesNormalForms env resource limits access p →
        NamesPrintable env resource p.filters) := by
  unfold validateForResource
  simp only [contained_bind_iff]
  have hsecond : ∀ {u : Unit} {q : QueryPlan},
      validateBeforeNormalization env resource limits access (withDefaults resource limits p) =
        .ok u →
      normalizeFilterValues env.unicode resource (withDefaults resource limits p) = .ok q →
      (Contained (validateNoMeaninglessDuplicates env q) ↔
        NamesPrintable env resource p.filters) := by
    intro u q hchecks hq
    obtain ⟨hnodup, -⟩ := validateBeforeNormalization_ok hchecks
    obtain ⟨hforall, hsame⟩ := normalizeFilterValues_ok hq
    rw [← printableFilters_iff hp hforall]
    refine ⟨fun h => ?_, contained_noDuplicates⟩
    refine printableFilters_of_contained ?_ ?_ ?_ h
    · rw [hsame]
      exact hnodup.select
    · rw [hsame]
      exact hnodup.groupBy
    · rw [hsame]
      exact hnodup.orderBy
  constructor
  · rintro ⟨-, h⟩ ⟨hpermission, hchecks, q, hq⟩
    obtain ⟨-, h⟩ := h () hpermission
    obtain ⟨-, h⟩ := h () hchecks
    obtain ⟨h, -⟩ := h q hq
    exact (hsecond hchecks hq).mp h
  · intro h
    refine ⟨contained_raiseIf _ _ _, fun _ hpermission => ⟨contained_beforeNormalization hp,
      fun _ hchecks => ⟨contained_of_not_escapes
        (not_escapes_normalizeFilterValues (validateBeforeNormalization_ok hchecks).2),
        fun q hq => ⟨?_, fun _ _ => contained_ok q⟩⟩⟩⟩
    exact (hsecond hchecks hq).mpr (h ⟨hpermission, hchecks, q, hq⟩)

end

theorem contained_get {registry : CatalogRegistry env} (name : String) :
    Contained (registry.get name) := by
  unfold CatalogRegistry.get normalizeResourceName
  rw [contained_bind_iff]
  refine ⟨?_, fun _ _ => ?_⟩
  · dsimp only
    split_ifs
    · exact contained_exc _ _
    · exact contained_ok _
  · split
    · exact contained_ok _
    · exact contained_exc _ _

/-- The payload keeps the `json` module and the printing of integers within their limits. -/
structure Tractable {env : Environment} (registry : CatalogRegistry env) (limits : PlanLimits)
    (access : Access) (raw : RawPlan) : Prop where
  nesting : ∀ entries, raw = .mapping entries →
    dumps env.interp (.dict entries) ≠ .error .recursionError
  decoding : validatePlanPayloadSize env limits.maxPlanBytes raw = .ok () →
    ∀ t, raw.text? = some t →
      loads env.interp t ≠ .error .valueError ∧ loads env.interp t ≠ .error .recursionError
  names : validatePlanPayloadSize env limits.maxPlanBytes raw = .ok () →
    ∀ p resource, parseQueryPlan env raw = .ok p → registry.get p.resource = .ok resource →
      ReachesNormalForms env resource limits access p → NamesPrintable env resource p.filters

theorem contained_parse_iff (registry : CatalogRegistry env) (limits : PlanLimits)
    (access : Access) (raw : RawPlan) :
    Contained (parseAndValidateQueryPlan registry limits access raw) ↔
      Tractable registry limits access raw := by
  have hsize : Contained (validatePlanPayloadSize env limits.maxPlanBytes raw) ↔
      ∀ entries, raw = .mapping entries →
        dumps env.interp (.dict entries) ≠ .error .recursionError := by
    rw [validatePlanPayloadSize, contained_bind_iff, contained_payloadBytes_iff]
    exact and_iff_left fun _ _ => contained_raiseIf _ _ _
  unfold parseAndValidateQueryPlan validateQueryPlan
  simp only [contained_bind_iff, hsize, contained_parseQueryPlan_iff]
  constructor
  · rintro ⟨hnesting, h⟩
    refine ⟨hnesting, fun hsize => (h () hsize).1, fun hsize p resource hp hresource => ?_⟩
    have hcontained := ((h () hsize).2 p hp).2 resource hresource
    exact (contained_validateForResource_iff (parseQueryPlan_printable hsize hp)).mp hcontained
  · rintro ⟨hnesting, hdecoding, hnames⟩
    refine ⟨hnesting, fun _ hsize => ⟨hdecoding hsize, fun p hp => ⟨contained_get _,
      fun resource hresource => ?_⟩⟩⟩
    rw [contained_validateForResource_iff (parseQueryPlan_printable hsize hp)]
    exact hnames hsize p resource hp hresource

/-- Parsing is total, and the public facade lets nothing escape, exactly on tractable payloads. -/
theorem parse_total_iff (registry : CatalogRegistry env) (limits : PlanLimits) (access : Access)
    (raw : RawPlan) :
    (Contained (parseAndValidateQueryPlan registry limits access raw) ↔
        Tractable registry limits access raw) ∧
      ((∀ e, publicOutcome (parseAndValidateQueryPlan registry limits access raw) ≠ .escaped e) ↔
        Tractable registry limits access raw) := by
  have h := contained_parse_iff registry limits access raw
  exact ⟨h, contained_iff_not_escaped.symm.trans h⟩

/-- A JSON integer of 4301 digits. -/
theorem long_integer_escapes :
    ¬ Contained (parseAndValidateQueryPlan (.empty Sample.environment) Sample.limits
      (.ofPermissions []) (.text (List.replicate 4301 0x31))) := by
  have hescapes : parseAndValidateQueryPlan (.empty Sample.environment) Sample.limits
      (.ofPermissions []) (.text (List.replicate 4301 0x31)) =
        .error (.builtin .valueError) := by
    decide +kernel
  rw [hescapes]
  exact not_contained_builtin _

/-- A text with few brackets and without a long run of digits is decoded or refused. -/
theorem text_contained {registry : CatalogRegistry env} {limits : PlanLimits} {access : Access}
    {t : PyText} (hbrackets : openings t ≤ env.interp.recursionLimit) (hdigits : ¬ LongRun t)
    (hnames : ∀ resource, resource ∈ registry.resources.values → ∀ x,
      ¬ NamesLongInteger resource x) :
    Contained (parseAndValidateQueryPlan registry limits access (.text t)) := by
  refine (contained_parse_iff _ _ _ _).mpr ⟨by simp, fun _ t' ht' => ?_, ?_⟩
  · obtain rfl : t = t' := Option.some.inj ht'
    constructor
    · intro h
      rcases loads_error h with h | ⟨-, h⟩ | ⟨h, -⟩
      · cases h
      · exact hdigits h
      · cases h
    · intro h
      rcases loads_error h with h | ⟨h, -⟩ | ⟨-, h⟩
      · cases h
      · cases h
      · omega
  · intro _ p resource _ hresource _ _ x _ _ _ _ _ _ _
    have hmem := (CatalogRegistry.get_ok hresource).1
    exact hnames resource (List.mem_map.mpr ⟨_, hmem, rfl⟩) x

end AskLens.Planning
