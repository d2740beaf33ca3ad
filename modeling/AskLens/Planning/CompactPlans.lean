import AskLens.Compiler.PostedPlans
import AskLens.Planning.ProviderResponses
import AskLens.Python.JsonRoundTrip
import Mathlib.Algebra.Order.BigOperators.Group.List

/-!
# Compact plans

A provider may repeat the grouping of an aggregate plan in its `select`. The
repetition is dropped before validation: what was a valid plan keeps its
meaning, and what becomes one only asked for keys that its groups return anyway.
-/
namespace AskLens.Planning

open Python Catalog Checks Compiler

variable {env : Environment} {entries : Entries} {key : String}

/-! ## Payloads without a key -/

theorem isKey_iff {v : PyObj} : isKey key v = true ↔ ∃ cls, v = .str cls key := by
  cases v <;> simp [isKey]

theorem popKey_cons (v w : PyObj) (rest : Entries) :
    popKey ((v, w) :: rest) key =
      if isKey key v = true then popKey rest key else (v, w) :: popKey rest key := by
  unfold popKey
  rw [List.filter_cons]
  cases isKey key v <;> rfl

theorem lookupKey_cons (v w : PyObj) (rest : Entries) (name : String) :
    lookupKey ((v, w) :: rest) name = if isKey name v = true then some w else lookupKey rest name := by
  cases v <;> simp [lookupKey, isKey]

theorem lookupKey_popKey (entries : Entries) (key name : String) :
    lookupKey (popKey entries key) name = if name = key then none else lookupKey entries name := by
  induction entries with
  | nil => simp [popKey, lookupKey]
  | cons entry rest ih =>
    obtain ⟨v, w⟩ := entry
    rw [popKey_cons, lookupKey_cons]
    by_cases hkey : isKey key v = true
    · obtain ⟨cls, rfl⟩ := isKey_iff.mp hkey
      rw [if_pos hkey, ih]
      by_cases hname : name = key
      · rw [if_pos hname, if_pos hname]
      · have hother : isKey name (.str cls key) = false := by
          simp [isKey, Ne.symm hname]
        rw [if_neg hname, if_neg hname, hother]
        simp
    · rw [if_neg hkey, lookupKey_cons, ih]
      by_cases hname : isKey name v = true
      · have hother : name ≠ key := by
          rintro rfl
          exact hkey hname
        rw [if_pos hname, if_neg hother, if_pos hname]
      · rw [if_neg hname, if_neg hname]

theorem forbidExtra_popKey {allowed : List String} (h : forbidExtra env allowed entries = .ok ()) :
    forbidExtra env allowed (popKey entries key) = .ok () := by
  induction entries with
  | nil => rfl
  | cons entry rest ih =>
    obtain ⟨v, w⟩ := entry
    cases v with
    | str cls s =>
      unfold forbidExtra at h
      split_ifs at h with hallowed
      · rw [popKey_cons]
        split_ifs with hkey
        · exact ih h
        · rw [forbidExtra, if_pos hallowed]
          exact ih h
      · cases h
    | _ => cases h

/-- A plan whose `select` is dropped from the payload is read without it. -/
theorem parseQueryPlanModel_popKey {p : QueryPlan} (h : parseQueryPlanModel env entries = .ok p) :
    parseQueryPlanModel env (popKey entries "select") = .ok { p with selectNames? := none } := by
  have hlookup : ∀ name, name ≠ "select" →
      lookupKey (popKey entries "select") name = lookupKey entries name := by
    intro name hname
    rw [lookupKey_popKey, if_neg hname]
  have hselect : lookupKey (popKey entries "select") "select" = none := by
    rw [lookupKey_popKey, if_pos rfl]
  unfold parseQueryPlanModel required optional at h ⊢
  simp only [hlookup _ (show "resource" ≠ "select" by decide),
    hlookup _ (show "intent" ≠ "select" by decide),
    hlookup _ (show "filters" ≠ "select" by decide),
    hlookup _ (show "group_by" ≠ "select" by decide),
    hlookup _ (show "metrics" ≠ "select" by decide),
    hlookup _ (show "order_by" ≠ "select" by decide),
    hlookup _ (show "limit" ≠ "select" by decide), hselect, ok_bind]
  simp only [bind_eq_ok] at h ⊢
  obtain ⟨resource, hresource, intent, hintent, filters?, hfilters, groupBy?, hgroupBy, metrics?,
    hmetrics, select?, -, orderBy?, horderBy, limit?, hlimit, _, hextra, h⟩ := h
  obtain rfl := Except.ok.inj h
  exact ⟨resource, hresource, intent, hintent, filters?, hfilters, groupBy?, hgroupBy, metrics?,
    hmetrics, orderBy?, horderBy, limit?, hlimit, (), forbidExtra_popKey hextra, rfl⟩

/-! ## Smaller payloads -/

theorem sublist_joinComma {parts kept : List PyText} (h : kept.Sublist parts) :
    (joinComma kept).Sublist (joinComma parts) := by
  induction h with
  | slnil => exact List.Sublist.refl _
  | @cons kept parts part _ ih =>
    rw [joinComma_cons]
    split_ifs with hempty
    · rw [hempty] at ih
      exact ih.trans (List.nil_sublist _)
    · exact (ih.cons _).trans (List.sublist_append_right _ _)
  | @cons_cons kept parts part hkept ih =>
    rw [joinComma_cons, joinComma_cons]
    apply List.Sublist.append_left
    by_cases hkeptEmpty : kept = []
    · rw [if_pos hkeptEmpty]
      exact List.nil_sublist _
    · have hparts : parts ≠ [] := by
        rintro rfl
        exact hkeptEmpty (List.sublist_nil.mp hkept)
      rw [if_neg hkeptEmpty, if_neg hparts]
      exact ih.cons_cons _

theorem encodedLength_sublist {s t : PyText} (h : s.Sublist t) {n : ℕ}
    (ht : t.encodedLength = some n) : ∃ m ≤ n, s.encodedLength = some m := by
  unfold PyText.encodedLength at ht ⊢
  split_ifs at ht with hany
  cases ht
  refine ⟨(s.map utf8Width).sum, ?_, if_neg fun hs => hany ?_⟩
  · exact (h.map utf8Width).sum_le_sum (by simp)
  · obtain ⟨c, hc, hsurrogate⟩ := List.any_eq_true.mp hs
    exact List.any_eq_true.mpr ⟨c, h.subset hc, hsurrogate⟩

theorem mapM_filter {α β ε : Type} {items : List α} {f : α → Except ε β} {results : List β}
    (keep : α → Bool) (h : items.mapM f = .ok results) :
    ∃ kept, (items.filter keep).mapM f = .ok kept ∧ kept.Sublist results := by
  have hforall := mapM_eq_ok.mp h
  clear h
  induction hforall with
  | nil => exact ⟨[], rfl, List.Sublist.refl _⟩
  | @cons a b rest results hhead _ ih =>
    obtain ⟨kept, hkept, hsublist⟩ := ih
    rw [List.filter_cons]
    split_ifs
    · refine ⟨b :: kept, ?_, hsublist.cons_cons b⟩
      rw [List.mapM_cons, hhead, hkept]
      rfl
    · exact ⟨kept, hkept, hsublist.cons b⟩

theorem payloadBytes_filter {n : ℕ} (keep : PyObj × PyObj → Bool)
    (h : payloadBytes env (.mapping entries) = .ok n) :
    ∃ m ≤ n, payloadBytes env (.mapping (entries.filter keep)) = .ok m := by
  obtain ⟨text, htext, hlength⟩ := payloadBytes_mapping_ok.mp h
  obtain ⟨depth, hdepth⟩ := Nat.exists_eq_succ_of_ne_zero env.interp.recursionLimit_pos.ne'
  rw [dumps, hdepth] at htext
  obtain ⟨parts, hparts, htext⟩ := bind_eq_ok.mp htext
  obtain rfl := Except.ok.inj htext
  obtain ⟨kept, hkept, hsublist⟩ := mapM_filter keep hparts
  have hshorter : (0x7B :: (joinComma kept ++ [0x7D])).Sublist
      (0x7B :: (joinComma parts ++ [0x7D])) :=
    ((sublist_joinComma hsublist).append_right _).cons_cons _
  obtain ⟨m, hm, hkeptLength⟩ := encodedLength_sublist hshorter hlength
  refine ⟨m, hm, payloadBytes_mapping_ok.mpr ⟨_, ?_, hkeptLength⟩⟩
  rw [dumps, hdepth]
  exact bind_eq_ok.mpr ⟨kept, hkept, rfl⟩

theorem validatePlanPayloadSize_popKey {maxBytes : ℕ}
    (h : validatePlanPayloadSize env maxBytes (.mapping entries) = .ok ()) :
    validatePlanPayloadSize env maxBytes (.mapping (popKey entries key)) = .ok () := by
  obtain ⟨n, hn, hmax⟩ := bind_eq_ok.mp h
  obtain ⟨m, hm, hcount⟩ := payloadBytes_filter (fun entry => !isKey key entry.1) hn
  rw [raiseIf_eq_ok] at hmax
  unfold validatePlanPayloadSize popKey
  rw [hcount, ok_bind, raiseIf_eq_ok]
  omega

/-! ## Plans without a select -/

/-- The plan without the member `select`. -/
def QueryPlan.dropSelect (p : QueryPlan) : QueryPlan := { p with selectNames? := none }

variable {p : QueryPlan}

theorem validateBeforeNormalization_dropSelect (resource : SemanticResource) (limits : PlanLimits)
    (access : Access) (h : p.selectNames = []) :
    validateBeforeNormalization env resource limits access p.dropSelect =
      validateBeforeNormalization env resource limits access p := by
  obtain ⟨name, intent, filters?, groupBy?, metrics?, select?, orderBy?, limit?⟩ := p
  cases select? with
  | none => rfl
  | some items =>
    obtain rfl : items = [] := h
    rfl

theorem withDefaults_dropSelect (resource : SemanticResource) (limits : PlanLimits)
    (p : QueryPlan) :
    withDefaults resource limits p.dropSelect = (withDefaults resource limits p).dropSelect := rfl

theorem normalizeFilterValues_dropSelect {unicode : Unicode} {resource : SemanticResource}
    {q : QueryPlan} (h : normalizeFilterValues unicode resource p = .ok q) :
    normalizeFilterValues unicode resource p.dropSelect = .ok q.dropSelect := by
  obtain ⟨filters, hfilters, h⟩ := bind_eq_ok.mp h
  apply bind_eq_ok.mpr
  refine ⟨filters, hfilters, ?_⟩
  by_cases hsame : filters = p.filters
  · rw [if_pos hsame] at h
    obtain rfl := Except.ok.inj h
    exact if_pos hsame
  · rw [if_neg hsame] at h
    obtain rfl := Except.ok.inj h
    exact if_neg hsame

/-- A plan that selects nothing is validated alike without an empty `select`. -/
theorem validateForResource_dropSelect {resource : SemanticResource} {limits : PlanLimits}
    {access : Access} {q : QueryPlan} (h : p.selectNames = [])
    (hvalid : validateForResource env resource limits access p = .ok q) :
    validateForResource env resource limits access p.dropSelect = .ok q.dropSelect := by
  obtain ⟨_, hpermission, hvalid⟩ := bind_eq_ok.mp hvalid
  obtain ⟨_, hchecks, hvalid⟩ := bind_eq_ok.mp hvalid
  obtain ⟨normalized, hnormalized, hvalid⟩ := bind_eq_ok.mp hvalid
  obtain ⟨_, hduplicates, hvalid⟩ := bind_eq_ok.mp hvalid
  obtain rfl := Except.ok.inj hvalid
  have hselected : normalized.selectNames = [] := by
    rw [(normalizeFilterValues_ok hnormalized).2]
    exact h
  unfold validateForResource
  rw [hpermission, ok_bind]
  simp only [withDefaults_dropSelect, validateBeforeNormalization_dropSelect resource limits access
    (show (withDefaults resource limits p).selectNames = [] from h), hchecks, ok_bind,
    normalizeFilterValues_dropSelect hnormalized]
  have hsame : validateNoMeaninglessDuplicates env normalized.dropSelect =
      validateNoMeaninglessDuplicates env normalized := by
    unfold validateNoMeaninglessDuplicates
    rw [hselected]
    rfl
  rw [hsame, hduplicates, ok_bind]

/-- Whether `select` is given as an empty list or not at all, the plan means the same. -/
theorem modelDump_dropSelect (h : p.selectNames = []) : p.dropSelect.modelDump = p.modelDump := by
  obtain ⟨name, intent, filters?, groupBy?, metrics?, select?, orderBy?, limit?⟩ := p
  cases select? with
  | none => rfl
  | some items =>
    obtain rfl : items = [] := h
    rfl

theorem compilePreparedQuery_dropSelect (h : p.selectNames = []) (resource : SemanticResource)
    (now : Clock) :
    compilePreparedQuery env resource p.dropSelect now = compilePreparedQuery env resource p now := by
  obtain ⟨name, intent, filters?, groupBy?, metrics?, select?, orderBy?, limit?⟩ := p
  cases select? with
  | none => rfl
  | some items =>
    obtain rfl : items = [] := h
    rfl

/-! ## Normalization -/

theorem normalizeCompactQueryPlan_cases (plan : Entries) :
    normalizeCompactQueryPlan plan = plan ∨
      (∃ cls, lookupKey plan "intent" = some (.str cls "aggregate")) ∧
        isGroupByDuplicateSelect (lookupKey plan "select") (lookupKey plan "group_by") = true ∧
          normalizeCompactQueryPlan plan = popKey plan "select" := by
  unfold normalizeCompactQueryPlan
  split_ifs with hkept hduplicate
  · exact .inl rfl
  · rw [not_or, Bool.not_eq_false] at hkept
    obtain ⟨v, hv, hkey⟩ := (Option.any_eq_true _ _).mp hkept.1
    obtain ⟨cls, rfl⟩ := isKey_iff.mp hkey
    exact .inr ⟨⟨cls, hv⟩, hduplicate, rfl⟩
  · exact .inl rfl

theorem normalizeCompactQueryPlan_idem (plan : Entries) :
    normalizeCompactQueryPlan (normalizeCompactQueryPlan plan) = normalizeCompactQueryPlan plan := by
  rcases normalizeCompactQueryPlan_cases plan with hsame | ⟨-, -, hpopped⟩
  · rw [hsame, hsame]
  · rw [hpopped]
    unfold normalizeCompactQueryPlan
    rw [if_pos]
    right
    rw [lookupKey_popKey, if_pos rfl]

variable {registry : CatalogRegistry env} {limits : PlanLimits} {access : Access}

theorem parseAndValidate_steps {raw : RawPlan} :
    parseAndValidateQueryPlan registry limits access raw = .ok p ↔
      validatePlanPayloadSize env limits.maxPlanBytes raw = .ok () ∧
        ∃ plan resource, parseQueryPlan env raw = .ok plan ∧
          registry.get plan.resource = .ok resource ∧
            validateForResource env resource limits access plan = .ok p := by
  simp only [parseAndValidateQueryPlan, validateQueryPlan, bind_eq_ok]
  constructor
  · rintro ⟨_, hsize, plan, hplan, resource, hresource, h⟩
    exact ⟨hsize, plan, resource, hplan, hresource, h⟩
  · rintro ⟨hsize, plan, resource, hplan, hresource, h⟩
    exact ⟨(), hsize, plan, hplan, resource, hresource, h⟩

theorem parseQueryPlan_mapping {plan : QueryPlan} :
    parseQueryPlan env (.mapping entries) = .ok plan ↔
      parseQueryPlanModel env entries = .ok plan := by
  unfold parseQueryPlan parsePlanPayload
  rw [ok_bind]
  cases parseQueryPlanModel env entries with
  | ok plan => simp
  | error e => simp

/-- Everything but the filters is as it was read, up to the defaults. -/
theorem validateForResource_shape {resource : SemanticResource} {plan : QueryPlan}
    (h : validateForResource env resource limits access plan = .ok p) :
    p.intent = plan.intent ∧ p.selectNames? = plan.selectNames? ∧ p.groupBy? = plan.groupBy? ∧
      validatePlanShape p = .ok () := by
  obtain ⟨_, -, h⟩ := bind_eq_ok.mp h
  obtain ⟨_, hchecks, h⟩ := bind_eq_ok.mp h
  obtain ⟨normalized, hnormalized, h⟩ := bind_eq_ok.mp h
  obtain ⟨_, -, h⟩ := bind_eq_ok.mp h
  obtain rfl := Except.ok.inj h
  obtain ⟨_, hshape, -⟩ := bind_eq_ok.mp hchecks
  rw [(normalizeFilterValues_ok hnormalized).2]
  exact ⟨rfl, rfl, rfl, hshape⟩

theorem select_of_aggregate {p : QueryPlan} (hshape : validatePlanShape p = .ok ())
    (hintent : p.intent = .aggregate) : p.selectNames = [] := by
  unfold validatePlanShape at hshape
  rw [hintent] at hshape
  obtain ⟨_, hselect, -⟩ := bind_eq_ok.mp hshape
  rw [raiseIf_eq_ok, not_not] at hselect
  exact hselect

theorem intent_of_payload {cls : PyClass} (h : parseQueryPlanModel env entries = .ok p)
    (hlookup : lookupKey entries "intent" = some (.str cls "aggregate")) :
    p.intent = .aggregate := by
  simp only [parseQueryPlanModel, bind_eq_ok] at h
  obtain ⟨resource, -, intent, hintent, filters?, -, groupBy?, -, metrics?, -, select?, -, orderBy?,
    -, limit?, -, _, -, h⟩ := h
  obtain rfl := Except.ok.inj h
  obtain ⟨v, hv, hparse⟩ := required_ok hintent
  cases hlookup.symm.trans hv
  exact (Except.ok.inj hparse).symm

/-- An accepted plan is accepted without its redundant `select`, and means the same. -/
theorem accepted_popKey {plan : Entries} {cls : PyClass}
    (hlookup : lookupKey plan "intent" = some (.str cls "aggregate"))
    (h : parseAndValidateQueryPlan registry limits access (.mapping plan) = .ok p) :
    p.selectNames = [] ∧ parseAndValidateQueryPlan registry limits access
      (.mapping (popKey plan "select")) = .ok p.dropSelect := by
  obtain ⟨hsize, parsed, resource, hparsed, hresource, hvalid⟩ := parseAndValidate_steps.mp h
  rw [parseQueryPlan_mapping] at hparsed
  obtain ⟨hintent, hselect, -, hshape⟩ := validateForResource_shape hvalid
  have hempty : p.selectNames = [] :=
    select_of_aggregate hshape (hintent.trans (intent_of_payload hparsed hlookup))
  refine ⟨hempty, parseAndValidate_steps.mpr ?_⟩
  refine ⟨validatePlanPayloadSize_popKey hsize, parsed.dropSelect, resource, ?_, hresource, ?_⟩
  · exact parseQueryPlan_mapping.mpr (parseQueryPlanModel_popKey hparsed)
  · apply validateForResource_dropSelect _ hvalid
    rw [QueryPlan.selectNames, ← hselect]
    exact hempty

/-! ## What is dropped -/

/-- The payload's `select` only repeats keys that the groups of the plan return. -/
structure RepeatsGroups (payload : Entries) (p : QueryPlan) : Prop where
  intent : p.intent = .aggregate
  select : p.selectNames = []
  items : ∃ items, lookupKey payload "select" = some (.list items) ∧
    ∀ item ∈ items, ∃ t, strText? item = some t ∧
      (PyStr.ofText t).strip ∈ p.groupBy.map GroupBySpec.fieldName

theorem parseItems_mem {α : Type} {item : PyObj → Parse α} {i : ℕ} {items : List PyObj}
    {as : List α} (h : parseItems item i items = .ok as) :
    ∀ v ∈ items, ∃ a ∈ as, item v = .ok a :=
  fun _ hv => forall₂_mem_left (parseItems_forall₂ h) hv

theorem optional_of_lookup {α : Type} {name : String} {parse : PyObj → Parse α} {v : PyObj}
    {o : Option α} (hlookup : lookupKey entries name = some v)
    (h : optional entries name parse = .ok o) : ∃ a, o = some a ∧ parse v = .ok a := by
  unfold optional at h
  rw [hlookup] at h
  cases hparse : parse v with
  | error e => simp [hparse, under, Except.map] at h
  | ok a => exact ⟨a, by simpa [hparse, Except.map] using h.symm, rfl⟩

theorem parseStr_strText {v : PyObj} {s : PyStr} (h : parseStr v = .ok s) :
    ∃ t, strText? v = some t ∧ PyStr.ofText t = s := by
  cases v with
  | str cls text =>
    obtain rfl := Except.ok.inj h
    exact ⟨_, rfl, PyStr.ofText_ofString text⟩
  | surrogates t =>
    obtain rfl := Except.ok.inj h
    exact ⟨t, rfl, rfl⟩
  | _ => cases h

theorem parseName_strip {label : String} {name : PyStr} {v : PyObj}
    (h : parseName label v = .ok name) :
    ∃ t, strText? v = some t ∧ (PyStr.ofText t).strip = name := by
  obtain ⟨s, hs, h⟩ := bind_eq_ok.mp h
  obtain ⟨t, ht, rfl⟩ := parseStr_strText hs
  unfold validateNonEmptyString at h
  split_ifs at h with hempty
  · cases h
  · exact ⟨t, ht, Except.ok.inj h⟩

/-- The text of a group is the name that its specification has. -/
theorem groupField_of_parse {v : PyObj} {g : GroupBySpec} (h : parseGroupBySpec env v = .ok g) :
    ∃ t, groupField? v = some t ∧ (PyStr.ofText t).strip = g.fieldName := by
  simp only [parseGroupBySpec, bind_eq_ok] at h
  obtain ⟨entries, hentries, field, hfield, trunc, -, _, -, h⟩ := h
  obtain rfl := Except.ok.inj h
  obtain ⟨w, hw, hname⟩ := required_ok hfield
  obtain ⟨s, hs, hstrip⟩ := parseName_strip hname
  refine ⟨s, ?_, hstrip⟩
  cases v with
  | dict es =>
    obtain rfl := Except.ok.inj hentries
    rw [groupField?, hw, Option.bind_some, hs]
  | _ => cases hentries

theorem repeats_of_duplicate {payload : Entries} {parsed : QueryPlan}
    (hduplicate : isGroupByDuplicateSelect (lookupKey payload "select")
      (lookupKey payload "group_by") = true)
    (hparsed : parseQueryPlanModel env (popKey payload "select") = .ok parsed) :
    ∃ items, lookupKey payload "select" = some (.list items) ∧
      ∀ item ∈ items, ∃ t, strText? item = some t ∧
        (PyStr.ofText t).strip ∈ parsed.groupBy.map GroupBySpec.fieldName := by
  unfold isGroupByDuplicateSelect at hduplicate
  split at hduplicate
  · exact ⟨[], ‹_›, by simp⟩
  · rename_i items _ hselect
    split at hduplicate
    · rename_i groups hgroups
      refine ⟨items, hselect, fun item hitem => ?_⟩
      have hany := List.all_eq_true.mp hduplicate item hitem
      obtain ⟨t, ht, hcontains⟩ := (Option.any_eq_true _ _).mp hany
      obtain ⟨group, hgroup, hfield⟩ :=
        List.mem_filterMap.mp (List.contains_iff_mem.mp hcontains)
      -- the groups were parsed, so each of them is a specification of the plan
      simp only [parseQueryPlanModel, bind_eq_ok] at hparsed
      obtain ⟨resource, -, intent, -, filters?, -, groupBy?, hgroupBy, metrics?, -, select?, -,
        orderBy?, -, limit?, -, _, -, hparsed⟩ := hparsed
      obtain rfl := Except.ok.inj hparsed
      obtain ⟨specs, rfl, hspecs⟩ := optional_of_lookup
        (by rw [lookupKey_popKey, if_neg (by decide), hgroups]) hgroupBy
      obtain ⟨g, hg, hparse⟩ := parseItems_mem hspecs group hgroup
      obtain ⟨u, hu, hstrip⟩ := groupField_of_parse hparse
      cases hu.symm.trans hfield
      exact ⟨t, ht, List.mem_map.mpr ⟨g, hg, hstrip.symm⟩⟩
    · cases hduplicate
  · cases hduplicate

/-- Dropping the redundant `select` of a compact plan is done once and for all. It keeps the
meaning of every valid plan, and a plan is valid because of it only when the `select` repeats keys
of the groups. -/
theorem compact_plan_keeps_meaning (registry : CatalogRegistry env) (limits : PlanLimits)
    (access : Access) (payload : Entries) :
    normalizeCompactQueryPlan (normalizeCompactQueryPlan payload) =
        normalizeCompactQueryPlan payload ∧
      (∀ p, parseAndValidateQueryPlan registry limits access (.mapping payload) = .ok p →
        ∃ q, parseAndValidateQueryPlan registry limits access
            (.mapping (normalizeCompactQueryPlan payload)) = .ok q ∧
          q.modelDump = p.modelDump ∧ ∀ resource now,
            compilePreparedQuery env resource q now = compilePreparedQuery env resource p now) ∧
      ∀ q, parseAndValidateQueryPlan registry limits access
          (.mapping (normalizeCompactQueryPlan payload)) = .ok q →
        parseAndValidateQueryPlan registry limits access (.mapping payload) = .ok q ∨
          RepeatsGroups payload q := by
  refine ⟨normalizeCompactQueryPlan_idem payload, fun p h => ?_, fun q h => ?_⟩
  · rcases normalizeCompactQueryPlan_cases payload with hsame | ⟨⟨cls, hlookup⟩, -, hpopped⟩
    · rw [hsame]
      exact ⟨p, h, rfl, fun _ _ => rfl⟩
    · obtain ⟨hempty, haccepted⟩ := accepted_popKey hlookup h
      rw [hpopped]
      exact ⟨p.dropSelect, haccepted, modelDump_dropSelect hempty,
        compilePreparedQuery_dropSelect hempty⟩
  · rcases normalizeCompactQueryPlan_cases payload with hsame | ⟨⟨cls, hlookup⟩, hduplicate, hpopped⟩
    · rw [hsame] at h
      exact .inl h
    · rw [hpopped] at h
      obtain ⟨-, parsed, resource, hparsed, -, hvalid⟩ := parseAndValidate_steps.mp h
      rw [parseQueryPlan_mapping] at hparsed
      obtain ⟨hintent, -, hgroupBy, hshape⟩ := validateForResource_shape hvalid
      have haggregate : q.intent = .aggregate := by
        rw [hintent]
        apply intent_of_payload hparsed
        rw [lookupKey_popKey, if_neg (by decide)]
        exact hlookup
      have hgroups : q.groupBy = parsed.groupBy := by
        rw [QueryPlan.groupBy, hgroupBy, QueryPlan.groupBy]
      refine .inr ⟨haggregate, select_of_aggregate hshape haggregate, ?_⟩
      rw [hgroups]
      exact repeats_of_duplicate hduplicate hparsed

end AskLens.Planning
