import AskLens.Planning.Schemas

/-!
# Dumping and reparsing

What the schema parser establishes about a plan, and the dump without unset
members. A well-formed plan whose operands are built-in scalars is read back
from its dump unchanged.
-/
namespace AskLens.Planning

open Python Catalog Checks

variable {α : Type}

/-! ## Well-formed plans -/

/-- A stripped text that is not empty. -/
structure IsName (s : PyStr) : Prop where
  stripped : s.strip = s
  ne : s ≠ ""

theorem isName_text {s : String} : IsName s ↔ strip s = s ∧ s ≠ "" := by
  constructor
  · intro h
    exact ⟨PyStr.text.inj h.stripped, fun hempty => h.ne (congrArg PyStr.text hempty)⟩
  · intro h
    exact ⟨congrArg PyStr.text h.1, fun hempty => h.2 (PyStr.text.inj hempty)⟩

instance (s : String) : Decidable (IsName s) := decidable_of_iff _ isName_text.symm

theorem IsName.shown {s : PyStr} (h : IsName s) : IsName s.shown :=
  isName_text.mpr ⟨by rw [← PyStr.shown_strip, h.stripped], PyStr.shown_ne_empty h.ne⟩

/-- All scalars of the value are instances of built-in classes. -/
def FilterValue.IsPlain : FilterValue → Prop
  | .scalar v => v.plain = v
  | .list items => ∀ v ∈ items, v.plain = v

/-- The values that an operator takes. -/
def TakesValue : FilterOperator → FilterValue → Prop
  | .isnull, value => ∃ b, value = .scalar (.bool b)
  | .in, value => ∃ v items, value = .list (v :: items)
  | .dateRange, value => ∃ c s d t, value = .list [.str c s, .str d t] ∧ s ≠ "" ∧ t ≠ ""
  | .lastNDays, value | .lastNMonths, value => ∃ c n, value = .scalar (.int c n) ∧ 1 ≤ n
  | .contains, value | .icontains, value => ∃ c s, value = .scalar (.str c s) ∧ s ≠ ""
  | _, value => ∃ v, value = .scalar v

theorem validateFilterValue_eq_none {op : FilterOperator} {value : FilterValue} :
    validateFilterValue op value = none ↔ TakesValue op value := by
  unfold validateFilterValue
  cases op with
  | isnull =>
    dsimp only [TakesValue]
    split
    · simp
    · rename_i hother
      exact iff_of_false nofun fun ⟨b, hb⟩ => hother b hb
  | «in» =>
    dsimp only [TakesValue]
    split
    · simp
    · rename_i hother
      exact iff_of_false nofun fun ⟨v, items, hitems⟩ => hother v items hitems
  | dateRange =>
    dsimp only [TakesValue]
    split
    · rename_i c s d t
      split_ifs with hempty
      · refine iff_of_false nofun ?_
        rintro ⟨c', s', d', t', hsame, hs, ht⟩
        cases hsame
        exact hempty.elim hs ht
      · rw [not_or] at hempty
        exact iff_of_true rfl ⟨c, s, d, t, rfl, hempty.1, hempty.2⟩
    · rename_i hother
      exact iff_of_false nofun fun ⟨c, s, d, t, hpair, _⟩ => by
        cases hpair
        exact hother c s d t rfl rfl
    · rename_i hother
      exact iff_of_false nofun fun ⟨c, s, d, t, hpair, _⟩ => hother _ _ hpair
  | contains | icontains =>
    dsimp only [TakesValue]
    split
    · rename_i c s
      split_ifs with hempty <;> simp [hempty]
    · rename_i hother
      exact iff_of_false nofun fun ⟨c, s, hs, _⟩ => hother c s hs
  | lastNDays | lastNMonths =>
    dsimp only [TakesValue]
    split
    · rename_i c n
      split_ifs with hsmall <;> simp <;> omega
    · rename_i hother
      exact iff_of_false nofun fun ⟨c, n, hn, _⟩ => hother c n hn
  | _ => cases value <;> simp [TakesValue]

structure FilterSpec.WellFormed (f : FilterSpec) : Prop where
  field : IsName f.fieldName
  value : validateFilterValue f.op f.value = none
  plain : f.value.IsPlain

def OrderTarget.name : OrderTarget → PyStr
  | .field name => name
  | .metric name => name

structure QueryPlan.WellFormed (p : QueryPlan) : Prop where
  resource : IsName p.resourceName
  filters : ∀ f ∈ p.filters, f.WellFormed
  groupBy : ∀ g ∈ p.groupBy, IsName g.fieldName
  metrics : ∀ m ∈ p.metrics, IsName m.metricName
  select : ∀ name ∈ p.selectNames, IsName name
  orderBy : ∀ o ∈ p.orderBy, IsName o.target.name
  limit : ∀ n, p.limit? = some n → 1 ≤ n

/-! ## What the parsers establish -/

theorem required_ok {entries : Entries} {key : String} {parse : PyObj → Parse α} {a : α}
    (h : required entries key parse = .ok a) :
    ∃ v, lookupKey entries key = some v ∧ parse v = .ok a := by
  unfold required at h
  rw [under_eq_ok] at h
  split at h
  · exact ⟨_, by assumption, h⟩
  · cases h

theorem optional_ok {entries : Entries} {key : String} {parse : PyObj → Parse α} {o : Option α}
    (h : optional entries key parse = .ok o) :
    ∀ a, o = some a → ∃ v, lookupKey entries key = some v ∧ parse v = .ok a := by
  rintro a rfl
  unfold optional at h
  split at h
  · rename_i v hv
    cases hparse : parse v with
    | error e => simp [hparse, under, Except.map] at h
    | ok b =>
      obtain rfl : b = a := by simpa [hparse, Except.map] using h
      exact ⟨v, hv, hparse⟩
  · cases h

theorem parseItems_forall₂ {item : PyObj → Parse α} {i : ℕ} {items : List PyObj} {as : List α}
    (h : parseItems item i items = .ok as) :
    List.Forall₂ (fun v a => item v = .ok a) items as := by
  induction items generalizing i as with
  | nil =>
    obtain rfl : [] = as := by simpa [parseItems] using h
    exact .nil
  | cons v rest ih =>
    obtain ⟨a, ha, h⟩ := bind_eq_ok.mp h
    obtain ⟨bs, hbs, h⟩ := bind_eq_ok.mp h
    obtain rfl : a :: bs = as := by simpa using h
    exact .cons (under_eq_ok.mp ha) (ih hbs)

theorem parseItems_ok {item : PyObj → Parse α} {i : ℕ} {items : List PyObj} {as : List α}
    (h : parseItems item i items = .ok as) : ∀ a ∈ as, ∃ v ∈ items, item v = .ok a :=
  fun _ ha => forall₂_mem_right (parseItems_forall₂ h) ha

theorem parseTuple_ok {item : PyObj → Parse α} {v : PyObj} {as : List α}
    (h : parseTuple item v = .ok as) :
    ∃ items, sequence? v = some items ∧ ∀ a ∈ as, ∃ w ∈ items, item w = .ok a := by
  unfold parseTuple at h
  split at h
  · exact ⟨_, by assumption, parseItems_ok h⟩
  · cases h

theorem validateNonEmptyString_ok {label : String} {value s : PyStr}
    (h : validateNonEmptyString label value = .ok s) : IsName s := by
  unfold validateNonEmptyString at h
  split_ifs at h with hempty
  · cases h
  · obtain rfl : value.strip = s := by simpa using h
    exact ⟨value.strip_strip, hempty⟩

theorem parseName_ok {label : String} {s : PyStr} {v : PyObj} (h : parseName label v = .ok s) : IsName s := by
  obtain ⟨raw, -, h⟩ := bind_eq_ok.mp h
  exact validateNonEmptyString_ok h

theorem parseOptional_ok {item : PyObj → Parse α} {v : PyObj} {a : α}
    (h : parseOptional item v = .ok (some a)) : item v = .ok a := by
  unfold parseOptional at h
  split at h
  · cases h
  · cases hitem : item v with
    | error e => simp [hitem, Except.map] at h
    | ok b => simpa [hitem, Except.map] using h

theorem parseScalar_plain {v : PyObj} {s : PyScalar} (h : parseScalar v = .ok s) :
    s.plain = s := by
  unfold parseScalar at h
  split at h
  · obtain rfl := Except.ok.inj h
    rfl
  · obtain rfl := Except.ok.inj h
    rfl
  · obtain rfl := Except.ok.inj h
    rfl
  · cases hs : parseStr v with
    | error e => simp [hs, under, Except.map] at h
    | ok t =>
      obtain rfl : PyScalar.str none t = s := by simpa [hs, Except.map] using h
      rfl

/-- A value is a scalar that was read, or a list of scalars that were read from its items. -/
theorem parseJsonValue_ok {v : PyObj} {value : FilterValue} (h : parseJsonValue v = .ok value) :
    (∃ s, parseScalar v = .ok s ∧ value = .scalar s) ∨
      ∃ items scalars, sequence? v = some items ∧ items.mapM parseScalar = .ok scalars ∧
        value = .list scalars := by
  have hscalar : (parseScalar v).map FilterValue.scalar = .ok value →
      ∃ s, parseScalar v = .ok s ∧ value = .scalar s := by
    intro h
    cases hs : parseScalar v with
    | error e => simp [hs, Except.map] at h
    | ok s => exact ⟨s, rfl, by simpa [hs, Except.map, eq_comm] using h⟩
  unfold parseJsonValue at h
  split at h
  · rename_i items hitems
    split at h
    · rename_i scalars hscalars
      exact .inr ⟨items, scalars, hitems, hscalars, (Except.ok.inj h).symm⟩
    · exact .inl (hscalar h)
  · exact .inl (hscalar h)

theorem parseJsonValue_plain {v : PyObj} {value : FilterValue}
    (h : parseJsonValue v = .ok value) : value.IsPlain := by
  rcases parseJsonValue_ok h with ⟨s, hs, rfl⟩ | ⟨items, scalars, -, hscalars, rfl⟩
  · exact parseScalar_plain hs
  · intro s hs
    obtain ⟨w, -, hw⟩ := exists_of_mem_mapM hscalars hs
    exact parseScalar_plain hw

theorem parseFilterSpec_ok {env : Environment} {v : PyObj} {f : FilterSpec}
    (h : parseFilterSpec env v = .ok f) : f.WellFormed := by
  simp only [parseFilterSpec, bind_eq_ok] at h
  obtain ⟨entries, -, field, hfield, op, -, value, hvalue, _, -, h⟩ := h
  obtain ⟨w, -, hw⟩ := required_ok hfield
  obtain ⟨u, -, hu⟩ := required_ok hvalue
  split at h
  · cases h
  · rename_i hvalid
    obtain rfl : FilterSpec.mk field op value = f := by simpa using h
    exact ⟨parseName_ok hw, hvalid, parseJsonValue_plain hu⟩

theorem parseGroupBySpec_ok {env : Environment} {v : PyObj} {g : GroupBySpec}
    (h : parseGroupBySpec env v = .ok g) : IsName g.fieldName := by
  simp only [parseGroupBySpec, bind_eq_ok] at h
  obtain ⟨entries, -, field, hfield, dateTrunc, -, _, -, h⟩ := h
  obtain ⟨w, -, hw⟩ := required_ok hfield
  obtain rfl : GroupBySpec.mk field dateTrunc = g := by simpa using h
  exact parseName_ok hw

theorem parseMetricSpec_ok {env : Environment} {v : PyObj} {m : MetricSpec}
    (h : parseMetricSpec env v = .ok m) : IsName m.metricName := by
  simp only [parseMetricSpec, bind_eq_ok] at h
  obtain ⟨entries, -, metric, hmetric, _, -, h⟩ := h
  obtain ⟨w, -, hw⟩ := required_ok hmetric
  obtain rfl : MetricSpec.mk metric = m := by simpa using h
  exact parseName_ok hw

theorem optionalName_ok {entries : Entries} {key label : String} {s : PyStr}
    {o : Option (Option PyStr)} (h : optional entries key (parseOptional (parseName label)) = .ok o)
    (ho : o.join = some s) : IsName s := by
  obtain rfl := Option.join_eq_some_iff.mp ho
  obtain ⟨v, -, hv⟩ := optional_ok h (some s) rfl
  exact parseName_ok (parseOptional_ok hv)

theorem parseOrderBySpec_ok {env : Environment} {v : PyObj} {o : OrderBySpec}
    (h : parseOrderBySpec env v = .ok o) : IsName o.target.name := by
  simp only [parseOrderBySpec, bind_eq_ok] at h
  obtain ⟨entries, -, field, hfield, metric, hmetric, direction, -, _, -, h⟩ := h
  split at h
  · rename_i name hname _
    obtain rfl := Except.ok.inj h
    exact optionalName_ok hfield hname
  · rename_i name _ hname
    obtain rfl := Except.ok.inj h
    exact optionalName_ok hmetric hname
  · cases h

theorem parseLimit_ok {v : PyObj} {n : ℤ} (h : parseLimit v = .ok n) : 1 ≤ n := by
  obtain ⟨limit, -, h⟩ := bind_eq_ok.mp h
  split_ifs at h with hlt
  · cases h
  · obtain rfl : limit = n := by simpa using h
    omega

/-- Every item of an optional tuple satisfies what its parser establishes. -/
theorem optionalTuple_ok {entries : Entries} {key : String} {item : PyObj → Parse α}
    {o : Option (List α)} {P : α → Prop} (hitem : ∀ v a, item v = .ok a → P a)
    (h : optional entries key (parseTuple item) = .ok o) : ∀ a ∈ o.getD [], P a := by
  intro a ha
  cases o with
  | none => simp at ha
  | some as =>
    obtain ⟨v, -, hv⟩ := optional_ok h as rfl
    obtain ⟨items, -, hitems⟩ := parseTuple_ok hv
    obtain ⟨w, -, hw⟩ := hitems a (by simpa using ha)
    exact hitem w a hw

theorem parseSelect_ok {v : PyObj} {names : List PyStr} (h : parseSelect v = .ok names) :
    ∀ name ∈ names, IsName name := by
  obtain ⟨items, -, h⟩ := bind_eq_ok.mp h
  intro name hname
  obtain ⟨raw, -, hraw⟩ := exists_of_mem_mapM h hname
  exact validateNonEmptyString_ok hraw

theorem parseQueryPlanModel_ok {env : Environment} {entries : Entries} {p : QueryPlan}
    (h : parseQueryPlanModel env entries = .ok p) : p.WellFormed := by
  simp only [parseQueryPlanModel, bind_eq_ok] at h
  obtain ⟨resource, hresource, intent, -, filters, hfilters, groupBy, hgroupBy, metrics, hmetrics,
    select, hselect, orderBy, horderBy, limit, hlimit, _, -, h⟩ := h
  obtain rfl := Except.ok.inj h
  obtain ⟨v, -, hv⟩ := required_ok hresource
  refine
    { resource := parseName_ok hv
      filters := optionalTuple_ok (fun v a => parseFilterSpec_ok) hfilters
      groupBy := optionalTuple_ok (fun v a => parseGroupBySpec_ok) hgroupBy
      metrics := optionalTuple_ok (fun v a => parseMetricSpec_ok) hmetrics
      select := ?_
      orderBy := optionalTuple_ok (fun v a => parseOrderBySpec_ok) horderBy
      limit := ?_ }
  · intro name hname
    cases select with
    | none => simp [QueryPlan.selectNames] at hname
    | some names =>
      obtain ⟨w, -, hw⟩ := optional_ok hselect names rfl
      exact parseSelect_ok hw name (by simpa [QueryPlan.selectNames] using hname)
  · intro n hn
    obtain ⟨w, -, hw⟩ := optional_ok hlimit n hn
    exact parseLimit_ok hw

/-! ## Dumps -/

def textObj (s : String) : PyObj := .str none s

def nameObj (name : PyStr) : PyObj := name.toObj none

def member (key : String) (dump : α → PyObj) (o : Option α) : Entries :=
  (o.map fun a => (textObj key, dump a)).toList

def FilterValue.dump : FilterValue → PyObj
  | .scalar v => v.plain.toObj
  | .list items => .list (items.map fun v => v.plain.toObj)

def FilterSpec.dump (f : FilterSpec) : PyObj :=
  .dict (member "field" nameObj (some f.fieldName) ++
    member "op" (fun op => textObj (operatorName op)) (some f.op) ++
    member "value" FilterValue.dump (some f.value))

def dumpNullable (dump : α → PyObj) : Option α → PyObj
  | none => .null
  | some a => dump a

def GroupBySpec.dump (g : GroupBySpec) : PyObj :=
  .dict (member "field" nameObj (some g.fieldName) ++
    member "date_trunc" (dumpNullable fun t => textObj (DateTrunc.name t)) g.dateTrunc?)

def MetricSpec.dump (m : MetricSpec) : PyObj := .dict (member "metric" nameObj (some m.metricName))

/-- The members `field` and `metric` as the payload gave them. -/
def OrderBySpec.targets (o : OrderBySpec) : Option (Option PyStr) × Option (Option PyStr) :=
  match o.target with
  | .field name => (some (some name), if o.otherNull then some none else none)
  | .metric name => (if o.otherNull then some none else none, some (some name))

def OrderBySpec.dump (o : OrderBySpec) : PyObj :=
  .dict (member "field" (dumpNullable nameObj) o.targets.1 ++
    member "metric" (dumpNullable nameObj) o.targets.2 ++
    member "direction" (fun d => textObj d.name) o.direction?)

def dumpList (dump : α → PyObj) (items : List α) : PyObj := .list (items.map dump)

/-- `plan.model_dump(mode="json", exclude_unset=True)`. -/
def QueryPlan.dump (p : QueryPlan) : Entries :=
  member "resource" nameObj (some p.resourceName) ++
    member "intent" (fun i => textObj (Intent.name i)) (some p.intent) ++
    member "filters" (dumpList FilterSpec.dump) p.filters? ++
    member "group_by" (dumpList GroupBySpec.dump) p.groupBy? ++
    member "metrics" (dumpList MetricSpec.dump) p.metrics? ++
    member "select" (dumpList nameObj) p.selectNames? ++
    member "order_by" (dumpList OrderBySpec.dump) p.orderBy? ++
    member "limit" (fun n => PyObj.int none n) p.limit?

/-! ## Reading entries back -/

theorem lookupKey_append (a b : Entries) (key : String) :
    lookupKey (a ++ b) key = (lookupKey a key).or (lookupKey b key) := by
  induction a with
  | nil => rfl
  | cons e rest ih =>
    obtain ⟨k, v⟩ := e
    cases k <;> simp only [List.cons_append, lookupKey, ih]
    split_ifs
    · rfl
    · rfl

theorem lookupKey_member (key name : String) (dump : α → PyObj) (o : Option α) :
    lookupKey (member name dump o) key = if name = key then o.map dump else none := by
  cases o <;> simp [member, lookupKey, textObj]

theorem forbidExtra_append {env : Environment} {allowed : List String} (a b : Entries)
    (ha : forbidExtra env allowed a = .ok ()) :
    forbidExtra env allowed (a ++ b) = forbidExtra env allowed b := by
  induction a with
  | nil => rfl
  | cons e rest ih =>
    obtain ⟨k, v⟩ := e
    cases k <;> simp only [List.cons_append, forbidExtra, under, fail] at ha ⊢
    all_goals try cases ha
    split_ifs at ha ⊢
    exact ih ha

theorem forbidExtra_member {env : Environment} {allowed : List String} {name : String}
    (h : name ∈ allowed) (dump : α → PyObj) (o : Option α) :
    forbidExtra env allowed (member name dump o) = .ok () := by
  cases o <;> simp [member, forbidExtra, textObj, h]

theorem required_eq {entries : Entries} {k : String} {parse : PyObj → Parse α} {v : PyObj}
    {a : α} (hlookup : lookupKey entries k = some v) (hparse : parse v = .ok a) :
    required entries k parse = .ok a := by
  simp [required, hlookup, hparse]

theorem optional_eq {entries : Entries} {k : String} {parse : PyObj → Parse α}
    {d : α → PyObj} {o : Option α} (hlookup : lookupKey entries k = o.map d)
    (hparse : ∀ a, o = some a → parse (d a) = .ok a) :
    optional entries k parse = .ok o := by
  unfold optional
  rw [hlookup]
  cases o with
  | none => rfl
  | some a => simp [hparse a rfl, Except.map]

theorem parseItems_dump {item : PyObj → Parse α} {dump : α → PyObj} {items : List α}
    (h : ∀ a ∈ items, item (dump a) = .ok a) (i : ℕ) :
    parseItems item i (items.map dump) = .ok items := by
  induction items generalizing i with
  | nil => rfl
  | cons a rest ih =>
    simp [parseItems, h a (by simp), ih (fun b hb => h b (by simp [hb]))]

theorem parseTuple_dump {item : PyObj → Parse α} {dump : α → PyObj} {items : List α}
    (h : ∀ a ∈ items, item (dump a) = .ok a) :
    parseTuple item (dumpList dump items) = .ok items :=
  parseItems_dump h 0

theorem parseStr_nameObj (s : PyStr) : parseStr (nameObj s) = .ok s := by
  cases s with
  | text s => rfl
  | surrogates t lone => exact congrArg Except.ok (PyStr.ofText_of_lone lone)

theorem parseName_nameObj {s : PyStr} (h : IsName s) (label : String) :
    parseName label (nameObj s) = .ok s := by
  rw [parseName, parseStr_nameObj, ok_bind, validateNonEmptyString, h.stripped, if_neg h.ne]

theorem parseNullableName_dump {label : String} {o : Option PyStr}
    (h : ∀ s, o = some s → IsName s) :
    parseOptional (parseName label) (dumpNullable nameObj o) = .ok o := by
  cases o with
  | none => rfl
  | some s =>
    have hs := parseName_nameObj (h s rfl) label
    have hnull : parseOptional (parseName label) (nameObj s) =
        (parseName label (nameObj s)).map some := by
      cases s <;> rfl
    rw [dumpNullable, hnull, hs, Except.map]

theorem parseShownName_textObj {s : String} (h : IsName s) (label : String) :
    parseShownName label (textObj s) = .ok s := by
  have hname : parseName label (textObj s) = .ok (.text s) := parseName_nameObj h label
  rw [parseShownName, hname, Except.map, PyStr.shown_text]

theorem parseLiteral_operator (op : FilterOperator) :
    parseLiteral supportedFilterOperators operatorName (textObj (operatorName op)) = .ok op := by
  cases op <;> rfl

theorem parseLiteral_intent (i : Intent) :
    parseLiteral supportedIntents Intent.name (textObj i.name) = .ok i := by
  cases i <;> rfl

theorem parseLiteral_direction (d : OrderDirection) :
    parseLiteral supportedOrderDirections OrderDirection.name (textObj d.name) = .ok d := by
  cases d <;> rfl

theorem parseNullableTrunc_dump (t : Option DateTrunc) :
    parseOptional (parseLiteral supportedDateTruncs DateTrunc.name)
      (dumpNullable (fun t => textObj (DateTrunc.name t)) t) = .ok t := by
  rcases t with _ | t
  · rfl
  · cases t <;> rfl

theorem parseScalar_toObj {v : PyScalar} (h : v.plain = v) : parseScalar v.toObj = .ok v := by
  cases v with
  | str cls s =>
    obtain rfl : none = cls := by simpa [PyScalar.plain] using h
    cases s with
    | text s => rfl
    | surrogates t lone =>
      exact congrArg (fun s => Except.ok (PyScalar.str none s)) (PyStr.ofText_of_lone lone)
  | int cls i =>
    obtain rfl : none = cls := by simpa [PyScalar.plain] using h
    rfl
  | float x => rfl
  | bool b => rfl

theorem parseJsonValue_dump {value : FilterValue} (h : value.IsPlain) :
    parseJsonValue value.dump = .ok value := by
  cases value with
  | scalar v =>
    have hv : v.plain = v := h
    have hnot : sequence? v.toObj = none := PyScalar.sequence?_toObj v
    simp [FilterValue.dump, hv, parseJsonValue, hnot, parseScalar_toObj hv, Except.map]
  | list items =>
    have hitems : (items.map fun v => v.plain.toObj).mapM parseScalar = .ok items := by
      induction items with
      | nil => rfl
      | cons v rest ih =>
        have hv : v.plain = v := h v (by simp)
        have hrest := ih fun w hw => h w (by simp [hw])
        simp only [List.map_cons, List.mapM_cons, hv, parseScalar_toObj hv, ok_bind, hrest, pure_eq]
    simp [FilterValue.dump, parseJsonValue, sequence?, hitems]

theorem parseFilterSpec_dump (env : Environment) {f : FilterSpec} (h : f.WellFormed) :
    parseFilterSpec env f.dump = .ok f := by
  obtain ⟨field, op, value⟩ := f
  have hfield := parseName_nameObj h.field "filter field"
  have hvalue := parseJsonValue_dump h.plain
  simp only [FilterSpec.dump, parseFilterSpec, modelEntries, ok_bind]
  rw [required_eq (k := "field") (by simp [lookupKey_append, lookupKey_member]) hfield,
    required_eq (k := "op") (by simp [lookupKey_append, lookupKey_member])
      (parseLiteral_operator op),
    required_eq (k := "value") (by simp [lookupKey_append, lookupKey_member]) hvalue]
  rw [forbidExtra_append _ _ (by
      rw [forbidExtra_append _ _ (forbidExtra_member (by simp) _ _)]
      exact forbidExtra_member (by simp) _ _),
    forbidExtra_member (by simp)]
  have hvalid := h.value
  simp only at hvalid
  simp [hvalid]

theorem parseGroupBySpec_dump (env : Environment) {g : GroupBySpec} (h : IsName g.fieldName) :
    parseGroupBySpec env g.dump = .ok g := by
  obtain ⟨field, dateTrunc?⟩ := g
  simp only [GroupBySpec.dump, parseGroupBySpec, modelEntries, ok_bind]
  rw [required_eq (k := "field") (by simp [lookupKey_append, lookupKey_member])
      (parseName_nameObj h "group_by field"),
    optional_eq (k := "date_trunc") (o := dateTrunc?)
      (by simp [lookupKey_append, lookupKey_member])
      (fun t _ => parseNullableTrunc_dump t),
    forbidExtra_append _ _ (forbidExtra_member (by simp) _ _), forbidExtra_member (by simp)]
  rfl

theorem parseMetricSpec_dump (env : Environment) {m : MetricSpec} (h : IsName m.metricName) :
    parseMetricSpec env m.dump = .ok m := by
  simp only [MetricSpec.dump, parseMetricSpec, modelEntries, ok_bind]
  rw [required_eq (k := "metric") (by simp [lookupKey_member])
      (parseName_nameObj h "metric"), forbidExtra_member (by simp)]
  rfl

theorem parseOrderBySpec_dump (env : Environment) {o : OrderBySpec} (h : IsName o.target.name) :
    parseOrderBySpec env o.dump = .ok o := by
  have hnames : ∀ t, (o.targets.1 = some t ∨ o.targets.2 = some t) → ∀ s, t = some s →
      IsName s := by
    rintro t ht s rfl
    unfold OrderBySpec.targets at ht
    cases htarget : o.target <;> simp only [htarget] at ht h
    all_goals
      rcases ht with ht | ht
      all_goals
        first
        | (obtain rfl : _ = s := by simpa using ht
           exact h)
        | (split_ifs at ht; simp at ht)
  simp only [OrderBySpec.dump, parseOrderBySpec, modelEntries, ok_bind]
  rw [optional_eq (k := "field") (o := o.targets.1) (d := dumpNullable nameObj)
      (by simp [lookupKey_append, lookupKey_member])
      (fun t ht => parseNullableName_dump (hnames t (.inl ht))),
    optional_eq (k := "metric") (o := o.targets.2) (d := dumpNullable nameObj)
      (by simp [lookupKey_append, lookupKey_member])
      (fun t ht => parseNullableName_dump (hnames t (.inr ht))),
    optional_eq (k := "direction") (o := o.direction?) (d := fun d => textObj d.name)
      (by simp [lookupKey_append, lookupKey_member])
      (fun d _ => parseLiteral_direction d)]
  rw [forbidExtra_append _ _ (by
      rw [forbidExtra_append _ _ (forbidExtra_member (by simp) _ _)]
      exact forbidExtra_member (by simp) _ _),
    forbidExtra_member (by simp)]
  obtain ⟨target, otherNull, direction?⟩ := o
  cases target <;> cases otherNull <;> rfl

theorem parseSelect_dump {names : List PyStr} (h : ∀ name ∈ names, IsName name) :
    parseSelect (dumpList nameObj names) = .ok names := by
  have hread : parseTuple parseStr (dumpList nameObj names) = .ok names :=
    parseTuple_dump fun name _ => parseStr_nameObj name
  have hstrip : names.mapM (validateNonEmptyString "select field") = .ok names := by
    rw [mapM_eq_ok]
    clear hread
    induction names with
    | nil => exact .nil
    | cons name rest ih =>
      have hname := h name (by simp)
      refine .cons ?_ (ih fun s hs => h s (by simp [hs]))
      simp [validateNonEmptyString, hname.stripped, hname.ne]
  rw [parseSelect, hread, ok_bind, hstrip]

theorem parseLimit_dump {n : ℤ} (h : 1 ≤ n) : parseLimit (.int none n) = .ok n := by
  simp [parseLimit, parseStrictInt, show ¬ n < 1 by omega]

theorem lookupKey_dump (p : QueryPlan) :
    lookupKey p.dump "resource" = some (nameObj p.resourceName) ∧
      lookupKey p.dump "intent" = some (textObj p.intent.name) ∧
      lookupKey p.dump "filters" = p.filters?.map (dumpList FilterSpec.dump) ∧
      lookupKey p.dump "group_by" = p.groupBy?.map (dumpList GroupBySpec.dump) ∧
      lookupKey p.dump "metrics" = p.metrics?.map (dumpList MetricSpec.dump) ∧
      lookupKey p.dump "select" = p.selectNames?.map (dumpList nameObj) ∧
      lookupKey p.dump "order_by" = p.orderBy?.map (dumpList OrderBySpec.dump) ∧
      lookupKey p.dump "limit" = p.limit?.map (PyObj.int none) := by
  simp only [QueryPlan.dump, lookupKey_append, lookupKey_member]
  refine ⟨?_, ?_, ?_, ?_, ?_, ?_, ?_, ?_⟩ <;> simp

theorem forbidExtra_dump (env : Environment) (p : QueryPlan) :
    forbidExtra env ["resource", "intent", "filters", "group_by", "metrics", "select", "order_by",
      "limit"] p.dump = .ok () := by
  unfold QueryPlan.dump
  repeat rw [List.append_assoc]
  repeat rw [forbidExtra_append _ _ (forbidExtra_member (by simp) _ _)]
  exact forbidExtra_member (by simp) _ _

theorem parseQueryPlanModel_dump (env : Environment) {p : QueryPlan} (h : p.WellFormed) :
    parseQueryPlanModel env p.dump = .ok p := by
  obtain ⟨hresource, hintent, hfilters, hgroupBy, hmetrics, hselect, horderBy, hlimit⟩ :=
    lookupKey_dump p
  unfold parseQueryPlanModel
  rw [required_eq hresource (parseName_nameObj h.resource "resource"), ok_bind,
    required_eq hintent (parseLiteral_intent p.intent), ok_bind,
    optional_eq hfilters fun fs hfs => parseTuple_dump fun f hf =>
      parseFilterSpec_dump env (h.filters f (by simpa [QueryPlan.filters, hfs] using hf)), ok_bind,
    optional_eq hgroupBy fun gs hgs => parseTuple_dump fun g hg =>
      parseGroupBySpec_dump env (h.groupBy g (by simpa [QueryPlan.groupBy, hgs] using hg)), ok_bind,
    optional_eq hmetrics fun ms hms => parseTuple_dump fun m hm =>
      parseMetricSpec_dump env (h.metrics m (by simpa [QueryPlan.metrics, hms] using hm)), ok_bind,
    optional_eq hselect fun names hnames => parseSelect_dump fun name hname =>
      h.select name (by simpa [QueryPlan.selectNames, hnames] using hname), ok_bind,
    optional_eq horderBy fun os hos => parseTuple_dump fun o ho =>
      parseOrderBySpec_dump env (h.orderBy o (by simpa [QueryPlan.orderBy, hos] using ho)), ok_bind,
    optional_eq hlimit fun n hn => parseLimit_dump (h.limit n hn), ok_bind,
    forbidExtra_dump, ok_bind]

end AskLens.Planning
