import AskLens.Contracts.DecodedValues
import AskLens.Planning.SuggestedPlans
import AskLens.Python.JsonRoundTrip

/-!
# Dumps as decoded values

What a plan is dumped to is a value that decoding may return, so the text of a
dump decodes to the dump.
-/
namespace AskLens.Planning

open Python Catalog Checks

/-! ## Dumped values -/

theorem ofText_ofString (s : String) : PyObj.ofText (PyText.ofString s) = textObj s :=
  Contracts.ofText_codePoints s

theorem decoded_textObj (s : String) : Decoded (textObj s) := by
  rw [← ofText_ofString]
  exact .text _

theorem decoded_nameObj (s : PyStr) : Decoded (nameObj s) := by
  cases s with
  | text s => exact decoded_textObj s
  | surrogates t lone =>
    rw [nameObj, ← PyStr.ofText_of_lone lone, PyStr.toObj_ofText]
    exact .text t

theorem decoded_plain (v : PyScalar) : Decoded v.plain.toObj := by
  cases v with
  | str cls s => exact decoded_nameObj s
  | int cls i => exact .int i
  | float x => exact .float x
  | bool b => exact .bool b

/-- Entries under some of these names, whose values decoding may return. -/
def NamedEntries (names : List String) (entries : Entries) : Prop :=
  ∃ members : List (String × PyObj), entries = members.map (fun m => (textObj m.1, m.2)) ∧
    (members.map Prod.fst).Sublist names ∧ ∀ m ∈ members, Decoded m.2

theorem namedEntries_member {α : Type} (key : String) {dump : α → PyObj} {o : Option α}
    (h : ∀ a, o = some a → Decoded (dump a)) : NamedEntries [key] (member key dump o) := by
  cases o with
  | none => exact ⟨[], rfl, List.nil_sublist _, by simp⟩
  | some a => exact ⟨[(key, dump a)], rfl, List.Sublist.refl _, by simpa using h a rfl⟩

theorem NamedEntries.append {names names' : List String} {entries entries' : Entries}
    (h : NamedEntries names entries) (h' : NamedEntries names' entries') :
    NamedEntries (names ++ names') (entries ++ entries') := by
  obtain ⟨members, rfl, hnames, hvalues⟩ := h
  obtain ⟨members', rfl, hnames', hvalues'⟩ := h'
  refine ⟨members ++ members', by rw [List.map_append], ?_, ?_⟩
  · rw [List.map_append]
    exact hnames.append hnames'
  · intro m hm
    rcases List.mem_append.mp hm with hm | hm
    · exact hvalues m hm
    · exact hvalues' m hm

theorem ofString_injective : Function.Injective PyText.ofString :=
  fun _ _ h => JsonSchema.codePoints_inj.mp h

theorem NamedEntries.decoded {names : List String} {entries : Entries}
    (h : NamedEntries names entries) (hnames : names.Nodup) : Decoded (.dict entries) := by
  obtain ⟨members, rfl, hsublist, hvalues⟩ := h
  have hentries : (members.map fun m => (textObj m.1, m.2)) =
      (members.map fun m => (PyText.ofString m.1, m.2)).map fun m => (PyObj.ofText m.1, m.2) := by
    rw [List.map_map]
    apply List.map_congr_left
    intro m hm
    exact congrArg (·, m.2) (ofText_ofString m.1).symm
  rw [hentries]
  apply Decoded.dict
  · rw [List.map_map]
    have hkeys := (hsublist.nodup hnames).map ofString_injective
    rw [List.map_map] at hkeys
    exact hkeys
  · intro m hm
    obtain ⟨n, hn, rfl⟩ := List.mem_map.mp hm
    exact hvalues n hn

/-! ## Dumped plans -/

theorem decoded_dumpNullable {α : Type} {dump : α → PyObj} (h : ∀ a, Decoded (dump a))
    (o : Option α) : Decoded (dumpNullable dump o) := by
  cases o with
  | none => exact .null
  | some a => exact h a

theorem decoded_dumpList {α : Type} {dump : α → PyObj} (h : ∀ a, Decoded (dump a))
    (items : List α) : Decoded (dumpList dump items) := by
  apply Decoded.list
  intro v hv
  obtain ⟨a, -, rfl⟩ := List.mem_map.mp hv
  exact h a

theorem FilterValue.decoded_dump (v : FilterValue) : Decoded v.dump := by
  cases v with
  | scalar v => exact decoded_plain v
  | list items =>
    apply Decoded.list
    intro w hw
    obtain ⟨v, -, rfl⟩ := List.mem_map.mp hw
    exact decoded_plain v

theorem FilterSpec.decoded_dump (f : FilterSpec) : Decoded f.dump := by
  have hfield := namedEntries_member "field" fun s (_ : some f.fieldName = some s) =>
    decoded_nameObj s
  have hop := namedEntries_member "op" fun op (_ : some f.op = some op) =>
    decoded_textObj (operatorName op)
  have hvalue := namedEntries_member "value" fun v (_ : some f.value = some v) =>
    FilterValue.decoded_dump v
  exact ((hfield.append hop).append hvalue).decoded (by decide)

theorem GroupBySpec.decoded_dump (g : GroupBySpec) : Decoded g.dump := by
  have hfield := namedEntries_member "field" fun s (_ : some g.fieldName = some s) =>
    decoded_nameObj s
  have htrunc := namedEntries_member "date_trunc" fun o (_ : g.dateTrunc? = some o) =>
    decoded_dumpNullable (fun d => decoded_textObj (DateTrunc.name d)) o
  exact (hfield.append htrunc).decoded (by decide)

theorem MetricSpec.decoded_dump (m : MetricSpec) : Decoded m.dump :=
  (namedEntries_member "metric" fun s (_ : some m.metricName = some s) =>
    decoded_nameObj s).decoded (by decide)

theorem OrderBySpec.decoded_dump (o : OrderBySpec) : Decoded o.dump := by
  have hfield := namedEntries_member "field" fun n (_ : o.targets.1 = some n) =>
    decoded_dumpNullable decoded_nameObj n
  have hmetric := namedEntries_member "metric" fun n (_ : o.targets.2 = some n) =>
    decoded_dumpNullable decoded_nameObj n
  have hdirection := namedEntries_member "direction" fun d (_ : o.direction? = some d) =>
    decoded_textObj d.name
  exact ((hfield.append hmetric).append hdirection).decoded (by decide)

theorem QueryPlan.decoded_dump (p : QueryPlan) : Decoded (.dict p.dump) := by
  have hresource := namedEntries_member "resource" fun s (_ : some p.resourceName = some s) =>
    decoded_nameObj s
  have hintent := namedEntries_member "intent" fun i (_ : some p.intent = some i) =>
    decoded_textObj (Intent.name i)
  have hfilters := namedEntries_member "filters" fun l (_ : p.filters? = some l) =>
    decoded_dumpList FilterSpec.decoded_dump l
  have hgroupBy := namedEntries_member "group_by" fun l (_ : p.groupBy? = some l) =>
    decoded_dumpList GroupBySpec.decoded_dump l
  have hmetrics := namedEntries_member "metrics" fun l (_ : p.metrics? = some l) =>
    decoded_dumpList MetricSpec.decoded_dump l
  have hselect := namedEntries_member "select" fun l (_ : p.selectNames? = some l) =>
    decoded_dumpList decoded_nameObj l
  have horderBy := namedEntries_member "order_by" fun l (_ : p.orderBy? = some l) =>
    decoded_dumpList OrderBySpec.decoded_dump l
  have hlimit := namedEntries_member "limit" fun n (_ : p.limit? = some n) => Decoded.int n
  exact (((((((hresource.append hintent).append hfilters).append hgroupBy).append
    hmetrics).append hselect).append horderBy).append hlimit).decoded (by decide)

end AskLens.Planning
