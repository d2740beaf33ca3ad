import AskLens.Planning.SuggestedPlans
import AskLens.Python.Scanning

/-!
# The nesting of dumps

A dump nests four deep: a plan has a list of filters, and a filter may have a
list of values. The encoder may refuse a member, but it has calls enough.
-/
namespace AskLens.Planning

open Python Catalog Checks

def EncodesWithin (d : ℕ) (v : PyObj) : Prop := encode d v ≠ .error .recursionError

variable {d : ℕ}

theorem encodesWithin_of_encodable {v : PyObj} (h : Encodable d v) : EncodesWithin d v := by
  obtain ⟨text, htext⟩ := h
  intro herror
  cases htext.symm.trans herror

/-! ## Objects -/

theorem encodesWithin_scalar {v : PyObj} (h : isContainer v = false) : EncodesWithin d v := by
  intro herror
  have hscalar : encodeScalar v = .error .recursionError := by
    cases d with
    | zero =>
      rw [encode, if_neg (by simp [h])] at herror
      exact herror
    | succ d =>
      cases v with
      | list items => cases h
      | tuple items => cases h
      | dict entries => cases h
      | _ => exact herror
  rcases encodeScalar_error hscalar with h | h
  · cases h
  · cases h

theorem encodesWithin_list {items : List PyObj} (h : ∀ v ∈ items, EncodesWithin d v) :
    EncodesWithin (d + 1) (.list items) := by
  intro herror
  rcases bind_eq_error.mp herror with herror | ⟨_, -, herror⟩
  · obtain ⟨pre, item, post, rfl, -, herror⟩ := mapM_eq_error.mp herror
    exact h item (by simp) herror
  · cases herror

theorem encodesWithin_dict {entries : Entries} (h : ∀ e ∈ entries, EncodesWithin d e.2) :
    EncodesWithin (d + 1) (.dict entries) := by
  intro herror
  rcases bind_eq_error.mp herror with herror | ⟨_, -, herror⟩
  · obtain ⟨pre, entry, post, rfl, -, herror⟩ := mapM_eq_error.mp herror
    rcases bind_eq_error.mp herror with herror | ⟨_, -, herror⟩
    · rcases encodeKey_error herror with herror | herror
      · cases herror
      · cases herror
    · rcases bind_eq_error.mp herror with herror | ⟨_, -, herror⟩
      · exact h entry (by simp) herror
      · cases herror
  · cases herror

/-! ## Members -/

theorem encodesWithin_member {α : Type} (key : String) {dump : α → PyObj} (o : Option α)
    (h : ∀ a, EncodesWithin d (dump a)) :
    ∀ e ∈ member key dump o, EncodesWithin d e.2 := by
  intro e he
  cases o with
  | none => cases he
  | some a =>
    obtain rfl := List.mem_singleton.mp he
    exact h a

theorem encodesWithin_append {entries entries' : Entries}
    (h : ∀ e ∈ entries, EncodesWithin d e.2) (h' : ∀ e ∈ entries', EncodesWithin d e.2) :
    ∀ e ∈ entries ++ entries', EncodesWithin d e.2 := by
  intro e he
  rcases List.mem_append.mp he with he | he
  · exact h e he
  · exact h' e he

theorem encodesWithin_textObj (s : String) : EncodesWithin d (textObj s) :=
  encodesWithin_scalar rfl

theorem encodesWithin_nameObj (s : PyStr) : EncodesWithin d (nameObj s) := by
  apply encodesWithin_scalar
  cases s with
  | text s => rfl
  | surrogates t lone => rfl

theorem encodesWithin_dumpNullable {α : Type} {dump : α → PyObj}
    (h : ∀ a, EncodesWithin d (dump a)) (o : Option α) :
    EncodesWithin d (dumpNullable dump o) := by
  cases o with
  | none => exact encodesWithin_scalar rfl
  | some a => exact h a

theorem encodesWithin_dumpList {α : Type} {dump : α → PyObj}
    (h : ∀ a, EncodesWithin d (dump a)) (items : List α) :
    EncodesWithin (d + 1) (dumpList dump items) := by
  apply encodesWithin_list
  intro v hv
  obtain ⟨a, -, rfl⟩ := List.mem_map.mp hv
  exact h a

/-! ## Dumps -/

theorem encodesWithin_plain (v : PyScalar) : EncodesWithin d v.plain.toObj := by
  cases v with
  | str cls s => exact encodesWithin_nameObj s
  | int cls i => exact encodesWithin_scalar rfl
  | float x => exact encodesWithin_scalar rfl
  | bool b => exact encodesWithin_scalar rfl

theorem FilterValue.encodesWithin (v : FilterValue) : EncodesWithin (d + 1) v.dump := by
  cases v with
  | scalar v => exact encodesWithin_plain v
  | list items =>
    apply encodesWithin_list
    intro w hw
    obtain ⟨v, -, rfl⟩ := List.mem_map.mp hw
    exact encodesWithin_plain v

theorem FilterSpec.encodesWithin (f : FilterSpec) : EncodesWithin (d + 2) f.dump := by
  apply encodesWithin_dict
  apply encodesWithin_append
  · apply encodesWithin_append
    · exact encodesWithin_member _ _ encodesWithin_nameObj
    · exact encodesWithin_member _ _ fun op => encodesWithin_textObj _
  · exact encodesWithin_member _ _ FilterValue.encodesWithin

theorem GroupBySpec.encodesWithin (g : GroupBySpec) : EncodesWithin (d + 1) g.dump := by
  apply encodesWithin_dict
  apply encodesWithin_append
  · exact encodesWithin_member _ _ encodesWithin_nameObj
  · exact encodesWithin_member _ _ fun o =>
      encodesWithin_dumpNullable (fun t => encodesWithin_textObj (DateTrunc.name t)) o

theorem MetricSpec.encodesWithin (m : MetricSpec) : EncodesWithin (d + 1) m.dump := by
  apply encodesWithin_dict
  exact encodesWithin_member _ _ encodesWithin_nameObj

theorem OrderBySpec.encodesWithin (o : OrderBySpec) : EncodesWithin (d + 1) o.dump := by
  apply encodesWithin_dict
  apply encodesWithin_append
  · apply encodesWithin_append
    · exact encodesWithin_member _ _ fun n =>
        encodesWithin_dumpNullable encodesWithin_nameObj n
    · exact encodesWithin_member _ _ fun n =>
        encodesWithin_dumpNullable encodesWithin_nameObj n
  · exact encodesWithin_member _ _ fun d => encodesWithin_textObj _

theorem QueryPlan.encodesWithin (p : QueryPlan) : EncodesWithin (d + 4) (.dict p.dump) := by
  apply encodesWithin_dict
  have hresource := encodesWithin_member "resource" (some p.resourceName)
    (encodesWithin_nameObj (d := d + 3))
  have hintent := encodesWithin_member (d := d + 3) "intent" (some p.intent)
    fun i => encodesWithin_textObj (Intent.name i)
  have hfilters := encodesWithin_member "filters" p.filters?
    (encodesWithin_dumpList (FilterSpec.encodesWithin (d := d)))
  have hgroupBy := encodesWithin_member "group_by" p.groupBy?
    (encodesWithin_dumpList (GroupBySpec.encodesWithin (d := d + 1)))
  have hmetrics := encodesWithin_member "metrics" p.metrics?
    (encodesWithin_dumpList (MetricSpec.encodesWithin (d := d + 1)))
  have hselect := encodesWithin_member "select" p.selectNames?
    (encodesWithin_dumpList (encodesWithin_nameObj (d := d + 2)))
  have horderBy := encodesWithin_member "order_by" p.orderBy?
    (encodesWithin_dumpList (OrderBySpec.encodesWithin (d := d + 1)))
  have hlimit := encodesWithin_member "limit" p.limit?
    fun n => encodesWithin_scalar (d := d + 3) (v := .int none n) rfl
  exact encodesWithin_append (encodesWithin_append (encodesWithin_append (encodesWithin_append
    (encodesWithin_append (encodesWithin_append (encodesWithin_append hresource hintent) hfilters)
      hgroupBy) hmetrics) hselect) horderBy) hlimit

end AskLens.Planning
