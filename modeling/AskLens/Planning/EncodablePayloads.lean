import AskLens.Planning.FallbackHelp
import AskLens.Planning.ProviderResponses

/-!
# Payloads that can be written

What can be encoded has parts that can be encoded within the same depth. The
plans that a provider sends inside a response are such parts, also after the
compaction of the response.
-/
namespace AskLens.Planning

open Python Catalog Checks

variable {depth : ℕ}

/-! ## Parts -/

theorem encodable_list_iff {items : List PyObj} :
    Encodable (depth + 1) (.list items) ↔ ∀ v ∈ items, Encodable depth v := by
  constructor
  · rintro ⟨text, htext⟩ v hv
    obtain ⟨parts, hparts, -⟩ := bind_eq_ok.mp htext
    obtain ⟨part, -, hpart⟩ := exists_result_of_mapM hparts hv
    exact ⟨part, hpart⟩
  · exact encodable_list

theorem encodable_tuple_iff {items : List PyObj} :
    Encodable (depth + 1) (.tuple items) ↔ ∀ v ∈ items, Encodable depth v :=
  encodable_list_iff

theorem encodable_dict_iff {entries : Entries} :
    Encodable (depth + 1) (.dict entries) ↔
      ∀ e ∈ entries, (∃ key, encodeKey e.1 = .ok key) ∧ Encodable depth e.2 := by
  constructor
  · rintro ⟨text, htext⟩ e he
    obtain ⟨parts, hparts, -⟩ := bind_eq_ok.mp htext
    obtain ⟨part, -, hpart⟩ := exists_result_of_mapM hparts he
    obtain ⟨key, hkey, hpart⟩ := bind_eq_ok.mp hpart
    obtain ⟨value, hvalue, -⟩ := bind_eq_ok.mp hpart
    exact ⟨⟨key, hkey⟩, value, hvalue⟩
  · intro h
    have hentry : ∀ e ∈ entries, ∃ text,
        (do
          let key ← encodeKey e.1
          let value ← encode depth e.2
          Except.ok (key ++ 0x3A :: value)) = .ok text := by
      intro e he
      obtain ⟨⟨key, hkey⟩, value, hvalue⟩ := h e he
      exact ⟨_, bind_eq_ok.mpr ⟨key, hkey, bind_eq_ok.mpr ⟨value, hvalue, rfl⟩⟩⟩
    obtain ⟨parts, hparts⟩ := mapM_ok_iff.mpr hentry
    exact ⟨_, bind_eq_ok.mpr ⟨parts, hparts, rfl⟩⟩

theorem not_encodable_zero {v : PyObj} (h : isContainer v = true) : ¬ Encodable 0 v := by
  rintro ⟨text, htext⟩
  rw [encode, if_pos h] at htext
  cases htext

theorem encodable_succ {v : PyObj} (h : Encodable depth v) : Encodable (depth + 1) v := by
  induction depth generalizing v with
  | zero =>
    cases hcontainer : isContainer v with
    | true => exact absurd h (not_encodable_zero hcontainer)
    | false =>
      obtain ⟨text, htext⟩ := h
      rw [encode, if_neg (by simp [hcontainer])] at htext
      exact encodable_scalar hcontainer ⟨text, htext⟩
  | succ depth ih =>
    cases v with
    | list items =>
      rw [encodable_list_iff] at h ⊢
      intro v hv
      exact ih (h v hv)
    | tuple items =>
      rw [encodable_tuple_iff] at h ⊢
      intro v hv
      exact ih (h v hv)
    | dict entries =>
      rw [encodable_dict_iff] at h ⊢
      intro e he
      exact ⟨(h e he).1, ih (h e he).2⟩
    | _ => exact h

theorem encodable_value {entries : Entries} (h : Encodable depth (.dict entries))
    {e : PyObj × PyObj} (he : e ∈ entries) : Encodable depth e.2 := by
  cases depth with
  | zero => exact absurd h (not_encodable_zero rfl)
  | succ depth => exact encodable_succ (encodable_dict_iff.mp h e he).2

theorem encodable_lookup {entries : Entries} (h : Encodable depth (.dict entries)) {key : String}
    {v : PyObj} (hv : lookupKey entries key = some v) : Encodable depth v := by
  obtain ⟨e, he, rfl⟩ := mem_of_lookupKey hv
  exact encodable_value h he

theorem encodable_sequence {v : PyObj} {items : List PyObj} (h : Encodable depth v)
    (hitems : sequence? v = some items) : ∀ w ∈ items, Encodable depth w := by
  cases depth with
  | zero =>
    have hcontainer : isContainer v = true := by
      cases v <;> simp_all [sequence?, isContainer]
    exact absurd h (not_encodable_zero hcontainer)
  | succ depth =>
    intro w hw
    apply encodable_succ
    cases v with
    | list as =>
      obtain rfl : as = items := by simpa [sequence?] using hitems
      exact encodable_list_iff.mp h w hw
    | tuple as =>
      obtain rfl : as = items := by simpa [sequence?] using hitems
      exact encodable_tuple_iff.mp h w hw
    | _ => simp [sequence?] at hitems

/-! ## Compaction -/

theorem encodable_popKey {entries : Entries} (h : Encodable depth (.dict entries)) (key : String) :
    Encodable depth (.dict (popKey entries key)) := by
  cases depth with
  | zero => exact absurd h (not_encodable_zero rfl)
  | succ depth =>
    rw [encodable_dict_iff] at h ⊢
    intro e he
    exact h e (List.mem_of_mem_filter he)

theorem encodable_compactPlan {plan : Entries} (h : Encodable depth (.dict plan)) :
    Encodable depth (.dict (normalizeCompactQueryPlan plan)) := by
  unfold normalizeCompactQueryPlan
  split_ifs
  · exact h
  · exact encodable_popKey h "select"
  · exact h

theorem encodable_normalizedResponse {payload : Entries} (h : Encodable depth (.dict payload)) :
    Encodable depth (.dict (normalizeProviderResponsePayload payload)) := by
  unfold normalizeProviderResponsePayload
  split
  · rename_i plan hplan
    cases depth with
    | zero => exact absurd h (not_encodable_zero rfl)
    | succ depth =>
      rw [encodable_dict_iff] at h ⊢
      intro e he
      obtain ⟨source, hsource, rfl⟩ := List.mem_map.mp he
      obtain ⟨hkey, hvalue⟩ := h source hsource
      obtain ⟨found, hfound, hdict⟩ := mem_of_lookupKey hplan
      have hcompact : Encodable depth (.dict (normalizeCompactQueryPlan plan)) := by
        apply encodable_compactPlan
        rw [← hdict]
        exact (h found hfound).2
      split_ifs
      · exact ⟨hkey, hcompact⟩
      · exact ⟨hkey, hvalue⟩
  · exact h

/-! ## Parsing -/

theorem modelEntries_ok {model : String} {v : PyObj} {entries : Entries}
    (h : modelEntries model v = .ok entries) : v = .dict entries := by
  cases v <;> simp_all [modelEntries, fail]

theorem encodeKey_nameObj (s : PyStr) : ∃ key, encodeKey (nameObj s) = .ok key := by
  cases s with
  | text s => exact ⟨_, rfl⟩
  | surrogates t lone => exact ⟨_, rfl⟩

theorem parseStrKeys_ok {env : Environment} {entries parsed : Entries}
    (h : parseStrKeys env entries = .ok parsed) :
    ∀ e ∈ parsed, ∃ name, e.1 = nameObj name ∧ ∃ source ∈ entries, source.2 = e.2 := by
  induction entries generalizing parsed with
  | nil =>
    obtain rfl := Except.ok.inj h
    simp
  | cons entry rest ih =>
    obtain ⟨name, -, h⟩ := bind_eq_ok.mp h
    obtain ⟨tail, htail, h⟩ := bind_eq_ok.mp h
    obtain rfl := Except.ok.inj h
    intro e he
    rcases List.mem_cons.mp he with rfl | he
    · exact ⟨name, rfl, entry, List.mem_cons_self, rfl⟩
    · obtain ⟨key, hkey, source, hsource, hvalue⟩ := ih htail e he
      exact ⟨key, hkey, source, List.mem_cons_of_mem _ hsource, hvalue⟩

theorem encodable_parseStrDict {env : Environment} {v : PyObj} {parsed : Entries}
    (hv : Encodable depth v) (h : parseStrDict env v = .ok parsed) :
    Encodable depth (.dict parsed) := by
  cases v with
  | dict entries =>
    cases depth with
    | zero => exact absurd hv (not_encodable_zero rfl)
    | succ depth =>
      rw [encodable_dict_iff] at hv ⊢
      intro e he
      obtain ⟨name, hname, source, hsource, hvalue⟩ := parseStrKeys_ok h e he
      rw [hname, ← hvalue]
      exact ⟨encodeKey_nameObj name, (hv source hsource).2⟩
  | _ => cases h

def QueryHelpSuggestion.PlanEncodable (depth : ℕ) (suggestion : QueryHelpSuggestion) : Prop :=
  ∀ plan, suggestion.plan = some plan → Encodable depth (.dict plan)

def QueryHelp.PlansEncodable (depth : ℕ) (help : QueryHelp) : Prop :=
  ∀ suggestion ∈ help.suggestions, suggestion.PlanEncodable depth

theorem built_eq_ok {α : Type} {x : Py α} {a : α} (h : built x = .ok a) : x = .ok a := by
  cases x with
  | ok b =>
    obtain rfl := Except.ok.inj h
    rfl
  | error e => cases h

theorem init_plan {question resourceName why : String} {fields metrics dateFields : List String}
    {plan : Option Entries} {suggestion : QueryHelpSuggestion}
    (h : QueryHelpSuggestion.init question resourceName fields metrics dateFields plan why =
      .ok suggestion) : suggestion.plan = plan := by
  unfold QueryHelpSuggestion.init at h
  split_ifs at h
  obtain rfl := Except.ok.inj h
  rfl

theorem optional_join {α : Type} {entries : Entries} {key : String} {item : PyObj → Parse α}
    {parsed : Option (Option α)} {a : α}
    (h : optional entries key (parseOptional item) = .ok parsed) (ha : parsed.join = some a) :
    ∃ v, lookupKey entries key = some v ∧ item v = .ok a := by
  obtain rfl := Option.join_eq_some_iff.mp ha
  obtain ⟨v, hv, hparsed⟩ := optional_ok h (some a) rfl
  exact ⟨v, hv, parseOptional_ok hparsed⟩

theorem parseQueryHelpSuggestion_encodable {env : Environment} {v : PyObj}
    {suggestion : QueryHelpSuggestion} (hv : Encodable depth v)
    (h : parseQueryHelpSuggestion env v = .ok suggestion) : suggestion.PlanEncodable depth := by
  simp only [parseQueryHelpSuggestion, bind_eq_ok] at h
  obtain ⟨entries, hentries, question, -, resourceName, -, fields, -, metrics, -, dateFields, -,
    plan, hplan, why, -, _, -, h⟩ := h
  obtain rfl := modelEntries_ok hentries
  intro payload hpayload
  rw [init_plan (built_eq_ok h)] at hpayload
  obtain ⟨w, hw, hparsed⟩ := optional_join hplan hpayload
  exact encodable_parseStrDict (encodable_lookup hv hw) hparsed

theorem parseBoundedTuple_ok {α : Type} {maxLength : ℕ} {item : PyObj → Parse α} {v : PyObj}
    {as : List α} (h : parseBoundedTuple maxLength item v = .ok as) :
    ∃ items, sequence? v = some items ∧ ∀ a ∈ as, ∃ w ∈ items, item w = .ok a := by
  unfold parseBoundedTuple at h
  split at h
  · cases h
  · split_ifs at h
    · cases h
    · exact ⟨_, by assumption, parseItems_ok h⟩

theorem parseQueryHelpModel_encodable {env : Environment} {v : PyObj} {help : QueryHelp}
    (hv : Encodable depth v) (h : parseQueryHelpModel env v = .ok help) :
    help.PlansEncodable depth := by
  simp only [parseQueryHelpModel, bind_eq_ok] at h
  obtain ⟨entries, hentries, answer, -, suggestions, hsuggestions, notes, -, _, -, h⟩ := h
  obtain rfl := modelEntries_ok hentries
  have hmembers : help.suggestions = suggestions.getD [] := by
    have hinit := built_eq_ok h
    unfold QueryHelp.init at hinit
    split_ifs at hinit
    obtain rfl := Except.ok.inj hinit
    rfl
  intro suggestion hmem
  rw [hmembers] at hmem
  cases suggestions with
  | none => cases hmem
  | some parsed =>
    obtain ⟨w, hw, hparsed⟩ := optional_ok hsuggestions parsed rfl
    obtain ⟨items, hitems, hall⟩ := parseBoundedTuple_ok hparsed
    obtain ⟨u, hu, hsuggestion⟩ := hall suggestion hmem
    have hw' := encodable_lookup hv hw
    exact parseQueryHelpSuggestion_encodable (encodable_sequence hw' hitems u hu) hsuggestion

def AskLensProviderResponse.IsEncodable (depth : ℕ) : AskLensProviderResponse → Prop
  | .query plan _ => Encodable depth (.dict plan)
  | .capabilities help => help.PlansEncodable depth

theorem parseProviderResponseModel_encodable {env : Environment} {v : PyObj}
    {response : AskLensProviderResponse} (hv : Encodable depth v)
    (h : parseProviderResponseModel env v = .ok response) : response.IsEncodable depth := by
  simp only [parseProviderResponseModel, bind_eq_ok] at h
  obtain ⟨entries, hentries, responseType, -, plan, hplan, presentation, -, help, hhelp, _, -, h⟩ := h
  obtain rfl := modelEntries_ok hentries
  unfold validateResponseBranch at h
  split at h
  any_goals cases h
  · rename_i hsome hnone
    obtain ⟨w, hw, hparsed⟩ := optional_join hplan hsome
    exact encodable_parseStrDict (encodable_lookup hv hw) hparsed
  · rename_i hsome
    obtain ⟨w, hw, hparsed⟩ := optional_join hhelp hsome
    exact parseQueryHelpModel_encodable (encodable_lookup hv hw) hparsed

end AskLens.Planning
