import AskLens.Planning.Temporal
import AskLens.Python.TemporalTexts

/-!
# The meaning of temporal plan values

`isoformat` writes other digits than the plan does: fractions have six, `Z`
becomes `+00:00`, minutes of an offset carry over. What the text denotes stays.
-/
namespace AskLens.Planning

open Python

/-- A text that `normalize` accepts and its normal form have the form of a kind of texts and the same
meaning, and the normal form is its own normal form. -/
def KeepsMeaning {β : Type} (normalize : PyScalar → Py PyScalar) (form : List Char → Bool)
    (meaning : List Char → β) : Prop :=
  ∀ value normalized, normalize value = .ok normalized →
    ∃ cls, ∃ s t : String, value = .str cls s ∧ normalized = .str none t ∧
      normalize normalized = .ok normalized ∧ form s.toList = true ∧ form t.toList = true ∧
      meaning t.toList = meaning s.toList

theorem readText_eq_ok {α : Type} {read : List Char → Option α} {invalid : PyException}
    {value : PyScalar} {a : α} (h : readText read invalid value = .ok a) :
    ∃ cls, ∃ s : String, value = .str cls s ∧ read s.toList = some a := by
  unfold readText at h
  split at h
  · rename_i cls s
    split at h
    · rename_i value hvalue
      exact ⟨cls, s, rfl, hvalue.trans (congrArg some (Except.ok.inj h))⟩
    · cases h
  · cases h

/-- What is read determines the meaning, and what is written is read back. -/
theorem normalizeText_keepsMeaning {α β : Type} {read : List Char → Option α}
    {write : α → List Char} {invalid : PyException} {form : List Char → Bool}
    {meaning : List Char → β} {value : α → β} (hback : ∀ a, read (write a) = some a)
    (hread : ∀ cs a, read cs = some a → form cs = true ∧ meaning cs = value a) :
    KeepsMeaning (normalizeText read write invalid) form meaning := by
  intro text normalized h
  obtain ⟨a, ha, rfl⟩ := normalizeText_ok h
  obtain ⟨cls, s, rfl, hs⟩ := readText_eq_ok ha
  obtain ⟨hform, hmeaning⟩ := hread _ _ hs
  obtain ⟨hform', hmeaning'⟩ := hread _ _ (hback a)
  refine ⟨cls, s, String.ofList (write a), rfl, rfl, normalizeText_normalized hback h, hform, ?_, ?_⟩
  · rw [String.toList_ofList]
    exact hform'
  · rw [String.toList_ofList, hmeaning, hmeaning']

/-- Dates keep their year, month and day, datetimes their moment and their offset, and times their
hour, minute, second and microsecond. -/
theorem temporal_normalization_keeps_meaning :
    KeepsMeaning normalizeDateString isDateText dateNumbers ∧
    KeepsMeaning normalizeDatetimeString isDatetimeText
      (fun cs => (textMoment cs, statedOffset cs)) ∧
    KeepsMeaning normalizeTimeString isTimeText timeNumbers := by
  have hdatetime : ∀ cs d, Datetime.fromisoformat cs = some d → isDatetimeText cs = true ∧
      (textMoment cs, statedOffset cs) = (d.moment, d.offset) := by
    intro cs d h
    obtain ⟨hform, hoffset, hmoment⟩ := Datetime.fromisoformat_eq_some h
    rw [hoffset, hmoment]
    exact ⟨hform, rfl⟩
  refine ⟨?_, ?_, ?_⟩
  · exact normalizeText_keepsMeaning Date.fromisoformat_isoformat
      fun cs d h => Date.fromisoformat_eq_some h
  · exact normalizeText_keepsMeaning Datetime.fromisoformat_isoformat hdatetime
  · exact normalizeText_keepsMeaning Time.fromisoformat_isoformat
      fun cs t h => Time.fromisoformat_eq_some h

/-- A fraction of one digit, and an offset whose minutes carry over. -/
theorem carried_offset_keeps_meaning :
    normalizeDatetimeString (.str none "2026-08-05T12:00:00.5+01:75") =
        .ok (.str none "2026-08-05T12:00:00.500000+02:15") ∧
      textMoment "2026-08-05T12:00:00.500000+02:15".toList =
        textMoment "2026-08-05T12:00:00.5+01:75".toList := by
  have hnormalized : normalizeDatetimeString (.str none "2026-08-05T12:00:00.5+01:75") =
      .ok (.str none "2026-08-05T12:00:00.500000+02:15") := by
    decide
  obtain ⟨cls, s, t, hs, ht, -, -, -, hmeaning⟩ :=
    temporal_normalization_keeps_meaning.2.1 _ _ hnormalized
  cases hs
  cases ht
  exact ⟨hnormalized, (Prod.ext_iff.mp hmeaning).1⟩

end AskLens.Planning
