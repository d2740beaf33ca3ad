import AskLens.Exceptions
import AskLens.Python.Calendar
import AskLens.Python.Scalar

/-!
# Temporal plan values

The strict texts of dates, offset-bearing datetimes and local times. Each
normal form is read back as the same value, so normalizing twice changes
nothing.
-/
namespace AskLens.Planning

open Python

def invalidDate : PyException :=
  ErrorClass.planValidation.exc
    "Date filters require a valid ISO 8601 date in YYYY-MM-DD form."

def invalidDatetime : PyException :=
  ErrorClass.planValidation.exc
    "Datetime filters require an offset-bearing RFC 3339 value."

def invalidTime : PyException :=
  ErrorClass.planValidation.exc
    "Time filters require an offset-free ISO time in HH:MM:SS form."

/-- Read a text with `read`, or raise `invalid`. -/
def readText (read : List Char → Option α) (invalid : PyException) : PyScalar → Py α
  | .str _ (.text s) =>
    match read s.toList with
    | some value => .ok value
    | none => .error invalid
  | _ => .error invalid

/-- The texts of a kind of values: how they are read, written and refused. -/
def normalizeText (read : List Char → Option α) (write : α → List Char) (invalid : PyException)
    (value : PyScalar) : Py PyScalar := do
  let parsed ← readText read invalid value
  .ok (.str none (String.ofList (write parsed)))

def normalizeDateString : PyScalar → Py PyScalar :=
  normalizeText Date.fromisoformat Date.isoformat invalidDate

def normalizeDatetimeString : PyScalar → Py PyScalar :=
  normalizeText Datetime.fromisoformat Datetime.isoformat invalidDatetime

def normalizeTimeString : PyScalar → Py PyScalar :=
  normalizeText Time.fromisoformat Time.isoformat invalidTime

def parseDateString (value : PyScalar) : Py Date := do
  let normalized ← normalizeDateString value
  readText Date.fromisoformat invalidDate normalized

def parseDatetimeString (value : PyScalar) : Py Datetime := do
  let normalized ← normalizeDatetimeString value
  readText Datetime.fromisoformat invalidDatetime normalized

def parseTimeString (value : PyScalar) : Py Time := do
  let normalized ← normalizeTimeString value
  readText Time.fromisoformat invalidTime normalized

section

variable {read : List Char → Option α} {write : α → List Char} {invalid : PyException}

theorem readText_written (hread : ∀ a, read (write a) = some a) (cls : PyClass) (a : α) :
    readText read invalid (.str cls (String.ofList (write a))) = .ok a := by
  simp [readText, hread]

theorem normalizeText_ok {value normalized : PyScalar}
    (h : normalizeText read write invalid value = .ok normalized) :
    ∃ a, readText read invalid value = .ok a ∧
      normalized = .str none (String.ofList (write a)) := by
  obtain ⟨a, ha, hnormalized⟩ := Checks.bind_eq_ok.mp h
  exact ⟨a, ha, by simpa [eq_comm] using hnormalized⟩

theorem normalizeText_normalized (hread : ∀ a, read (write a) = some a)
    {value normalized : PyScalar} (h : normalizeText read write invalid value = .ok normalized) :
    normalizeText read write invalid normalized = .ok normalized := by
  obtain ⟨a, -, rfl⟩ := normalizeText_ok h
  unfold normalizeText
  rw [readText_written hread]
  rfl

theorem readText_ok_of_normalizeText {value normalized : PyScalar}
    (hread : ∀ a, read (write a) = some a)
    (h : normalizeText read write invalid value = .ok normalized) :
    ∃ a, readText read invalid value = .ok a ∧ readText read invalid normalized = .ok a := by
  obtain ⟨a, ha, rfl⟩ := normalizeText_ok h
  exact ⟨a, ha, readText_written hread none a⟩

end

end AskLens.Planning
