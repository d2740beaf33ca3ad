import AskLens.Library.Runs
import AskLens.Management.AuditTable
import Mathlib.Data.List.Count

/-!
# Redaction

`redact_in_batches` asks for the rows that retain content until there are none.
Redacted rows retain none, so every pass leaves fewer of them, and the batches
together blank each of these rows once.
-/
namespace AskLens.Management

open JsonSchema Runs

/-- `update(question="", plan={})`. -/
def redact (row : AuditRow) : AuditRow := { row with question := "", plan := .object [] }

theorem redact_pk (row : AuditRow) : (redact row).pk = row.pk := rfl

/-- The rows of a batch, as the `update` finds them. -/
def isMatched (before : ℤ) (primaryKeys : List ℤ) (row : AuditRow) : Bool :=
  isRedactable before row && primaryKeys.contains row.pk

/-- One turn of the loop, on the table and the count; `none` is the `return`. -/
def redactBatch (before : ℤ) (batchSize : ℕ) (s : AuditTable × ℕ) : Option (AuditTable × ℕ) :=
  let primaryKeys := firstKeys batchSize (redactionQueryset before s.1.rows)
  if primaryKeys = [] then none
  else
    some (s.1.update (isMatched before primaryKeys) redact redact_pk,
      s.2 + (s.1.rows.filter (isMatched before primaryKeys)).length)

/-- `redact_in_batches`: the table it leaves and the number it returns. -/
def redactInBatches (fuel : ℕ) (before : ℤ) (batchSize : ℕ) (table : AuditTable) :
    Option (AuditTable × ℕ) :=
  loop (redactBatch before batchSize) fuel (table, 0)

/-! ## What redaction is for -/

/-- The row is older than the cutoff and retains a question or a plan. -/
def RetainsContent (before : ℤ) (row : AuditRow) : Prop :=
  row.createdAt < before ∧ (row.question ≠ "" ∨ row.plan ≠ .object [])

theorem isEmptyObject_iff {v : Json} : isEmptyObject v = true ↔ v = .object [] := by
  unfold isEmptyObject
  split
  · simp
  · rename_i hne
    simpa using hne

theorem isRedactable_iff {before : ℤ} {row : AuditRow} :
    isRedactable before row = true ↔ RetainsContent before row := by
  simp only [isRedactable, RetainsContent, Bool.and_eq_true, decide_eq_true_eq, Bool.or_eq_true,
    bne_iff_ne, Bool.not_eq_true', ← Bool.not_eq_true, isEmptyObject_iff]

/-- The table in which exactly the old rows that retain content are blank. -/
def redacted (before : ℤ) (table : AuditTable) : AuditTable :=
  table.update (isRedactable before) redact redact_pk

theorem isRedactable_redact (before : ℤ) (row : AuditRow) :
    isRedactable before (redact row) = false := by
  simp [isRedactable, redact, isEmptyObject]

theorem redactionQueryset_redacted (before : ℤ) (table : AuditTable) :
    redactionQueryset before (redacted before table).rows = [] := by
  rw [redactionQueryset, List.filter_eq_nil_iff]
  intro row hrow
  obtain ⟨old, -, rfl⟩ := List.mem_map.mp hrow
  split_ifs with hold
  · simp [isRedactable_redact]
  · exact hold

theorem redacted_of_none {before : ℤ} {table : AuditTable}
    (h : redactionQueryset before table.rows = []) : redacted before table = table := by
  rw [redactionQueryset, List.filter_eq_nil_iff] at h
  apply AuditTable.ext
  calc (redacted before table).rows = table.rows.map id := by
        apply List.map_congr_left
        intro row hrow
        rw [if_neg (h row hrow)]
        rfl
    _ = table.rows := List.map_id _

/-! ## One batch -/

/-- Changed elements no longer count, the others count as before. -/
theorem length_filter_update {α : Type} {p m : α → Bool} {f : α → α}
    (hm : ∀ a, m a = true → p a = true) (hf : ∀ a, p (f a) = false) (l : List α) :
    ((l.map fun a => if m a then f a else a).filter p).length + (l.filter m).length =
      (l.filter p).length := by
  induction l with
  | nil => rfl
  | cons a l ih =>
    cases hma : m a with
    | true =>
      simp only [List.map_cons, hma, List.filter_cons, if_true, hf, hm a hma, List.length_cons,
        Bool.false_eq_true, if_false]
      omega
    | false =>
      simp only [List.map_cons, hma, List.filter_cons, Bool.false_eq_true, if_false]
      cases p a with
      | true =>
        simp only [if_true, List.length_cons]
        omega
      | false =>
        simp only [Bool.false_eq_true, if_false]
        exact ih

theorem isRedactable_of_isMatched {before : ℤ} {primaryKeys : List ℤ} {row : AuditRow}
    (h : isMatched before primaryKeys row = true) : isRedactable before row = true :=
  (Bool.and_eq_true_iff.mp h).1

theorem matched_of_firstKeys {before : ℤ} {batchSize : ℕ} {rows : List AuditRow}
    (h : firstKeys batchSize (redactionQueryset before rows) ≠ []) :
    0 < (rows.filter
      (isMatched before (firstKeys batchSize (redactionQueryset before rows)))).length := by
  obtain ⟨key, hkey⟩ := List.exists_mem_of_ne_nil _ h
  obtain ⟨row, hrow, hpk⟩ := mem_of_mem_firstKeys hkey
  obtain ⟨hmem, hredactable⟩ := List.mem_filter.mp hrow
  rw [List.length_pos_iff_exists_mem]
  refine ⟨row, List.mem_filter.mpr ⟨hmem, ?_⟩⟩
  rw [isMatched, hredactable, Bool.true_and, List.contains_iff_mem, hpk]
  exact hkey

section

variable {before : ℤ} {batchSize : ℕ} {s t : AuditTable × ℕ}

/-- A batch blanks some of the rows that redaction is for, and counts them. -/
theorem redactBatch_spec (h : redactBatch before batchSize s = some t) :
    redacted before t.1 = redacted before s.1 ∧
      t.2 + (redactionQueryset before t.1.rows).length =
        s.2 + (redactionQueryset before s.1.rows).length ∧
      (redactionQueryset before t.1.rows).length < (redactionQueryset before s.1.rows).length := by
  obtain ⟨table, count⟩ := s
  unfold redactBatch at h
  dsimp only at h
  split_ifs at h with hkeys
  have hsome := matched_of_firstKeys hkeys
  generalize firstKeys batchSize (redactionQueryset before table.rows) = primaryKeys at h hsome
  obtain rfl := Option.some.inj h
  have hlength : (redactionQueryset before
      (table.update (isMatched before primaryKeys) redact redact_pk).rows).length +
      (table.rows.filter (isMatched before primaryKeys)).length =
        (redactionQueryset before table.rows).length :=
    length_filter_update (p := isRedactable before) (f := redact)
      (fun _ => isRedactable_of_isMatched) (isRedactable_redact before) table.rows
  refine ⟨?_, ?_, ?_⟩
  · apply AuditTable.ext
    simp only [redacted, AuditTable.rows_update, List.map_map]
    apply List.map_congr_left
    intro row _
    rw [Function.comp_apply]
    cases hmatched : isMatched before primaryKeys row with
    | true => simp [isRedactable_redact, isRedactable_of_isMatched hmatched]
    | false => simp
  · dsimp only
    omega
  · dsimp only
    omega

theorem redactBatch_eq_none (hbatch : 1 ≤ batchSize) :
    redactBatch before batchSize s = none ↔ redactionQueryset before s.1.rows = [] := by
  rw [← firstKeys_eq_nil hbatch]
  unfold redactBatch
  dsimp only
  split_ifs with hkeys <;> simp [hkeys]

end

/-! ## The whole loop -/

theorem redactInBatches_eq (before : ℤ) (table : AuditTable) {batchSize : ℕ}
    (hbatch : 1 ≤ batchSize) {fuel : ℕ}
    (hfuel : (redactionQueryset before table.rows).length < fuel) :
    redactInBatches fuel before batchSize table =
      some (redacted before table, (redactionQueryset before table.rows).length) := by
  -- what is still to be done and what is counted make up the whole
  let invariant := fun s : AuditTable × ℕ => redacted before s.1 = redacted before table ∧
    s.2 + (redactionQueryset before s.1.rows).length = (redactionQueryset before table.rows).length
  have hpass : ∀ s t, invariant s → redactBatch before batchSize s = some t → invariant t ∧
      (redactionQueryset before t.1.rows).length < (redactionQueryset before s.1.rows).length := by
    intro s t hs hst
    obtain ⟨hsame, hcount, hless⟩ := redactBatch_spec hst
    exact ⟨⟨hsame.trans hs.1, hcount.trans hs.2⟩, hless⟩
  have hstart : invariant (table, 0) := ⟨rfl, Nat.zero_add _⟩
  obtain ⟨t, hend, ⟨hsame, hcount⟩, hdone⟩ := loop_ends invariant
    (fun s => (redactionQueryset before s.1.rows).length) hpass hstart hfuel
  rw [redactBatch_eq_none hbatch] at hdone
  rw [redacted_of_none hdone] at hsame
  rw [hdone, List.length_nil, Nat.add_zero] at hcount
  rw [redactInBatches, hend, ← hsame, ← hcount]

theorem redacted_rows (before : ℤ) (table : AuditTable) :
    List.Forall₂ (fun old new => (RetainsContent before old →
        new = { old with question := "", plan := .object [] }) ∧
      (¬ RetainsContent before old → new = old)) table.rows (redacted before table).rows := by
  rw [redacted, AuditTable.rows_update, List.forall₂_map_right_iff, List.forall₂_same]
  intro row _
  rw [← isRedactable_iff]
  constructor
  · intro h
    rw [if_pos h]
    rfl
  · intro h
    rw [if_neg h]

/-- There is one final table for all sizes of batches: the rows that retain content are blank, the
others and all other columns are as before. Every run ends there with the number of these rows, and
a second run changes nothing. -/
theorem redaction_exact (before : ℤ) (table : AuditTable) :
    ∃ final : AuditTable,
      List.Forall₂ (fun old new => (RetainsContent before old →
          new = { old with question := "", plan := .object [] }) ∧
        (¬ RetainsContent before old → new = old)) table.rows final.rows ∧
      ∀ batchSize, 1 ≤ batchSize →
        ∀ fuel, (redactionQueryset before table.rows).length < fuel →
          redactInBatches fuel before batchSize table =
            some (final, (redactionQueryset before table.rows).length) ∧
          redactInBatches fuel before batchSize final = some (final, 0) := by
  have hblank := redactionQueryset_redacted before table
  refine ⟨redacted before table, redacted_rows before table, ?_⟩
  intro batchSize hbatch fuel hfuel
  constructor
  · exact redactInBatches_eq before table hbatch hfuel
  · have hfuel' : (redactionQueryset before (redacted before table).rows).length < fuel := by
      rw [hblank]
      exact Nat.zero_lt_of_lt hfuel
    rw [redactInBatches_eq before _ hbatch hfuel', redacted_of_none hblank, hblank]
    rfl

theorem twoRuns_redaction_exact : ∃ final, redactInBatches 2 50 1 twoRuns = some (final, 1) ∧
    redactInBatches 2 50 1 final = some (final, 0) := by
  obtain ⟨final, -, hruns⟩ := redaction_exact 50 twoRuns
  exact ⟨final, hruns 1 le_rfl 2 (by decide)⟩

end AskLens.Management
