import AskLens.Library.Runs
import AskLens.Management.AuditTable
import AskLens.Python.Dict
import Mathlib.Algebra.Order.Group.Multiset
import Mathlib.Data.Multiset.Filter
import Mathlib.Tactic.Abel

/-!
# Purging

`purge_in_batches` next to other writers. Every statement of the purge is one
event, and other writers insert and delete between any two of them. Rows that
the open transaction has deleted stay in the table until it commits; until then
other writers can neither delete them nor take their primary keys.
-/
namespace AskLens.Management

open Python Runs

/-- Where the purge stands. `selected` holds the primary keys of the batch, `fetched` those of the
objects that `delete` has read and not yet deleted with the number it has deleted, and `deleted` the
details that it returned. -/
inductive Control where
  | started
  | scanning
  | selected (primaryKeys : List ℤ)
  | fetched (primaryKeys : List ℤ) (count : ℕ)
  | deleted (details : Dict ℕ)
  | returned (deletedRuns : ℕ)
  | failed

/-- A purge and the table it works on. The last four fields only record what happened: the rows
that the latest scan saw, the rows that committed batches deleted, and the rows that other writers
deleted and inserted. -/
structure Purge where
  control : Control
  table : AuditTable
  /-- The primary keys that the open transaction has deleted. -/
  held : List ℤ
  highWater : Option ℤ
  deletedRuns : ℕ
  lastScan : List AuditRow
  removed : List AuditRow
  taken : List AuditRow
  added : List AuditRow

def Purge.start (table : AuditTable) : Purge where
  control := .started
  table := table
  held := []
  highWater := none
  deletedRuns := 0
  lastScan := []
  removed := []
  taken := []
  added := []

/-- The rows that the connection of the purge still sees. -/
def Purge.visible (s : Purge) : List AuditRow := s.table.rows.filter fun row => row.pk ∉ s.held

/-- The rows that the open transaction has deleted. -/
def Purge.pending (s : Purge) : List AuditRow := s.table.rows.filter fun row => row.pk ∈ s.held

/-- The rows that this run has deleted, committed or not. -/
def Purge.deletions (s : Purge) : List AuditRow := s.removed ++ s.pending

/-- A step of another writer, a statement of the purge, or an exception in it. Django deletes with
one statement (`delete`), or, when delete signals or relations of the host ask for it, fetches the
objects and deletes them by their primary keys, a hundred at a time. `related` counts the other
objects that are deleted with them. -/
inductive Event where
  | otherInsert (row : AuditRow)
  | otherDelete (pk : ℤ)
  | capture
  | scan
  | delete (related : Dict ℕ)
  | fetch
  | deleteFetched (related : Dict ℕ)
  | commit
  | raise

/-- `SemanticQueryRun._meta.label`. -/
def modelLabel : String := "asklens.SemanticQueryRun"

/-- The second part of what `delete` returns. -/
def deleteDetails (count : ℕ) (related : Dict ℕ) : Dict ℕ :=
  let others := related.filter fun entry => entry.1 != modelLabel
  if count = 0 then others else (modelLabel, count) :: others

/-- `details.get(model_label, 0)`. -/
def deletedCount (details : Dict ℕ) : ℕ := (details.get? modelLabel).getD 0

def batchRows (before : ℤ) (s : Purge) (primaryKeys : List ℤ) : List AuditRow :=
  (purgeQueryset before s.highWater s.visible).filter fun row => row.pk ∈ primaryKeys

/-- Another writer commits a row. -/
def insertStep (row : AuditRow) (s : Purge) (h : row.pk ∉ s.table.keys) : Purge :=
  { s with table := s.table.insert row h, added := s.added ++ [row] }

/-- Another writer deletes the row with this primary key, if there is one. -/
def takeStep (pk : ℤ) (s : Purge) : Purge :=
  { s with
    table := s.table.filter fun row => row.pk ≠ pk
    taken := s.taken ++ s.table.rows.filter fun row => row.pk = pk }

/-- `GET_ITERATOR_CHUNK_SIZE`. -/
def chunkSize : ℕ := 100

/-- The transaction deletes these rows. -/
def Purge.hold (s : Purge) (rows : List AuditRow) : Purge :=
  { s with held := s.held ++ rows.map AuditRow.pk }

/-- `DELETE` with the conditions of the query set. -/
def deleteStep (before : ℤ) (primaryKeys : List ℤ) (related : Dict ℕ) (s : Purge) : Purge :=
  let rows := batchRows before s primaryKeys
  { s.hold rows with control := .deleted (deleteDetails rows.length related) }

/-- `DELETE` with the primary keys of a chunk. -/
def deleteChunk (primaryKeys : List ℤ) (count : ℕ) (related : Dict ℕ) (s : Purge) : Purge :=
  let rows := s.visible.filter fun row => row.pk ∈ primaryKeys.take chunkSize
  let rest := primaryKeys.drop chunkSize
  { s.hold rows with
    control :=
      if rest = [] then .deleted (deleteDetails (count + rows.length) related)
      else .fetched rest (count + rows.length) }

/-- `capture_purge_high_water`, and the `return` without a high-water mark. -/
def captureStep (before : ℤ) (s : Purge) : Purge :=
  match capturePurgeHighWater before s.visible with
  | none =>
    { s with lastScan := purgeQueryset before none s.visible, control := .returned 0 }
  | some mark => { s with highWater := some mark, control := .scanning }

/-- The first statement of a batch; without primary keys the purge returns. -/
def scanStep (before : ℤ) (batchSize : ℕ) (s : Purge) : Purge :=
  let queryset := purgeQueryset before s.highWater s.visible
  let primaryKeys := firstKeys batchSize queryset
  { s with
    lastScan := queryset
    control := if primaryKeys = [] then .returned s.deletedRuns else .selected primaryKeys }

/-- The end of a batch: its deletions become permanent and are counted. -/
def commitStep (details : Dict ℕ) (s : Purge) : Purge :=
  { s with
    table := s.table.filter fun row => row.pk ∉ s.held
    removed := s.removed ++ s.pending
    held := []
    deletedRuns := s.deletedRuns + deletedCount details
    control := .scanning }

/-- `purge_in_batches` and the other writers; `none` when the event is not enabled. -/
def purgeStep (before : ℤ) (batchSize : ℕ) (s : Purge) : Event → Option Purge
  | .otherInsert row =>
    if h : row.pk ∈ s.table.keys then none else some (insertStep row s h)
  | .otherDelete pk => if pk ∈ s.held then none else some (takeStep pk s)
  | .capture =>
    match s.control with
    | .started => some (captureStep before s)
    | _ => none
  | .scan =>
    match s.control with
    | .scanning => some (scanStep before batchSize s)
    | _ => none
  | .delete related =>
    match s.control with
    | .selected primaryKeys => some (deleteStep before primaryKeys related s)
    | _ => none
  | .fetch =>
    match s.control with
    | .selected primaryKeys =>
      some { s with control := .fetched ((batchRows before s primaryKeys).map AuditRow.pk) 0 }
    | _ => none
  | .deleteFetched related =>
    match s.control with
    | .fetched primaryKeys count => some (deleteChunk primaryKeys count related s)
    | _ => none
  | .commit =>
    match s.control with
    | .deleted details => some (commitStep details s)
    | _ => none
  | .raise =>
    match s.control with
    | .returned _ | .failed => none
    | _ => some { s with held := [], control := .failed }

/-- The purge after these events. -/
def purgeRun (before : ℤ) (batchSize : ℕ) (table : AuditTable) (events : List Event) :
    Option Purge :=
  run (purgeStep before batchSize) events (.start table)

/-! ## What the purge keeps -/

/-- Another writer inserted the row under the primary key of an object that `delete` had fetched and
not yet deleted. -/
def TookFetchedKey (before : ℤ) (batchSize : ℕ) (table : AuditTable) (events : List Event)
    (row : AuditRow) : Prop :=
  ∃ earlier later s primaryKeys count, events = earlier ++ .otherInsert row :: later ∧
    purgeRun before batchSize table earlier = some s ∧
    s.control = .fetched primaryKeys count ∧ row.pk ∈ primaryKeys

def Control.Knows (s : Purge) (stale : AuditRow → Prop) : Control → Prop
  | .started => s.held = [] ∧ s.highWater = none
  | .scanning => s.held = [] ∧ s.highWater.isSome
  | .selected _ => s.held = [] ∧ s.highWater.isSome
  | .fetched primaryKeys count =>
    count = s.pending.length ∧ s.highWater.isSome ∧
      (∀ key ∈ primaryKeys, ∃ mark ∈ s.highWater, key ≤ mark) ∧
      ∀ row ∈ s.table.rows, row.pk ∈ primaryKeys → stale row
  | .deleted details => deletedCount details = s.pending.length ∧ s.highWater.isSome
  | .returned deletedRuns =>
    s.held = [] ∧ deletedRuns = s.removed.length ∧ s.lastScan = []
  | .failed => s.held = []

/-- The invariant of a purge that started on `table` and may delete the rows that are `stale`. -/
structure PurgeInvariant (table : AuditTable) (stale : AuditRow → Prop) (s : Purge) : Prop where
  /-- Every row is in the table, deleted by this run, or deleted by another writer. -/
  fate : (s.table.rows : Multiset AuditRow) + s.removed + s.taken = table.rows + s.added
  held_mem : ∀ key ∈ s.held, key ∈ s.table.keys
  marked : ∀ row ∈ s.deletions, ∃ mark ∈ s.highWater, row.pk ≤ mark
  deletions_stale : ∀ row ∈ s.deletions, stale row
  counted : s.deletedRuns = s.removed.length
  knows : s.control.Knows s stale

section

variable {before : ℤ} {batchSize : ℕ} {table : AuditTable} {stale stale' : AuditRow → Prop}
  {s t : Purge} {row : AuditRow}

theorem AuditTable.eq_of_pk_eq {row row' : AuditRow} (h : row ∈ table.rows)
    (h' : row' ∈ table.rows) (hpk : row.pk = row'.pk) : row = row' :=
  List.inj_on_of_nodup_map table.nodup h h' hpk

theorem mem_purgeQueryset {highWater : Option ℤ} {rows : List AuditRow} :
    row ∈ purgeQueryset before highWater rows ↔
      row ∈ rows ∧ row.createdAt < before ∧ ∀ mark ∈ highWater, row.pk ≤ mark := by
  cases highWater <;> simp [purgeQueryset, isPurgeable]

theorem mem_visible : row ∈ s.visible ↔ row ∈ s.table.rows ∧ row.pk ∉ s.held := by
  simp [Purge.visible]

theorem mem_pending : row ∈ s.pending ↔ row ∈ s.table.rows ∧ row.pk ∈ s.held := by
  simp [Purge.pending]

theorem pending_eq_nil (h : s.held = []) : s.pending = [] := by
  simp [Purge.pending, h]

theorem batchRows_eq (before : ℤ) (s : Purge) (primaryKeys : List ℤ) :
    batchRows before s primaryKeys = s.visible.filter fun row =>
      decide (row.pk ∈ primaryKeys) && isPurgeable before s.highWater row := by
  rw [batchRows, purgeQueryset, List.filter_filter]

/-- The rows that a statement deletes join those that the transaction has deleted before. -/
theorem pending_hold (s : Purge) (p : AuditRow → Bool) :
    (s.hold (s.visible.filter p)).pending.Perm (s.pending ++ s.visible.filter p) := by
  have hkey : ∀ row ∈ s.table.rows,
      row.pk ∈ (s.visible.filter p).map AuditRow.pk ↔ row.pk ∉ s.held ∧ p row = true := by
    intro row hrow
    rw [List.mem_map]
    constructor
    · rintro ⟨other, hother, hpk⟩
      obtain ⟨hvisible, hp⟩ := List.mem_filter.mp hother
      obtain ⟨hmem, hheld⟩ := mem_visible.mp hvisible
      obtain rfl := AuditTable.eq_of_pk_eq hmem hrow hpk
      exact ⟨hheld, hp⟩
    · rintro ⟨hheld, hp⟩
      exact ⟨row, List.mem_filter.mpr ⟨mem_visible.mpr ⟨hrow, hheld⟩, hp⟩, rfl⟩
  have hsplit := List.filter_append_perm (fun row => decide (row.pk ∈ s.held))
    (s.hold (s.visible.filter p)).pending
  have hold : (s.hold (s.visible.filter p)).pending.filter (fun row => decide (row.pk ∈ s.held)) =
      s.pending := by
    rw [Purge.pending, List.filter_filter]
    apply List.filter_congr
    intro row _
    rw [Bool.eq_iff_iff]
    simp only [Purge.hold, List.mem_append, Bool.and_eq_true, decide_eq_true_eq]
    tauto
  have hnew : (s.hold (s.visible.filter p)).pending.filter (fun row => !decide (row.pk ∈ s.held)) =
      s.visible.filter p := by
    conv_rhs => rw [Purge.visible, List.filter_filter]
    rw [Purge.pending, List.filter_filter]
    apply List.filter_congr
    intro row hrow
    have hiff := hkey row hrow
    rw [Bool.eq_iff_iff]
    simp only [Purge.hold, List.mem_append, Bool.and_eq_true, Bool.not_eq_true',
      decide_eq_false_iff_not, decide_eq_true_eq, hiff]
    tauto
  rw [hold, hnew] at hsplit
  exact hsplit.symm

theorem deletedCount_details (count : ℕ) (related : Dict ℕ) :
    deletedCount (deleteDetails count related) = count := by
  unfold deletedCount deleteDetails
  dsimp only
  split_ifs with hzero
  · have hnone : Dict.get? (related.filter fun entry => entry.1 != modelLabel) modelLabel = none := by
      rw [← Option.not_isSome_iff_eq_none, Dict.get?_isSome_iff]
      simp [Dict.keys]
    rw [hnone, hzero]
    rfl
  · simp [Dict.get?]

theorem PurgeInvariant.mono (h : PurgeInvariant table stale s) (hmono : ∀ row, stale row → stale' row) :
    PurgeInvariant table stale' s where
  fate := h.fate
  held_mem := h.held_mem
  marked := h.marked
  deletions_stale row hrow := hmono row (h.deletions_stale row hrow)
  counted := h.counted
  knows := by
    have hknows := h.knows
    cases hcontrol : s.control with
    | fetched primaryKeys count =>
      rw [hcontrol] at hknows
      obtain ⟨hcount, hsome, hmarked, hstale⟩ := hknows
      exact ⟨hcount, hsome, hmarked, fun row hrow hkey => hmono row (hstale row hrow hkey)⟩
    | _ =>
      rw [hcontrol] at hknows
      exact hknows

theorem PurgeInvariant.knows_at (h : PurgeInvariant table stale s) {control : Control}
    (hcontrol : s.control = control) : control.Knows s stale := by
  rw [← hcontrol]
  exact h.knows

theorem purgeInvariant_start (table : AuditTable) (stale : AuditRow → Prop) :
    PurgeInvariant table stale (.start table) where
  fate := by simp [Purge.start]
  held_mem := by simp [Purge.start]
  marked := by simp [Purge.start, Purge.deletions, Purge.pending]
  deletions_stale := by simp [Purge.start, Purge.deletions, Purge.pending]
  counted := rfl
  knows := ⟨rfl, rfl⟩

/-! ## The steps of other writers -/

theorem pending_insertStep (h : PurgeInvariant table stale s) (hkey : row.pk ∉ s.table.keys) :
    (insertStep row s hkey).pending = s.pending := by
  have hheld : row.pk ∉ s.held := fun hmem => hkey (h.held_mem row.pk hmem)
  show (s.table.rows ++ [row]).filter (fun row => decide (row.pk ∈ s.held)) = _
  rw [List.filter_append, List.filter_singleton]
  simp [hheld, Purge.pending]

theorem pending_takeStep {pk : ℤ} (hpk : pk ∉ s.held) : (takeStep pk s).pending = s.pending := by
  show (s.table.rows.filter _).filter (fun row => decide (row.pk ∈ s.held)) = _
  rw [List.filter_filter]
  apply List.filter_congr
  intro row _
  have hne : row.pk ∈ s.held → row.pk ≠ pk := fun hmem => ne_of_mem_of_not_mem hmem hpk
  rw [Bool.eq_iff_iff]
  simpa using hne

/-- A step of another writer that leaves the deletions of the purge alone keeps the invariant. -/
theorem PurgeInvariant.of_other (h : PurgeInvariant table stale s) {table' : AuditTable}
    {taken added : List AuditRow}
    (hfate : (table'.rows : Multiset AuditRow) + s.removed + taken = table.rows + added)
    (hheld : ∀ key ∈ s.held, key ∈ table'.keys)
    (hpending : ({ s with table := table', taken := taken, added := added } : Purge).pending =
      s.pending)
    (hrows : ∀ primaryKeys count, s.control = .fetched primaryKeys count →
      ∀ row ∈ table'.rows, row.pk ∈ primaryKeys → row ∈ s.table.rows ∨ stale row) :
    PurgeInvariant table stale { s with table := table', taken := taken, added := added } := by
  have hdeletions : ({ s with table := table', taken := taken, added := added } : Purge).deletions =
      s.deletions := by
    rw [Purge.deletions, hpending]
    rfl
  constructor
  · exact hfate
  · exact hheld
  · rw [hdeletions]
    exact h.marked
  · rw [hdeletions]
    exact h.deletions_stale
  · exact h.counted
  · have hknows := h.knows
    dsimp only
    cases hcontrol : s.control with
    | fetched primaryKeys count =>
      rw [hcontrol] at hknows
      obtain ⟨hcount, hsome, hmarked, hstale⟩ := hknows
      refine ⟨hpending ▸ hcount, hsome, hmarked, ?_⟩
      intro row hrow hkey
      rcases hrows primaryKeys count hcontrol row hrow hkey with hold | hnew
      · exact hstale row hold hkey
      · exact hnew
    | deleted details =>
      rw [hcontrol] at hknows
      exact ⟨hpending ▸ hknows.1, hknows.2⟩
    | _ =>
      rw [hcontrol] at hknows
      exact hknows

/-- A row that another writer inserts is no concern of the purge, unless it takes the primary key of
a fetched object. -/
theorem PurgeInvariant.insertStep (h : PurgeInvariant table stale s)
    (hkey : row.pk ∉ s.table.keys)
    (hrow : ∀ primaryKeys count, s.control = .fetched primaryKeys count → row.pk ∈ primaryKeys →
      stale row) :
    PurgeInvariant table stale (insertStep row s hkey) := by
  apply h.of_other
  · have hfate := h.fate
    simp only [AuditTable.rows_insert, ← Multiset.coe_add]
    calc (s.table.rows : Multiset AuditRow) + [row] + s.removed + s.taken
        = s.table.rows + s.removed + s.taken + [row] := by abel
      _ = table.rows + (s.added + [row]) := by rw [hfate, add_assoc]
  · intro key hmem
    have hold : key ∈ s.table.rows.map AuditRow.pk := h.held_mem key hmem
    show key ∈ (s.table.rows ++ [row]).map AuditRow.pk
    rw [List.map_append]
    exact List.mem_append_left _ hold
  · exact pending_insertStep h hkey
  · intro primaryKeys count hcontrol other hother hmem
    rcases List.mem_append.mp hother with hother | hother
    · exact .inl hother
    · obtain rfl := List.mem_singleton.mp hother
      exact .inr (hrow primaryKeys count hcontrol hmem)

theorem PurgeInvariant.takeStep {pk : ℤ} (h : PurgeInvariant table stale s) (hpk : pk ∉ s.held) :
    PurgeInvariant table stale (takeStep pk s) := by
  apply h.of_other
  · have hsplit := Multiset.filter_add_not (fun row : AuditRow => row.pk = pk)
      (s.table.rows : Multiset AuditRow)
    simp only [Multiset.filter_coe] at hsplit
    have hfate := h.fate
    rw [← hsplit] at hfate
    simp only [AuditTable.rows_filter, ← Multiset.coe_add]
    rw [← hfate]
    abel
  · intro key hmem
    obtain ⟨row, hrow, rfl⟩ := List.mem_map.mp (h.held_mem key hmem)
    apply List.mem_map_of_mem
    refine List.mem_filter.mpr ⟨hrow, ?_⟩
    simpa using ne_of_mem_of_not_mem hmem hpk
  · exact pending_takeStep hpk
  · intro primaryKeys count _ other hother _
    exact .inl (List.mem_filter.mp hother).1

/-! ## The steps of the purge -/

theorem PurgeInvariant.moveTo (h : PurgeInvariant table stale s) (control : Control)
    (lastScan : List AuditRow)
    (hknows : control.Knows { s with control := control, lastScan := lastScan } stale) :
    PurgeInvariant table stale { s with control := control, lastScan := lastScan } where
  fate := h.fate
  held_mem := h.held_mem
  marked := h.marked
  deletions_stale := h.deletions_stale
  counted := h.counted
  knows := hknows

theorem PurgeInvariant.captureStep (h : PurgeInvariant table stale s)
    (hcontrol : s.control = .started) : PurgeInvariant table stale (captureStep before s) := by
  obtain ⟨hheld, hnone⟩ := h.knows_at hcontrol
  -- nothing can have been deleted before there is a mark
  have hdeletions : s.deletions = [] := by
    rw [List.eq_nil_iff_forall_not_mem]
    intro row hrow
    obtain ⟨mark, hmark, -⟩ := h.marked row hrow
    rw [hnone] at hmark
    cases hmark
  have hremoved : s.removed = [] := (List.append_eq_nil_iff.mp hdeletions).1
  unfold Management.captureStep
  cases hcapture : capturePurgeHighWater before s.visible with
  | none =>
    apply h.moveTo
    refine ⟨hheld, by simp [hremoved], ?_⟩
    unfold capturePurgeHighWater at hcapture
    have hlength := congrArg List.length (List.head?_eq_none_iff.mp hcapture)
    rw [List.length_insertionSort, List.length_map] at hlength
    exact List.length_eq_zero_iff.mp hlength
  | some mark =>
    constructor
    · exact h.fate
    · exact h.held_mem
    · intro row hrow
      have hmem : row ∈ s.deletions := hrow
      rw [hdeletions] at hmem
      cases hmem
    · exact h.deletions_stale
    · exact h.counted
    · exact ⟨hheld, rfl⟩

theorem PurgeInvariant.scanStep (hbatch : 1 ≤ batchSize) (h : PurgeInvariant table stale s)
    (hcontrol : s.control = .scanning) :
    PurgeInvariant table stale (scanStep before batchSize s) := by
  have hknows := h.knows_at hcontrol
  apply h.moveTo
  split_ifs with hkeys
  · exact ⟨hknows.1, h.counted, (firstKeys_eq_nil hbatch).mp hkeys⟩
  · exact hknows

theorem length_pending_hold (s : Purge) (p : AuditRow → Bool) :
    (s.hold (s.visible.filter p)).pending.length =
      s.pending.length + (s.visible.filter p).length := by
  rw [(pending_hold s p).length_eq, List.length_append]

/-- A statement that deletes stale rows at or below the mark keeps the invariant. -/
theorem PurgeInvariant.hold (h : PurgeInvariant table stale s) {p : AuditRow → Bool}
    {control : Control}
    (hrows : ∀ row ∈ s.visible.filter p, (∃ mark ∈ s.highWater, row.pk ≤ mark) ∧ stale row)
    (hknows : control.Knows { s.hold (s.visible.filter p) with control := control } stale) :
    PurgeInvariant table stale { s.hold (s.visible.filter p) with control := control } := by
  have hmem : ∀ row ∈ (s.hold (s.visible.filter p)).deletions,
      row ∈ s.deletions ∨ row ∈ s.visible.filter p := by
    intro row hrow
    rcases List.mem_append.mp hrow with hremoved | hpending
    · exact .inl (List.mem_append_left _ hremoved)
    · rcases List.mem_append.mp ((pending_hold s p).subset hpending) with hold | hnew
      · exact .inl (List.mem_append_right _ hold)
      · exact .inr hnew
  constructor
  · exact h.fate
  · intro key hkey
    rcases List.mem_append.mp hkey with hold | hnew
    · exact h.held_mem key hold
    · obtain ⟨row, hrow, rfl⟩ := List.mem_map.mp hnew
      exact List.mem_map_of_mem (mem_visible.mp (List.mem_filter.mp hrow).1).1
  · intro row hrow
    rcases hmem row hrow with hold | hnew
    · exact h.marked row hold
    · exact (hrows row hnew).1
  · intro row hrow
    rcases hmem row hrow with hold | hnew
    · exact h.deletions_stale row hold
    · exact (hrows row hnew).2
  · exact h.counted
  · exact hknows

theorem mem_batchRows {primaryKeys : List ℤ} (hsome : s.highWater.isSome)
    (h : row ∈ batchRows before s primaryKeys) :
    row.createdAt < before ∧ (∃ mark ∈ s.highWater, row.pk ≤ mark) ∧ row ∈ s.visible := by
  obtain ⟨hpurge, -⟩ := List.mem_filter.mp h
  obtain ⟨hvisible, hold, hmark⟩ := mem_purgeQueryset.mp hpurge
  obtain ⟨mark, hmarked⟩ := Option.isSome_iff_exists.mp hsome
  exact ⟨hold, ⟨mark, hmarked, hmark mark hmarked⟩, hvisible⟩

theorem PurgeInvariant.deleteStep {primaryKeys : List ℤ} {related : Dict ℕ}
    (hold : ∀ row : AuditRow, row.createdAt < before → stale row)
    (h : PurgeInvariant table stale s) (hcontrol : s.control = .selected primaryKeys) :
    PurgeInvariant table stale (deleteStep before primaryKeys related s) := by
  obtain ⟨hheld, hsome⟩ := h.knows_at hcontrol
  have hrows : ∀ row ∈ batchRows before s primaryKeys,
      (∃ mark ∈ s.highWater, row.pk ≤ mark) ∧ stale row := by
    intro row hrow
    obtain ⟨hcreated, hmark, -⟩ := mem_batchRows hsome hrow
    exact ⟨hmark, hold row hcreated⟩
  unfold Management.deleteStep
  rw [batchRows_eq] at hrows ⊢
  apply h.hold hrows
  refine ⟨?_, hsome⟩
  rw [deletedCount_details]
  show _ = (s.hold _).pending.length
  rw [length_pending_hold, pending_eq_nil hheld, List.length_nil, Nat.zero_add]

theorem PurgeInvariant.fetchStep {primaryKeys : List ℤ}
    (hold : ∀ row : AuditRow, row.createdAt < before → stale row)
    (h : PurgeInvariant table stale s) (hcontrol : s.control = .selected primaryKeys) :
    PurgeInvariant table stale
      { s with control := .fetched ((batchRows before s primaryKeys).map AuditRow.pk) 0 } := by
  obtain ⟨hheld, hsome⟩ := h.knows_at hcontrol
  apply h.moveTo
  refine ⟨?_, hsome, ?_, ?_⟩
  · show 0 = s.pending.length
    rw [pending_eq_nil hheld, List.length_nil]
  · intro key hkey
    obtain ⟨row, hrow, rfl⟩ := List.mem_map.mp hkey
    exact (mem_batchRows hsome hrow).2.1
  · intro row hrow hkey
    obtain ⟨other, hother, hpk⟩ := List.mem_map.mp hkey
    obtain ⟨hcreated, -, hvisible⟩ := mem_batchRows hsome hother
    obtain rfl := AuditTable.eq_of_pk_eq (mem_visible.mp hvisible).1 hrow hpk
    exact hold other hcreated

theorem PurgeInvariant.deleteChunk {primaryKeys : List ℤ} {count : ℕ} {related : Dict ℕ}
    (h : PurgeInvariant table stale s) (hcontrol : s.control = .fetched primaryKeys count) :
    PurgeInvariant table stale (deleteChunk primaryKeys count related s) := by
  obtain ⟨hcount, hsome, hmarked, hstale⟩ := h.knows_at hcontrol
  have hlength := length_pending_hold s fun row => decide (row.pk ∈ primaryKeys.take chunkSize)
  unfold Management.deleteChunk
  apply h.hold
  · intro row hrow
    obtain ⟨hvisible, hkey⟩ := List.mem_filter.mp hrow
    have hfetched := List.mem_of_mem_take (of_decide_eq_true hkey)
    exact ⟨hmarked row.pk hfetched, hstale row (mem_visible.mp hvisible).1 hfetched⟩
  · split_ifs with hrest
    · refine ⟨?_, hsome⟩
      rw [deletedCount_details, hcount]
      exact hlength.symm
    · refine ⟨?_, hsome, ?_, ?_⟩
      · rw [hcount]
        exact hlength.symm
      · exact fun key hkey => hmarked key (List.mem_of_mem_drop hkey)
      · exact fun row hrow hkey => hstale row hrow (List.mem_of_mem_drop hkey)

theorem PurgeInvariant.commitStep {details : Dict ℕ} (h : PurgeInvariant table stale s)
    (hcontrol : s.control = .deleted details) :
    PurgeInvariant table stale (commitStep details s) := by
  obtain ⟨hcount, hsome⟩ := h.knows_at hcontrol
  have hnone : (Management.commitStep details s).pending = [] := pending_eq_nil rfl
  have hdeletions : (Management.commitStep details s).deletions = s.deletions := by
    show (s.removed ++ s.pending) ++ (Management.commitStep details s).pending = _
    rw [hnone, List.append_nil]
    rfl
  constructor
  · have hsplit := Multiset.filter_add_not (fun row : AuditRow => row.pk ∈ s.held)
      (s.table.rows : Multiset AuditRow)
    simp only [Multiset.filter_coe] at hsplit
    have hfate := h.fate
    rw [← hsplit] at hfate
    simp only [Management.commitStep, AuditTable.rows_filter, ← Multiset.coe_add]
    rw [← hfate, Purge.pending]
    abel
  · intro key hkey
    cases hkey
  · rw [hdeletions]
    exact h.marked
  · rw [hdeletions]
    exact h.deletions_stale
  · show s.deletedRuns + deletedCount details = (s.removed ++ s.pending).length
    rw [h.counted, hcount, List.length_append]
  · exact ⟨rfl, hsome⟩

theorem PurgeInvariant.raiseStep (h : PurgeInvariant table stale s) :
    PurgeInvariant table stale { s with held := [], control := .failed } := by
  have hdeletions : ∀ row ∈ ({ s with held := [], control := .failed } : Purge).deletions,
      row ∈ s.deletions := by
    intro row hrow
    rcases List.mem_append.mp hrow with hremoved | hpending
    · exact List.mem_append_left _ hremoved
    · cases (mem_pending.mp hpending).2
  constructor
  · exact h.fate
  · intro key hkey
    cases hkey
  · exact fun row hrow => h.marked row (hdeletions row hrow)
  · exact fun row hrow => h.deletions_stale row (hdeletions row hrow)
  · exact h.counted
  · exact rfl

/-! ## Runs -/

/-- The rows that a purge may delete, given the events so far. -/
def Stale (before : ℤ) (batchSize : ℕ) (table : AuditTable) (events : List Event)
    (row : AuditRow) : Prop :=
  row.createdAt < before ∨ TookFetchedKey before batchSize table events row

theorem Stale.concat {events : List Event} (h : Stale before batchSize table events row)
    (e : Event) : Stale before batchSize table (events ++ [e]) row := by
  rcases h with hold | ⟨earlier, later, s, primaryKeys, count, rfl, hrun, hcontrol, hkey⟩
  · exact .inl hold
  · exact .inr ⟨earlier, later ++ [e], s, primaryKeys, count, by simp, hrun, hcontrol, hkey⟩

theorem purgeStep_invariant (hbatch : 1 ≤ batchSize) {events : List Event} {e : Event}
    (hrun : purgeRun before batchSize table events = some s)
    (h : PurgeInvariant table (Stale before batchSize table events) s)
    (hstep : purgeStep before batchSize s e = some t) :
    PurgeInvariant table (Stale before batchSize table (events ++ [e])) t := by
  have hold : ∀ row : AuditRow, row.createdAt < before →
      Stale before batchSize table (events ++ [e]) row := fun _ => .inl
  have hmono := h.mono fun row hrow => hrow.concat e
  cases e with
  | otherInsert row =>
    unfold purgeStep at hstep
    dsimp only at hstep
    split_ifs at hstep with hkey
    obtain rfl := Option.some.inj hstep
    apply hmono.insertStep
    intro primaryKeys count hcontrol hmem
    exact .inr ⟨events, [], s, primaryKeys, count, rfl, hrun, hcontrol, hmem⟩
  | otherDelete pk =>
    unfold purgeStep at hstep
    dsimp only at hstep
    split_ifs at hstep with hheld
    obtain rfl := Option.some.inj hstep
    exact hmono.takeStep hheld
  | capture =>
    cases hcontrol : s.control <;> simp only [purgeStep, hcontrol, reduceCtorEq] at hstep
    obtain rfl := Option.some.inj hstep
    exact hmono.captureStep hcontrol
  | scan =>
    cases hcontrol : s.control <;> simp only [purgeStep, hcontrol, reduceCtorEq] at hstep
    obtain rfl := Option.some.inj hstep
    exact hmono.scanStep hbatch hcontrol
  | delete related =>
    cases hcontrol : s.control <;> simp only [purgeStep, hcontrol, reduceCtorEq] at hstep
    obtain rfl := Option.some.inj hstep
    exact hmono.deleteStep hold hcontrol
  | fetch =>
    cases hcontrol : s.control <;> simp only [purgeStep, hcontrol, reduceCtorEq] at hstep
    obtain rfl := Option.some.inj hstep
    exact hmono.fetchStep hold hcontrol
  | deleteFetched related =>
    cases hcontrol : s.control <;> simp only [purgeStep, hcontrol, reduceCtorEq] at hstep
    obtain rfl := Option.some.inj hstep
    exact hmono.deleteChunk hcontrol
  | commit =>
    cases hcontrol : s.control <;> simp only [purgeStep, hcontrol, reduceCtorEq] at hstep
    obtain rfl := Option.some.inj hstep
    exact hmono.commitStep hcontrol
  | raise =>
    cases hcontrol : s.control <;> simp only [purgeStep, hcontrol, reduceCtorEq] at hstep
    all_goals
      obtain rfl := Option.some.inj hstep
      exact hmono.raiseStep

theorem purgeRun_invariant (hbatch : 1 ≤ batchSize) {events : List Event}
    (h : purgeRun before batchSize table events = some s) :
    PurgeInvariant table (Stale before batchSize table events) s :=
  run_induction (P := fun events s => PurgeInvariant table (Stale before batchSize table events) s)
    (purgeInvariant_start table _)
    (fun _ _ _ _ hrun hinvariant hstep => purgeStep_invariant hbatch hrun hinvariant hstep) h

/-- After every interleaving: each deleted row is at or below the captured mark and older than the
cutoff, unless another writer had put it under the primary key of an object that `delete` had fetched
and not yet deleted. No row is lost otherwise. A purge that returns saw no eligible row in its last
scan, and the count is that of the rows that it deleted. A batch that fails keeps its rows, and the
rows of earlier batches stay deleted. -/
theorem purge_deletes_stale_rows (hbatch : 1 ≤ batchSize) {events : List Event}
    (h : purgeRun before batchSize table events = some s) :
    (∀ row ∈ s.deletions, (∃ mark ∈ s.highWater, row.pk ≤ mark) ∧
      (row.createdAt < before ∨ TookFetchedKey before batchSize table events row)) ∧
    (s.table.rows : Multiset AuditRow) + s.removed + s.taken = table.rows + s.added ∧
    (∀ deletedRuns, s.control = .returned deletedRuns →
      s.lastScan = [] ∧ deletedRuns = s.deletions.length) ∧
    ∀ t, purgeStep before batchSize s .raise = some t →
      t.removed = s.removed ∧ t.deletions = s.removed ∧ t.table = s.table ∧
        t.visible = s.table.rows := by
  have hinvariant := purgeRun_invariant hbatch h
  have hfrom : ∀ row ∈ s.deletions, (∃ mark ∈ s.highWater, row.pk ≤ mark) ∧
      (row.createdAt < before ∨ TookFetchedKey before batchSize table events row) :=
    fun row hrow => ⟨hinvariant.marked row hrow, hinvariant.deletions_stale row hrow⟩
  refine ⟨hfrom, hinvariant.fate, ?_, ?_⟩
  · intro deletedRuns hcontrol
    obtain ⟨hheld, hcount, hscan⟩ := hinvariant.knows_at hcontrol
    have hdeletions : s.deletions = s.removed := by
      rw [Purge.deletions, pending_eq_nil hheld, List.append_nil]
    rw [hdeletions]
    exact ⟨hscan, hcount⟩
  · intro t hstep
    have ht : t = { s with held := [], control := .failed } := by
      cases hcontrol : s.control <;>
        simp only [purgeStep, hcontrol, reduceCtorEq, Option.some.injEq] at hstep
      all_goals exact hstep.symm
    have hheld : t.held = [] := by rw [ht]
    have hremoved : t.removed = s.removed := by rw [ht]
    have htable : t.table = s.table := by rw [ht]
    refine ⟨hremoved, ?_, htable, ?_⟩
    · rw [Purge.deletions, pending_eq_nil hheld, List.append_nil, hremoved]
    · rw [← htable, Purge.visible, hheld]
      simp

end

/-- One batch and a last scan, beside a writer that stores an old run above the mark and deletes
the new one; seven objects of the host are deleted with the run. -/
def busyPurge : List Event :=
  [.capture, .otherInsert (askedRun 3 20), .scan, .otherDelete 2,
    .delete [("host.Related", 7)], .commit, .scan]

theorem busyPurge_deletes_stale_row : ∃ s,
    purgeRun 50 1 twoRuns busyPurge = some s ∧ s.deletions = [askedRun 1 10] ∧
      (∀ row ∈ s.deletions, (∃ mark ∈ s.highWater, row.pk ≤ mark) ∧
        (row.createdAt < 50 ∨ TookFetchedKey 50 1 twoRuns busyPurge row)) ∧
      (s.table.rows : Multiset AuditRow) + s.removed + s.taken = twoRuns.rows + s.added ∧
      s.control = .returned s.deletions.length := by
  refine ⟨_, rfl, rfl, ?_⟩
  have h := @purge_deletes_stale_rows 50 1 twoRuns _ le_rfl busyPurge rfl
  exact ⟨h.1, h.2.1, congrArg Control.returned (h.2.2.1 1 rfl).2⟩

/-- `delete` fetches the old run. Another writer deletes it and stores a new run under its primary
key, which is then deleted by its primary key. -/
theorem reused_key_is_purged : ∃ s row,
    purgeRun 50 1 twoRuns [.capture, .scan, .fetch, .otherDelete 1, .otherInsert (askedRun 1 80),
        .deleteFetched [], .commit] = some s ∧
      row ∈ s.removed ∧ 50 ≤ row.createdAt :=
  ⟨_, askedRun 1 80, rfl, List.mem_singleton.mpr rfl, by decide⟩

end AskLens.Management
