import AskLens.Library.JsonSchema
import Mathlib.Data.List.Sort

/-!
# The audit table

The stored `SemanticQueryRun` rows, and the query sets that the lifecycle
commands build over them.
-/
namespace AskLens.Management

open JsonSchema

/-- A stored `SemanticQueryRun`; `createdAt` counts microseconds. -/
structure AuditRow where
  pk : ℤ
  userId : Option ℤ
  question : String
  plan : Json
  status : String
  rowCount : ℕ
  durationMs : Option ℕ
  error : String
  createdAt : ℤ

/-- The primary key is unique. -/
structure AuditTable where
  rows : List AuditRow
  nodup : (rows.map AuditRow.pk).Nodup

namespace AuditTable

def keys (table : AuditTable) : List ℤ := table.rows.map AuditRow.pk

def insert (table : AuditTable) (row : AuditRow) (h : row.pk ∉ table.keys) : AuditTable where
  rows := table.rows ++ [row]
  nodup := by
    rw [List.map_append, List.nodup_append_comm]
    exact List.nodup_cons.mpr ⟨h, table.nodup⟩

def filter (table : AuditTable) (p : AuditRow → Bool) : AuditTable where
  rows := table.rows.filter p
  nodup := table.nodup.sublist (List.filter_sublist.map AuditRow.pk)

/-- `update` on the rows that satisfy `p`, which leaves the primary key alone. -/
def update (table : AuditTable) (p : AuditRow → Bool) (f : AuditRow → AuditRow)
    (hf : ∀ row, (f row).pk = row.pk) : AuditTable where
  rows := table.rows.map fun row => if p row then f row else row
  nodup := by
    have hkeys : (AuditRow.pk ∘ fun row => if p row then f row else row) = AuditRow.pk := by
      funext row
      cases hp : p row <;> simp [hp, hf]
    rw [List.map_map, hkeys]
    exact table.nodup

@[ext] theorem ext {s t : AuditTable} (h : s.rows = t.rows) : s = t := by
  cases s
  cases t
  cases h
  rfl

@[simp] theorem rows_insert (table : AuditTable) (row : AuditRow) (h : row.pk ∉ table.keys) :
    (table.insert row h).rows = table.rows ++ [row] := rfl

@[simp] theorem rows_filter (table : AuditTable) (p : AuditRow → Bool) :
    (table.filter p).rows = table.rows.filter p := rfl

@[simp] theorem rows_update (table : AuditTable) (p : AuditRow → Bool) (f : AuditRow → AuditRow)
    (hf : ∀ row, (f row).pk = row.pk) :
    (table.update p f hf).rows = table.rows.map fun row => if p row then f row else row := rfl

end AuditTable

/-! ## Query sets -/

/-- `plan={}`. -/
def isEmptyObject : Json → Bool
  | .object [] => true
  | _ => false

/-- The conditions of `redaction_queryset`. -/
def isRedactable (before : ℤ) (row : AuditRow) : Bool :=
  decide (row.createdAt < before) && (row.question != "" || !isEmptyObject row.plan)

def redactionQueryset (before : ℤ) (rows : List AuditRow) : List AuditRow :=
  rows.filter (isRedactable before)

/-- The conditions of `purge_queryset`. -/
def isPurgeable (before : ℤ) (highWater : Option ℤ) (row : AuditRow) : Bool :=
  decide (row.createdAt < before) && highWater.all fun mark => decide (row.pk ≤ mark)

def purgeQueryset (before : ℤ) (highWater : Option ℤ) (rows : List AuditRow) : List AuditRow :=
  rows.filter (isPurgeable before highWater)

/-- `.order_by("pk").values_list("pk", flat=True)[:batch_size]`. -/
def firstKeys (batchSize : ℕ) (queryset : List AuditRow) : List ℤ :=
  ((queryset.map AuditRow.pk).insertionSort (· ≤ ·)).take batchSize

def capturePurgeHighWater (before : ℤ) (rows : List AuditRow) : Option ℤ :=
  (((purgeQueryset before none rows).map AuditRow.pk).insertionSort (· ≥ ·)).head?

theorem mem_of_mem_firstKeys {batchSize : ℕ} {queryset : List AuditRow} {key : ℤ}
    (h : key ∈ firstKeys batchSize queryset) : ∃ row ∈ queryset, row.pk = key := by
  have hmem := List.mem_of_mem_take h
  rw [List.mem_insertionSort] at hmem
  exact List.mem_map.mp hmem

theorem firstKeys_eq_nil {batchSize : ℕ} (hbatch : 1 ≤ batchSize) {queryset : List AuditRow} :
    firstKeys batchSize queryset = [] ↔ queryset = [] := by
  unfold firstKeys
  rw [List.take_eq_nil_iff]
  constructor
  · rintro (hzero | hsorted)
    · omega
    · have hlength := congrArg List.length hsorted
      rw [List.length_insertionSort, List.length_map] at hlength
      exact List.length_eq_zero_iff.mp hlength
  · rintro rfl
    exact .inr rfl

def askedRun (pk createdAt : ℤ) : AuditRow where
  pk := pk
  userId := none
  question := "How many orders?"
  plan := .object []
  status := "success"
  rowCount := 1
  durationMs := some 3
  error := ""
  createdAt := createdAt

def twoRuns : AuditTable where
  rows := [askedRun 1 10, askedRun 2 90]
  nodup := by decide

end AskLens.Management
