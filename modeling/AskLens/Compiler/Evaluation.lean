import AskLens.Compiler.JoinBudget
import AskLens.Django.Joins
import AskLens.Library.Arrangements

/-!
# What a compiled query returns

The joined rows behind a compiled query, the groups that an aggregate query
forms of them, and the answers that a database may give: any order that the
ordering terms allow, cut at the stop of the slice.
-/
namespace AskLens.Compiler

open Python Django Arrangements

section

variable {graph : ModelGraph} {root : ModelName} {R V : Type}

def CompiledQuery.readPaths (q : CompiledQuery) : List String :=
  q.values.values.map Expression.path ++ q.annotations.values.map Aggregate.path ++ q.orderingPaths

/-- The rows that the query joins and keeps. -/
def CompiledQuery.rows (q : CompiledQuery) (db : Database graph root R V) (b : Backend V) :
    List (QueryRow R) :=
  db.queryRows b q.calls q.readPaths

/-- What the `values` call reads from a row. -/
def CompiledQuery.output (q : CompiledQuery) (db : Database graph root R V) (b : Backend V)
    (c : QueryRow R) : List (Option V) :=
  q.values.values.map fun e => e.apply b (db.readExpression q.calls e.path c)

/-- Which ordering terms are descending. -/
def CompiledQuery.directions (q : CompiledQuery) : List Bool :=
  q.ordering.map fun term => term.2 == .desc

/-! ## List queries -/

def CompiledQuery.orderKey (q : CompiledQuery) (db : Database graph root R V) (c : QueryRow R) :
    List (Option V) :=
  q.ordering.map fun term => db.readExpression q.calls term.1 c

/-- A row as the `values` call returns it. -/
def CompiledQuery.listRow (q : CompiledQuery) (db : Database graph root R V) (b : Backend V)
    (c : QueryRow R) : Dict (Option V) :=
  q.values.keys.zip (q.output db b c)

/-! ## Aggregate queries -/

def CompiledQuery.groupRows [DecidableEq V] (q : CompiledQuery) (db : Database graph root R V)
    (b : Backend V) (g : List (Option V)) : List (QueryRow R) :=
  (q.rows db b).filter fun c => q.output db b c = g

/-- The groups of the rows. Without a grouping all rows are one group, also when there are
none. -/
def CompiledQuery.groups [DecidableEq V] (q : CompiledQuery) (db : Database graph root R V)
    (b : Backend V) : List (List (Option V)) :=
  if q.ungrouped then [[]] else ((q.rows db b).map (q.output db b)).dedup

variable [LinearOrder V]

def CompiledQuery.metricValue (q : CompiledQuery) (db : Database graph root R V) (b : Backend V)
    (g : List (Option V)) (a : Aggregate) : Option V :=
  a.evaluate b ((q.groupRows db b g).map (db.readExpression q.calls a.path))

/-- A group as the query returns it: its keys, then its annotations. -/
def CompiledQuery.aggregateRow (q : CompiledQuery) (db : Database graph root R V) (b : Backend V)
    (g : List (Option V)) : Dict (Option V) :=
  q.values.keys.zip g ++ q.annotations.map fun e => (e.1, q.metricValue db b g e.2)

/-- The values of the ordering terms of an aggregate query, which are aliases. -/
def CompiledQuery.groupKey (q : CompiledQuery) (db : Database graph root R V) (b : Backend V)
    (g : List (Option V)) : List (Option V) :=
  q.ordering.map fun term => ((q.aggregateRow db b g).get? term.1).join

/-! ## Answers -/

def CompiledQuery.sliced {α : Type} (q : CompiledQuery) (rows : List α) : List α :=
  match q.stop with
  | some stop => rows.take stop.toNat
  | none => rows

/-- The raw rows are an answer that the database may give. -/
def CompiledQuery.Answers (q : CompiledQuery) (db : Database graph root R V) (b : Backend V)
    (rawRows : List (Dict (Option V))) : Prop :=
  match q.limitScope with
  | .rows => ∃ rows, IsArrangement q.directions (q.orderKey db) (q.rows db b) rows ∧
      rawRows = (q.sliced rows).map (q.listRow db b)
  | .groups => ∃ groups, IsArrangement q.directions (q.groupKey db b) (q.groups db b) groups ∧
      rawRows = (q.sliced groups).map (q.aggregateRow db b)

end

end AskLens.Compiler
