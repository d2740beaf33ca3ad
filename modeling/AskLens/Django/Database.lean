import AskLens.Django.QuerySet
import AskLens.Library.LeftJoin
import Mathlib.Data.List.Dedup
import Mathlib.Data.List.ReduceOption
import Mathlib.Data.List.Sigma
import Mathlib.Data.Multiset.Basic
import Mathlib.Order.Lattice

/-!
# Database states

The rows behind a model graph, the values that a path reads from them, and what
the lookups and the aggregate functions of the backend compute.
-/
namespace AskLens.Django

open Python

/-! ## References -/

/-- One relationship of a path. -/
structure Hop where
  model : ModelName
  name : String
  toMany : Bool
  target : Option ModelName
deriving DecidableEq, Repr

/-- What a path reads at its end: a column, or the key of the last joined row. -/
inductive ReadTarget where
  | column (model : ModelName) (name : String)
  | key
deriving DecidableEq, Repr

/-- A resolved path. -/
structure Reference where
  hops : List Hop
  target : ReadTarget
deriving DecidableEq, Repr

def DjangoField.hop (field : DjangoField) (model : ModelName) (name : String) : Hop :=
  ⟨model, name, field.kind.isToMany, field.relatedModel⟩

/-- The joins and the target of the names of a path, where `none` is a `FieldError`. -/
def referenceFrom (graph : ModelGraph) : ModelName → List String → Option Reference
  | _, [] => none
  | model, part :: rest =>
    match graph.getField? model part with
    | none => none
    | some field =>
      if field.kind = .genericForeignKey then none
      else if rest = [] then
        some (if field.kind.joinsAtEnd then ⟨[field.hop model part], .key⟩
          else ⟨[], .column model part⟩)
      else
        match field.kind.isRelation, field.relatedModel with
        | true, some related =>
          (referenceFrom graph related rest).map fun r =>
            { r with hops := field.hop model part :: r.hops }
        | _, _ => none

theorem referenceFrom_step {graph : ModelGraph} {model related : ModelName} {rest : List String}
    {part : String} {field : DjangoField} (hfield : graph.getField? model part = some field)
    (hrelation : field.kind.isRelation = true) (hrelated : field.relatedModel = some related)
    (hrest : rest ≠ []) :
    referenceFrom graph model (part :: rest) = (referenceFrom graph related rest).map fun r =>
      { r with hops := field.hop model part :: r.hops } := by
  rw [referenceFrom, hfield]
  dsimp only
  rw [if_neg (DjangoField.kind_ne_generic hrelated), if_neg hrest, hrelation, hrelated]

theorem referenceFrom_concrete {graph : ModelGraph} {model : ModelName} {name : String}
    {field : DjangoField} (hfield : graph.getField? model name = some field)
    (h : field.kind.isConcrete = true) :
    referenceFrom graph model [name] = some ⟨[], .column model name⟩ := by
  have hgeneric : field.kind ≠ .genericForeignKey := by
    intro hkind
    simp [hkind, FieldKind.isConcrete] at h
  have hend : field.kind.joinsAtEnd = false := by
    cases hkind : field.kind <;> simp_all [FieldKind.isConcrete, FieldKind.joinsAtEnd]
  simp [referenceFrom, hfield, hgeneric, hend]

theorem splitDunder_fieldName {graph : ModelGraph} {model : ModelName} {name : String}
    {field : DjangoField} (hfield : graph.getField? model name = some field) :
    splitDunder name = [name] := by
  apply (graph model).names_plain
  exact Dict.get?_isSome_iff.mp (Option.isSome_iff_exists.mpr ⟨field, hfield⟩)

/-- The hops as the joins of a path: the names that lead to each. -/
def joinStepsOf : List String → List Hop → List JoinStep
  | _, [] => []
  | passed, hop :: rest =>
    ⟨passed ++ [hop.name], hop.toMany⟩ :: joinStepsOf (passed ++ [hop.name]) rest

theorem joinStepsFrom_eq_map (graph : ModelGraph) (model : ModelName) (passed parts : List String) :
    joinStepsFrom graph model passed parts =
      (referenceFrom graph model parts).map fun r => joinStepsOf passed r.hops := by
  induction parts generalizing model passed with
  | nil => rfl
  | cons part rest ih =>
    unfold joinStepsFrom referenceFrom
    cases hfield : graph.getField? model part with
    | none => rfl
    | some field =>
      dsimp only
      by_cases hgeneric : field.kind = .genericForeignKey
      · simp [hgeneric]
      · rw [if_neg hgeneric, if_neg hgeneric]
        by_cases hrest : rest = []
        · rw [if_pos hrest, if_pos hrest]
          by_cases hend : field.kind.joinsAtEnd = true
          · simp [hend, joinStepsOf, DjangoField.hop]
          · simp [hend, joinStepsOf]
        · rw [if_neg hrest, if_neg hrest]
          cases hkind : field.kind.isRelation with
          | false => rfl
          | true =>
            cases hrelated : field.relatedModel with
            | none => rfl
            | some related =>
              simp only [ih related, Option.map_map]
              rfl

/-- The reference of a path. A query that names an unresolvable path raises, so what such a path
reads does not matter. -/
def referenceAt (graph : ModelGraph) (model : ModelName) (path : String) : Reference :=
  (referenceFrom graph model (splitDunder path)).getD ⟨[], .column model path⟩

theorem joinSteps_eq_map (graph : ModelGraph) (model : ModelName) (path : String) :
    joinSteps graph model path =
      (referenceFrom graph model (splitDunder path)).map fun r => joinStepsOf [] r.hops :=
  joinStepsFrom_eq_map graph model [] (splitDunder path)

theorem resolveReference_eq_ok {graph : ModelGraph} {model : ModelName} {path : String} {u : Unit} :
    resolveReference graph model path = .ok u ↔
      ∃ r, referenceFrom graph model (splitDunder path) = some r := by
  unfold resolveReference
  rw [joinSteps_eq_map]
  cases referenceFrom graph model (splitDunder path) <;> simp

/-! ## Rows -/

/-- A state of the database, as a query on the model `root` sees it: the rows in the scope of the
query and what is stored behind them. The last fields are the constraints that the database keeps:
a to-one relation finds one row at most, and a non-null unique column identifies a row. -/
structure Database (graph : ModelGraph) (root : ModelName) (R V : Type) where
  table : List R
  stored : ModelName → R → Prop
  related : Hop → R → List R
  value : ModelName → String → R → Option V
  key : R → V
  toOne : ∀ hop r, hop.toMany = false → (related hop r).length ≤ 1
  table_stored : ∀ r ∈ table, stored root r
  related_stored : ∀ hop r, ∀ s ∈ related hop r, ∀ model, hop.target = some model → stored model s
  value_some : ∀ model name field, graph.getField? model name = some field →
    field.kind.isConcrete = true → field.null = false →
    ∀ r, stored model r → (value model name r).isSome = true
  identifies : ∀ model name field, graph.getField? model name = some field →
    field.kind.isConcrete = true → field.null = false →
    (field.primaryKey = true ∨ field.unique = true ∨ graph.hasUniqueConstraint model name = true) →
    ∀ r s, stored model r → stored model s → value model name r = value model name s → r = s

section Reading

variable {graph : ModelGraph} {root : ModelName} {R V : Type}

def ReadTarget.read (db : Database graph root R V) (r : R) : ReadTarget → Option V
  | .column model name => db.value model name r
  | .key => some (db.key r)

/-- The rows at the end of the hops. -/
def Database.reachable (db : Database graph root R V) : List Hop → R → List R
  | [], r => [r]
  | hop :: rest, r => (db.related hop r).flatMap (db.reachable rest)

end Reading

/-! ## Lookups and aggregate functions -/

/-- What the backend computes on values that are not null. -/
structure Backend (V : Type) where
  holds : Lookup → Operand → V → Bool
  trunc : TruncKind → Option String → V → V
  number : ℕ → V
  sum : Multiset V → V
  avg : Multiset V → V

section Values

variable {V : Type} (b : Backend V)

/-- Whether a condition holds of the value of its path; null satisfies `isnull` only. -/
def Condition.holds (cond : Condition) : Option V → Bool
  | none => cond.lookup = .isnull ∧ cond.operand = .one (.scalar (.bool true))
  | some v =>
    if cond.lookup = .isnull then cond.operand = .one (.scalar (.bool false))
    else b.holds cond.lookup cond.operand v

/-- The value of an expression whose path reads `v`. -/
def Expression.apply : Expression → Option V → Option V
  | .f _, v => v
  | .trunc kind _ zone, v => v.map (b.trunc kind zone)

/-- An aggregate function on the values that count; without any, only a count has a value. -/
def AggregateFunction.apply [LinearOrder V] (f : AggregateFunction) (present : List V) : Option V :=
  match f with
  | .count => some (b.number present.length)
  | .sum => if present = [] then none else some (b.sum present)
  | .avg => if present = [] then none else some (b.avg present)
  | .min => present.min?
  | .max => present.max?

/-- The value of an aggregate over the values of its path; nulls do not count. -/
def Aggregate.evaluate [LinearOrder V] (a : Aggregate) (values : List (Option V)) : Option V :=
  a.function.apply b (if a.distinct then values.reduceOption.dedup else values.reduceOption)

/-- Whether repeating a value changes the aggregate. -/
def Aggregate.countsRepetitions (a : Aggregate) : Bool :=
  !a.distinct && (a.function == .count || a.function == .sum || a.function == .avg)

theorem mem_reduceOption_iff {values values' : List (Option V)}
    (h : ∀ v, v ∈ values ↔ v ∈ values') (v : V) :
    v ∈ values.reduceOption ↔ v ∈ values'.reduceOption := by
  rw [List.reduceOption_mem_iff, List.reduceOption_mem_iff, h]

variable [LinearOrder V] {b} {present present' : List V} {values values' : List (Option V)}

theorem min?_of_mem_iff (h : ∀ v, v ∈ present ↔ v ∈ present') : present.min? = present'.min? := by
  apply Option.ext
  intro v
  rw [List.min?_eq_some_iff, List.min?_eq_some_iff, h]
  simp only [h]

theorem max?_of_mem_iff (h : ∀ v, v ∈ present ↔ v ∈ present') : present.max? = present'.max? := by
  apply Option.ext
  intro v
  rw [List.max?_eq_some_iff, List.max?_eq_some_iff, h]
  simp only [h]

theorem AggregateFunction.apply_perm (f : AggregateFunction) (h : present.Perm present') :
    f.apply b present = f.apply b present' := by
  have hbag : (present : Multiset V) = present' := Multiset.coe_eq_coe.mpr h
  have hnil : present = [] ↔ present' = [] := by
    rw [← List.length_eq_zero_iff, ← List.length_eq_zero_iff, h.length_eq]
  cases f with
  | count => simp only [AggregateFunction.apply, h.length_eq]
  | sum => simp only [AggregateFunction.apply, hbag, hnil]
  | avg => simp only [AggregateFunction.apply, hbag, hnil]
  | min => exact min?_of_mem_iff fun v => h.mem_iff
  | max => exact max?_of_mem_iff fun v => h.mem_iff

theorem Aggregate.evaluate_perm (a : Aggregate) (h : values.Perm values') :
    a.evaluate b values = a.evaluate b values' := by
  have hpresent : values.reduceOption.Perm values'.reduceOption := h.filterMap id
  apply AggregateFunction.apply_perm
  split_ifs
  · exact hpresent.dedup
  · exact hpresent

/-- Where repetitions do not count, an aggregate is a function of the set of its values. -/
theorem Aggregate.evaluate_of_mem_iff {a : Aggregate} (ha : a.countsRepetitions = false)
    (h : ∀ v, v ∈ values ↔ v ∈ values') : a.evaluate b values = a.evaluate b values' := by
  have hpresent := mem_reduceOption_iff h
  unfold Aggregate.evaluate
  by_cases hdistinct : a.distinct = true
  · rw [if_pos hdistinct, if_pos hdistinct]
    apply AggregateFunction.apply_perm
    refine (List.perm_ext_iff_of_nodup (List.nodup_dedup _) (List.nodup_dedup _)).mpr fun v => ?_
    rw [List.mem_dedup, List.mem_dedup, hpresent]
  · rw [if_neg hdistinct, if_neg hdistinct]
    cases hfunction : a.function with
    | count => simp [Aggregate.countsRepetitions, hdistinct, hfunction] at ha
    | sum => simp [Aggregate.countsRepetitions, hdistinct, hfunction] at ha
    | avg => simp [Aggregate.countsRepetitions, hdistinct, hfunction] at ha
    | min => exact min?_of_mem_iff hpresent
    | max => exact max?_of_mem_iff hpresent

end Values

end AskLens.Django
