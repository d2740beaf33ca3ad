import AskLens.Django.RowSet
import Mathlib.Data.List.Induction

/-!
# The joins of a query

The aliases that a query opens form a tree below the table of the model, every
path that it reads ends in that tree, and its filter calls look at their own
joins only.
-/
namespace AskLens.Django

open Python LeftJoin JoinTree

/-! ## Opened aliases -/

section

variable {opened new : List TableAlias} {a parent : TableAlias} {fresh : Bool}

theorem openAliases_cons :
    openAliases opened (a :: new) =
      openAliases (if a ∈ opened then opened else opened ++ [a]) new := rfl

theorem openAliases_append (others : List TableAlias) :
    openAliases opened (new ++ others) = openAliases (openAliases opened new) others :=
  List.foldl_append

theorem mem_openAliases : a ∈ openAliases opened new ↔ a ∈ opened ∨ a ∈ new := by
  induction new generalizing opened with
  | nil => simp [openAliases]
  | cons b new ih =>
    rw [openAliases_cons, ih]
    by_cases hb : b ∈ opened
    · rw [if_pos hb, List.mem_cons]
      constructor
      · tauto
      · rintro (h | rfl | h)
        · exact .inl h
        · exact .inl hb
        · exact .inr h
    · rw [if_neg hb, List.mem_append, List.mem_singleton, List.mem_cons, or_assoc]

theorem nodup_openAliases (h : opened.Nodup) : (openAliases opened new).Nodup := by
  induction new generalizing opened with
  | nil => exact h
  | cons b new ih =>
    rw [openAliases_cons]
    apply ih
    split_ifs with hb
    · exact h
    · exact h.append (List.nodup_singleton b) (by simpa using hb)

/-- The alias at the end of the hops below another one. -/
def TableAlias.follow (fresh : Bool) (opened : List TableAlias) (parent : TableAlias)
    (hops : List Hop) : TableAlias :=
  hops.foldl (TableAlias.step fresh opened) parent

theorem TableAlias.reach_eq_follow (hops : List Hop) :
    TableAlias.reach fresh opened hops = TableAlias.follow fresh opened .root hops := rfl

theorem TableAlias.follow_append (pre rest : List Hop) :
    TableAlias.follow fresh opened parent (pre ++ rest) =
      TableAlias.follow fresh opened (TableAlias.follow fresh opened parent pre) rest :=
  List.foldl_append

theorem TableAlias.mem_chain {hops : List Hop} :
    a ∈ TableAlias.chain fresh opened parent hops ↔
      ∃ pre, pre <+: hops ∧ pre ≠ [] ∧ a = TableAlias.follow fresh opened parent pre := by
  induction hops generalizing parent with
  | nil =>
    simp only [TableAlias.chain, List.not_mem_nil, List.prefix_nil, false_iff]
    rintro ⟨pre, rfl, hne, -⟩
    exact hne rfl
  | cons hop rest ih =>
    rw [TableAlias.chain, List.mem_cons, ih]
    constructor
    · rintro (rfl | ⟨pre, hpre, -, rfl⟩)
      · exact ⟨[hop], by simp, by simp, rfl⟩
      · exact ⟨hop :: pre, by simpa using hpre, by simp, rfl⟩
    · rintro ⟨pre, hpre, hne, rfl⟩
      cases pre with
      | nil => exact absurd rfl hne
      | cons hop' pre =>
        rw [List.cons_prefix_cons] at hpre
        obtain ⟨rfl, hpre⟩ := hpre
        by_cases hnil : pre = []
        · subst hnil
          exact .inl rfl
        · exact .inr ⟨pre, hpre, hnil, rfl⟩

end

/-! ## The tree of aliases -/

section

theorem openCall_exclude (graph : ModelGraph) (model : ModelName) (opened : List TableAlias)
    (condition : Condition) :
    openCall graph model opened (.exclude condition) =
      if crossesToMany graph model condition.path then opened
      else openAliases opened (pathAliases graph model true opened condition.path) := rfl

variable {graph : ModelGraph} {root : ModelName} {R V : Type} {db : Database graph root R V}
  {opened : List TableAlias} {fresh : Bool}

theorem step_ne_root (o : List TableAlias) (parent : TableAlias) (hop : Hop) :
    TableAlias.step fresh o parent hop ≠ .root := by
  simp [TableAlias.step]

/-- A chain below an open alias keeps the tree, whatever its numbers are. -/
theorem grounded_chain {o : List TableAlias} {parent : TableAlias} {hops : List Hop}
    (h : db.joinTree.Grounded opened) (hparent : parent ∈ TableAlias.root :: opened) :
    db.joinTree.Grounded (openAliases opened (TableAlias.chain fresh o parent hops)) := by
  induction hops generalizing opened parent with
  | nil => exact h
  | cons hop rest ih =>
    rw [TableAlias.chain, openAliases_cons]
    by_cases hmem : TableAlias.step fresh o parent hop ∈ opened
    · rw [if_pos hmem]
      exact ih h (List.mem_cons_of_mem _ hmem)
    · rw [if_neg hmem]
      apply ih
      · refine .snoc h hparent ?_
        rw [List.mem_cons, not_or]
        exact ⟨step_ne_root _ _ _, hmem⟩
      · simp

theorem grounded_paths {o : List TableAlias} {paths : List String}
    (h : db.joinTree.Grounded opened) :
    db.joinTree.Grounded
      (openAliases opened (paths.flatMap (pathAliases graph root fresh o))) := by
  induction paths generalizing opened with
  | nil => exact h
  | cons path paths ih =>
    rw [List.flatMap_cons, openAliases_append]
    exact ih (grounded_chain h (by simp))

theorem grounded_openCall {call : FilterCall} (h : db.joinTree.Grounded opened) :
    db.joinTree.Grounded (openCall graph root opened call) := by
  cases call with
  | filter conditions =>
    have hpaths : db.joinTree.Grounded (openAliases opened
        ((conditions.map Condition.path).flatMap (pathAliases graph root true opened))) :=
      grounded_paths h
    rwa [List.flatMap_map] at hpaths
  | exclude condition =>
    rw [openCall_exclude]
    split_ifs
    · exact h
    · exact grounded_chain h (by simp)

theorem grounded_foldl_openCall {calls : List FilterCall} (h : db.joinTree.Grounded opened) :
    db.joinTree.Grounded (calls.foldl (openCall graph root) opened) := by
  induction calls generalizing opened with
  | nil => exact h
  | cons call calls ih => exact ih (grounded_openCall h)

variable (db) in
theorem grounded_filterAliases (calls : List FilterCall) :
    db.joinTree.Grounded (filterAliases graph root calls) :=
  grounded_foldl_openCall .nil

variable (db) in
theorem grounded_queryAliases (calls : List FilterCall) (paths : List String) :
    db.joinTree.Grounded (queryAliases graph root calls paths) :=
  grounded_paths (grounded_filterAliases db calls)

/-! ## What the calls look at -/

theorem openCall_subset (call : FilterCall) : opened ⊆ openCall graph root opened call := by
  intro a ha
  cases call with
  | filter conditions => exact mem_openAliases.mpr (.inl ha)
  | exclude condition =>
    rw [openCall_exclude]
    split_ifs
    · exact ha
    · exact mem_openAliases.mpr (.inl ha)

theorem subset_foldl_openCall (calls : List FilterCall) :
    opened ⊆ calls.foldl (openCall graph root) opened := by
  induction calls generalizing opened with
  | nil => exact List.Subset.refl _
  | cons call calls ih => exact List.Subset.trans (openCall_subset call) ih

theorem filterAliases_subset (calls : List FilterCall) (paths : List String) :
    filterAliases graph root calls ⊆ queryAliases graph root calls paths :=
  fun _ ha => mem_openAliases.mpr (.inl ha)

theorem reach_mem_pathAliases {path : String} {hops : List Hop}
    (h : hops <+: hopsOf graph root path) :
    TableAlias.reach fresh opened hops ∈
      TableAlias.root :: pathAliases graph root fresh opened path := by
  cases hops with
  | nil => exact List.mem_cons_self
  | cons hop rest =>
    apply List.mem_cons_of_mem
    exact TableAlias.mem_chain.mpr ⟨hop :: rest, h, by simp, rfl⟩

theorem reach_mem_queryAliases {calls : List FilterCall} {paths : List String} {path : String}
    {hops : List Hop} (hpath : path ∈ paths) (h : hops <+: hopsOf graph root path) :
    TableAlias.reach false (filterAliases graph root calls) hops ∈
      TableAlias.root :: queryAliases graph root calls paths := by
  rcases List.mem_cons.mp (reach_mem_pathAliases h) with hroot | hmem
  · exact hroot ▸ List.mem_cons_self
  · apply List.mem_cons_of_mem
    exact mem_openAliases.mpr (.inr (List.mem_flatMap.mpr ⟨path, hpath, hmem⟩))

/-- The join of a relation that a path crosses is one of the query. -/
theorem step_mem_queryAliases {calls : List FilterCall} {paths : List String} {path : String}
    {hops : List Hop} (hpath : path ∈ paths) (h : hops <+: hopsOf graph root path)
    (hne : hops ≠ []) :
    TableAlias.reach false (filterAliases graph root calls) hops ∈
      queryAliases graph root calls paths := by
  rcases List.eq_nil_or_concat hops with hnil | ⟨pre, hop, rfl⟩
  · exact absurd hnil hne
  · rw [List.concat_eq_append] at h ⊢
    have hmem : TableAlias.reach false (filterAliases graph root calls) (pre ++ [hop]) ∈
        TableAlias.root :: queryAliases graph root calls paths := reach_mem_queryAliases hpath h
    rw [TableAlias.reach_eq_follow, TableAlias.follow_append] at hmem ⊢
    exact (List.mem_cons.mp hmem).resolve_left (step_ne_root _ _ _)

theorem readAt_congr {c c' : QueryRow R} {a : TableAlias} (h : c a = c' a) (target : ReadTarget) :
    db.readAt c a target = db.readAt c' a target := by
  unfold Database.readAt
  rw [h]

theorem dependsOn_readPath {as : List TableAlias} {path : String}
    (h : TableAlias.reach fresh opened (hopsOf graph root path) ∈ as) :
    DependsOn as (db.readPath fresh opened path) :=
  fun _ _ hagree => readAt_congr (hagree _ h) _

variable {b : Backend V}

theorem dependsOn_callHolds {call : FilterCall} {as : List TableAlias} (hroot : .root ∈ as)
    (h : openCall graph root opened call ⊆ as) :
    DependsOn as fun c => db.callHolds b opened c call := by
  have hreach : ∀ path, pathAliases graph root true opened path ⊆ as →
      TableAlias.reach true opened (hopsOf graph root path) ∈ as := by
    intro path hpath
    rcases List.mem_cons.mp (reach_mem_pathAliases (List.prefix_refl _)) with hnil | hmem
    · exact hnil ▸ hroot
    · exact hpath hmem
  intro c c' hagree
  cases call with
  | filter conditions =>
    have hread : ∀ condition ∈ conditions, db.readPath true opened condition.path c =
        db.readPath true opened condition.path c' := by
      intro condition hcondition
      refine dependsOn_readPath (hreach _ fun a ha => h ?_) c c' hagree
      exact mem_openAliases.mpr (.inr (List.mem_flatMap.mpr ⟨condition, hcondition, ha⟩))
    simp only [Database.callHolds]
    rw [Bool.eq_iff_iff, List.all_eq_true, List.all_eq_true]
    exact forall₂_congr fun condition hcondition => by rw [hread condition hcondition]
  | exclude condition =>
    simp only [Database.callHolds]
    by_cases hmany : crossesToMany graph root condition.path = true
    · rw [if_pos hmany, if_pos hmany, hagree _ hroot]
    · rw [if_neg hmany, if_neg hmany]
      congr 2
      refine dependsOn_readPath (hreach _ fun a ha => h ?_) c c' hagree
      rw [openCall_exclude, if_neg hmany]
      exact mem_openAliases.mpr (.inr ha)

/-- Whether a row passes is decided under the aliases that the calls open. -/
theorem dependsOn_passes {calls : List FilterCall} {as : List TableAlias} (hroot : .root ∈ as)
    (h : calls.foldl (openCall graph root) opened ⊆ as) :
    DependsOn as (db.passes b opened calls) := by
  induction calls generalizing opened with
  | nil => exact fun _ _ _ => rfl
  | cons call calls ih =>
    intro c c' hagree
    simp only [Database.passes]
    congr 1
    · refine dependsOn_callHolds hroot ?_ c c' hagree
      exact List.Subset.trans (subset_foldl_openCall calls) h
    · exact ih h c c' hagree

end

/-! ## The rows under an alias -/

def endModel (root : ModelName) (hops : List Hop) : Option ModelName :=
  match hops.getLast? with
  | some hop => hop.target
  | none => some root

theorem endModel_cons {root related : ModelName} {hop : Hop} (h : hop.target = some related)
    (hops : List Hop) : endModel root (hop :: hops) = endModel related hops := by
  cases hops with
  | nil => exact h
  | cons next rest =>
    obtain ⟨last, hlast⟩ := Option.isSome_iff_exists.mp (List.getLast?_isSome.mpr
      (List.cons_ne_nil next rest))
    rw [endModel, endModel, List.getLast?_cons_cons, hlast]

theorem endModel_of_column {graph : ModelGraph} {model m : ModelName} {parts : List String}
    {hops : List Hop} {name : String}
    (h : referenceFrom graph model parts = some ⟨hops, .column m name⟩) :
    endModel model hops = some m := by
  induction parts generalizing model hops with
  | nil => cases h
  | cons part rest ih =>
    unfold referenceFrom at h
    cases hfield : graph.getField? model part with
    | none => simp [hfield] at h
    | some field =>
      rw [hfield] at h
      dsimp only at h
      split_ifs at h with hgeneric hrest hend
      · cases h
      · simp only [Option.some.injEq, Reference.mk.injEq, ReadTarget.column.injEq] at h
        obtain ⟨rfl, rfl, rfl⟩ := h
        rfl
      · cases hrelation : field.kind.isRelation with
        | false => simp [hrelation] at h
        | true =>
          cases hrelated : field.relatedModel with
          | none => simp [hrelation, hrelated] at h
          | some related =>
            simp only [hrelation, hrelated, Option.map_eq_some_iff] at h
            obtain ⟨reference, hreference, h⟩ := h
            obtain ⟨hops', target⟩ := reference
            simp only [Reference.mk.injEq] at h
            obtain ⟨rfl, rfl⟩ := h
            rw [endModel_cons hrelated]
            exact ih hreference

section

variable {graph : ModelGraph} {root : ModelName} {R V : Type} {db : Database graph root R V}
  {as : List TableAlias} {c c' : QueryRow R} {fresh : Bool} {opened : List TableAlias}

/-- The row of the database under an alias, without its position. -/
def rowAt (c : QueryRow R) (a : TableAlias) : Option R := (c a).map Prod.fst

theorem readAt_eq_bind (a : TableAlias) (target : ReadTarget) :
    db.readAt c a target = (rowAt c a).bind (target.read db) := by
  unfold Database.readAt rowAt
  cases c a <;> rfl

/-- What stands under the end of the hops is stored in the model there. -/
theorem stored_rowAt (h : db.joinTree.IsRow db.table.zipIdx as c) {hops : List Hop} {r : R}
    {m : ModelName} (hmem : TableAlias.reach fresh opened hops ∈ TableAlias.root :: as)
    (hend : endModel root hops = some m)
    (hr : rowAt c (TableAlias.reach fresh opened hops) = some r) : db.stored m r := by
  obtain ⟨⟨r', i⟩, hrow, rfl⟩ := Option.map_eq_some_iff.mp hr
  rcases List.eq_nil_or_concat hops with rfl | ⟨pre, hop, rfl⟩
  · obtain ⟨⟨s, j⟩, hs, hroot⟩ := h.root
    obtain rfl : root = m := Option.some.inj hend
    obtain ⟨rfl, rfl⟩ : s = r' ∧ j = i := by
      have hsame := hroot.symm.trans hrow
      simpa using hsame
    exact db.table_stored _ (List.fst_mem_of_mem_zipIdx hs)
  · rw [List.concat_eq_append] at hmem hrow hend
    have hstep : TableAlias.reach fresh opened (pre ++ [hop]) =
        TableAlias.step fresh opened (TableAlias.reach fresh opened pre) hop := by
      rw [TableAlias.reach_eq_follow, TableAlias.follow_append]
      rfl
    rw [hstep] at hmem hrow
    have hjoined := h.joined _ ((List.mem_cons.mp hmem).resolve_left (step_ne_root _ _ _))
    rw [hrow] at hjoined
    obtain ⟨p, -, hrelated⟩ := mem_choices_some hjoined
    apply db.related_stored hop p.1 r' (List.fst_mem_of_mem_zipIdx hrelated)
    simpa [endModel] using hend

/-- What a path reads in a joined row is stored in the column at its end. -/
theorem stored_of_readExpression {calls : List FilterCall} {paths : List String} {path : String}
    (hpath : path ∈ paths)
    (h : db.joinTree.IsRow db.table.zipIdx (queryAliases graph root calls paths) c)
    {hops : List Hop} {m : ModelName} {name : String}
    (hreference : referenceFrom graph root (splitDunder path) = some ⟨hops, .column m name⟩) {v : V}
    (hv : db.readExpression calls path c = some v) :
    ∃ r, db.stored m r ∧ db.value m name r = some v := by
  have hat : referenceAt graph root path = ⟨hops, .column m name⟩ := by
    rw [referenceAt, hreference, Option.getD_some]
  have hhops : hopsOf graph root path = hops := by rw [hopsOf, hat]
  unfold Database.readExpression Database.readPath at hv
  rw [hat] at hv
  dsimp only at hv
  rw [readAt_eq_bind, Option.bind_eq_some_iff] at hv
  obtain ⟨r, hr, hvalue⟩ := hv
  refine ⟨r, stored_rowAt h ?_ (endModel_of_column hreference) hr, hvalue⟩
  apply reach_mem_queryAliases hpath
  exact hhops ▸ List.prefix_refl _

/-- Rows that agree on a table agree on what lies behind it over to-one relations. -/
theorem rowAt_follow (h : db.joinTree.IsRow db.table.zipIdx as c)
    (h' : db.joinTree.IsRow db.table.zipIdx as c') {a : TableAlias} {rest : List Hop}
    (hmem : ∀ pre, pre <+: rest → pre ≠ [] → TableAlias.follow fresh opened a pre ∈ as)
    (hone : ∀ hop ∈ rest, hop.toMany = false) (hsame : rowAt c a = rowAt c' a) :
    rowAt c (TableAlias.follow fresh opened a rest) =
      rowAt c' (TableAlias.follow fresh opened a rest) := by
  induction rest generalizing a with
  | nil => exact hsame
  | cons hop rest ih =>
    have hhere : TableAlias.step fresh opened a hop ∈ as := hmem [hop] (by simp) (by simp)
    have hrow : c (TableAlias.step fresh opened a hop) = c' (TableAlias.step fresh opened a hop) := by
      refine h.eq_of_parent h' hhere hhere (fun r => ?_) ?_
      · have hlength := db.toOne hop r.1 (hone hop (by simp))
        show ((db.related hop r.1).zipIdx).length ≤ 1
        simpa using hlength
      · have hrelated : ∀ d : QueryRow R, (d a).elim []
            (db.joinTree.related (TableAlias.step fresh opened a hop)) =
            (rowAt d a).elim [] fun r => (db.related hop r).zipIdx := by
          intro d
          unfold rowAt
          cases d a <;> rfl
        show (c a).elim [] _ = (c' a).elim [] _
        rw [hrelated, hrelated, hsame]
    apply ih
    · intro pre hpre hne
      exact hmem (hop :: pre) (by simpa using hpre) (by simp)
    · exact fun hop' h => hone hop' (by simp [h])
    · unfold rowAt
      rw [hrow]

end

/-! ## To-one paths -/

section

variable {graph : ModelGraph} {root : ModelName} {R V : Type} {db : Database graph root R V}
  {as : List TableAlias} {c : QueryRow R} {fresh : Bool} {opened : List TableAlias}

/-- The value of a to-one path in a row of the model. -/
def Database.lookup (db : Database graph root R V) (path : String) (r : R) : Option V :=
  let reference := referenceAt graph root path
  (db.reachable reference.hops r).head?.bind (reference.target.read db)

theorem head?_flatMap {α β : Type} {l : List α} {f : α → List β} (h : l.length ≤ 1) :
    (l.flatMap f).head? = l.head?.bind fun a => (f a).head? := by
  cases l with
  | nil => rfl
  | cons a l =>
    obtain rfl : l = [] := List.length_eq_zero_iff.mp (by simpa using h)
    simp

theorem rowAt_step (h : db.joinTree.IsRow db.table.zipIdx as c) {a : TableAlias} {hop : Hop}
    (hmem : TableAlias.step fresh opened a hop ∈ as) (hone : hop.toMany = false) :
    rowAt c (TableAlias.step fresh opened a hop) =
      (rowAt c a).bind fun r => (db.related hop r).head? := by
  have hrow : c (TableAlias.step fresh opened a hop) =
      (c a).bind fun r => ((db.related hop r.1).zipIdx).head? := by
    refine h.eq_head? hmem fun r => ?_
    show ((db.related hop r.1).zipIdx).length ≤ 1
    rw [List.length_zipIdx]
    exact db.toOne hop r.1 hone
  unfold rowAt
  rw [hrow]
  cases c a with
  | none => rfl
  | some r => cases hrelated : db.related hop r.1 <;> simp [hrelated]

theorem rowAt_follow_toOne (h : db.joinTree.IsRow db.table.zipIdx as c) {a : TableAlias}
    {rest : List Hop}
    (hmem : ∀ pre, pre <+: rest → pre ≠ [] → TableAlias.follow fresh opened a pre ∈ as)
    (hone : ∀ hop ∈ rest, hop.toMany = false) :
    rowAt c (TableAlias.follow fresh opened a rest) =
      (rowAt c a).bind fun r => (db.reachable rest r).head? := by
  induction rest generalizing a with
  | nil => cases h : rowAt c a <;> simp [TableAlias.follow, Database.reachable, h]
  | cons hop rest ih =>
    have hhere : hop.toMany = false := hone hop (by simp)
    have hrest : rowAt c (TableAlias.follow fresh opened
          (TableAlias.step fresh opened a hop) rest) =
        (rowAt c (TableAlias.step fresh opened a hop)).bind fun r =>
          (db.reachable rest r).head? := by
      apply ih
      · intro pre hpre hne
        exact hmem (hop :: pre) (by simpa using hpre) (by simp)
      · exact fun hop' h => hone hop' (by simp [h])
    show rowAt c (TableAlias.follow fresh opened (TableAlias.step fresh opened a hop) rest) = _
    rw [hrest, rowAt_step h (hmem [hop] (by simp) (by simp)) hhere]
    cases rowAt c a with
    | none => rfl
    | some r =>
      rw [Option.bind_some, Option.bind_some, Database.reachable,
        head?_flatMap (db.toOne hop r hhere)]

theorem toMany_false {path : String} (h : crossesToMany graph root path = false) :
    ∀ hop ∈ hopsOf graph root path, hop.toMany = false := by
  intro hop hmem
  by_contra hmany
  rw [Bool.not_eq_false] at hmany
  rw [crossesToMany, List.any_eq_true.mpr ⟨hop, hmem, hmany⟩] at h
  cases h

/-- A to-one path reads in a joined row what it finds from the row of the model. -/
theorem readPath_toOne (h : db.joinTree.IsRow db.table.zipIdx as c) {path : String} {r : R}
    (hmem : ∀ pre, pre <+: hopsOf graph root path → pre ≠ [] →
      TableAlias.reach fresh opened pre ∈ as)
    (hone : crossesToMany graph root path = false) (hroot : rowAt c .root = some r) :
    db.readPath fresh opened path c = db.lookup path r := by
  have hend := rowAt_follow_toOne h hmem (toMany_false hone)
  rw [hroot, Option.bind_some] at hend
  unfold Database.readPath Database.lookup
  rw [readAt_eq_bind]
  show (rowAt c (TableAlias.follow fresh opened .root (hopsOf graph root path))).bind _ = _
  rw [hend]
  rfl

end

/-! ## Joins that are opened once -/

/-- The path crosses the to-many relation `hop` behind `hops`. -/
def CrossesToMany (graph : ModelGraph) (model : ModelName) (path : String) (hops : List Hop)
    (hop : Hop) : Prop :=
  hop.toMany = true ∧ hops ++ [hop] <+: hopsOf graph model path

theorem crossesToMany_iff {graph : ModelGraph} {model : ModelName} {path : String} :
    crossesToMany graph model path = true ↔ ∃ hops hop, CrossesToMany graph model path hops hop := by
  unfold crossesToMany CrossesToMany
  rw [List.any_eq_true]
  constructor
  · rintro ⟨hop, hmem, hmany⟩
    obtain ⟨hops, rest, hsplit⟩ := List.append_of_mem hmem
    exact ⟨hops, hop, hmany, rest, by rw [hsplit, List.append_assoc]; rfl⟩
  · rintro ⟨hops, hop, hmany, hbelow⟩
    exact ⟨hop, hbelow.subset (by simp), hmany⟩

namespace TableAlias

theorem reach_nil_concat {fresh : Bool} (hops : List Hop) (hop : Hop) :
    reach fresh [] (hops ++ [hop]) = .join (reach fresh [] hops) hop 0 := by
  rw [reach_eq_follow, follow_append]
  simp [follow, step, reach]

theorem reach_nil_injective {fresh : Bool} {hops hops' : List Hop}
    (h : reach fresh [] hops = reach fresh [] hops') : hops = hops' := by
  induction hops using List.reverseRecOn generalizing hops' with
  | nil =>
    rcases List.eq_nil_or_concat hops' with rfl | ⟨pre, hop, rfl⟩
    · rfl
    · rw [List.concat_eq_append, reach_nil_concat] at h
      cases h
  | append_singleton pre hop ih =>
    rw [reach_nil_concat] at h
    rcases List.eq_nil_or_concat hops' with rfl | ⟨pre', hop', rfl⟩
    · cases h
    · rw [List.concat_eq_append, reach_nil_concat] at h
      rw [join.injEq] at h
      rw [List.concat_eq_append, ih h.1, h.2.1]

end TableAlias

/-- Along a path that crosses no to-many relation, every join finds one row at most. -/
theorem toOne_of_reach {graph : ModelGraph} {root : ModelName} {R V : Type}
    {db : Database graph root R V} {path : String} (hone : crossesToMany graph root path = false)
    {pre : List Hop} (hpre : pre <+: hopsOf graph root path) (hne : pre ≠ []) (r : JoinedRow R) :
    (db.joinTree.related (TableAlias.reach false [] pre) r).length ≤ 1 := by
  rcases List.eq_nil_or_concat pre with hnil | ⟨hops, hop, rfl⟩
  · exact absurd hnil hne
  · rw [List.concat_eq_append] at hpre ⊢
    have hmany := toMany_false hone hop (hpre.subset (by simp))
    rw [TableAlias.reach_nil_concat]
    show ((db.related hop r.1).zipIdx).length ≤ 1
    rw [List.length_zipIdx]
    exact db.toOne hop r.1 hmany

section

variable {graph : ModelGraph} {model : ModelName} {opened : List TableAlias}
  {paths : List String} {path : String} {fresh : Bool}

/-- The aliases of a query that opens every relation of the paths once. -/
structure OpensOnce (graph : ModelGraph) (model : ModelName) (opened : List TableAlias)
    (paths : List String) : Prop where
  nodup : opened.Nodup
  mem : ∀ a, a ∈ opened ↔ ∃ path ∈ paths, ∃ pre, pre <+: hopsOf graph model path ∧ pre ≠ [] ∧
    a = TableAlias.reach false [] pre

theorem opensOnce_nil (graph : ModelGraph) (model : ModelName) : OpensOnce graph model [] [] :=
  ⟨List.nodup_nil, by simp⟩

theorem OpensOnce.occurrence (h : OpensOnce graph model opened paths) {parent : TableAlias}
    {hop : Hop} {a : TableAlias} (ha : a ∈ opened) (hjoin : TableAlias.isJoinOf parent hop a = true) :
    a = .join parent hop 0 := by
  obtain ⟨path, -, pre, -, hne, rfl⟩ := (h.mem a).mp ha
  rcases List.eq_nil_or_concat pre with hnil | ⟨hops, last, rfl⟩
  · exact absurd hnil hne
  · rw [List.concat_eq_append, TableAlias.reach_nil_concat] at hjoin ⊢
    simp only [TableAlias.isJoinOf, decide_eq_true_eq] at hjoin
    rw [hjoin.1, hjoin.2]

theorem OpensOnce.step (h : OpensOnce graph model opened paths) {parent : TableAlias} {hop : Hop}
    (hfresh : fresh = true → hop.toMany = true → .join parent hop 0 ∉ opened) :
    TableAlias.step fresh opened parent hop = .join parent hop 0 := by
  have hone : opened.countP (TableAlias.isJoinOf parent hop) ≤ 1 := by
    have hsub : opened.filter (TableAlias.isJoinOf parent hop) ⊆ [.join parent hop 0] := by
      intro a ha
      obtain ⟨hmem, hjoin⟩ := List.mem_filter.mp ha
      exact List.mem_singleton.mpr (h.occurrence hmem hjoin)
    rw [List.countP_eq_length_filter]
    exact (List.subperm_of_subset (h.nodup.filter _) hsub).length_le
  unfold TableAlias.step
  by_cases hnew : (fresh && hop.toMany) = true
  · rw [Bool.and_eq_true] at hnew
    have hnone : opened.countP (TableAlias.isJoinOf parent hop) = 0 := by
      rw [List.countP_eq_zero]
      intro a ha hjoin
      exact hfresh hnew.1 hnew.2 (h.occurrence ha hjoin ▸ ha)
    simp [hnone]
  · have hzero : opened.countP (TableAlias.isJoinOf parent hop) - 1 = 0 := by omega
    dsimp only
    rw [if_neg hnew, hzero]

/-- A path whose to-many relations are not open yet, or that reuses joins, finds the first join
of each relation. -/
theorem OpensOnce.reach (h : OpensOnce graph model opened paths) {hops : List Hop}
    (hfresh : fresh = true → ∀ pre hop, hop.toMany = true → pre ++ [hop] <+: hops →
      TableAlias.reach false [] (pre ++ [hop]) ∉ opened) :
    TableAlias.reach fresh opened hops = TableAlias.reach false [] hops := by
  induction hops using List.reverseRecOn with
  | nil => rfl
  | append_singleton pre hop ih =>
    have hpre := ih fun hf pre' hop' hmany hbelow =>
      hfresh hf pre' hop' hmany (hbelow.trans (List.prefix_append _ _))
    rw [TableAlias.reach_eq_follow, TableAlias.follow_append, ← TableAlias.reach_eq_follow, hpre,
      TableAlias.reach_nil_concat]
    apply h.step
    intro hf hmany
    rw [← TableAlias.reach_nil_concat]
    exact hfresh hf pre hop hmany (List.prefix_refl _)

theorem mem_pathAliases_nil {a : TableAlias} :
    a ∈ pathAliases graph model false [] path ↔ ∃ pre, pre <+: hopsOf graph model path ∧
      pre ≠ [] ∧ a = TableAlias.reach false [] pre :=
  TableAlias.mem_chain

theorem OpensOnce.mem_pathAliases (h : OpensOnce graph model opened paths)
    (hfresh : fresh = true → ∀ hops hop, CrossesToMany graph model path hops hop →
      TableAlias.reach false [] (hops ++ [hop]) ∉ opened) {a : TableAlias} :
    a ∈ pathAliases graph model fresh opened path ↔ ∃ pre, pre <+: hopsOf graph model path ∧
      pre ≠ [] ∧ a = TableAlias.reach false [] pre := by
  have hreach : ∀ pre, pre <+: hopsOf graph model path →
      TableAlias.reach fresh opened pre = TableAlias.reach false [] pre := fun pre hpre =>
    h.reach fun hf hops hop hmany hbelow => hfresh hf hops hop ⟨hmany, hbelow.trans hpre⟩
  unfold pathAliases
  rw [TableAlias.mem_chain]
  constructor
  · rintro ⟨pre, hpre, hne, rfl⟩
    exact ⟨pre, hpre, hne, hreach pre hpre⟩
  · rintro ⟨pre, hpre, hne, rfl⟩
    exact ⟨pre, hpre, hne, (hreach pre hpre).symm⟩

theorem OpensOnce.snoc (h : OpensOnce graph model opened paths) {new : List TableAlias}
    (hnew : ∀ a, a ∈ new ↔ ∃ pre, pre <+: hopsOf graph model path ∧ pre ≠ [] ∧
      a = TableAlias.reach false [] pre) :
    OpensOnce graph model (openAliases opened new) (paths ++ [path]) := by
  refine ⟨nodup_openAliases h.nodup, fun a => ?_⟩
  rw [mem_openAliases, h.mem, hnew]
  simp only [List.mem_append, List.mem_singleton]
  constructor
  · rintro (⟨path', hpath', hpre⟩ | hpre)
    · exact ⟨path', .inl hpath', hpre⟩
    · exact ⟨path, .inr rfl, hpre⟩
  · rintro ⟨path', hpath' | rfl, hpre⟩
    · exact .inl ⟨path', hpath', hpre⟩
    · exact .inr hpre

theorem OpensOnce.congr (h : OpensOnce graph model opened paths) {paths' : List String}
    (hsame : ∀ path, path ∈ paths ↔ path ∈ paths') : OpensOnce graph model opened paths' :=
  ⟨h.nodup, fun a => by simp only [h.mem, hsame]⟩

theorem OpensOnce.not_mem (h : OpensOnce graph model opened paths) {hops : List Hop} {hop : Hop}
    (hnew : ∀ path ∈ paths, ¬ hops ++ [hop] <+: hopsOf graph model path) :
    TableAlias.reach false [] (hops ++ [hop]) ∉ opened := by
  intro hmem
  obtain ⟨path, hpath, pre, hpre, -, hsame⟩ := (h.mem _).mp hmem
  rw [← TableAlias.reach_nil_injective hsame] at hpre
  exact hnew path hpath hpre

end

end AskLens.Django
