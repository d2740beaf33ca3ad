import AskLens.Compiler.Joins
import AskLens.Django.Joins
import AskLens.Sample

/-!
# What a resolved binding says about its rows

The nullability and the edges that registration collects along a binding, and
what a left join along the binding finds. The ORM trims a forward key at the end
of a path when the path reads the column that the key refers to.
-/
namespace AskLens.Compiler

open Python Django Catalog Checks LeftJoin

/-! ## Trimmed joins -/

/-- A forward foreign key or one-to-one field, which its own row stores. -/
def isForwardKey (field : DjangoField) : Bool :=
  field.kind == .foreignKey || field.kind == .oneToOne

/-- `Query.trim_joins`, from the last join backwards, when `column` is read behind it. `toField` is
the column that a forward key refers to. -/
def trimJoins (graph : ModelGraph) (toField : DjangoField → String) : String → List Hop → List Hop
  | _, [] => []
  | column, hop :: before =>
    match graph.getField? hop.model hop.name with
    | none => hop :: before
    | some field =>
      if isForwardKey field = true ∧ toField field = column then
        trimJoins graph toField field.name before
      else hop :: before

/-- The hops of a reference that the ORM has to join. -/
def requiredHops (graph : ModelGraph) (toField : DjangoField → String) (r : Reference) :
    List Hop :=
  match r.target with
  | .key => r.hops
  | .column model name =>
    let column := ((graph.getField? model name).map DjangoField.name).getD name
    (trimJoins graph toField column r.hops.reverse).reverse

def edgesOf (hops : List Hop) : List Edge := (joinStepsOf [] hops).map JoinStep.edge

/-! ## Sound paths -/

/-- Every forward key that is not null finds its row. -/
def ReferentialIntegrity {graph : ModelGraph} {root : ModelName} {R V : Type}
    (db : Database graph root R V) : Prop :=
  ∀ model name field, graph.getField? model name = some field → isForwardKey field = true →
    field.null = false → ∀ r, db.stored model r → db.related (field.hop model name) r ≠ []

/-- `ForeignObjectRel.null` is true. -/
def ReverseNullable (graph : ModelGraph) : Prop :=
  ∀ model name field, graph.getField? model name = some field → field.kind = .oneToOneRel →
    field.null = true

/-- What a resolution of a path says about nulls, about the number of rows and about its depth. -/
structure SoundResolution (graph : ModelGraph) (root : ModelName) (path : String)
    (res : FieldResolution) : Prop where
  /-- The values of a field's binding that is not nullable are not null. -/
  nonNull : (∃ type, res.field.kind = .column type) → res.nullable = false →
    ∀ (R V : Type) (db : Database graph root R V) (b : Backend V), ReferentialIntegrity db →
      ∀ c ∈ db.queryRows b [] [path], (db.readExpression [] path c).isSome = true
  /-- Without to-many edges, every row of the model yields one joined row at most. -/
  single : res.toManyRelationshipEdges = [] →
    ∀ (R V : Type) (db : Database graph root R V) (b : Backend V),
      ((db.queryRows b [] [path]).map fun c => c .root).Nodup
  depth : res.relationDepth = res.relationshipEdges.length

section

variable {graph : ModelGraph} {toField : DjangoField → String} {root : ModelName}
  {label path : String} {res : FieldResolution} {R V : Type} {db : Database graph root R V}
  {b : Backend V}

theorem trimJoins_suffix (graph : ModelGraph) (toField : DjangoField → String) (column : String)
    (hops : List Hop) :
    ∃ trimmed, hops = trimmed ++ trimJoins graph toField column hops ∧
      ∀ hop ∈ trimmed, ∃ field, graph.getField? hop.model hop.name = some field ∧
        isForwardKey field = true := by
  induction hops generalizing column with
  | nil => exact ⟨[], rfl, by simp⟩
  | cons hop before ih =>
    rw [trimJoins]
    cases hfield : graph.getField? hop.model hop.name with
    | none => exact ⟨[], rfl, by simp⟩
    | some field =>
      dsimp only
      split_ifs with hforward
      · obtain ⟨trimmed, hsplit, hall⟩ := ih field.name
        refine ⟨hop :: trimmed, congrArg (hop :: ·) hsplit, ?_⟩
        intro hop' hmem
        rcases List.mem_cons.mp hmem with rfl | hmem
        · exact ⟨field, hfield, hforward.1⟩
        · exact hall hop' hmem
      · exact ⟨[], rfl, by simp⟩

/-- The ORM joins the hops of a reference up to some forward keys at its end. -/
theorem requiredHops_prefix (graph : ModelGraph) (toField : DjangoField → String)
    (r : Reference) :
    ∃ trimmed, r.hops = requiredHops graph toField r ++ trimmed ∧
      ∀ hop ∈ trimmed, ∃ field, graph.getField? hop.model hop.name = some field ∧
        isForwardKey field = true := by
  rw [requiredHops]
  cases r.target with
  | key => exact ⟨[], by simp, by simp⟩
  | column model name =>
    dsimp only
    generalize ((graph.getField? model name).map DjangoField.name).getD name = column
    obtain ⟨trimmed, hsplit, hall⟩ := trimJoins_suffix graph toField column r.hops.reverse
    refine ⟨trimmed.reverse, ?_, ?_⟩
    · rw [← List.reverse_append, ← hsplit, List.reverse_reverse]
    · intro hop hmem
      exact hall hop (List.mem_reverse.mp hmem)

/-! ## Rows -/

theorem mem_queryRows {c : QueryRow R} (hc : c ∈ db.queryRows b [] [path]) :
    db.joinTree.IsRow db.table.zipIdx (queryAliases graph root [] [path]) c :=
  (JoinTree.mem_rows (grounded_queryAliases db [] [path])).mp (List.mem_filter.mp hc).1

theorem queryRows_roots_nodup (h : crossesToMany graph root path = false) :
    ((db.queryRows b [] [path]).map fun c => c .root).Nodup := by
  have hone : ∀ a ∈ queryAliases graph root [] [path], ∀ r : JoinedRow R,
      (db.joinTree.related a r).length ≤ 1 := by
    intro a ha r
    rcases mem_openAliases.mp ha with hnone | hmem
    · cases hnone
    · rw [List.flatMap_singleton] at hmem
      obtain ⟨pre, hpre, hne, rfl⟩ := mem_pathAliases_nil.mp hmem
      exact toOne_of_reach h hpre hne r
  obtain ⟨f, hrows, hroot⟩ :=
    JoinTree.rows_toOne (grounded_queryAliases db [] [path]) db.table.zipIdx hone
  have hall : db.queryRows b [] [path] = db.table.zipIdx.map f := by
    rw [Database.queryRows, hrows]
    exact List.filter_eq_self.mpr fun _ _ => rfl
  rw [hall, List.map_map]
  apply List.Nodup.map _ (nodup_zipIdx db.table)
  intro r s hrs
  have hsome : some r = some s := (hroot r).symm.trans (hrs.trans (hroot s))
  exact Option.some.inj hsome

/-! ## Nulls -/

theorem isForwardKey_of_nonNull (hgraph : ReverseNullable graph) {model name related : String}
    {field : DjangoField} (hfield : graph.getField? model name = some field)
    (hrelation : field.kind.isRelation = true) (hrelated : field.relatedModel = some related)
    (hnull : field.null = false) (hmany : field.kind.isToMany = false) :
    isForwardKey field = true := by
  cases hkind : field.kind with
  | column type => simp [hkind, FieldKind.isRelation] at hrelation
  | foreignKey => simp [isForwardKey, hkind]
  | oneToOne => simp [isForwardKey, hkind]
  | oneToOneRel =>
    rw [hgraph model name field hfield hkind] at hnull
    cases hnull
  | genericForeignKey => exact absurd hkind (DjangoField.kind_ne_generic hrelated)
  | _ => simp [hkind, FieldKind.isToMany, FieldKind.isOneToMany, FieldKind.isManyToMany] at hmany

/-- A path that is not nullable finds a value from every stored row. -/
theorem nonNull_of_walkPath (hgraph : ReverseNullable graph) (hdb : ReferentialIntegrity db)
    {model : ModelName} {passed : List String} {edges toMany : List Edge} {nullable : Bool}
    {parts : List String}
    (h : walkPath graph label path model passed edges toMany nullable parts = .ok res)
    (hcolumn : ∃ type, res.field.kind = .column type) (hnull : res.nullable = false) :
    nullable = false ∧ ∃ r, referenceFrom graph model parts = some r ∧
      (∀ hop ∈ r.hops, hop.toMany = false) ∧
        ∀ s, db.stored model s →
          ((db.reachable r.hops s).head?.bind (r.target.read db)).isSome = true := by
  have hwalk := walk_of_walkPath h
  clear h
  induction hwalk with
  | @last model passed edges toMany nullable part hfield _ _ hnullable =>
    obtain ⟨type, hkind⟩ := hcolumn
    have hconcrete : res.field.kind.isConcrete = true := by rw [hkind]; rfl
    rw [hnullable, Bool.or_eq_false_iff] at hnull
    refine ⟨hnull.1, _, referenceFrom_concrete hfield hconcrete, by simp, ?_⟩
    intro s hs
    exact db.value_some model part res.field hfield hconcrete hnull.2 s hs
  | @step model related passed rest edges toMany nullable part field hfield hrelation hrelated
      hrest _ ih =>
    obtain ⟨hflags, r, hr, hone, hfinds⟩ := ih
    rw [Bool.or_eq_false_iff, Bool.or_eq_false_iff] at hflags
    obtain ⟨⟨hnullable, hfieldNull⟩, hmany⟩ := hflags
    have hforward := isForwardKey_of_nonNull hgraph hfield hrelation hrelated hfieldNull hmany
    rw [referenceFrom_step hfield hrelation hrelated hrest, hr, Option.map_some]
    refine ⟨hnullable, _, rfl, ?_, ?_⟩
    · intro hop hmem
      rcases List.mem_cons.mp hmem with rfl | hmem
      · exact hmany
      · exact hone hop hmem
    · intro s hs
      obtain ⟨t, ht⟩ := List.exists_mem_of_ne_nil _
        (hdb model part field hfield hforward hfieldNull s hs)
      have hlength := db.toOne (field.hop model part) s hmany
      have hsingle : db.related (field.hop model part) s = [t] := by
        cases hrows : db.related (field.hop model part) s with
        | nil => simp [hrows] at ht
        | cons u us =>
          rw [hrows] at ht hlength
          obtain rfl : us = [] := List.length_eq_zero_iff.mp (by simpa using hlength)
          rw [List.mem_singleton.mp ht]
      have hstored := db.related_stored (field.hop model part) s t ht related hrelated
      show (((db.related (field.hop model part) s).flatMap
        (db.reachable r.hops)).head?.bind _).isSome = true
      rw [hsingle, List.flatMap_singleton]
      exact hfinds t hstored

/-- The value of a binding that is not nullable is not null in any joined row. -/
theorem readExpression_isSome (hgraph : ReverseNullable graph) (hdb : ReferentialIntegrity db)
    (h : resolveFieldPath graph root path = .ok res)
    (hcolumn : ∃ type, res.field.kind = .column type) (hnull : res.nullable = false)
    {calls : List FilterCall} {paths : List String} (hpath : path ∈ paths) {c : QueryRow R}
    (hrow : db.joinTree.IsRow db.table.zipIdx (queryAliases graph root calls paths) c) :
    (db.readExpression calls path c).isSome = true := by
  obtain ⟨-, r, hr, hone, hfinds⟩ :=
    nonNull_of_walkPath hgraph hdb (walkPath_of_resolve h) hcolumn hnull
  have hreference : referenceAt graph root path = r := by
    rw [referenceAt, hr, Option.getD_some]
  have hmany : crossesToMany graph root path = false := by
    rw [crossesToMany, hopsOf, hreference]
    by_contra hany
    rw [Bool.not_eq_false, List.any_eq_true] at hany
    obtain ⟨hop, hmem, hhop⟩ := hany
    rw [hone hop hmem] at hhop
    cases hhop
  obtain ⟨⟨s, i⟩, hs, hroot⟩ := hrow.root
  have hrootRow : rowAt c .root = some s := by
    show (c .root).map Prod.fst = some s
    rw [show c .root = some (s, i) from hroot]
    rfl
  rw [Database.readExpression, readPath_toOne hrow (fun pre hpre hne =>
    step_mem_queryAliases hpath hpre hne) hmany hrootRow, Database.lookup, hreference]
  exact hfinds s (db.table_stored s (List.fst_mem_of_mem_zipIdx hs))

theorem referenceFrom_of_walkPath {model : ModelName} {passed : List String}
    {edges toMany : List Edge} {nullable : Bool} {parts : List String}
    (h : walkPath graph label path model passed edges toMany nullable parts = .ok res)
    (hcolumn : ∃ type, res.field.kind = .column type) :
    ∃ hops m name, referenceFrom graph model parts = some ⟨hops, .column m name⟩ ∧
      graph.getField? m name = some res.field := by
  have hwalk := walk_of_walkPath h
  clear h
  induction hwalk with
  | @last model _ _ _ _ part hfield =>
    obtain ⟨type, hkind⟩ := hcolumn
    have hconcrete : res.field.kind.isConcrete = true := by rw [hkind]; rfl
    exact ⟨[], model, part, referenceFrom_concrete hfield hconcrete, hfield⟩
  | @step model _ _ _ _ _ _ part field hfield hrelation hrelated hrest _ ih =>
    obtain ⟨hops, m, name, hreference, hat⟩ := ih
    rw [referenceFrom_step hfield hrelation hrelated hrest, hreference, Option.map_some]
    exact ⟨field.hop model part :: hops, m, name, rfl, hat⟩

/-! ## Edges -/

theorem joinStepsOf_toMany (passed : List String) (hops : List Hop) :
    (joinStepsOf passed hops).map JoinStep.toMany = hops.map Hop.toMany := by
  induction hops generalizing passed with
  | nil => rfl
  | cons hop rest ih => rw [joinStepsOf, List.map_cons, List.map_cons, ih]

/-- Registration records the edges of all hops, unless the path ends in a generic relation. -/
theorem edges_of_reference (h : resolveFieldPath graph root path = .ok res)
    (hgeneric : res.field.kind ≠ .genericRelation) {r : Reference}
    (hr : referenceFrom graph root (splitDunder path) = some r) :
    res.relationshipEdges = edgesOf r.hops ∧
      res.toManyRelationshipEdges =
        ((joinStepsOf [] r.hops).filter JoinStep.toMany).map JoinStep.edge := by
  rcases joinStepsFrom_of_walkPath (walkPath_of_resolve h) with ⟨-, hnone⟩ | ⟨-, steps, hsteps, hall⟩
  · rw [joinStepsFrom_eq_map, hr] at hnone
    cases hnone
  · rw [joinStepsFrom_eq_map, hr] at hsteps
    obtain rfl := Option.some.inj hsteps
    simpa [edgesOf] using hall hgeneric

theorem crossesToMany_of_resolve (h : resolveFieldPath graph root path = .ok res)
    (hgeneric : res.field.kind ≠ .genericRelation) (hnone : res.toManyRelationshipEdges = []) :
    crossesToMany graph root path = false := by
  rw [crossesToMany, hopsOf, referenceAt]
  cases hr : referenceFrom graph root (splitDunder path) with
  | none => rfl
  | some r =>
    rw [(edges_of_reference h hgeneric hr).2, List.map_eq_nil_iff, List.filter_eq_nil_iff] at hnone
    rw [Option.getD_some, List.any_eq_false]
    intro hop hmem
    have hmany : hop.toMany ∈ (joinStepsOf [] r.hops).map JoinStep.toMany := by
      rw [joinStepsOf_toMany]
      exact List.mem_map_of_mem hmem
    obtain ⟨step, hstep, hsame⟩ := List.mem_map.mp hmany
    rw [← hsame]
    exact hnone step hstep

/-- A resolution is sound about nulls, rows and depth, and its edges are those that the ORM has to
join, followed by forward keys that it trims. -/
theorem resolution_sound (hgraph : ReverseNullable graph)
    (h : resolveFieldPath graph root path = .ok res)
    (hgeneric : res.field.kind ≠ .genericRelation) :
    SoundResolution graph root path res ∧
      ∀ r, referenceFrom graph root (splitDunder path) = some r →
        ∃ trimmed, r.hops = requiredHops graph toField r ++ trimmed ∧
          (∀ hop ∈ trimmed, ∃ field, graph.getField? hop.model hop.name = some field ∧
            isForwardKey field = true) ∧
          res.relationshipEdges = edgesOf (requiredHops graph toField r ++ trimmed) := by
  constructor
  · constructor
    · intro hcolumn hnull R V db b hdb c hc
      exact readExpression_isSome hgraph hdb h hcolumn hnull (List.mem_singleton_self path)
        (mem_queryRows hc)
    · intro hnone R V db b
      exact queryRows_roots_nodup (crossesToMany_of_resolve h hgeneric hnone)
    · rfl
  · intro r hr
    obtain ⟨trimmed, hsplit, hall⟩ := requiredHops_prefix graph toField r
    refine ⟨trimmed, hsplit, hall, ?_⟩
    rw [← hsplit]
    exact (edges_of_reference h hgeneric hr).1

end

theorem shop_reverseNullable : ReverseNullable Sample.shop := by
  intro model name field hfield hkind
  have hno := Sample.shop_fields (P := fun field => field.kind ≠ .oneToOneRel) (by decide) hfield
  exact absurd hkind hno

def primaryKeys (_ : DjangoField) : String := "id"

theorem orderNumber_sound :
    ∃ res, resolveFieldPath Sample.shop "item" "order__number" = .ok res ∧
      SoundResolution Sample.shop "item" "order__number" res ∧
        ∀ r, referenceFrom Sample.shop "item" (splitDunder "order__number") = some r →
          ∃ trimmed, r.hops = requiredHops Sample.shop primaryKeys r ++ trimmed ∧
            (∀ hop ∈ trimmed, ∃ field, Sample.shop.getField? hop.model hop.name = some field ∧
              isForwardKey field = true) ∧
            res.relationshipEdges = edgesOf (requiredHops Sample.shop primaryKeys r ++ trimmed) :=
  ⟨_, rfl, resolution_sound shop_reverseNullable rfl (by decide)⟩

/-- The key of the order of an item is a column of the item. -/
theorem key_of_order_needs_no_join :
    ¬ ∀ (graph : ModelGraph) (toField : DjangoField → String) (root : ModelName) (path : String)
      (res : FieldResolution), ReverseNullable graph →
      resolveFieldPath graph root path = .ok res →
        SoundResolution graph root path res ∧
          ∀ r, referenceFrom graph root (splitDunder path) = some r →
            res.relationshipEdges = edgesOf (requiredHops graph toField r) := by
  intro h
  have hedges := (h Sample.shop primaryKeys "item" "order__id" _ shop_reverseNullable rfl).2 _ rfl
  exact absurd hedges (by decide)

end AskLens.Compiler
