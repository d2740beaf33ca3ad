import AskLens.Catalog.Registered
import AskLens.Django.Database

/-!
# The joins of a binding

Registration walks a binding to collect its relationship edges, and the ORM
walks it to open joins. The two walks agree on every path that does not end in
a generic relation or a generic foreign key.
-/
namespace AskLens.Compiler

open Python Django Catalog Checks

variable {graph : ModelGraph} {label path : String}

/-- Whether registration counts the last name of a path as an edge. -/
def terminalIsJoin (k : FieldKind) : Bool := k.isManyToMany || k.isForeignObjectRel

theorem joinsAtEnd_eq_terminalIsJoin {k : FieldKind} (h : k ≠ .genericRelation)
    (h' : k ≠ .genericForeignKey) : k.joinsAtEnd = terminalIsJoin k := by
  cases k <;> first | rfl | contradiction

theorem edgeIf_eq_map (c m : Bool) (edge : Edge) :
    edgeIf c edge = (if c then [(⟨edge, m⟩ : JoinStep)] else []).map JoinStep.edge := by
  cases c <;> rfl

theorem edgeIf_eq_filter (c m : Bool) (edge : Edge) :
    edgeIf (c && m) edge =
      ((if c then [(⟨edge, m⟩ : JoinStep)] else []).filter JoinStep.toMany).map
        JoinStep.edge := by
  cases c <;> cases m <;> rfl

/-- A binding that registration resolves has joins unless it ends in a generic foreign key. -/
theorem joinStepsFrom_of_walkPath {model : ModelName} {passed : List String}
    {edges toMany : List Edge} {nullable : Bool} {parts : List String} {res : FieldResolution}
    (h : walkPath graph label path model passed edges toMany nullable parts = .ok res) :
    (res.field.kind = .genericForeignKey ∧ joinStepsFrom graph model passed parts = none) ∨
      (res.field.kind ≠ .genericForeignKey ∧ ∃ steps,
        joinStepsFrom graph model passed parts = some steps ∧
          (res.field.kind ≠ .genericRelation →
            res.relationshipEdges = edges ++ steps.map JoinStep.edge ∧
            res.toManyRelationshipEdges =
              toMany ++ (steps.filter JoinStep.toMany).map JoinStep.edge)) := by
  have hwalk := walk_of_walkPath h
  clear h
  induction hwalk with
  | @last model passed edges toMany nullable part hfield hedges hmany =>
    rw [joinStepsFrom, hfield]
    dsimp only
    by_cases hgeneric : res.field.kind = .genericForeignKey
    · rw [if_pos hgeneric]
      exact .inl ⟨hgeneric, rfl⟩
    · rw [if_neg hgeneric, if_pos rfl]
      refine .inr ⟨hgeneric, _, rfl, fun hrelation => ?_⟩
      rw [hedges, hmany, joinsAtEnd_eq_terminalIsJoin hrelation hgeneric]
      exact ⟨congrArg _ (edgeIf_eq_map _ _ _), congrArg _ (edgeIf_eq_filter _ _ _)⟩
  | @step model related passed rest edges toMany nullable part field hfield hrelation hrelated
      hrest _ ih =>
    rw [joinStepsFrom_step hfield hrelation hrelated hrest]
    rcases ih with ⟨hres, hnone⟩ | ⟨hres, steps, hsteps, hedges⟩
    · exact .inl ⟨hres, by rw [hnone, Option.map_none]⟩
    · refine .inr ⟨hres, ⟨passed ++ [part], field.kind.isToMany⟩ :: steps, ?_, ?_⟩
      · rw [hsteps, Option.map_some]
      · intro hrelation
        obtain ⟨hall, hmany⟩ := hedges hrelation
        refine ⟨by simpa using hall, ?_⟩
        rw [hmany]
        cases field.kind.isToMany <;> simp [edgeIf]

theorem walkPath_of_resolve {model : ModelName} {res : FieldResolution}
    (h : resolveFieldPath graph model path = .ok res) :
    walkPath graph (graph model).label path model [] [] [] false (splitDunder path) = .ok res := by
  dsimp only [resolveFieldPath] at h
  split_ifs at h
  exact h

/-- The ORM resolves a registered path exactly when it does not end in a generic foreign key. -/
theorem resolveReference_of_resolve {model : ModelName} {res : FieldResolution}
    (h : resolveFieldPath graph model path = .ok res) :
    resolveReference graph model path =
      if res.field.kind = .genericForeignKey then .error (.builtin .fieldError) else .ok () := by
  unfold resolveReference joinSteps
  rcases joinStepsFrom_of_walkPath (walkPath_of_resolve h) with
    ⟨hkind, hnone⟩ | ⟨hkind, steps, hsteps, -⟩
  · rw [hnone, if_pos hkind]
  · rw [hsteps, if_neg hkind]

theorem joinSteps_concrete {model : ModelName} {name : String} {field : DjangoField}
    (hfield : graph.getField? model name = some field) (h : field.kind.isConcrete = true) :
    joinSteps graph model name = some [] := by
  rw [joinSteps_eq_map, splitDunder_fieldName hfield, referenceFrom_concrete hfield h]
  rfl

end AskLens.Compiler
