import AskLens.Planning.RoundTrip

/-!
# Presentation hints

Optional display metadata, which a client or a provider may send beside a plan.
The strict model fixes which axes a kind has, and nothing else.
-/
namespace AskLens.Planning

open Python Catalog Checks

inductive PresentationKind where
  | table | metric | bar | line | pie
deriving DecidableEq, Repr

def PresentationKind.name : PresentationKind → String
  | .table => "table"
  | .metric => "metric"
  | .bar => "bar"
  | .line => "line"
  | .pie => "pie"

def supportedPresentationKinds : List PresentationKind := [.table, .metric, .bar, .line, .pie]

/-- `validate_axes_for_kind`: the message of the refused axes. -/
def validateAxesForKind (kind : PresentationKind) (x y : Option String) : Option String :=
  match kind with
  | .table =>
    if x ≠ none ∨ y ≠ none then some "presentation kind 'table' must not define axes." else none
  | .metric =>
    if x ≠ none then some "presentation kind 'metric' must not define x."
    else if y = none then some "presentation kind 'metric' requires y."
    else none
  | kind =>
    if x = none ∨ y = none then
      some s!"presentation kind {pyRepr kind.name} requires x and y."
    else none

structure PresentationSpec where
  kind : PresentationKind
  x : Option String
  y : Option String
  names : ∀ axis ∈ x.toList ++ y.toList, IsName axis
  axes : validateAxesForKind kind x y = none

/-- The model of validated members. -/
def PresentationSpec.init (kind : PresentationKind) (x y : Option String) :
    Parse PresentationSpec :=
  if hnames : ∀ axis ∈ x.toList ++ y.toList, IsName axis then
    match haxes : validateAxesForKind kind x y with
    | none => .ok ⟨kind, x, y, hnames, haxes⟩
    | some msg => valueError msg
  else valueError "presentation axis must not be empty."

/-- `PresentationSpec.model_validate`. -/
def parsePresentationSpec (env : Environment) (v : PyObj) : Parse PresentationSpec := do
  let entries ← modelEntries "PresentationSpec" v
  let kind? ← optional entries "kind" (parseLiteral supportedPresentationKinds
    PresentationKind.name)
  let x? ← optional entries "x" (parseOptional (parseShownName "presentation axis"))
  let y? ← optional entries "y" (parseOptional (parseShownName "presentation axis"))
  forbidExtra env ["kind", "x", "y"] entries
  PresentationSpec.init (kind?.getD .table) x?.join y?.join

/-- `model_dump(mode="json", exclude_none=True)`. -/
def PresentationSpec.dump (spec : PresentationSpec) : Entries :=
  member "kind" textObj (some spec.kind.name) ++ member "x" textObj spec.x ++
    member "y" textObj spec.y

/-! ## What is read -/

variable {env : Environment}

theorem parseLiteral_kind (kind : PresentationKind) :
    parseLiteral supportedPresentationKinds PresentationKind.name (textObj kind.name) =
      .ok kind := by
  cases kind <;> rfl

theorem init_members (spec : PresentationSpec) :
    PresentationSpec.init spec.kind spec.x spec.y = .ok spec := by
  unfold PresentationSpec.init
  rw [dif_pos spec.names]
  split
  · rfl
  · rename_i msg hmsg
    rw [spec.axes] at hmsg
    cases hmsg

theorem parseNullableAxis_dump {o : Option String} (h : ∀ s, o = some s → IsName s) :
    parseOptional (parseShownName "presentation axis") (dumpNullable textObj o) = .ok o := by
  cases o with
  | none => rfl
  | some s =>
    show (parseShownName _ (textObj s)).map some = _
    rw [parseShownName_textObj (h s rfl), Except.map]

theorem parsePresentationSpec_dump (env : Environment) (spec : PresentationSpec) :
    parsePresentationSpec env (.dict spec.dump) = .ok spec := by
  have hx : ∀ name : Option String, spec.x.map some = some name → ∀ s, name = some s → IsName s := by
    intro name hname s hs
    obtain ⟨axis, haxis, rfl⟩ := Option.map_eq_some_iff.mp hname
    cases hs
    exact spec.names s (by simp [haxis])
  have hy : ∀ name : Option String, spec.y.map some = some name → ∀ s, name = some s → IsName s := by
    intro name hname s hs
    obtain ⟨axis, haxis, rfl⟩ := Option.map_eq_some_iff.mp hname
    cases hs
    exact spec.names s (by simp [haxis])
  have hjoin : ∀ o : Option String, (o.map some).join = o := by
    intro o
    cases o <;> rfl
  simp only [parsePresentationSpec, modelEntries, ok_bind]
  rw [optional_eq (k := "kind") (o := some spec.kind) (d := fun kind => textObj kind.name)
      (by simp [PresentationSpec.dump, lookupKey_append, lookupKey_member])
      (fun kind _ => parseLiteral_kind kind),
    optional_eq (k := "x") (o := spec.x.map some) (d := dumpNullable textObj)
      (by simp [PresentationSpec.dump, lookupKey_append, lookupKey_member, dumpNullable,
        Function.comp_def])
      (fun name hname => parseNullableAxis_dump (hx name hname)),
    optional_eq (k := "y") (o := spec.y.map some) (d := dumpNullable textObj)
      (by simp [PresentationSpec.dump, lookupKey_append, lookupKey_member, dumpNullable,
        Function.comp_def])
      (fun name hname => parseNullableAxis_dump (hy name hname))]
  simp only [ok_bind, PresentationSpec.dump]
  rw [forbidExtra_append _ _ (by
      rw [forbidExtra_append _ _ (forbidExtra_member (by simp) _ _)]
      exact forbidExtra_member (by simp) _ _),
    forbidExtra_member (by simp), ok_bind, hjoin, hjoin]
  exact init_members spec

end AskLens.Planning
