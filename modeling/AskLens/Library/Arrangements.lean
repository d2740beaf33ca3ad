import Mathlib.Data.List.Sort
import Mathlib.Order.Defs.LinearOrder
import Mathlib.Tactic.Common

/-!
# Ordered rows

A store may return rows in any order that its ordering terms allow. Rows that
tie on all terms may change places, so a reader sees one sequence only when
such rows look the same.
-/
namespace AskLens.Arrangements

variable {V A S : Type}

/-- One ordering term; a missing value comes last in both directions. -/
def termLE [LE V] (descending : Bool) : Option V → Option V → Prop
  | _, none => True
  | none, some _ => False
  | some a, some b => if descending then b ≤ a else a ≤ b

/-- The terms in turn: a later one counts where the earlier ones tie. -/
def keyLE [LE V] : List Bool → List (Option V) → List (Option V) → Prop
  | d :: ds, a :: as, b :: bs => termLE d a b ∧ (a = b → keyLE ds as bs)
  | _, _, _ => True

/-- An order in which the rows of a bag may be returned. -/
structure IsArrangement [LE V] (directions : List Bool) (key : A → List (Option V))
    (bag rows : List A) : Prop where
  perm : rows.Perm bag
  ordered : rows.Pairwise fun a b => keyLE directions (key a) (key b)

variable [LinearOrder V]

theorem termLE_antisymm {descending : Bool} {a b : Option V} (hab : termLE descending a b)
    (hba : termLE descending b a) : a = b := by
  cases a with
  | none =>
    cases b with
    | none => rfl
    | some b => exact hab.elim
  | some a =>
    cases b with
    | none => exact hba.elim
    | some b =>
      unfold termLE at hab hba
      congr 1
      split_ifs at hab hba
      · exact le_antisymm hba hab
      · exact le_antisymm hab hba

theorem keyLE_antisymm {directions : List Bool} {as bs : List (Option V)}
    (ha : as.length = directions.length) (hb : bs.length = directions.length)
    (hab : keyLE directions as bs) (hba : keyLE directions bs as) : as = bs := by
  induction directions generalizing as bs with
  | nil =>
    rw [List.length_eq_zero_iff.mp ha, List.length_eq_zero_iff.mp hb]
  | cons d ds ih =>
    cases as with
    | nil => cases ha
    | cons a as =>
      cases bs with
      | nil => cases hb
      | cons b bs =>
        obtain rfl := termLE_antisymm hab.1 hba.1
        rw [ih (by simpa using ha) (by simpa using hb) (hab.2 rfl) (hba.2 rfl)]

theorem termLE_refl (descending : Bool) (a : Option V) : termLE descending a a := by
  cases a with
  | none => trivial
  | some a =>
    unfold termLE
    split_ifs <;> exact le_refl a

theorem termLE_total (descending : Bool) (a b : Option V) :
    termLE descending a b ∨ termLE descending b a := by
  cases a with
  | none =>
    right
    trivial
  | some a =>
    cases b with
    | none =>
      left
      trivial
    | some b =>
      unfold termLE
      split_ifs
      · exact le_total b a
      · exact le_total a b

theorem termLE_trans {descending : Bool} {a b c : Option V} (hab : termLE descending a b)
    (hbc : termLE descending b c) : termLE descending a c := by
  cases c with
  | none => trivial
  | some c =>
    cases b with
    | none => exact hbc.elim
    | some b =>
      cases a with
      | none => exact hab.elim
      | some a =>
        unfold termLE at hab hbc ⊢
        split_ifs at hab hbc ⊢
        · exact le_trans hbc hab
        · exact le_trans hab hbc

theorem keyLE_refl (directions : List Bool) (as : List (Option V)) : keyLE directions as as := by
  induction directions generalizing as with
  | nil => trivial
  | cons d ds ih =>
    cases as with
    | nil => trivial
    | cons a as => exact ⟨termLE_refl d a, fun _ => ih as⟩

theorem keyLE_total (directions : List Bool) (as bs : List (Option V)) :
    keyLE directions as bs ∨ keyLE directions bs as := by
  induction directions generalizing as bs with
  | nil => exact .inl trivial
  | cons d ds ih =>
    cases as with
    | nil => exact .inl trivial
    | cons a as =>
      cases bs with
      | nil => exact .inl trivial
      | cons b bs =>
        by_cases hab : a = b
        · subst hab
          rcases ih as bs with h | h
          · exact .inl ⟨termLE_refl d a, fun _ => h⟩
          · exact .inr ⟨termLE_refl d a, fun _ => h⟩
        · rcases termLE_total d a b with h | h
          · exact .inl ⟨h, fun heq => absurd heq hab⟩
          · exact .inr ⟨h, fun heq => absurd heq.symm hab⟩

theorem keyLE_trans {directions : List Bool} {as bs cs : List (Option V)}
    (hb : bs.length = directions.length) (hab : keyLE directions as bs)
    (hbc : keyLE directions bs cs) : keyLE directions as cs := by
  induction directions generalizing as bs cs with
  | nil => trivial
  | cons d ds ih =>
    cases as with
    | nil => trivial
    | cons a as =>
      cases cs with
      | nil => trivial
      | cons c cs =>
        cases bs with
        | nil => cases hb
        | cons b bs =>
          refine ⟨termLE_trans hab.1 hbc.1, fun hac => ?_⟩
          subst hac
          obtain rfl := termLE_antisymm hab.1 hbc.1
          exact ih (by simpa using hb) (hab.2 rfl) (hbc.2 rfl)

theorem keyLE_concat {directions : List Bool} {as bs : List (Option V)} {d : Bool}
    {a b : Option V} (ha : as.length = directions.length) (hb : bs.length = directions.length) :
    keyLE (directions ++ [d]) (as ++ [a]) (bs ++ [b]) ↔
      keyLE directions as bs ∧ (as = bs → termLE d a b) := by
  induction directions generalizing as bs with
  | nil =>
    rw [List.length_eq_zero_iff.mp ha, List.length_eq_zero_iff.mp hb]
    simp [keyLE]
  | cons e ds ih =>
    cases as with
    | nil => cases ha
    | cons x as =>
      cases bs with
      | nil => cases hb
      | cons y bs =>
        have hrest : keyLE (ds ++ [d]) (as ++ [a]) (bs ++ [b]) ↔ _ :=
          ih (by simpa using ha) (by simpa using hb)
        simp only [List.cons_append, keyLE, List.cons.injEq, hrest]
        constructor
        · rintro ⟨hxy, h⟩
          exact ⟨⟨hxy, fun heq => (h heq).1⟩, fun heq => (h heq.1).2 heq.2⟩
        · rintro ⟨⟨hxy, h⟩, hlast⟩
          exact ⟨hxy, fun heq => ⟨h heq, fun hrest => hlast ⟨heq, hrest⟩⟩⟩

instance (descending : Bool) (a b : Option V) : Decidable (termLE descending a b) :=
  match a, b with
  | none, none => .isTrue trivial
  | some _, none => .isTrue trivial
  | none, some _ => .isFalse fun h => h
  | some a, some b => inferInstanceAs (Decidable (if descending then b ≤ a else a ≤ b))

/-- Whether a key comes first, by recursion on the terms. -/
def decideKeyLE : (directions : List Bool) → (as bs : List (Option V)) →
    Decidable (keyLE directions as bs)
  | [], _, _ => .isTrue trivial
  | _ :: _, [], _ => .isTrue trivial
  | _ :: _, _ :: _, [] => .isTrue trivial
  | d :: ds, a :: as, b :: bs =>
    letI := decideKeyLE ds as bs
    inferInstanceAs (Decidable (termLE d a b ∧ (a = b → keyLE ds as bs)))

instance (directions : List Bool) (as bs : List (Option V)) : Decidable (keyLE directions as bs) :=
  decideKeyLE directions as bs

/-! ## Sorting -/

/-- The bag in the order of the terms; rows that tie keep their places. -/
def sortBy (directions : List Bool) (key : A → List (Option V)) (bag : List A) : List A :=
  bag.insertionSort fun a b => keyLE directions (key a) (key b)

theorem sortBy_perm (directions : List Bool) (key : A → List (Option V)) (bag : List A) :
    (sortBy directions key bag).Perm bag :=
  List.perm_insertionSort _ _

theorem sortBy_isArrangement {directions : List Bool} {key : A → List (Option V)} (bag : List A)
    (hkey : ∀ a, (key a).length = directions.length) :
    IsArrangement directions key bag (sortBy directions key bag) := by
  have htotal : Std.Total fun a b => keyLE directions (key a) (key b) :=
    ⟨fun a b => keyLE_total directions (key a) (key b)⟩
  have htrans : IsTrans A fun a b => keyLE directions (key a) (key b) :=
    ⟨fun _ b _ => keyLE_trans (hkey b)⟩
  exact ⟨sortBy_perm directions key bag, List.pairwise_insertionSort _ bag⟩

/-- When ties look the same, every arrangement looks the same. -/
theorem IsArrangement.map_eq {directions : List Bool} {key : A → List (Option V)}
    {bag rows rows' : List A} {f : A → S} (h : IsArrangement directions key bag rows)
    (h' : IsArrangement directions key bag rows')
    (hkey : ∀ a, (key a).length = directions.length)
    (hties : ∀ a ∈ bag, ∀ b ∈ bag, key a = key b → f a = f b) : rows.map f = rows'.map f := by
  have hkeys : rows.map key = rows'.map key := by
    have hantisymm : ∀ k k', k ∈ rows.map key → k' ∈ rows'.map key → keyLE directions k k' →
        keyLE directions k' k → k = k' := by
      intro k k' hk hk' hle hle'
      obtain ⟨a, -, rfl⟩ := List.mem_map.mp hk
      obtain ⟨b, -, rfl⟩ := List.mem_map.mp hk'
      exact keyLE_antisymm (hkey a) (hkey b) hle hle'
    exact List.Perm.eq_of_pairwise hantisymm (List.pairwise_map.mpr h.ordered)
      (List.pairwise_map.mpr h'.ordered) ((h.perm.trans h'.perm.symm).map key)
  have hlength : rows.length = rows'.length := (h.perm.trans h'.perm.symm).length_eq
  apply List.ext_getElem
  · simpa using hlength
  · intro i hi hi'
    rw [List.length_map] at hi hi'
    have hki := List.getElem_of_eq hkeys (by simpa using hi)
    rw [List.getElem_map, List.getElem_map] at hki ⊢
    exact hties _ (h.perm.subset (List.getElem_mem hi)) _ (h'.perm.subset (List.getElem_mem hi')) hki

theorem IsArrangement.map {B : Type} {directions : List Bool} {key : A → List (Option V)}
    {f : B → A} {bag rows : List B}
    (h : IsArrangement directions (fun b => key (f b)) bag rows) :
    IsArrangement directions key (bag.map f) (rows.map f) :=
  ⟨h.perm.map f, List.pairwise_map.mpr h.ordered⟩

/-- Under a key that tells all rows apart there is one arrangement. -/
theorem IsArrangement.eq_sortBy {directions : List Bool} {key : A → List (Option V)}
    {bag rows : List A} (h : IsArrangement directions key bag rows)
    (hkey : ∀ a, (key a).length = directions.length)
    (hinjective : ∀ a ∈ bag, ∀ b ∈ bag, key a = key b → a = b) :
    rows = sortBy directions key bag := by
  have hsame := h.map_eq (f := id) (sortBy_isArrangement bag hkey) hkey hinjective
  simpa using hsame

end AskLens.Arrangements
