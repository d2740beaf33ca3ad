import Mathlib.Data.List.Basic
import Mathlib.Tactic.Common

/-!
# Last claims

Items that register under several keys in one index, the later ones in place of
the earlier ones. An item is found under its own name when no later item claims
the name for another key.
-/
namespace AskLens.LastClaim

variable {A K : Type} [DecidableEq K] {keys : A → List K} {name : A → K}

/-- The last item that registers under the key. -/
def lastClaim (keys : A → List K) : List A → K → Option A
  | [], _ => none
  | a :: rest, k =>
    match lastClaim keys rest k with
    | some b => some b
    | none => if k ∈ keys a then some a else none

theorem lastClaim_eq_none_iff {items : List A} {k : K} :
    lastClaim keys items k = none ↔ ∀ a ∈ items, k ∉ keys a := by
  induction items with
  | nil => simp [lastClaim]
  | cons a rest ih =>
    rw [List.forall_mem_cons, ← ih]
    cases h : lastClaim keys rest k with
    | some b => simp [lastClaim, h]
    | none => simp [lastClaim, h]

theorem lastClaim_mem {items : List A} {k : K} {a : A} (h : lastClaim keys items k = some a) :
    a ∈ items ∧ k ∈ keys a := by
  induction items with
  | nil => cases h
  | cons b rest ih =>
    cases hrest : lastClaim keys rest k with
    | some c =>
      obtain rfl : c = a := by simpa [lastClaim, hrest] using h
      obtain ⟨hmem, hkey⟩ := ih hrest
      exact ⟨List.mem_cons_of_mem _ hmem, hkey⟩
    | none =>
      simp only [lastClaim, hrest] at h
      split_ifs at h with hkey
      obtain rfl := Option.some.inj h
      exact ⟨List.mem_cons_self, hkey⟩

/-- Names that differ lead to their own items exactly when no later item claims one of them. -/
theorem names_lead_back_iff {items : List A} (hname : ∀ a, name a ∈ keys a)
    (hdistinct : items.Pairwise fun a b => name a ≠ name b) :
    (∀ a ∈ items, lastClaim keys items (name a) = some a) ↔
      items.Pairwise fun a b => name a ∉ keys b := by
  induction items with
  | nil => simp
  | cons a rest ih =>
    obtain ⟨hfirst, hrest⟩ := List.pairwise_cons.mp hdistinct
    rw [List.pairwise_cons, ← ih hrest, List.forall_mem_cons]
    have hlater : ∀ b ∈ rest, lastClaim keys (a :: rest) (name b) =
        lastClaim keys rest (name b) := by
      intro b hb
      cases hfound : lastClaim keys rest (name b) with
      | some c => simp [lastClaim, hfound]
      | none => exact absurd (hname b) (lastClaim_eq_none_iff.mp hfound b hb)
    have hown : lastClaim keys (a :: rest) (name a) = some a ↔ ∀ b ∈ rest, name a ∉ keys b := by
      rw [← lastClaim_eq_none_iff]
      cases hfound : lastClaim keys rest (name a) with
      | none => simp [lastClaim, hfound, hname a]
      | some c =>
        have hne : c ≠ a := by
          rintro rfl
          exact hfirst c (lastClaim_mem hfound).1 rfl
        simp [lastClaim, hfound, hne]
    rw [hown]
    apply and_congr_right
    intro _
    exact forall₂_congr fun b hb => by rw [hlater b hb]

end AskLens.LastClaim
