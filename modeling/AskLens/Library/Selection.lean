import Mathlib.Data.List.Sort

/-!
# Selection of the best elements

The candidates of a list are put in an order and the first few of them are
taken: nothing that is left out comes before anything that is taken.
-/
namespace AskLens.Selection

variable {α : Type} (before : α → α → Prop) [DecidableRel before]

/-- The first `k` candidates among the items, in the order. -/
def best (candidate : α → Bool) (k : ℕ) (items : List α) : List α :=
  ((items.insertionSort before).filter candidate).take k

variable {before} {candidate : α → Bool} {k : ℕ} {items : List α} {a b : α}

theorem mem_best (h : a ∈ best before candidate k items) : a ∈ items ∧ candidate a = true := by
  have hfilter := List.mem_filter.mp (List.mem_of_mem_take h)
  exact ⟨(List.mem_insertionSort before).mp hfilter.1, hfilter.2⟩

theorem best_subperm (before : α → α → Prop) [DecidableRel before] (candidate : α → Bool) (k : ℕ)
    (items : List α) : (best before candidate k items).Subperm items := by
  have hsublist : (best before candidate k items).Sublist (items.insertionSort before) :=
    (List.take_sublist k _).trans List.filter_sublist
  exact hsublist.subperm.trans (List.perm_insertionSort before items).subperm

theorem length_best (before : α → α → Prop) [DecidableRel before] (candidate : α → Bool) (k : ℕ)
    (items : List α) : (best before candidate k items).length = min k (items.countP candidate) := by
  unfold best
  rw [List.length_take, ← List.countP_eq_length_filter,
    (List.perm_insertionSort before items).countP_eq candidate]

section

variable [Std.Total before] [IsTrans α before]

theorem best_pairwise (candidate : α → Bool) (k : ℕ) (items : List α) :
    (best before candidate k items).Pairwise before :=
  ((List.pairwise_insertionSort before items).filter candidate).sublist (List.take_sublist k _)

/-- A candidate that is left out comes after everything that is taken, and `k` are taken. -/
theorem best_of_notMem (hmem : a ∈ items) (hcandidate : candidate a = true)
    (hnot : a ∉ best before candidate k items) :
    (best before candidate k items).length = k ∧
      ∀ b ∈ best before candidate k items, before b a := by
  have hsorted : ((items.insertionSort before).filter candidate).Pairwise before :=
    (List.pairwise_insertionSort before items).filter candidate
  have hin : a ∈ (items.insertionSort before).filter candidate :=
    List.mem_filter.mpr ⟨(List.mem_insertionSort before).mpr hmem, hcandidate⟩
  rw [← List.take_append_drop k ((items.insertionSort before).filter candidate)] at hsorted hin
  have hdrop : a ∈ ((items.insertionSort before).filter candidate).drop k :=
    (List.mem_append.mp hin).resolve_left hnot
  constructor
  · have hlt : k < ((items.insertionSort before).filter candidate).length := by
      have hpos := List.length_pos_of_mem hdrop
      rw [List.length_drop] at hpos
      omega
    unfold best
    rw [List.length_take]
    omega
  · intro b hb
    exact (List.pairwise_append.mp hsorted).2.2 b hb a hdrop

end

end AskLens.Selection
