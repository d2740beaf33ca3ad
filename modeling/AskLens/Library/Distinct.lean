import Mathlib.Data.List.Perm.Subperm

/-!
# Lists without repetition

The number of distinct elements of a list, as a program counts them.
-/
namespace Distinct

variable {α : Type} [BEq α] [LawfulBEq α]

theorem nodup_eraseDups (l : List α) : l.eraseDups.Nodup := by
  induction hn : l.length using Nat.strongRecOn generalizing l with
  | ind n ih =>
    cases l with
    | nil => simp
    | cons a l =>
      have hlt : (l.filter fun b => !b == a).length < n := by
        have := List.length_filter_le (fun b => !b == a) l
        simp only [List.length_cons] at hn
        omega
      rw [List.eraseDups_cons, List.nodup_cons]
      exact ⟨by simp, ih _ hlt _ rfl⟩

theorem eraseDups_of_nodup {l : List α} (h : l.Nodup) : l.eraseDups = l := by
  induction l with
  | nil => rfl
  | cons a l ih =>
    obtain ⟨hnotMem, hl⟩ := List.nodup_cons.mp h
    have hkept : (l.filter fun b => !b == a) = l := by
      rw [List.filter_eq_self]
      intro b hb
      have hne : b ≠ a := fun heq => hnotMem (heq ▸ hb)
      simpa using hne
    rw [List.eraseDups_cons, hkept, ih hl]

theorem length_eraseDups_mono {l l' : List α} (h : l ⊆ l') :
    l.eraseDups.length ≤ l'.eraseDups.length := by
  apply List.Subperm.length_le
  apply List.subperm_of_subset (nodup_eraseDups l)
  intro a ha
  rw [List.mem_eraseDups] at ha ⊢
  exact h ha

theorem eq_of_length_eraseDups_le_one {l : List α} (h : l.eraseDups.length ≤ 1) {a b : α}
    (ha : a ∈ l) (hb : b ∈ l) : a = b := by
  rw [← List.mem_eraseDups] at ha hb
  obtain ⟨i, hi, rfl⟩ := List.mem_iff_getElem.mp ha
  obtain ⟨j, hj, rfl⟩ := List.mem_iff_getElem.mp hb
  have hij : i = j := by omega
  subst hij
  rfl

omit [BEq α] [LawfulBEq α] in
/-- Two lists that repeat nothing and hold one and the same element. -/
theorem eq_of_nodup_of_subset {l l' : List α} (hl : l.Nodup) (hl' : l'.Nodup)
    (hone : ∀ a ∈ l', ∀ b ∈ l', a = b) (hsub : l ⊆ l') (hne : l ≠ []) : l = l' := by
  obtain ⟨a, ha⟩ := List.exists_mem_of_ne_nil l hne
  have hsingle : ∀ k : List α, k.Nodup → a ∈ k → (∀ b ∈ k, b = a) → k = [a] := by
    intro k hk hak hall
    cases k with
    | nil => cases hak
    | cons b k =>
      obtain rfl := hall b (by simp)
      cases k with
      | nil => rfl
      | cons c k =>
        obtain rfl := hall c (by simp)
        simp at hk
  rw [hsingle l hl ha fun b hb => hone b (hsub hb) a (hsub ha),
    hsingle l' hl' (hsub ha) fun b hb => hone b hb a (hsub ha)]

end Distinct
