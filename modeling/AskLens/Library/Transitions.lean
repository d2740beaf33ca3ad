import Mathlib.Order.Bounds.Basic
import Mathlib.Algebra.Order.Ring.Int
import Mathlib.Tactic.Common

/-!
# Clocks with offset transitions

A local clock runs ahead of the instants by an offset that changes at finitely
many transitions. Where the offset grows, the clock skips a gap; where it
shrinks, the clock reads an overlap twice. A reading with fold zero is taken
before the transition, one with fold one after it. Instants, readings and
offsets are integers of one unit.
-/
namespace AskLens.Transitions

/-- From `moment` on, the offset is `offset`. -/
structure Transition where
  moment : ℤ
  offset : ℤ
deriving DecidableEq

/-! ## From instants to readings -/

/-- The offset at an instant; `o` is the offset before the transitions. -/
def offsetAt (o : ℤ) : List Transition → ℤ → ℤ
  | [], _ => o
  | t :: ts, u => if u < t.moment then o else offsetAt t.offset ts u

def reading (o : ℤ) (ts : List Transition) (u : ℤ) : ℤ := u + offsetAt o ts u

/-- Whether the clock reads the instant for the second time. `fold` is the answer before the first
transition. -/
def foldAt (fold : Bool) (o : ℤ) : List Transition → ℤ → Bool
  | [], _ => fold
  | t :: ts, u =>
    if u < t.moment then fold
    else foldAt (decide (u - t.moment < o - t.offset)) t.offset ts u

/-! ## From readings to instants -/

/-- The first reading that belongs to the offset after the transition. -/
def boundary (fold : Bool) (o : ℤ) (t : Transition) : ℤ :=
  t.moment + if fold then min o t.offset else max o t.offset

def offsetOf (fold : Bool) (o : ℤ) : List Transition → ℤ → ℤ
  | [], _ => o
  | t :: ts, w => if w < boundary fold o t then o else offsetOf fold t.offset ts w

/-- The gaps and overlaps of consecutive transitions lie apart, and the time that a transition
shifts is over before the next one. -/
def Isolated (o : ℤ) : List Transition → Prop
  | [] => True
  | [_] => True
  | t :: t' :: ts =>
    boundary false o t ≤ boundary true t.offset t' ∧ t.moment + |t.offset - o| ≤ t'.moment ∧
      Isolated t.offset (t' :: ts)

/-- The reading `w` lies in a gap of length `gap`. -/
inductive InGap : ℤ → List Transition → ℤ → ℤ → Prop
  | here {o : ℤ} {t : Transition} {ts : List Transition} {w : ℤ}
      (h : t.moment + o ≤ w) (h' : w < t.moment + t.offset) : InGap o (t :: ts) w (t.offset - o)
  | later {o : ℤ} {t : Transition} {ts : List Transition} {w gap : ℤ}
      (h : InGap t.offset ts w gap) : InGap o (t :: ts) w gap

theorem InGap.pos {o : ℤ} {ts : List Transition} {w gap : ℤ} (h : InGap o ts w gap) :
    0 < gap := by
  induction h with
  | here h h' => omega
  | later _ ih => exact ih

section

variable {o u w : ℤ} {t t' : Transition} {ts : List Transition} {fold : Bool}

theorem Isolated.tail (h : Isolated o (t :: ts)) : Isolated t.offset ts := by
  cases ts with
  | nil => trivial
  | cons t' ts => exact h.2.2

theorem boundary_true_le (o : ℤ) (t : Transition) : boundary true o t ≤ t.moment + t.offset ∧
    boundary true o t ≤ t.moment + o := by
  simp only [boundary, if_true]
  omega

theorem le_boundary_false (o : ℤ) (t : Transition) : t.moment + t.offset ≤ boundary false o t ∧
    t.moment + o ≤ boundary false o t := by
  simp only [boundary, Bool.false_eq_true, if_false]
  omega

theorem Isolated.moment_le (h : Isolated o (t :: t' :: ts)) : t.moment ≤ t'.moment := by
  have := abs_nonneg (t.offset - o)
  have := h.2.1
  omega

theorem offsetAt_of_lt (h : u < t.moment) : offsetAt o (t :: ts) u = o := if_pos h

theorem offsetAt_of_le (h : t.moment ≤ u) : offsetAt o (t :: ts) u = offsetAt t.offset ts u :=
  if_neg (not_lt.mpr h)

theorem offsetAt_tail_of_lt (hisolated : Isolated o (t :: ts)) (h : u < t.moment) :
    offsetAt t.offset ts u = t.offset := by
  cases ts with
  | nil => rfl
  | cons t' ts =>
    have := hisolated.moment_le
    exact offsetAt_of_lt (by omega)

/-- After a transition, the clock reads at least what lies beyond its gap or overlap. -/
theorem boundary_le_reading (hisolated : Isolated o (t :: ts)) (h : t.moment ≤ u) :
    boundary true o t ≤ u + offsetAt t.offset ts u := by
  induction ts generalizing o t with
  | nil =>
    have := (boundary_true_le o t).1
    simp only [offsetAt]
    omega
  | cons t' ts ih =>
    by_cases hlt : u < t'.moment
    · have := (boundary_true_le o t).1
      rw [offsetAt_of_lt hlt]
      omega
    · have hrest := ih hisolated.2.2 (not_lt.mp hlt)
      have hapart := hisolated.1
      have hlow := (boundary_true_le o t).1
      have hhigh := (le_boundary_false o t).1
      rw [offsetAt_of_le (not_lt.mp hlt)]
      omega

/-- Between two transitions the offset of the first holds; after the second, the clock is past
what the first one shifts. -/
theorem reading_cases (hisolated : Isolated o (t :: ts)) (u : ℤ) :
    offsetAt t.offset ts u = t.offset ∨
      boundary false o t ≤ u + offsetAt t.offset ts u ∧ t.moment + |t.offset - o| ≤ u := by
  cases ts with
  | nil => exact .inl rfl
  | cons t' ts =>
    by_cases hlt : u < t'.moment
    · exact .inl (offsetAt_of_lt hlt)
    · have hle := boundary_le_reading hisolated.2.2 (not_lt.mp hlt)
      have hapart := hisolated.1
      have hover := hisolated.2.1
      rw [offsetAt_of_le (not_lt.mp hlt)]
      exact .inr ⟨by omega, by omega⟩

theorem reading_eq_iff (hisolated : Isolated o (t :: ts)) {x : ℤ} (hx : boundary false o t ≤ x) :
    reading o (t :: ts) u = x ↔ reading t.offset ts u = x := by
  unfold reading
  by_cases hlt : u < t.moment
  · have hhigh := le_boundary_false o t
    rw [offsetAt_of_lt hlt, offsetAt_tail_of_lt hisolated hlt]
    omega
  · rw [offsetAt_of_le (not_lt.mp hlt)]

/-- `u` is the first instant that the clock reads as `w`. -/
def FirstReads (o : ℤ) (ts : List Transition) (w u : ℤ) : Prop :=
  IsLeast {v | reading o ts v = w} u

/-- `u` is the first instant that the clock reads as `w`; or the clock skips `w`, and `u` is the
first one that it reads as `w` moved forward by the length of the gap. -/
def Resolves (o : ℤ) (ts : List Transition) (w u : ℤ) : Prop :=
  FirstReads o ts w u ∨
    ((∀ v, reading o ts v ≠ w) ∧ ∃ gap, InGap o ts w gap ∧ FirstReads o ts (w + gap) u)

theorem FirstReads.cons (hisolated : Isolated o (t :: ts)) (hw : boundary false o t ≤ w)
    (h : FirstReads t.offset ts w u) : FirstReads o (t :: ts) w u := by
  have hsame : {v | reading o (t :: ts) v = w} = {v | reading t.offset ts v = w} :=
    Set.ext fun v => reading_eq_iff hisolated hw
  unfold FirstReads
  rw [hsame]
  exact h

theorem firstReads_before (h : w < t.moment + o) : FirstReads o (t :: ts) w (w - o) := by
  constructor
  · have hlt : w - o < t.moment := by omega
    show reading o (t :: ts) (w - o) = w
    rw [reading, offsetAt_of_lt hlt]
    omega
  · intro v hv
    by_cases hlt : v < t.moment
    · have hread : v + offsetAt o (t :: ts) v = w := hv
      rw [offsetAt_of_lt hlt] at hread
      omega
    · omega

theorem resolves_gap (hisolated : Isolated o (t :: ts)) (h : t.moment + o ≤ w)
    (h' : w < t.moment + t.offset) : Resolves o (t :: ts) w (w - o) := by
  have hshift : |t.offset - o| = t.offset - o := abs_of_pos (by omega)
  have hhigh := (le_boundary_false o t).1
  refine .inr ⟨?_, t.offset - o, .here h h', ?_, ?_⟩
  · intro v hv
    by_cases hlt : v < t.moment
    · rw [reading, offsetAt_of_lt hlt] at hv
      omega
    · rw [reading, offsetAt_of_le (not_lt.mp hlt)] at hv
      rcases reading_cases hisolated v with hoffset | ⟨hpast, -⟩
      · rw [hoffset] at hv
        omega
      · omega
  · show reading o (t :: ts) (w - o) = w + (t.offset - o)
    rw [reading, offsetAt_of_le (by omega)]
    rcases reading_cases hisolated (w - o) with hoffset | ⟨-, hover⟩
    · rw [hoffset]
      omega
    · omega
  · intro v hv
    have hread : v + offsetAt o (t :: ts) v = w + (t.offset - o) := hv
    by_cases hlt : v < t.moment
    · rw [offsetAt_of_lt hlt] at hread
      omega
    · rw [offsetAt_of_le (not_lt.mp hlt)] at hread
      rcases reading_cases hisolated v with hoffset | ⟨-, hover⟩
      · rw [hoffset] at hread
        omega
      · omega

/-- A reading with fold zero resolves to the first instant, or past the gap. -/
theorem resolves_offsetOf (hisolated : Isolated o ts) (w : ℤ) :
    Resolves o ts w (w - offsetOf false o ts w) := by
  induction ts generalizing o with
  | nil =>
    refine .inl ⟨?_, ?_⟩
    · show w - o + o = w
      omega
    · intro v hv
      have hread : v + o = w := hv
      show w - o ≤ v
      omega
  | cons t ts ih =>
    unfold offsetOf
    split_ifs with hlt
    · by_cases hbefore : w < t.moment + o
      · exact .inl (firstReads_before hbefore)
      · apply resolves_gap hisolated (not_lt.mp hbefore)
        simp only [boundary, Bool.false_eq_true, if_false] at hlt
        omega
    · have hle := not_lt.mp hlt
      rcases ih hisolated.tail with hfirst | ⟨hskipped, gap, hgap, hfirst⟩
      · exact .inl (hfirst.cons hisolated hle)
      · have hpos := hgap.pos
        refine .inr ⟨fun v hv => ?_, gap, .later hgap, hfirst.cons hisolated (by omega)⟩
        exact hskipped v ((reading_eq_iff hisolated hle).mp hv)

theorem InGap.boundary_le {gap : ℤ} (hisolated : Isolated o (t :: ts))
    (h : InGap t.offset ts w gap) : boundary false o t ≤ w := by
  induction ts generalizing o t with
  | nil => cases h
  | cons t' ts ih =>
    have hapart := hisolated.1
    have hbefore := boundary_true_le t.offset t'
    cases h with
    | here hlow hhigh => omega
    | later h =>
      have hrest := ih hisolated.2.2 h
      have hafter := (le_boundary_false t.offset t').1
      omega

theorem InGap.unique {gap gap' : ℤ} (hisolated : Isolated o ts) (h : InGap o ts w gap)
    (h' : InGap o ts w gap') : gap = gap' := by
  induction h with
  | @here o t ts w hlow hhigh =>
    cases h' with
    | here => rfl
    | later h' =>
      have hbeyond := h'.boundary_le hisolated
      have hmax := (le_boundary_false o t).1
      omega
  | @later o t ts w gap h ih =>
    cases h' with
    | here hlow hhigh =>
      have hbeyond := h.boundary_le hisolated
      have hmax := (le_boundary_false o t).1
      omega
    | later h' => exact ih hisolated.tail h'

theorem Resolves.unique {v : ℤ} (hisolated : Isolated o ts) (h : Resolves o ts w u)
    (h' : Resolves o ts w v) : u = v := by
  rcases h with hfirst | ⟨hskipped, gap, hgap, hfirst⟩
  · rcases h' with hfirst' | ⟨hskipped', -⟩
    · exact IsLeast.unique hfirst hfirst'
    · exact absurd hfirst.1 (hskipped' u)
  · rcases h' with hfirst' | ⟨-, gap', hgap', hfirst'⟩
    · exact absurd hfirst'.1 (hskipped v)
    · obtain rfl := hgap.unique hisolated hgap'
      exact IsLeast.unique hfirst hfirst'

theorem boundary_le (fold : Bool) (o : ℤ) (t : Transition) :
    boundary fold o t ≤ boundary false o t := by
  cases fold with
  | false => exact le_rfl
  | true =>
    have := (boundary_true_le o t).1
    have := (le_boundary_false o t).1
    omega

/-- An instant right after a transition is read beyond the boundary of its fold. -/
theorem boundary_fold_le (h : t.moment ≤ u) :
    boundary (decide (u - t.moment < o - t.offset)) o t ≤ u + t.offset := by
  by_cases hfold : u - t.moment < o - t.offset
  · have := (boundary_true_le o t).1
    rw [decide_eq_true hfold]
    omega
  · rw [decide_eq_false hfold]
    simp only [boundary, Bool.false_eq_true, if_false]
    omega

/-- An instant after a transition is read beyond its boundary. -/
theorem boundary_foldAt_le (hisolated : Isolated o (t :: ts)) (h : t.moment ≤ u) :
    boundary (foldAt (decide (u - t.moment < o - t.offset)) t.offset ts u) o t ≤
      u + offsetAt t.offset ts u := by
  cases ts with
  | nil => exact boundary_fold_le h
  | cons t' ts =>
    by_cases hlt : u < t'.moment
    · rw [foldAt, if_pos hlt, offsetAt_of_lt hlt]
      exact boundary_fold_le h
    · have hread := boundary_le_reading hisolated.2.2 (not_lt.mp hlt)
      rw [offsetAt_of_le (not_lt.mp hlt)]
      exact ((boundary_le _ o t).trans hisolated.1).trans hread

/-- The reading of an instant with its fold leads back to the instant. -/
theorem offsetOf_reading (hisolated : Isolated o ts)
    (hfold : fold = true → ∀ t ∈ ts.head?, u + o < boundary true o t) :
    offsetOf (foldAt fold o ts u) o ts (reading o ts u) = offsetAt o ts u := by
  induction ts generalizing o fold with
  | nil => rfl
  | cons t ts ih =>
    by_cases hlt : u < t.moment
    · have hbelow : u + o < boundary fold o t := by
        cases fold with
        | true => exact hfold rfl t rfl
        | false =>
          have := (le_boundary_false o t).2
          omega
      rw [foldAt, if_pos hlt, reading, offsetAt_of_lt hlt, offsetOf, if_pos hbelow]
    · have hle := not_lt.mp hlt
      have hbeyond := boundary_foldAt_le hisolated hle
      rw [foldAt, if_neg hlt, reading, offsetAt_of_le hle, offsetOf, if_neg (not_lt.mpr hbeyond)]
      apply ih hisolated.tail
      intro hsecond t' ht'
      cases ts with
      | nil => cases ht'
      | cons t'' ts =>
        obtain rfl : t'' = t' := Option.some.inj ht'
        have hshrinks := of_decide_eq_true hsecond
        have hhigh := (le_boundary_false o t).2
        have hapart := hisolated.1
        omega

end

end AskLens.Transitions
