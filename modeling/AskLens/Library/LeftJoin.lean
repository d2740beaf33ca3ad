import Mathlib.Data.List.Basic
import Mathlib.Data.List.Perm.Basic
import Mathlib.Data.List.Nodup
import Mathlib.Data.Option.Basic
import Mathlib.Logic.Function.Basic
import Mathlib.Tactic.Common

/-!
# Trees of left joins

A query joins tables under aliases, each below a parent alias. A row of the
join assigns to every alias a row of its table, or none where the left join
found nothing.
-/
namespace AskLens.LeftJoin

variable {A B R S : Type}

abbrev Combination (A R : Type) := A → Option R

/-- How the aliases of a query are joined: `related a r` are the rows that the join of `a` finds
for the row `r` of its parent. -/
structure JoinTree (A R : Type) where
  root : A
  parent : A → A
  related : A → R → List R
  related_nodup : ∀ a r, (related a r).Nodup

namespace JoinTree

section Rows

variable (t : JoinTree A R)

/-- What a left join puts under an alias. -/
def choices (a : A) (c : Combination A R) : List (Option R) :=
  match (c (t.parent a)).elim [] (t.related a) with
  | [] => [none]
  | r :: rs => (r :: rs).map some

/-- The aliases are distinct, and each one is joined after its parent. -/
inductive Grounded : List A → Prop
  | nil : Grounded []
  | snoc {as : List A} {a : A} : Grounded as → t.parent a ∈ t.root :: as → a ∉ t.root :: as →
      Grounded (as ++ [a])

/-- What the rows over a list of aliases are, whatever its order. -/
structure IsRow (table : List R) (as : List A) (c : Combination A R) : Prop where
  root : ∃ r ∈ table, c t.root = some r
  joined : ∀ a ∈ as, c a ∈ t.choices a c
  outside : ∀ a, a ∉ t.root :: as → c a = none

variable [DecidableEq A]

def extend (a : A) (c : Combination A R) : List (Combination A R) :=
  (t.choices a c).map (Function.update c a)

def joinAll (as : List A) (rows : List (Combination A R)) : List (Combination A R) :=
  as.foldl (fun rows a => rows.flatMap (t.extend a)) rows

/-- The combination of a row of the root table before any join. -/
def start (r : R) : Combination A R := Function.update (fun _ => none) t.root (some r)

/-- The joined rows over a root table, with the aliases joined in the order of the list. -/
def rows (table : List R) (as : List A) : List (Combination A R) :=
  t.joinAll as (table.map t.start)

end Rows

section Choices

variable {t : JoinTree A R} {table : List R} {as bs : List A} {a : A}
  {c c' : Combination A R}

theorem choices_ne_nil : t.choices a c ≠ [] := by
  unfold choices
  split <;> simp

theorem choices_nodup : (t.choices a c).Nodup := by
  unfold choices
  split
  · simp
  · rename_i r rs h
    apply List.Nodup.map (Option.some_injective R)
    rw [← h]
    cases c (t.parent a) with
    | none => simp
    | some p => exact t.related_nodup a p

theorem choices_congr (h : c (t.parent a) = c' (t.parent a)) : t.choices a c = t.choices a c' := by
  unfold choices
  rw [h]

theorem choices_congr_related
    (h : (c (t.parent a)).elim [] (t.related a) = (c' (t.parent a)).elim [] (t.related a)) :
    t.choices a c = t.choices a c' := by
  unfold choices
  rw [h]

theorem mem_choices_some {r : R} (h : some r ∈ t.choices a c) :
    ∃ p, c (t.parent a) = some p ∧ r ∈ t.related a p := by
  unfold choices at h
  cases hp : c (t.parent a) with
  | none => simp [hp] at h
  | some p =>
    refine ⟨p, rfl, ?_⟩
    rw [hp] at h
    cases hrelated : t.related a p with
    | nil => simp [hrelated] at h
    | cons s rs => simpa [hrelated] using h

theorem choices_eq_singleton (h : ∀ r, (t.related a r).length ≤ 1) :
    ∃ o, t.choices a c = [o] := by
  have hlength : ((c (t.parent a)).elim [] (t.related a)).length ≤ 1 := by
    cases c (t.parent a) with
    | none => simp
    | some p => exact h p
  unfold choices
  split
  · exact ⟨none, rfl⟩
  · rename_i r rs hrs
    rw [hrs, List.length_cons] at hlength
    have hnil : rs = [] := List.length_eq_zero_iff.mp (by omega)
    exact ⟨some r, by rw [hnil]; rfl⟩

theorem Grounded.nodup (h : t.Grounded as) : (t.root :: as).Nodup := by
  induction h with
  | nil => simp
  | snoc _ _ hnew ih =>
    rw [← List.cons_append]
    exact ih.append (by simp) (by simpa using hnew)

theorem Grounded.parent_mem (h : t.Grounded as) : ∀ a ∈ as, t.parent a ∈ t.root :: as := by
  induction h with
  | nil => simp
  | @snoc as b _ hparent _ ih =>
    intro a ha
    rw [← List.cons_append]
    apply List.mem_append_left
    rcases List.mem_append.mp ha with ha | ha
    · exact ih a ha
    · obtain rfl := List.mem_singleton.mp ha
      exact hparent

theorem Grounded.parent_ne (h : t.Grounded as) (hnew : a ∉ t.root :: as) :
    ∀ b ∈ as, t.parent b ≠ a := by
  intro b hb hab
  exact hnew (hab ▸ h.parent_mem b hb)

/-- A join that finds one row at most finds the row that is related to its parent. -/
theorem IsRow.eq_head? (h : t.IsRow table as c) (ha : a ∈ as)
    (hone : ∀ r, (t.related a r).length ≤ 1) :
    c a = (c (t.parent a)).bind fun r => (t.related a r).head? := by
  have hmem := h.joined a ha
  unfold choices at hmem
  cases hp : c (t.parent a) with
  | none => simpa [hp] using hmem
  | some p =>
    rw [hp, Option.elim_some] at hmem
    rw [Option.bind_some]
    cases hrelated : t.related a p with
    | nil => simpa [hrelated] using hmem
    | cons r rs =>
      have hlength := hone p
      rw [hrelated] at hlength hmem
      obtain rfl : rs = [] := List.length_eq_zero_iff.mp (by simpa using hlength)
      simpa using hmem

/-- A join that finds one row at most adds nothing to what its parent determines. -/
theorem IsRow.eq_of_parent {table' : List R} {bs : List A} (h : t.IsRow table as c)
    (h' : t.IsRow table' bs c') (ha : a ∈ as) (hb : a ∈ bs)
    (hone : ∀ r, (t.related a r).length ≤ 1)
    (hparent : (c (t.parent a)).elim [] (t.related a) =
      (c' (t.parent a)).elim [] (t.related a)) : c a = c' a := by
  have hmem := h.joined a ha
  have hmem' := h'.joined a hb
  obtain ⟨o, ho⟩ := choices_eq_singleton (c := c) hone
  rw [← choices_congr_related hparent, ho, List.mem_singleton] at hmem'
  rw [ho, List.mem_singleton] at hmem
  rw [hmem, hmem']

end Choices

section Lemmas

variable [DecidableEq A] {t : JoinTree A R} {table : List R} {as bs : List A} {a : A}
  {c c' : Combination A R}

theorem mem_extend : c ∈ t.extend a c' ↔
    c a ∈ t.choices a c' ∧ ∀ b, b ≠ a → c b = c' b := by
  simp only [extend, List.mem_map]
  constructor
  · rintro ⟨o, ho, rfl⟩
    exact ⟨by simpa using ho, fun b hb => by simp [hb]⟩
  · rintro ⟨ho, h⟩
    refine ⟨c a, ho, funext fun b => ?_⟩
    by_cases hb : b = a
    · subst hb
      simp
    · simp [hb, h b hb]

theorem joinAll_append (rows : List (Combination A R)) :
    t.joinAll (as ++ bs) rows = t.joinAll bs (t.joinAll as rows) :=
  List.foldl_append

theorem rows_append : t.rows table (as ++ bs) = t.joinAll bs (t.rows table as) :=
  joinAll_append _

theorem rows_snoc : t.rows table (as ++ [a]) = (t.rows table as).flatMap (t.extend a) :=
  rows_append

theorem joinAll_eq_flatMap (rows : List (Combination A R)) :
    t.joinAll as rows = rows.flatMap fun c => t.joinAll as [c] := by
  induction as generalizing rows with
  | nil => simp [joinAll]
  | cons a as ih =>
    have hstep : ∀ rows, t.joinAll (a :: as) rows = t.joinAll as (rows.flatMap (t.extend a)) :=
      fun _ => rfl
    rw [hstep, ih, List.flatMap_assoc]
    apply List.flatMap_congr
    intro c _
    rw [hstep, List.flatMap_singleton, ← ih]

/-- Which rows there are does not depend on the order of the joins. -/
theorem mem_rows (h : t.Grounded as) : c ∈ t.rows table as ↔ t.IsRow table as c := by
  induction h generalizing c with
  | nil =>
    simp only [rows, joinAll, List.foldl_nil, List.mem_map]
    constructor
    · rintro ⟨r, hr, rfl⟩
      refine ⟨⟨r, hr, by simp [start]⟩, by simp, fun a ha => ?_⟩
      have hne : a ≠ t.root := by simpa using ha
      simp [start, hne]
    · rintro ⟨⟨r, hr, hroot⟩, -, hnone⟩
      refine ⟨r, hr, funext fun a => ?_⟩
      by_cases ha : a = t.root
      · subst ha
        simp [start, hroot]
      · rw [hnone a (by simpa using ha)]
        simp [start, ha]
  | @snoc as a h hparent hnew ih =>
    have hne : t.root ≠ a := fun he => hnew (by simp [he])
    have hself : t.parent a ≠ a := fun he => hnew (he ▸ hparent)
    rw [rows_snoc, List.mem_flatMap]
    constructor
    · rintro ⟨c', hc', hc⟩
      obtain ⟨⟨r, hr, hroot⟩, hjoined, hnone⟩ := ih.mp hc'
      obtain ⟨hchoice, hrest⟩ := mem_extend.mp hc
      refine ⟨⟨r, hr, by rw [hrest _ hne, hroot]⟩, fun b hb => ?_, fun b hb => ?_⟩
      · rcases List.mem_append.mp hb with hb | hb
        · have hba : b ≠ a := fun he => hnew (List.mem_cons_of_mem _ (he ▸ hb))
          rw [hrest b hba, choices_congr (hrest _ (h.parent_ne hnew b hb))]
          exact hjoined b hb
        · obtain rfl := List.mem_singleton.mp hb
          rw [choices_congr (hrest _ hself)]
          exact hchoice
      · have hba : b ≠ a := fun he => hb (by simp [he])
        rw [hrest b hba]
        exact hnone b fun hmem => hb (by
          rw [← List.cons_append]
          exact List.mem_append_left _ hmem)
    · rintro ⟨⟨r, hr, hroot⟩, hjoined, hnone⟩
      -- the row before the last join has nothing under its alias
      have hrest : ∀ b, b ≠ a → Function.update c a none b = c b := fun b hb => by simp [hb]
      refine ⟨Function.update c a none, ih.mpr ⟨⟨r, hr, ?_⟩, fun b hb => ?_, fun b hb => ?_⟩, ?_⟩
      · rw [hrest _ hne, hroot]
      · have hba : b ≠ a := fun he => hnew (List.mem_cons_of_mem _ (he ▸ hb))
        rw [hrest b hba, choices_congr (hrest _ (h.parent_ne hnew b hb))]
        exact hjoined b (by simp [hb])
      · by_cases hba : b = a
        · simp [hba]
        · rw [hrest b hba]
          refine hnone b ?_
          rw [← List.cons_append, List.mem_append]
          rintro (hmem | hmem)
          · exact hb hmem
          · exact hba (List.mem_singleton.mp hmem)
      · refine mem_extend.mpr ⟨?_, fun b hb => (hrest b hb).symm⟩
        rw [choices_congr (hrest _ hself)]
        exact hjoined a (by simp)

theorem nodup_rows (h : t.Grounded as) (htable : table.Nodup) : (t.rows table as).Nodup := by
  induction h with
  | nil =>
    apply List.Nodup.map _ htable
    intro r s hrs
    have happly := congrFun hrs t.root
    simpa [start] using happly
  | @snoc as a h hparent hnew ih =>
    rw [rows_snoc]
    refine List.nodup_flatMap.mpr ⟨fun c _ => ?_, ?_⟩
    · apply List.Nodup.map _ choices_nodup
      intro o o' ho
      simpa using congrFun ho a
    · refine ih.imp_of_mem fun {c c'} hc hc' hne => ?_
      rintro d hd hd'
      apply hne
      funext b
      by_cases hb : b = a
      · rw [hb, ((mem_rows h).mp hc).outside a hnew, ((mem_rows h).mp hc').outside a hnew]
      · rw [← (mem_extend.mp hd).2 b hb, (mem_extend.mp hd').2 b hb]

theorem rows_perm (ha : t.Grounded as) (hb : t.Grounded bs) (htable : table.Nodup)
    (h : ∀ a, a ∈ as ↔ a ∈ bs) : (t.rows table as).Perm (t.rows table bs) := by
  refine (List.perm_ext_iff_of_nodup (nodup_rows ha htable) (nodup_rows hb htable)).mpr fun c => ?_
  rw [mem_rows ha, mem_rows hb]
  constructor
  · rintro ⟨hroot, hjoined, hnone⟩
    exact ⟨hroot, fun a ha => hjoined a ((h a).mpr ha), fun a ha => hnone a (by simpa [h a] using ha)⟩
  · rintro ⟨hroot, hjoined, hnone⟩
    exact ⟨hroot, fun a ha => hjoined a ((h a).mp ha), fun a ha => hnone a (by simpa [h a] using ha)⟩

/-! ## More joins than a reader looks at -/

/-- The value of `f` is read under the aliases of the list. -/
def DependsOn (as : List A) (f : Combination A R → S) : Prop :=
  ∀ c c', (∀ a ∈ as, c a = c' a) → f c = f c'

theorem joinAll_cons (rows : List (Combination A R)) :
    t.joinAll (a :: as) rows = t.joinAll as (rows.flatMap (t.extend a)) := rfl

theorem mem_joinAll_singleton (h : c' ∈ t.joinAll as [c]) : ∀ a, a ∉ as → c' a = c a := by
  induction as generalizing c with
  | nil =>
    obtain rfl : c' = c := by simpa [joinAll] using h
    exact fun _ _ => rfl
  | cons b as ih =>
    rw [joinAll_cons, List.flatMap_singleton, joinAll_eq_flatMap, List.mem_flatMap] at h
    obtain ⟨d, hd, h⟩ := h
    intro a ha
    rw [ih h a fun hmem => ha (List.mem_cons_of_mem _ hmem)]
    exact (mem_extend.mp hd).2 a fun hab => ha (by simp [hab])

theorem joinAll_singleton_ne_nil : t.joinAll as [c] ≠ [] := by
  induction as generalizing c with
  | nil => simp [joinAll]
  | cons b as ih =>
    rw [joinAll_cons, List.flatMap_singleton, joinAll_eq_flatMap]
    obtain ⟨o, ho⟩ := List.exists_mem_of_ne_nil _ (choices_ne_nil (t := t) (a := b) (c := c))
    intro hnil
    exact ih (List.flatMap_eq_nil_iff.mp hnil _ (List.mem_map_of_mem ho))

theorem joinAll_eq_singleton (hone : ∀ a ∈ as, ∀ r, (t.related a r).length ≤ 1) :
    ∃ c', t.joinAll as [c] = [c'] := by
  induction as generalizing c with
  | nil => exact ⟨c, rfl⟩
  | cons b as ih =>
    obtain ⟨o, ho⟩ := choices_eq_singleton (c := c) (hone b (by simp))
    rw [joinAll_cons, List.flatMap_singleton, extend, ho]
    exact ih fun a ha => hone a (by simp [ha])

/-- Over joins that find one row at most, every row of the table has one combination. -/
theorem rows_toOne (h : t.Grounded as) (table : List R)
    (hone : ∀ a ∈ as, ∀ r, (t.related a r).length ≤ 1) :
    ∃ f : R → Combination A R, t.rows table as = table.map f ∧ ∀ r, f r t.root = some r := by
  choose f hf using fun r => joinAll_eq_singleton (c := t.start r) hone
  refine ⟨f, ?_, fun r => ?_⟩
  · rw [rows, joinAll_eq_flatMap, List.flatMap_map]
    simp only [hf]
    exact List.map_eq_flatMap.symm
  · have hmem : f r ∈ t.joinAll as [t.start r] := by
      rw [hf]
      exact List.mem_singleton.mpr rfl
    rw [mem_joinAll_singleton hmem t.root (List.nodup_cons.mp h.nodup).1]
    simp [start]

/-- The joins that a list of aliases lacks can be made after its own. -/
theorem Grounded.append_missing (ha : t.Grounded as) (hb : t.Grounded bs) :
    t.Grounded (as ++ bs.filter (· ∉ as)) := by
  induction hb with
  | nil => simpa using ha
  | @snoc bs b _ hparent hnew ih =>
    rw [List.filter_append]
    by_cases hmem : b ∈ as
    · simpa [hmem] using ih
    · have hlast : [b].filter (· ∉ as) = [b] := by simp [hmem]
      rw [hlast, ← List.append_assoc]
      refine .snoc ih ?_ ?_
      · by_cases hp : t.parent b ∈ as <;> simp_all
      · simp_all

variable {P : Combination A R → Bool} {v : Combination A R → S}

theorem flatMap_filter {l : List B} {p : B → Bool} {g : B → List S} :
    (l.filter p).flatMap g = l.flatMap fun b => if p b then g b else [] := by
  induction l with
  | nil => rfl
  | cons b l ih => cases hb : p b <;> simp [hb, ih]

/-- Joins that nobody looks at repeat rows, once where each finds one row at most. -/
theorem rows_append_view (extra : List A) (hP : DependsOn (t.root :: as) P)
    (hv : DependsOn (t.root :: as) v) (hextra : ∀ a ∈ t.root :: as, a ∉ extra) :
    ((t.rows table (as ++ extra)).filter P).map v =
      ((t.rows table as).filter P).flatMap fun c =>
        List.replicate (t.joinAll extra [c]).length (v c) := by
  rw [rows_append, joinAll_eq_flatMap, List.filter_flatMap, List.map_flatMap, flatMap_filter]
  apply List.flatMap_congr
  intro c _
  have hsame : ∀ c' ∈ t.joinAll extra [c], P c' = P c ∧ v c' = v c := fun c' hc' =>
    have hagree := mem_joinAll_singleton hc'
    ⟨hP _ _ fun a ha => hagree a (hextra a ha), hv _ _ fun a ha => hagree a (hextra a ha)⟩
  by_cases hc : P c = true
  · rw [if_pos hc, List.filter_eq_self.mpr fun c' hc' => (hsame c' hc').1.trans hc]
    refine List.eq_replicate_iff.mpr ⟨by simp, fun x hx => ?_⟩
    obtain ⟨c', hc', rfl⟩ := List.mem_map.mp hx
    exact (hsame c' hc').2
  · rw [if_neg hc, List.filter_eq_nil_iff.mpr fun c' hc' => by rw [(hsame c' hc').1]; exact hc]
    rfl

theorem rows_missing_perm (ha : t.Grounded as) (hb : t.Grounded bs) (htable : table.Nodup)
    (hsub : as ⊆ bs) :
    (t.rows table bs).Perm (t.rows table (as ++ bs.filter (· ∉ as))) := by
  refine rows_perm hb (ha.append_missing hb) htable fun a => ?_
  by_cases hmem : a ∈ as
  · simp [hmem, hsub hmem]
  · simp [hmem]

theorem not_mem_missing (hb : t.Grounded bs) :
    ∀ a ∈ t.root :: as, a ∉ bs.filter (· ∉ as) := by
  intro a ha hmem
  obtain ⟨hbs, has⟩ := List.mem_filter.mp hmem
  rcases List.mem_cons.mp ha with rfl | ha
  · exact (List.nodup_cons.mp hb.nodup).1 hbs
  · simp [ha] at has

/-- Further joins that find one row at most leave what is read under the first ones as it is. -/
theorem rows_view_perm (ha : t.Grounded as) (hb : t.Grounded bs) (htable : table.Nodup)
    (hsub : as ⊆ bs) (hone : ∀ a ∈ bs, a ∉ as → ∀ r, (t.related a r).length ≤ 1)
    (hP : DependsOn (t.root :: as) P) (hv : DependsOn (t.root :: as) v) :
    (((t.rows table bs).filter P).map v).Perm (((t.rows table as).filter P).map v) := by
  refine (((rows_missing_perm ha hb htable hsub).filter P).map v).trans ?_
  rw [rows_append_view _ hP hv (not_mem_missing hb)]
  have hmissing : ∀ a ∈ bs.filter (· ∉ as), ∀ r, (t.related a r).length ≤ 1 := fun a ha =>
    hone a (List.mem_filter.mp ha).1 (by simpa using (List.mem_filter.mp ha).2)
  refine .of_eq ?_
  rw [← List.flatMap_pure_eq_map]
  apply List.flatMap_congr
  intro c _
  obtain ⟨c', hc'⟩ := joinAll_eq_singleton (c := c) hmissing
  rw [hc']
  rfl

/-- Further joins never change which values are read under the first ones. -/
theorem mem_rows_view (ha : t.Grounded as) (hb : t.Grounded bs) (htable : table.Nodup)
    (hsub : as ⊆ bs) (hP : DependsOn (t.root :: as) P) (hv : DependsOn (t.root :: as) v) {x : S} :
    x ∈ ((t.rows table bs).filter P).map v ↔ x ∈ ((t.rows table as).filter P).map v := by
  rw [(((rows_missing_perm ha hb htable hsub).filter P).map v).mem_iff,
    rows_append_view _ hP hv (not_mem_missing hb), List.mem_flatMap, List.mem_map]
  constructor
  · rintro ⟨c, hc, hx⟩
    exact ⟨c, hc, (List.eq_of_mem_replicate hx).symm⟩
  · rintro ⟨c, hc, rfl⟩
    exact ⟨c, hc, List.mem_replicate.mpr ⟨by simp [joinAll_singleton_ne_nil], rfl⟩⟩

end Lemmas

/-! ## The same joins under other names -/

section Renaming

variable [DecidableEq A] [DecidableEq B]

/-- `f` gives the aliases of one tree the names of another. -/
structure Renames (f : A → B) (t : JoinTree A R) (u : JoinTree B R) : Prop where
  injective : Function.Injective f
  root : u.root = f t.root
  parent : ∀ a, u.parent (f a) = f (t.parent a)
  related : ∀ a, u.related (f a) = t.related a

variable {f : A → B} {t : JoinTree A R} {u : JoinTree B R}

theorem Renames.extend (h : Renames f t u) (a : A) (c : Combination B R) :
    (u.extend (f a) c).map (· ∘ f) = t.extend a (c ∘ f) := by
  have hchoices : u.choices (f a) c = t.choices a (c ∘ f) := by
    unfold choices
    rw [h.parent, h.related]
    rfl
  unfold JoinTree.extend
  rw [hchoices, List.map_map]
  apply List.map_congr_left
  intro o _
  exact Function.update_comp_eq_of_injective c h.injective a o

theorem Renames.joinAll (h : Renames f t u) (as : List A) (rows : List (Combination B R)) :
    (u.joinAll (as.map f) rows).map (· ∘ f) = t.joinAll as (rows.map (· ∘ f)) := by
  induction as generalizing rows with
  | nil => rfl
  | cons a as ih =>
    rw [List.map_cons, joinAll_cons, ih, joinAll_cons, List.map_flatMap, List.flatMap_map]
    congr 1
    apply List.flatMap_congr
    intro c _
    exact h.extend a c

theorem Renames.rows (h : Renames f t u) (table : List R) (as : List A) :
    (u.rows table (as.map f)).map (· ∘ f) = t.rows table as := by
  unfold JoinTree.rows
  rw [h.joinAll, List.map_map]
  congr 1
  apply List.map_congr_left
  intro r _
  unfold start
  rw [Function.comp_apply, h.root, Function.update_comp_eq_of_injective _ h.injective]
  rfl

end Renaming

end JoinTree

end AskLens.LeftJoin
