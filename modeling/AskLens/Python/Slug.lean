import AskLens.Python.Text
import Mathlib.Data.List.DropRight

/-!
# Stripping and slugs

Both are idempotent: a stripped text has nothing left to strip, and a slug,
also with underscores for its hyphens, is its own slug up to that replacement.
-/
namespace AskLens.Python

variable {α β : Type}

theorem stripBy_eq (p : α → Bool) (cs : List α) :
    stripBy p cs = (cs.dropWhile p).rdropWhile p := rfl

theorem mem_of_mem_stripBy {p : α → Bool} {cs : List α} {c : α}
    (h : c ∈ stripBy p cs) : c ∈ cs := by
  rw [stripBy_eq] at h
  exact (List.dropWhile_sublist p).subset ((List.rdropWhile_prefix p _).subset h)

/-- Nothing is dropped on the left once both ends were stripped. -/
theorem dropWhile_stripBy (p : α → Bool) (cs : List α) :
    (stripBy p cs).dropWhile p = stripBy p cs := by
  rw [stripBy_eq, List.dropWhile_eq_self_iff]
  intro hl
  have hprefix := List.rdropWhile_prefix p (cs.dropWhile p)
  have hlen : 0 < (cs.dropWhile p).length := lt_of_lt_of_le hl hprefix.length_le
  have hhead := List.dropWhile_get_zero_not p cs hlen
  have hget := hprefix.getElem hl
  simp only [List.get_eq_getElem] at hhead ⊢
  rw [hget]
  exact hhead

theorem stripBy_stripBy (p : α → Bool) (cs : List α) :
    stripBy p (stripBy p cs) = stripBy p cs := by
  rw [stripBy_eq, dropWhile_stripBy, stripBy_eq, List.rdropWhile_idempotent]

theorem stripBy_map {p : α → Bool} {q : β → Bool} {f : α → β} (hf : ∀ c, q (f c) = p c)
    (cs : List α) : stripBy q (cs.map f) = (stripBy p cs).map f := by
  have hcomp : q ∘ f = p := funext hf
  simp only [stripBy, List.dropWhile_map, ← List.map_reverse, hcomp]

theorem stripBy_eq_self {p : α → Bool} {cs : List α} (h : ∀ c ∈ cs, p c = false) :
    stripBy p cs = cs := by
  have hdrop : ∀ l : List α, (∀ c ∈ l, p c = false) → l.dropWhile p = l := by
    intro l hl
    cases l with
    | nil => rfl
    | cons c l => rw [List.dropWhile_cons, hl c (by simp), if_neg (by simp)]
  rw [stripBy, hdrop cs h, hdrop cs.reverse (by simpa using h), List.reverse_reverse]

theorem mem_stripBy {p : α → Bool} {cs : List α} {c : α} (h : c ∈ cs) (hc : p c = false) :
    c ∈ stripBy p cs := by
  have hdrop : ∀ l : List α, c ∈ l → c ∈ l.dropWhile p := by
    intro l hl
    induction l with
    | nil => exact hl
    | cons d rest ih =>
      rw [List.dropWhile_cons]
      split_ifs with hd
      · rcases List.mem_cons.mp hl with rfl | hl
        · rw [hc] at hd
          cases hd
        · exact ih hl
      · exact hl
  rw [stripBy, List.mem_reverse]
  apply hdrop
  rw [List.mem_reverse]
  exact hdrop cs h

theorem strip_strip (s : String) : strip (strip s) = strip s := by
  simp [strip, stripBy_stripBy]

/-! ## Slugs -/

/-- A statement about ASCII characters is a statement about 128 code points. -/
theorem ascii_forall {P : Char → Prop} (h : ∀ n : Fin 128, P (Char.ofNat n)) {c : Char}
    (hc : c.toNat < 128) : P c := by
  have := h ⟨c.toNat, hc⟩
  rwa [Char.ofNat_toNat] at this

structure IsSlugChar (c : Char) : Prop where
  ascii : c.toNat < 128
  lower : c.toLower = c
  word : isWordChar c = true
  not_separator : isSlugSeparator c = false

instance (c : Char) : Decidable (IsSlugChar c) :=
  decidable_of_iff (c.toNat < 128 ∧ c.toLower = c ∧ isWordChar c = true ∧
      isSlugSeparator c = false)
    ⟨fun h => ⟨h.1, h.2.1, h.2.2.1, h.2.2.2⟩, fun h => ⟨h.1, h.2, h.3, h.4⟩⟩

theorem isSlugChar_underscore : IsSlugChar '_' := by decide

theorem isSlugChar_toLower {c : Char} (hc : c.toNat < 128)
    (hkept : (isWordChar c.toLower || isSlugSeparator c.toLower) = true)
    (hseparator : isSlugSeparator c.toLower = false) : IsSlugChar c.toLower := by
  revert hkept hseparator
  exact ascii_forall (P := fun c =>
    (isWordChar c.toLower || isSlugSeparator c.toLower) = true →
      isSlugSeparator c.toLower = false → IsSlugChar c.toLower) (by decide +kernel) hc

theorem mem_collapseSeparators {cs : List Char} {c : Char} {inRun : Bool}
    (h : c ∈ collapseSeparators inRun cs) : c = '-' ∨ (c ∈ cs ∧ isSlugSeparator c = false) := by
  induction cs generalizing inRun with
  | nil => simp [collapseSeparators] at h
  | cons d cs ih =>
    simp only [collapseSeparators] at h
    split_ifs at h with hd hrun
    · exact (ih h).imp_right fun h => ⟨by simp [h.1], h.2⟩
    · rcases List.mem_cons.mp h with rfl | h
      · exact .inl rfl
      · exact (ih h).imp_right fun h => ⟨by simp [h.1], h.2⟩
    · rcases List.mem_cons.mp h with rfl | h
      · exact .inr ⟨by simp, by simpa using hd⟩
      · exact (ih h).imp_right fun h => ⟨by simp [h.1], h.2⟩

theorem collapseSeparators_eq_self {cs : List Char} (h : ∀ c ∈ cs, isSlugSeparator c = false)
    (inRun : Bool) : collapseSeparators inRun cs = cs := by
  induction cs generalizing inRun with
  | nil => rfl
  | cons c cs ih =>
    rw [collapseSeparators, if_neg (by simp [h c (by simp)]), ih fun d hd => h d (by simp [hd])]

theorem mem_slugify {unicode : Unicode} {value : List Char} {c : Char}
    (h : c ∈ slugify unicode value) : c = '-' ∨ IsSlugChar c := by
  rcases mem_collapseSeparators (mem_of_mem_stripBy h) with rfl | ⟨hmem, hseparator⟩
  · exact .inl rfl
  · obtain ⟨hmap, hkept⟩ := List.mem_filter.mp hmem
    obtain ⟨d, hd, rfl⟩ := List.mem_map.mp hmap
    have hascii : d.toNat < 128 := by simpa using (List.mem_filter.mp hd).2
    exact .inr (isSlugChar_toLower hascii hkept hseparator)

/-- `slugify(value).replace("-", "_")`. -/
def slugName (unicode : Unicode) (value : List Char) : List Char :=
  (slugify unicode value).map fun c => if c = '-' then '_' else c

theorem isSlugChar_of_mem_slugName {unicode : Unicode} {value : List Char} {c : Char}
    (h : c ∈ slugName unicode value) : IsSlugChar c := by
  obtain ⟨d, hd, rfl⟩ := List.mem_map.mp h
  rcases mem_slugify hd with rfl | hslug
  · exact isSlugChar_underscore
  · have hne : d ≠ '-' := by
      rintro rfl
      exact absurd hslug.not_separator (by decide)
    rwa [if_neg hne]

theorem underscore_stripped (c : Char) :
    ((if c = '-' then '_' else c) == '-' || (if c = '-' then '_' else c) == '_') =
      (c == '-' || c == '_') := by
  split_ifs with h
  · simp [h]
  · rfl

theorem slugName_slugName (unicode : Unicode) (value : List Char) :
    slugName unicode (slugName unicode value) = slugName unicode value := by
  have hchars : ∀ c ∈ slugName unicode value, IsSlugChar c :=
    fun c hc => isSlugChar_of_mem_slugName hc
  have hascii : (unicode.nfkd (slugName unicode value)).filter (fun c => c.toNat < 128)
      = slugName unicode value := by
    rw [unicode.nfkd_ascii _ fun c hc => (hchars c hc).ascii, List.filter_eq_self]
    intro c hc
    simpa using (hchars c hc).ascii
  have hlower : (slugName unicode value).map Char.toLower = slugName unicode value :=
    (List.map_congr_left fun c hc => (hchars c hc).lower).trans (List.map_id' _)
  have hkept : (slugName unicode value).filter (fun c => isWordChar c || isSlugSeparator c)
      = slugName unicode value := by
    rw [List.filter_eq_self]
    intro c hc
    simp [(hchars c hc).word]
  have hcollapse := collapseSeparators_eq_self (fun c hc => (hchars c hc).not_separator) false
  have hstrip : stripBy (fun c => c == '-' || c == '_') (slugName unicode value)
      = slugName unicode value := by
    unfold slugName slugify
    rw [stripBy_map underscore_stripped, stripBy_stripBy]
  have hhyphen : (slugName unicode value).map (fun c => if c = '-' then '_' else c)
      = slugName unicode value := by
    refine (List.map_congr_left fun c hc => ?_).trans (List.map_id' _)
    have hne : c ≠ '-' := by
      rintro rfl
      exact absurd (hchars _ hc).not_separator (by decide)
    exact if_neg hne
  calc slugName unicode (slugName unicode value)
      = (slugify unicode (slugName unicode value)).map (fun c => if c = '-' then '_' else c) := rfl
    _ = (slugName unicode value).map (fun c => if c = '-' then '_' else c) := by
        rw [slugify, hascii, hlower, hkept, hcollapse, hstrip]
    _ = slugName unicode value := hhyphen

/-! ## Empty slugs -/

theorem stripBy_eq_nil_iff {p : Char → Bool} {cs : List Char} :
    stripBy p cs = [] ↔ ∀ c ∈ cs, p c = true := by
  rw [stripBy_eq, List.rdropWhile_eq_nil_iff]
  constructor
  · intro h
    apply List.dropWhile_eq_nil_iff.mp
    by_contra hne
    have hlen : 0 < (cs.dropWhile p).length := List.length_pos_iff.mpr hne
    exact List.dropWhile_get_zero_not p cs hlen (h _ (List.get_mem _ _))
  · intro h c hc
    exact h c ((List.dropWhile_sublist p).subset hc)

theorem collapseSeparators_forall {p : Char → Bool} (hp : p '-' = true) {cs : List Char}
    {inRun : Bool} : (∀ c ∈ collapseSeparators inRun cs, p c = true) ↔
      ∀ c ∈ cs, isSlugSeparator c = false → p c = true := by
  induction cs generalizing inRun with
  | nil => simp [collapseSeparators]
  | cons c cs ih =>
    simp only [collapseSeparators]
    split_ifs with hc hrun
    · simp [ih, hc]
    · simp [ih, hc, hp]
    · simp [ih, hc]

theorem isAlphanum_iff_kept {c : Char} (hc : c.toNat < 128) :
    c.isAlphanum = false ↔
      ((isWordChar c.toLower || isSlugSeparator c.toLower) = true →
        isSlugSeparator c.toLower = false → (c.toLower == '-' || c.toLower == '_') = true) :=
  ascii_forall (P := fun c => c.isAlphanum = false ↔
      ((isWordChar c.toLower || isSlugSeparator c.toLower) = true →
        isSlugSeparator c.toLower = false → (c.toLower == '-' || c.toLower == '_') = true))
    (by decide +kernel) hc

/-- A name slugs to nothing when its decomposition has no ASCII letter and no ASCII digit. -/
theorem slugName_eq_nil_iff {unicode : Unicode} {value : List Char} :
    slugName unicode value = [] ↔
      ∀ c ∈ unicode.nfkd value, c.toNat < 128 → c.isAlphanum = false := by
  rw [slugName, List.map_eq_nil_iff, slugify, stripBy_eq_nil_iff,
    collapseSeparators_forall (p := fun c => c == '-' || c == '_') (by decide)]
  constructor
  · intro h c hc hascii
    apply (isAlphanum_iff_kept hascii).mpr
    intro hkept
    apply h
    apply List.mem_filter.mpr
    exact ⟨List.mem_map_of_mem (List.mem_filter.mpr ⟨hc, by simpa using hascii⟩), hkept⟩
  · intro h d hd
    obtain ⟨hd, hkept⟩ := List.mem_filter.mp hd
    obtain ⟨c, hc, rfl⟩ := List.mem_map.mp hd
    obtain ⟨hmem, hascii⟩ := List.mem_filter.mp hc
    have hascii : c.toNat < 128 := by simpa using hascii
    exact (isAlphanum_iff_kept hascii).mp (h c hmem hascii) hkept

end AskLens.Python
