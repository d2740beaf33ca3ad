import AskLens.Python.Json
import AskLens.Python.Slug

/-!
# Python strings

The strings of a plan. JSON can carry a lone surrogate, which no `String` holds;
a string with one is kept as its code points, and is equal to no other.
-/
namespace AskLens.Python

theorem toNat_ofNat {n : ℕ} (h : n.isValidChar) : (Char.ofNat n).toNat = n := by
  rw [Char.ofNat, dif_pos h]
  rfl

theorem toString?_eq_none_iff {t : PyText} :
    t.toString? = none ↔ ∃ c ∈ t, ¬ c.isValidChar := by
  simp [PyText.toString?]

theorem toString?_eq_some {t : PyText} {s : String} :
    t.toString? = some s ↔ t = PyText.ofString s := by
  unfold PyText.toString? PyText.ofString
  constructor
  · intro h
    split_ifs at h with hvalid
    rw [List.all_eq_true] at hvalid
    rw [← Option.some.inj h, String.toList_ofList, List.map_map]
    have hround : ∀ c ∈ t, id c = (Char.toNat ∘ Char.ofNat) c := by
      intro c hc
      exact (toNat_ofNat (of_decide_eq_true (hvalid c hc))).symm
    rw [← List.map_congr_left hround, List.map_id]
  · rintro rfl
    have hvalid : (s.toList.map Char.toNat).all (fun c => decide c.isValidChar) = true := by
      rw [List.all_map, List.all_eq_true]
      exact fun c _ => decide_eq_true c.valid
    rw [if_pos hvalid, List.map_map, Option.some.injEq, ← String.toList_inj, String.toList_ofList]
    exact List.map_id'' (fun c => Char.ofNat_toNat c) _

inductive PyStr where
  | text (s : String)
  | surrogates (t : PyText) (lone : t.toString? = none)
deriving DecidableEq

instance : Coe String PyStr := ⟨.text⟩

/-- The character that stands for a code point on display. -/
def shownChar (c : CodePoint) : Char := if c.isValidChar then Char.ofNat c else '\uFFFD'

theorem isSpaceCode_of_lone {c : ℕ} (hc : ¬ c.isValidChar) : isSpaceCode c = false := by
  have hrange : 0x3000 < c := by
    simp only [Nat.isValidChar] at hc
    omega
  simp only [isSpaceCode, Bool.or_eq_false_iff, Bool.and_eq_false_iff, decide_eq_false_iff_not,
    beq_eq_false_iff_ne]
  omega

theorem isSpace_shownChar (c : CodePoint) : isSpace (shownChar c) = isSpaceCode c := by
  unfold shownChar isSpace
  split_ifs with hc
  · rw [toNat_ofNat hc]
  · rw [isSpaceCode_of_lone hc]
    decide

theorem toString?_stripBy {t : PyText} (h : t.toString? = none) :
    PyText.toString? (stripBy isSpaceCode t) = none := by
  obtain ⟨c, hc, hlone⟩ := toString?_eq_none_iff.mp h
  exact toString?_eq_none_iff.mpr ⟨c, mem_stripBy hc (isSpaceCode_of_lone hlone), hlone⟩

/-- One code point inside a `repr`. -/
def reprCode (quote : Char) (c : CodePoint) : List Char :=
  if c.isValidChar then reprChar quote (Char.ofNat c)
  else ['\\', 'u', hexDigit (c / 4096), hexDigit (c / 256 % 16), hexDigit (c / 16 % 16),
    hexDigit (c % 16)]

namespace PyStr

def ofText (t : PyText) : PyStr :=
  match h : t.toString? with
  | some s => .text s
  | none => .surrogates t h

/-- `none` for a string with a lone surrogate. -/
def text? : PyStr → Option String
  | .text s => some s
  | .surrogates _ _ => none

/-- The string on display, with U+FFFD for a lone surrogate. -/
def shown : PyStr → String
  | .text s => s
  | .surrogates t _ => String.ofList (t.map shownChar)

/-- `repr(text)`. -/
def repr : PyStr → String
  | .text s => pyRepr s
  | .surrogates t _ =>
    let quote := if t.contains 0x27 && !t.contains 0x22 then '"' else '\''
    String.ofList (quote :: (t.flatMap (reprCode quote) ++ [quote]))

/-- `str.strip()`. -/
def strip : PyStr → PyStr
  | .text s => .text (Python.strip s)
  | .surrogates t lone => .surrogates (stripBy isSpaceCode t) (toString?_stripBy lone)

def toObj (cls : PyClass) : PyStr → PyObj
  | .text s => .str cls s
  | .surrogates t _ => .surrogates t

@[simp] theorem shown_text (s : String) : (text s).shown = s := rfl

@[simp] theorem repr_text (s : String) : (text s).repr = pyRepr s := rfl

@[simp] theorem text?_text (s : String) : (text s).text? = some s := rfl

@[simp] theorem strip_text (s : String) : (text s).strip = .text (Python.strip s) := rfl

@[simp] theorem toObj_text (cls : PyClass) (s : String) : (text s).toObj cls = .str cls s := rfl

/-- There is no lone surrogate. -/
def IsText (v : PyStr) : Prop := v = .text v.shown

@[simp] theorem isText_text (s : String) : (text s).IsText := rfl

theorem IsText.eq {v : PyStr} (h : v.IsText) : v = .text v.shown := h

theorem strip_strip (v : PyStr) : v.strip.strip = v.strip := by
  cases v with
  | text s => simp [strip, Python.strip_strip]
  | surrogates t lone => simp [strip, stripBy_stripBy]

theorem shown_strip (v : PyStr) : v.strip.shown = Python.strip v.shown := by
  cases v with
  | text s => rfl
  | surrogates t lone =>
    rw [strip, shown, shown, Python.strip, String.toList_ofList, stripBy_map isSpace_shownChar]

theorem shown_ne_empty {v : PyStr} (h : v ≠ .text "") : v.shown ≠ "" := by
  cases v with
  | text s => simpa using h
  | surrogates t lone =>
    intro hshown
    obtain ⟨c, hc, -⟩ := toString?_eq_none_iff.mp lone
    have hnil : t.map shownChar = [] := by simpa [shown] using congrArg String.toList hshown
    simp [List.map_eq_nil_iff.mp hnil] at hc

theorem ofText_of_lone {t : PyText} (lone : t.toString? = none) : ofText t = .surrogates t lone := by
  unfold ofText
  split
  · rename_i s hs
    rw [lone] at hs
    cases hs
  · rfl

theorem ofText_of_toString? {t : PyText} {s : String} (h : t.toString? = some s) :
    ofText t = .text s := by
  unfold ofText
  split
  · rename_i s' hs
    rw [h] at hs
    rw [Option.some.inj hs]
  · rename_i hs
    rw [h] at hs
    cases hs

@[simp] theorem ofText_ofString (s : String) : ofText (PyText.ofString s) = .text s :=
  ofText_of_toString? (toString?_eq_some.mpr rfl)

theorem toObj_ofText (t : PyText) : (ofText t).toObj none = PyObj.ofText t := by
  unfold PyObj.ofText
  cases h : t.toString? with
  | none => rw [ofText_of_lone h, toObj]
  | some s => rw [ofText_of_toString? h, toObj]

end PyStr

end AskLens.Python
