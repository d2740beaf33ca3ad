import AskLens.Python.Text
import Mathlib.Algebra.BigOperators.Group.List.Basic

/-!
# Encoded lengths

Strict decoding refuses overlong forms and surrogates, so the text that bytes
decode to is encoded in as many bytes again.
-/
namespace AskLens.Python

def isSurrogate (c : CodePoint) : Bool := isHighSurrogate c || isLowSurrogate c

theorem isSurrogate_eq_false {c : ℕ} (h : c < 0xD800 ∨ 0xDFFF < c) : isSurrogate c = false := by
  rcases h with h | h
  · have hhigh : ¬ 0xD800 ≤ c := by omega
    have hlow : ¬ 0xDC00 ≤ c := by omega
    simp [isSurrogate, isHighSurrogate, isLowSurrogate, hhigh, hlow]
  · have hhigh : ¬ c ≤ 0xDBFF := by omega
    have hlow : ¬ c ≤ 0xDFFF := by omega
    simp [isSurrogate, isHighSurrogate, isLowSurrogate, hhigh, hlow]

theorem encodedLength_cons {c : CodePoint} {t : PyText} {n : ℕ} (hc : isSurrogate c = false)
    (h : t.encodedLength = some n) : PyText.encodedLength (c :: t) = some (utf8Width c + n) := by
  unfold PyText.encodedLength at h ⊢
  have hcons : (c :: t).any (fun c => isHighSurrogate c || isLowSurrogate c) =
      t.any fun c => isHighSurrogate c || isLowSurrogate c := by
    rw [List.any_cons]
    simp only [isSurrogate] at hc
    rw [hc, Bool.false_or]
  rw [hcons]
  split_ifs at h ⊢
  obtain rfl := Option.some.inj h
  rw [List.map_cons, List.sum_cons]

theorem encodedLength_decoded {c : ℕ} {bytes : Option PyText} {t : PyText} {k n : ℕ}
    (ih : ∀ {t}, bytes = some t → t.encodedLength = some n) (hc : c < 0xD800 ∨ 0xDFFF < c)
    (hwidth : utf8Width c = k) (h : bytes.map (c :: ·) = some t) :
    t.encodedLength = some (k + n) := by
  obtain ⟨tail, htail, rfl⟩ := Option.map_eq_some_iff.mp h
  rw [encodedLength_cons (isSurrogate_eq_false hc) (ih htail), hwidth]

theorem continuation_lt {b : UInt8} (h : ¬ (!isContinuation b) = true) : b.toNat - 0x80 < 64 := by
  simp only [isContinuation, Bool.not_eq_true, Bool.not_eq_false', Bool.and_eq_true,
    decide_eq_true_eq] at h
  omega

theorem utf8Width_one {c : ℕ} (h : c < 0x80) : utf8Width c = 1 := if_pos h

theorem utf8Width_two {c : ℕ} (hmin : 0x80 ≤ c) (h : c < 0x800) : utf8Width c = 2 := by
  have h1 : ¬ c < 0x80 := by omega
  simp only [utf8Width, h1, h, if_true, if_false]

theorem utf8Width_three {c : ℕ} (hmin : 0x800 ≤ c) (h : c < 0x10000) : utf8Width c = 3 := by
  have h1 : ¬ c < 0x80 := by omega
  have h2 : ¬ c < 0x800 := by omega
  simp only [utf8Width, h1, h2, h, if_true, if_false]

theorem utf8Width_four {c : ℕ} (hmin : 0x10000 ≤ c) : utf8Width c = 4 := by
  have h1 : ¬ c < 0x80 := by omega
  have h2 : ¬ c < 0x800 := by omega
  have h3 : ¬ c < 0x10000 := by omega
  simp only [utf8Width, h1, h2, h3, if_false]

/-- The cases that decode are those of one, two, three and four bytes. -/
theorem encodedLength_decodeUtf8 {b : List UInt8} {t : PyText} (h : decodeUtf8 b = some t) :
    t.encodedLength = some b.length := by
  fun_induction decodeUtf8 b generalizing t
  case case1 =>
    obtain rfl := Option.some.inj h
    rfl
  case case2 first rest n hn ih =>
    rw [encodedLength_decoded ih (by omega) (utf8Width_one hn) h, List.length_cons, Nat.add_comm]
  case case5 first n hn b1 rest hb1 n1 htwo ih =>
    have hn1 := continuation_lt hb1
    rw [encodedLength_decoded ih (by omega) (utf8Width_two (by omega) (by omega)) h,
      List.length_cons, List.length_cons, Nat.add_comm]
  case case9 first n hn b1 hb1 n1 hno b2 rest hb2 n2 c hthree hc ih =>
    have hn1 := continuation_lt hb1
    have hn2 := continuation_lt hb2
    rw [encodedLength_decoded ih (by omega) (utf8Width_three (by omega) (by omega)) h,
      List.length_cons, List.length_cons, List.length_cons, Nat.add_comm]
  case case12 first n hn b1 hb1 n1 hno b2 hb2 n2 hno' b3 rest hb3 c hfour ih =>
    rw [encodedLength_decoded ih (by omega) (utf8Width_four hfour.2.1) h, List.length_cons,
      List.length_cons, List.length_cons, List.length_cons, Nat.add_comm]
  all_goals cases h

end AskLens.Python
