import Mathlib.Algebra.GroupWithZero.Nat
import Mathlib.Data.List.Basic
import Mathlib.Data.Char

/-!
# Python text

A Python `str` is a sequence of code points and may hold lone surrogates, so a
payload text is a `PyText`. Every text that has passed the registration is an
ordinary `String`.
-/
namespace AskLens.Python

abbrev CodePoint := ℕ

abbrev PyText := List CodePoint

def PyText.ofString (s : String) : PyText := s.toList.map Char.toNat

def isHighSurrogate (c : CodePoint) : Bool := 0xD800 ≤ c && c ≤ 0xDBFF

def isLowSurrogate (c : CodePoint) : Bool := 0xDC00 ≤ c && c ≤ 0xDFFF

/-- `none` for a text with a lone surrogate. -/
def PyText.toString? (t : PyText) : Option String :=
  if t.all (fun c => decide c.isValidChar) then some (String.ofList (t.map Char.ofNat)) else none

/-- The number of UTF-8 bytes of one code point. -/
def utf8Width (c : CodePoint) : ℕ :=
  if c < 0x80 then 1 else if c < 0x800 then 2 else if c < 0x10000 then 3 else 4

/-- `len(text.encode("utf-8"))`, where `none` is the `UnicodeEncodeError` of a lone surrogate. -/
def PyText.encodedLength (t : PyText) : Option ℕ :=
  if t.any (fun c => isHighSurrogate c || isLowSurrogate c) then none
  else some (t.map utf8Width).sum

def isContinuation (b : UInt8) : Bool := 0x80 ≤ b.toNat && b.toNat < 0xC0

/-- `bytes.decode("utf-8")` in strict mode: overlong forms and surrogates are refused. -/
def decodeUtf8 : List UInt8 → Option PyText
  | [] => some []
  | b :: rest =>
    let n := b.toNat
    if n < 0x80 then (decodeUtf8 rest).map (n :: ·)
    else match rest with
      | [] => none
      | b1 :: rest =>
        if !isContinuation b1 then none
        else
          let n1 := b1.toNat - 0x80
          if 0xC2 ≤ n ∧ n < 0xE0 then
            (decodeUtf8 rest).map (((n - 0xC0) * 64 + n1) :: ·)
          else match rest with
            | [] => none
            | b2 :: rest =>
              if !isContinuation b2 then none
              else
                let n2 := b2.toNat - 0x80
                let c3 := (n - 0xE0) * 4096 + n1 * 64 + n2
                if 0xE0 ≤ n ∧ n < 0xF0 then
                  if c3 < 0x800 ∨ (0xD800 ≤ c3 ∧ c3 ≤ 0xDFFF) then none
                  else (decodeUtf8 rest).map (c3 :: ·)
                else match rest with
                  | [] => none
                  | b3 :: rest =>
                    if !isContinuation b3 then none
                    else
                      let c4 := (n - 0xF0) * 262144 + n1 * 4096 + n2 * 64 + (b3.toNat - 0x80)
                      if 0xF0 ≤ n ∧ 0x10000 ≤ c4 ∧ c4 < 0x110000 then
                        (decodeUtf8 rest).map (c4 :: ·)
                      else none

/-- `str.isspace` on one code point. -/
def isSpaceCode (n : ℕ) : Bool :=
  (0x09 ≤ n && n ≤ 0x0D) || (0x1C ≤ n && n ≤ 0x20) || n == 0x85 || n == 0xA0 || n == 0x1680 ||
    (0x2000 ≤ n && n ≤ 0x200A) || n == 0x2028 || n == 0x2029 || n == 0x202F || n == 0x205F ||
    n == 0x3000

def isSpace (c : Char) : Bool := isSpaceCode c.toNat

/-- Drop the characters satisfying `p` from both ends. -/
def stripBy (p : α → Bool) (cs : List α) : List α :=
  ((cs.dropWhile p).reverse.dropWhile p).reverse

/-- `str.strip()`. -/
def strip (s : String) : String := String.ofList (stripBy isSpace s.toList)

/-- `text.split(sep)` for a separator of one character. -/
def splitChar (sep : Char) : List Char → List Char → List (List Char)
  | [], acc => [acc.reverse]
  | c :: cs, acc =>
    if c = sep then acc.reverse :: splitChar sep cs [] else splitChar sep cs (c :: acc)

/-- `text.split("__")`, scanning from the left. -/
def splitDunderChars : List Char → List Char → List (List Char)
  | [], acc => [acc.reverse]
  | '_' :: '_' :: cs, acc => acc.reverse :: splitDunderChars cs []
  | c :: cs, acc => splitDunderChars cs (c :: acc)

def splitDunder (s : String) : List String :=
  (splitDunderChars s.toList []).map String.ofList

def splitDot (s : String) : List String := (splitChar '.' s.toList []).map String.ofList

/-- `"__" in text`. -/
def containsDunder (s : String) : Bool := 1 < (splitDunder s).length

def startsWith (s pre : String) : Bool := pre.toList.isPrefixOf s.toList

def endsWith (s suffix : String) : Bool := suffix.toList.isSuffixOf s.toList

/-- `text.replace(old, "")` for a nonempty `old`. -/
def removeAll (old : List Char) : List Char → ℕ → List Char
  | [], _ => []
  | _ :: cs, skip + 1 => removeAll old cs skip
  | c :: cs, 0 =>
    if old.isPrefixOf (c :: cs) then removeAll old cs (old.length - 1)
    else c :: removeAll old cs 0

def hexDigit (n : ℕ) : Char := if n < 10 then Char.ofNat (48 + n) else Char.ofNat (87 + n)

/-- One character inside a `repr`; characters beyond ASCII are taken to be printable. -/
def reprChar (quote c : Char) : List Char :=
  if c = '\\' ∨ c = quote then ['\\', c]
  else if c = '\n' then ['\\', 'n']
  else if c = '\r' then ['\\', 'r']
  else if c = '\t' then ['\\', 't']
  else if c.toNat < 0x20 ∨ c.toNat = 0x7F then
    ['\\', 'x', hexDigit (c.toNat / 16), hexDigit (c.toNat % 16)]
  else [c]

/-- `repr(text)`, as the `!r` conversions of the diagnostics use it. -/
def pyRepr (s : String) : String :=
  let quote := if s.toList.contains '\'' && !s.toList.contains '"' then '"' else '\''
  String.ofList (quote :: (s.toList.flatMap (reprChar quote) ++ [quote]))

/-- `repr(text or None)`. -/
def pyReprOption : Option String → String
  | none => "None"
  | some s => pyRepr s

/-- The Unicode tables of the interpreter that the program reads. -/
structure Unicode where
  /-- `unicodedata.normalize("NFKD", text)`. -/
  nfkd : List Char → List Char
  nfkd_ascii : ∀ cs : List Char, (∀ c ∈ cs, c.toNat < 128) → nfkd cs = cs
  /-- `str.title`. -/
  title : String → String
  /-- The value of a decimal digit of any script. -/
  digitValue : Char → Option (Fin 10)
  digitValue_ascii : ∀ d : Fin 10, digitValue (Char.ofNat (48 + d)) = some d
  digitValue_other : ∀ c : Char, c.toNat < 128 → c.isDigit = false → digitValue c = none

/-- `\w` on an ASCII character. -/
def isWordChar (c : Char) : Bool := c.isAlphanum || c == '_'

def isSlugSeparator (c : Char) : Bool := c == '-' || isSpace c

/-- `re.sub(r"[-\s]+", "-", value)`. -/
def collapseSeparators : Bool → List Char → List Char
  | _, [] => []
  | inRun, c :: cs =>
    if isSlugSeparator c then
      if inRun then collapseSeparators true cs else '-' :: collapseSeparators true cs
    else c :: collapseSeparators false cs

/-- Django's `slugify` without `allow_unicode`. -/
def slugify (unicode : Unicode) (value : List Char) : List Char :=
  let ascii := (unicode.nfkd value).filter (fun c => c.toNat < 128)
  let kept := (ascii.map Char.toLower).filter (fun c => isWordChar c || isSlugSeparator c)
  stripBy (fun c => c == '-' || c == '_') (collapseSeparators false kept)

end AskLens.Python
