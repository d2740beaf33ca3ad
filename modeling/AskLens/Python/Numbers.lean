import AskLens.Python.Calendar
import AskLens.Python.Json

/-!
# Decimal and UUID texts

What the constructors `Decimal(text)` and `UUID(text)` accept. Both read decimal
digits of any script.
-/
namespace AskLens.Python

def toAsciiDigit (unicode : Unicode) (c : Char) : Char :=
  match unicode.digitValue c with
  | some d => digitChar d
  | none => c

def isAsciiDigit (c : Char) : Bool := (asciiDigit c).isSome

/-! ## Decimals -/

inductive DecimalKind where
  | invalid | special | finite
deriving DecidableEq, Repr

def dropSign : List Char → List Char
  | '+' :: cs => cs
  | '-' :: cs => cs
  | cs => cs

/-- `([eE][-+]?\d+)?` up to the end, as the exponent. -/
def readExponent : List Char → Option ℤ
  | [] => some 0
  | e :: cs =>
    if e.toLower = 'e' ∧ dropSign cs ≠ [] then
      (readDigits (dropSign cs)).map fun n => if cs.head? = some '-' then -(n : ℤ) else n
    else none

/-- A number of these digits and exponent is within the limits of the implementation. -/
def decimalInRange (coefficient : ℕ) (exponent : ℤ) : Bool :=
  -1999999999999999997 ≤ exponent &&
    exponent + (Nat.toDigits 10 coefficient).length - 1 ≤ 999999999999999999

/-- The numeric alternative of the grammar. -/
def readDecimal (cs : List Char) : DecimalKind :=
  let int := cs.takeWhile isAsciiDigit
  let rest := cs.dropWhile isAsciiDigit
  let fraction := if rest.head? = some '.' then (rest.drop 1).takeWhile isAsciiDigit else []
  let rest := if rest.head? = some '.' then (rest.drop 1).dropWhile isAsciiDigit else rest
  match readDigits (int ++ fraction), readExponent rest with
  | some coefficient, some exponent =>
    if int ++ fraction ≠ [] ∧ decimalInRange coefficient (exponent - fraction.length) then .finite
    else .invalid
  | _, _ => .invalid

/-- `Decimal(text)`: refused with `InvalidOperation`, a NaN or an infinity, or a number. -/
def decimalKind (unicode : Unicode) (text : String) : DecimalKind :=
  let cs := ((stripBy isSpace text.toList).filter (· != '_')).map (toAsciiDigit unicode)
  let body := dropSign cs
  let lower := body.map Char.toLower
  let payload :=
    if "snan".toList.isPrefixOf lower then some (lower.drop 4)
    else if "nan".toList.isPrefixOf lower then some (lower.drop 3)
    else none
  if lower = "inf".toList ∨ lower = "infinity".toList then .special
  else
    match payload with
    | some digits => if digits.all isAsciiDigit then .special else .invalid
    | none => readDecimal body

/-! ## UUIDs -/

def hexDigitValue (c : Char) : Option ℕ := hexValue c.toNat

/-- Hexadecimal digits, with single underscores between them. -/
def readHexDigits : Option ℕ → List Char → Option ℕ
  | acc, [] => acc
  | some n, '_' :: c :: cs =>
    (hexDigitValue c).bind fun d => readHexDigits (some (n * 16 + d)) cs
  | acc, c :: cs => (hexDigitValue c).bind fun d => readHexDigits (some (acc.getD 0 * 16 + d)) cs

/-- The optional `0x` and one underscore after it. -/
def dropHexPrefix : List Char → List Char
  | '0' :: x :: cs =>
    if x = 'x' ∨ x = 'X' then (if cs.head? = some '_' then cs.drop 1 else cs) else '0' :: x :: cs
  | cs => cs

/-- `int(text, 16)`. -/
def parseHexInt (unicode : Unicode) (cs : List Char) : Option ℕ :=
  let cs := (stripBy isSpace cs).map (toAsciiDigit unicode)
  readHexDigits none (dropHexPrefix (if cs.head? = some '+' then cs.drop 1 else cs))

def isBrace (c : Char) : Bool := c == '{' || c == '}'

/-- The 32 characters that `UUID(text)` reads as a hexadecimal integer. -/
def uuidHex (text : String) : List Char :=
  let cs := removeAll "uuid:".toList (removeAll "urn:".toList text.toList 0) 0
  (stripBy isBrace cs).filter (· != '-')

/-- `UUID(text).int`. -/
def readUuid (unicode : Unicode) (text : String) : Option ℕ :=
  if (uuidHex text).length = 32 then parseHexInt unicode (uuidHex text) else none

/-- `n` in `width` hexadecimal digits. -/
def padHex : ℕ → ℕ → List Char
  | 0, _ => []
  | width + 1, n => padHex width (n / 16) ++ [hexDigit (n % 16)]

/-- `str(UUID(int=n))`. -/
def formatUuid (n : ℕ) : String :=
  String.ofList (padHex 8 (n / 16 ^ 24) ++ '-' :: (padHex 4 (n / 16 ^ 20) ++
    '-' :: (padHex 4 (n / 16 ^ 16) ++ '-' :: (padHex 4 (n / 16 ^ 12) ++ '-' :: padHex 12 n))))

end AskLens.Python
