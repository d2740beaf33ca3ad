import AskLens.Python.Text
import AskLens.Library.Binary64
import AskLens.Library.Checks

/-!
# Python objects and the `json` module

`loads` and `dumps` follow CPython: objects may be nested as deep as the
recursion limit allows, integers are converted to and from text only up to
4300 digits, and lone surrogates survive decoding.
-/
namespace AskLens.Python

/-- The built-in exceptions that the modelled code can raise or catch. -/
inductive BuiltinError where
  | jsonDecodeError | valueError | typeError | keyError | overflowError
  | recursionError | unicodeEncodeError | unicodeDecodeError | fieldError
deriving DecidableEq, Repr

/-- The class of a `str` or `int` object: `none` for the built-in class itself,
the class name for an instance of a subclass. -/
abbrev PyClass := Option String

inductive PyObj where
  | null
  | bool (b : Bool)
  | int (cls : PyClass) (i : ℤ)
  | float (x : Binary64)
  | str (cls : PyClass) (s : String)
  /-- A text with a lone surrogate. -/
  | surrogates (t : PyText)
  | list (items : List PyObj)
  | tuple (items : List PyObj)
  | dict (entries : List (PyObj × PyObj))
  /-- A container that contains itself. -/
  | cycle
  /-- Any object that `json` cannot encode. -/
  | foreign

def PyObj.ofText (t : PyText) : PyObj :=
  match t.toString? with
  | some s => .str none s
  | none => .surrogates t

/-! ## Mappings and sequences -/

def lookupKey (entries : List (PyObj × PyObj)) (key : String) : Option PyObj :=
  match entries with
  | [] => none
  | (.str _ s, v) :: rest => if s = key then some v else lookupKey rest key
  | _ :: rest => lookupKey rest key

/-- Whether every key is one of `allowed`. -/
def onlyKeys (entries : List (PyObj × PyObj)) (allowed : List String) : Bool :=
  entries.all fun entry =>
    match entry.1 with
    | .str _ s => allowed.contains s
    | _ => false

/-- The items of a list or a tuple. -/
def sequence? : PyObj → Option (List PyObj)
  | .list items => some items
  | .tuple items => some items
  | _ => none

/-! ## The interpreter -/

/-- The interpreter state that bounds nested calls. -/
structure Interpreter where
  recursionLimit : ℕ
  recursionLimit_pos : 0 < recursionLimit

/-- `sys.get_int_max_str_digits()`. -/
def maxStrDigits : ℕ := 4300

/-- Whether `str(i)` is allowed. -/
def Printable (i : ℤ) : Prop := (Nat.toDigits 10 i.natAbs).length ≤ maxStrDigits

instance (i : ℤ) : Decidable (Printable i) := by
  unfold Printable
  infer_instance

/-- `int.__repr__`. -/
def intText (i : ℤ) : Except BuiltinError PyText :=
  if Printable i then
    .ok (((if i < 0 then ['-'] else []) ++ Nat.toDigits 10 i.natAbs).map Char.toNat)
  else .error .valueError

/-! ## Encoding -/

def escapeCodePoint (c : CodePoint) : PyText :=
  if c = 0x22 then PyText.ofString "\\\""
  else if c = 0x5C then PyText.ofString "\\\\"
  else if c = 0x0A then PyText.ofString "\\n"
  else if c = 0x0D then PyText.ofString "\\r"
  else if c = 0x09 then PyText.ofString "\\t"
  else if c = 0x0C then PyText.ofString "\\f"
  else if c = 0x08 then PyText.ofString "\\b"
  else if c < 0x20 then
    PyText.ofString "\\u00" ++ [(hexDigit (c / 16)).toNat, (hexDigit (c % 16)).toNat]
  else [c]

def encodeText (t : PyText) : PyText := 0x22 :: (t.flatMap escapeCodePoint ++ [0x22])

def encodeScalar : PyObj → Except BuiltinError PyText
  | .null => .ok (PyText.ofString "null")
  | .bool b => .ok (PyText.ofString (if b then "true" else "false"))
  | .int _ i => intText i
  | .float x => .ok (x.text.map Char.toNat)
  | .str _ s => .ok (encodeText (PyText.ofString s))
  | .surrogates t => .ok (encodeText t)
  | .cycle => .error .valueError
  | _ => .error .typeError

/-- A key is a string or a scalar that is turned into one. -/
def encodeKey : PyObj → Except BuiltinError PyText
  | .str cls s => encodeScalar (.str cls s)
  | .surrogates t => encodeScalar (.surrogates t)
  | .null => .ok (encodeText (PyText.ofString "null"))
  | .bool b => .ok (encodeText (PyText.ofString (if b then "true" else "false")))
  | .float x => .ok (encodeText (x.text.map Char.toNat))
  | .int _ i => do .ok (encodeText (← intText i))
  | _ => .error .typeError

def isContainer : PyObj → Bool
  | .list _ | .tuple _ | .dict _ => true
  | _ => false

def joinComma (parts : List PyText) : PyText := (parts.intersperse [0x2C]).flatten

/-- The recursive encoder; the first argument counts the calls that are left. -/
def encode : ℕ → PyObj → Except BuiltinError PyText
  | 0, obj => if isContainer obj then .error .recursionError else encodeScalar obj
  | depth + 1, .list items => do
    let parts ← items.mapM (encode depth)
    .ok (0x5B :: (joinComma parts ++ [0x5D]))
  | depth + 1, .tuple items => do
    let parts ← items.mapM (encode depth)
    .ok (0x5B :: (joinComma parts ++ [0x5D]))
  | depth + 1, .dict entries => do
    let parts ← entries.mapM fun entry => do
      let key ← encodeKey entry.1
      let value ← encode depth entry.2
      .ok (key ++ 0x3A :: value)
    .ok (0x7B :: (joinComma parts ++ [0x7D]))
  | _ + 1, obj => encodeScalar obj

/-- `json.dumps(obj, ensure_ascii=False, separators=(",", ":"))`. -/
def dumps (interp : Interpreter) (obj : PyObj) : Except BuiltinError PyText :=
  encode interp.recursionLimit obj

/-! ## Decoding -/

def skipSpace (t : PyText) : PyText :=
  t.dropWhile fun c => c == 0x20 || c == 0x09 || c == 0x0A || c == 0x0D

def isDigit (c : CodePoint) : Bool := 0x30 ≤ c && c ≤ 0x39

theorem isDigit_iff {c : ℕ} : isDigit c = true ↔ 0x30 ≤ c ∧ c ≤ 0x39 := by simp [isDigit]

def hexValue (c : CodePoint) : Option ℕ :=
  if isDigit c then some (c - 0x30)
  else if 0x61 ≤ c ∧ c ≤ 0x66 then some (c - 0x57)
  else if 0x41 ≤ c ∧ c ≤ 0x46 then some (c - 0x37)
  else none

def hex4 (a b c d : CodePoint) : Option ℕ := do
  let a ← hexValue a
  let b ← hexValue b
  let c ← hexValue c
  let d ← hexValue d
  some (a * 4096 + b * 256 + c * 16 + d)

def unescape (c : CodePoint) : Option CodePoint :=
  if c = 0x22 ∨ c = 0x5C ∨ c = 0x2F then some c
  else if c = 0x62 then some 0x08
  else if c = 0x66 then some 0x0C
  else if c = 0x6E then some 0x0A
  else if c = 0x72 then some 0x0D
  else if c = 0x74 then some 0x09
  else none

/-- A string body up to its closing quote; a surrogate pair becomes one code point. -/
def scanString : PyText → PyText → Option (PyText × PyText)
  | [], _ => none
  | c :: rest, acc =>
    if c = 0x22 then some (acc.reverse, rest)
    else if c = 0x5C then
      match rest with
      | [] => none
      | e :: rest =>
        if e = 0x75 then
          match rest with
          | h1 :: h2 :: h3 :: h4 :: rest =>
            match hex4 h1 h2 h3 h4 with
            | none => none
            | some u =>
              match rest with
              | b :: v :: l1 :: l2 :: l3 :: l4 :: rest' =>
                if isHighSurrogate u ∧ b = 0x5C ∧ v = 0x75 then
                  match hex4 l1 l2 l3 l4 with
                  | none => none
                  | some w =>
                    if isLowSurrogate w then
                      scanString rest' ((0x10000 + (u - 0xD800) * 1024 + (w - 0xDC00)) :: acc)
                    else scanString (b :: v :: l1 :: l2 :: l3 :: l4 :: rest') (u :: acc)
                else scanString (b :: v :: l1 :: l2 :: l3 :: l4 :: rest') (u :: acc)
              | short => scanString short (u :: acc)
          | _ => none
        else
          match unescape e with
          | none => none
          | some d => scanString rest (d :: acc)
    else if c < 0x20 then none
    else scanString rest (c :: acc)

def digitsValue (ds : PyText) : ℕ := ds.foldl (fun n c => n * 10 + (c - 0x30)) 0

/-- `(\.\d+)?`, the digits after the point. -/
def scanFraction (t : PyText) : PyText × PyText :=
  match t with
  | 0x2E :: rest =>
    let run := rest.span isDigit
    if run.1 = [] then ([], t) else run
  | _ => ([], t)

/-- `([eE][-+]?\d+)?`, the exponent when there is one. -/
def scanExponent (t : PyText) : Option ℤ × PyText :=
  match t with
  | [] => (none, t)
  | e :: rest =>
    if e = 0x65 ∨ e = 0x45 then
      let neg := rest.head? = some 0x2D
      let body := if neg ∨ rest.head? = some 0x2B then rest.drop 1 else rest
      let run := body.span isDigit
      if run.1 = [] then (none, t)
      else (some (if neg then -(digitsValue run.1 : ℤ) else digitsValue run.1), run.2)
    else (none, t)

/-- The part of a number after its sign and its integer digits. -/
def finishNumber (neg : Bool) (digits rest : PyText) : Except BuiltinError (PyObj × PyText) :=
  let fraction := scanFraction rest
  let exponent := scanExponent fraction.2
  if fraction.1 = [] ∧ exponent.1 = none then
    if maxStrDigits < digits.length then .error .valueError
    else
      let n : ℤ := digitsValue digits
      .ok (.int none (if neg then -n else n), rest)
  else
    let e := exponent.1.getD 0 - fraction.1.length
    .ok (.float (Binary64.ofDecimal neg (digitsValue (digits ++ fraction.1)) e), exponent.2)

/-- `-?(?:0|[1-9]\d*)(\.\d+)?([eE][-+]?\d+)?`. -/
def scanNumber (t : PyText) : Except BuiltinError (PyObj × PyText) :=
  let neg := t.head? = some 0x2D
  match if neg then t.drop 1 else t with
  | [] => .error .jsonDecodeError
  | c :: rest =>
    if c = 0x30 then finishNumber neg [c] rest
    else if isDigit c then
      let run := rest.span isDigit
      finishNumber neg (c :: run.1) run.2
    else .error .jsonDecodeError

def matchWord (word : String) (t : PyText) : Option PyText :=
  let w := PyText.ofString word
  if w.isPrefixOf t then some (t.drop w.length) else none

/-- The constants, strings and numbers. -/
def scanScalar (t : PyText) : Except BuiltinError (PyObj × PyText) :=
  match matchWord "null" t with
  | some rest => .ok (.null, rest)
  | none =>
  match matchWord "true" t with
  | some rest => .ok (.bool true, rest)
  | none =>
  match matchWord "false" t with
  | some rest => .ok (.bool false, rest)
  | none =>
  match matchWord "NaN" t with
  | some rest => .ok (.float .nan, rest)
  | none =>
  match matchWord "Infinity" t with
  | some rest => .ok (.float (.inf false), rest)
  | none =>
  match matchWord "-Infinity" t with
  | some rest => .ok (.float (.inf true), rest)
  | none =>
  match t with
  | 0x22 :: rest =>
    match scanString rest [] with
    | some (s, rest) => .ok (PyObj.ofText s, rest)
    | none => .error .jsonDecodeError
  | _ => scanNumber t

abbrev Scanner := PyText → Except BuiltinError (PyObj × PyText)

/-- The items of an array after its first bracket, one call per item. -/
def scanItems (element : Scanner) : ℕ → PyText → List PyObj → Except BuiltinError (PyObj × PyText)
  | 0, _, _ => .error .jsonDecodeError
  | fuel + 1, t, acc => do
    let (item, rest) ← element t
    match skipSpace rest with
    | 0x2C :: rest => scanItems element fuel (skipSpace rest) (item :: acc)
    | 0x5D :: rest => .ok (.list (item :: acc).reverse, rest)
    | _ => .error .jsonDecodeError

/-- `d[key] = value` on decoded members: the last value wins, at the first position. -/
def setMember : List (PyText × PyObj) → PyText → PyObj → List (PyText × PyObj)
  | [], key, value => [(key, value)]
  | (k, v) :: rest, key, value =>
    if k = key then (k, value) :: rest else (k, v) :: setMember rest key value

/-- The members of an object after its first brace, one call per member. -/
def scanMembers (element : Scanner) :
    ℕ → PyText → List (PyText × PyObj) → Except BuiltinError (PyObj × PyText)
  | 0, _, _ => .error .jsonDecodeError
  | fuel + 1, t, acc =>
    match t with
    | 0x22 :: rest =>
      match scanString rest [] with
      | none => .error .jsonDecodeError
      | some (key, rest) =>
        match skipSpace rest with
        | 0x3A :: rest => do
          let (value, rest) ← element (skipSpace rest)
          let acc := setMember acc key value
          match skipSpace rest with
          | 0x2C :: rest => scanMembers element fuel (skipSpace rest) acc
          | 0x7D :: rest => .ok (.dict (acc.map fun m => (PyObj.ofText m.1, m.2)), rest)
          | _ => .error .jsonDecodeError
        | _ => .error .jsonDecodeError
    | _ => .error .jsonDecodeError

/-- One JSON value; the first argument counts the nested calls that are left. -/
def scanOnce : ℕ → Scanner
  | 0, t =>
    match t with
    | 0x5B :: _ => .error .recursionError
    | 0x7B :: _ => .error .recursionError
    | _ => scanScalar t
  | depth + 1, t =>
    match t with
    | 0x5B :: rest =>
      match skipSpace rest with
      | 0x5D :: rest => .ok (.list [], rest)
      | body => scanItems (scanOnce depth) (body.length + 1) body []
    | 0x7B :: rest =>
      match skipSpace rest with
      | 0x7D :: rest => .ok (.dict [], rest)
      | body => scanMembers (scanOnce depth) (body.length + 1) body []
    | _ => scanScalar t

/-- `json.loads(text)`. -/
def loads (interp : Interpreter) (t : PyText) : Except BuiltinError PyObj :=
  if t.head? = some 0xFEFF then .error .jsonDecodeError
  else do
    let (value, rest) ← scanOnce interp.recursionLimit (skipSpace t)
    if skipSpace rest = [] then .ok value else .error .jsonDecodeError

end AskLens.Python
