import AskLens.Python.Text
import Mathlib.Logic.Function.Iterate

/-!
# Search patterns

The regular expressions that the program searches for. A match is a position in
the text, given by the character before it and the characters after it.
-/
namespace AskLens.Python

/-- The tables of `str.lower`, `str.casefold` and of the word characters of `re`. -/
structure CaseTables where
  lower : String → String
  casefold : String → String
  isWord : Char → Bool

inductive Pattern where
  | empty
  | char (p : Char → Bool)
  | seq (a b : Pattern)
  | alt (a b : Pattern)
  | plus (a : Pattern)
  /-- `\b`. -/
  | boundary
  /-- `(?<!\w)`. -/
  | notAfterWord

namespace Pattern

def literal (s : String) : Pattern :=
  s.toList.foldr (fun c rest => seq (char (· == c)) rest) empty

def sequence (parts : List Pattern) : Pattern := parts.foldr seq empty

def anyOf (parts : List Pattern) : Pattern := parts.foldr alt (char fun _ => false)

/-- `(?:a)?`. -/
def optional (a : Pattern) : Pattern := alt a empty

/-- `\s+`. -/
def spaces : Pattern := plus (char isSpace)

abbrev Position := Option Char × List Char

/-- The positions at which a match that starts here can end. A repeated pattern takes at most as
many turns as there are characters left. -/
def ends (isWord : Char → Bool) : Pattern → Position → List Position
  | empty, pos => [pos]
  | char p, (_, c :: rest) => if p c then [(some c, rest)] else []
  | char _, (_, []) => []
  | seq a b, pos => (ends isWord a pos).flatMap (ends isWord b)
  | alt a b, pos => ends isWord a pos ++ ends isWord b pos
  | plus a, pos =>
    (List.range pos.2.length).flatMap fun turns =>
      (fun positions => positions.flatMap (ends isWord a))^[turns + 1] [pos]
  | boundary, pos => if pos.1.any isWord = pos.2.head?.any isWord then [] else [pos]
  | notAfterWord, pos => if pos.1.any isWord then [] else [pos]

def searchFrom (isWord : Char → Bool) (pattern : Pattern) : Option Char → List Char → Bool
  | previous, [] => !(ends isWord pattern (previous, [])).isEmpty
  | previous, c :: rest =>
    !(ends isWord pattern (previous, c :: rest)).isEmpty || searchFrom isWord pattern (some c) rest

/-- Whether `re.search` finds the pattern in the text. -/
def search (isWord : Char → Bool) (pattern : Pattern) (s : String) : Bool :=
  searchFrom isWord pattern none s.toList

end Pattern

/-- `[a-z0-9]`. -/
def isTokenChar (c : Char) : Bool := c.isLower || c.isDigit

/-- `re.findall(r"[a-z0-9]+", text)`; `token` is the current run. -/
def tokensFrom : List Char → List Char → List String
  | [], token => if token = [] then [] else [String.ofList token]
  | c :: rest, token =>
    if isTokenChar c then tokensFrom rest (token ++ [c])
    else if token = [] then tokensFrom rest []
    else String.ofList token :: tokensFrom rest []

def findTokens (s : String) : List String := tokensFrom s.toList []

end AskLens.Python
