import SynthGraph.Number.Numeral
import SynthGraph.Json.Quoted

namespace SynthGraph

/-!
# Tokens of a structured text

A text is split into marks, words and quoted texts, with blanks between them.
A quoted text whose escapes leave half of a character over is still a token;
only a reader that needs its characters refuses it.
-/

/-- The smallest meaningful parts of a structured text. -/
inductive Token where
  | openList
  | closeList
  | openObject
  | closeObject
  | comma
  | colon
  | null
  | bool (value : Bool)
  | number (numeral : Numeral)
  | text (content : Option String)
  deriving Repr, DecidableEq

namespace Token

/-- Space, tab and the two line breaks separate tokens. -/
def isBlank (char : Char) : Bool :=
  char = ' ' || char = '\t' || char = '\n' || char = '\r'

/-- Letters, digits, signs and points make up words. -/
def isWordChar (char : Char) : Bool :=
  char.isAlphanum || char = '+' || char = '-' || char = '.'

/-- The token that a single character makes up. -/
def mark? (char : Char) : Option Token :=
  if char = '[' then some openList
  else if char = ']' then some closeList
  else if char = '{' then some openObject
  else if char = '}' then some closeObject
  else if char = ',' then some comma
  else if char = ':' then some colon
  else none

/-- The token that a word spells: a constant or a numeral. -/
def word? (word : List Char) : Option Token :=
  if word = ['n', 'u', 'l', 'l'] then some null
  else if word = ['t', 'r', 'u', 'e'] then some (bool true)
  else if word = ['f', 'a', 'l', 's', 'e'] then some (bool false)
  else (Numeral.read? word).map number

/-- The token that pieces between two quotes make up. -/
def ofPieces (pieces : List Quoted.Piece) : Token :=
  text ((Quoted.join? pieces).map String.ofList)

/-- A suffix is not longer than the whole. -/
private theorem length_dropWhile_le
    (keep : Char → Bool)
    (text : List Char) :
    (text.dropWhile keep).length ≤ text.length :=
  (List.dropWhile_sublist keep).length_le

/-- Split a text into its tokens; no token starts with any other character. -/
def scan : List Char → Option (List Token)
  | [] => some []
  | first :: rest =>
      if isBlank first then
        scan rest
      else if first = '"' then
        match _accepted : Quoted.scan rest with
        | none => none
        | some (pieces, rest) => (ofPieces pieces :: ·) <$> scan rest
      else if isWordChar first then do
        let token ← word? (first :: rest.takeWhile isWordChar)
        let tokens ← scan (rest.dropWhile isWordChar)
        return token :: tokens
      else do
        let token ← mark? first
        let tokens ← scan rest
        return token :: tokens
termination_by text => text.length
decreasing_by
  · simp
  · have := Quoted.length_scan _accepted
    simp only [List.length_cons]
    omega
  · have := length_dropWhile_le isWordChar rest
    simp only [List.length_cons]
    omega
  · simp

/-- The characters of a token. -/
def chars : Token → List Char
  | openList => ['[']
  | closeList => [']']
  | openObject => ['{']
  | closeObject => ['}']
  | comma => [',']
  | colon => [':']
  | null => ['n', 'u', 'l', 'l']
  | bool true => ['t', 'r', 'u', 'e']
  | bool false => ['f', 'a', 'l', 's', 'e']
  | number numeral => numeral.chars
  | text content => Quoted.chars (content.getD "")

end Token

end SynthGraph
