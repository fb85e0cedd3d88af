import SynthGraph.Json.Token

namespace SynthGraph

/-!
# Trees of a structured text

A tree keeps what a text says and nothing of how it is spaced: numerals before
rounding, fields in written order, repeated fields included.  Tokens are read
one at a time by a machine that remembers the lists and objects still open, so
nesting has no limit here; readers of documents set their own.
-/

/-- A value of a structured text. -/
inductive Json where
  | null
  | bool (value : Bool)
  | number (numeral : Numeral)
  | text (content : Option String)
  | list (items : List Json)
  | object (fields : List (Option String × Json))
  deriving Repr

namespace Json

/-- A text that is complete, as every written text is. -/
def string (content : String) : Json :=
  text (some content)

/-- A natural number. -/
def natural (value : Nat) : Json :=
  number (Numeral.ofNat value)

/-- An object whose field names are complete. -/
def record (fields : List (String × Json)) : Json :=
  object (fields.map fun field => (some field.1, field.2))

/-- A list or object that is not closed yet, its latest entry first. -/
inductive Frame where
  | items (before : List Json)
  | fields (before : List (Option String × Json))
  | field (before : List (Option String × Json)) (name : Option String)
  deriving Repr

/-- What the machine expects next. -/
inductive Expected where
  | value
  | firstItem
  | firstField
  | name
  | colon
  | separator
  deriving Repr, DecidableEq

/-- The machine between two tokens: inside open frames, or done with one value. -/
inductive Reader where
  | reading (expected : Expected) (frames : List Frame)
  | done (value : Json)
  deriving Repr

namespace Reader

/-- Before the first token. -/
def start : Reader :=
  .reading .value []

/-- A finished value takes its place in the innermost open frame. -/
def finish (value : Json) : List Frame → Option Reader
  | [] => some (.done value)
  | .items before :: frames =>
      some (.reading .separator (.items (value :: before) :: frames))
  | .field before name :: frames =>
      some (.reading .separator (.fields ((name, value) :: before) :: frames))
  | .fields _ :: _ => none

/-- A value starts where one is allowed. -/
def startValue (token : Token) (frames : List Frame) : Option Reader :=
  match token with
  | .openList => some (.reading .firstItem (.items [] :: frames))
  | .openObject => some (.reading .firstField (.fields [] :: frames))
  | .null => finish .null frames
  | .bool value => finish (.bool value) frames
  | .number numeral => finish (.number numeral) frames
  | .text content => finish (.text content) frames
  | _ => none

/-- The machine reads one token, or refuses it. -/
def step : Reader → Token → Option Reader
  | .done _, _ => none
  | .reading .value frames, token => startValue token frames
  | .reading .firstItem (.items before :: frames), .closeList =>
      finish (.list before.reverse) frames
  | .reading .firstItem frames, token => startValue token frames
  | .reading .firstField (.fields before :: frames), .closeObject =>
      finish (.object before.reverse) frames
  | .reading .firstField (.fields before :: frames), .text name =>
      some (.reading .colon (.field before name :: frames))
  | .reading .name (.fields before :: frames), .text name =>
      some (.reading .colon (.field before name :: frames))
  | .reading .colon frames, .colon => some (.reading .value frames)
  | .reading .separator (.items before :: frames), .comma =>
      some (.reading .value (.items before :: frames))
  | .reading .separator (.items before :: frames), .closeList =>
      finish (.list before.reverse) frames
  | .reading .separator (.fields before :: frames), .comma =>
      some (.reading .name (.fields before :: frames))
  | .reading .separator (.fields before :: frames), .closeObject =>
      finish (.object before.reverse) frames
  | _, _ => none

end Reader

/-- The one value that all tokens together spell. -/
def ofTokens? (tokens : List Token) : Option Json :=
  match tokens.foldlM Reader.step Reader.start with
  | some (.done value) => some value
  | _ => none

/-- Read a text that holds exactly one value. -/
def read? (text : String) : Option Json :=
  (Token.scan text.toList).bind ofTokens?

mutual

/-- How many lists and objects are open at the deepest point. -/
def depth : Json → Nat
  | list items => itemsDepth items + 1
  | object fields => fieldsDepth fields + 1
  | _ => 0

/-- The depth of the deepest item. -/
def itemsDepth : List Json → Nat
  | [] => 0
  | item :: rest => max (depth item) (itemsDepth rest)

/-- The depth of the deepest field. -/
def fieldsDepth : List (Option String × Json) → Nat
  | [] => 0
  | (_, value) :: rest => max (depth value) (fieldsDepth rest)

end

mutual

/-- A value on one line without blanks. -/
def compact : Json → List Char
  | null => Token.null.chars
  | bool value => (Token.bool value).chars
  | number numeral => numeral.chars
  | text content => (Token.text content).chars
  | list [] => ['[', ']']
  | list (item :: rest) => '[' :: compact item ++ compactItems rest ++ [']']
  | object [] => ['{', '}']
  | object (field :: rest) =>
      '{' :: (Token.text field.1).chars ++ ':' :: compact field.2
        ++ compactFields rest ++ ['}']

/-- The items after the first one, each behind a comma. -/
def compactItems : List Json → List Char
  | [] => []
  | item :: rest => ',' :: compact item ++ compactItems rest

/-- The fields after the first one, each behind a comma. -/
def compactFields : List (Option String × Json) → List Char
  | [] => []
  | field :: rest =>
      ',' :: (Token.text field.1).chars ++ ':' :: compact field.2 ++ compactFields rest

end

/-- A line break and two blanks for every open list or object. -/
def lineBreak (level : Nat) : List Char :=
  '\n' :: List.replicate (2 * level) ' '

mutual

/-- A value with one entry a line, nested under `level` open lists and objects. -/
def pretty (level : Nat) : Json → List Char
  | null => Token.null.chars
  | bool value => (Token.bool value).chars
  | number numeral => numeral.chars
  | text content => (Token.text content).chars
  | list [] => ['[', ']']
  | list (item :: rest) =>
      '[' :: lineBreak (level + 1) ++ pretty (level + 1) item
        ++ prettyItems (level + 1) rest ++ lineBreak level ++ [']']
  | object [] => ['{', '}']
  | object (field :: rest) =>
      '{' :: lineBreak (level + 1) ++ (Token.text field.1).chars ++ ':' :: ' ' ::
        pretty (level + 1) field.2
        ++ prettyFields (level + 1) rest ++ lineBreak level ++ ['}']

/-- The items after the first one, each on a line of its own. -/
def prettyItems (level : Nat) : List Json → List Char
  | [] => []
  | item :: rest =>
      ',' :: lineBreak level ++ pretty level item ++ prettyItems level rest

/-- The fields after the first one, each on a line of its own. -/
def prettyFields (level : Nat) : List (Option String × Json) → List Char
  | [] => []
  | field :: rest =>
      ',' :: lineBreak level ++ (Token.text field.1).chars ++ ':' :: ' ' ::
        pretty level field.2 ++ prettyFields level rest

end

/-- The text of a value on one line. -/
def compactText (value : Json) : String :=
  String.ofList value.compact

/-- The text of a value over several lines. -/
def prettyText (value : Json) : String :=
  String.ofList (value.pretty 0)

end Json

end SynthGraph
