namespace SynthGraph.Quoted

/-!
# Quoted text

Between two quotes a text is written with quotes, backslashes and control
characters escaped.  Reading keeps apart the escapes that name a UTF-16 unit,
because two of them may stand for one character and one alone may stand for
none.
-/

/-- What one written piece of a quoted text stands for. -/
inductive Piece where
  | char (value : Char)
  | unit (value : Nat)
  deriving Repr, DecidableEq

/-- The character of a hexadecimal digit, in lower case. -/
def hexDigit (value : Nat) : Char :=
  if value < 10 then
    Char.ofNat ('0'.toNat + value)
  else
    Char.ofNat ('a'.toNat + (value - 10))

/-- The value of a hexadecimal digit of either case. -/
def hexValue? (char : Char) : Option Nat :=
  if '0' ≤ char ∧ char ≤ '9' then
    some (char.toNat - '0'.toNat)
  else if 'a' ≤ char ∧ char ≤ 'f' then
    some (char.toNat - 'a'.toNat + 10)
  else if 'A' ≤ char ∧ char ≤ 'F' then
    some (char.toNat - 'A'.toNat + 10)
  else
    none

/-- How a character is written between quotes. -/
def escape (char : Char) : List Char :=
  if char = '"' then ['\\', '"']
  else if char = '\\' then ['\\', '\\']
  else if char = '\n' then ['\\', 'n']
  else if char = '\r' then ['\\', 'r']
  else if char = '\t' then ['\\', 't']
  else if char.toNat = 8 then ['\\', 'b']
  else if char.toNat = 12 then ['\\', 'f']
  else if char.toNat < 32 then
    ['\\', 'u', '0', '0', hexDigit (char.toNat / 16), hexDigit (char.toNat % 16)]
  else [char]

/-- A text between quotes. -/
def chars (text : String) : List Char :=
  '"' :: text.toList.flatMap escape ++ ['"']

/-- The character that a backslash in front of another one stands for. -/
def unescape? (mark : Char) : Option Char :=
  if mark = '"' ∨ mark = '\\' ∨ mark = '/' then some mark
  else if mark = 'b' then some (Char.ofNat 8)
  else if mark = 'f' then some (Char.ofNat 12)
  else if mark = 'n' then some '\n'
  else if mark = 'r' then some '\r'
  else if mark = 't' then some '\t'
  else none

/-- The unit that four hexadecimal digits name. -/
def unit? (first second third fourth : Char) : Option Nat := do
  let first ← hexValue? first
  let second ← hexValue? second
  let third ← hexValue? third
  let fourth ← hexValue? fourth
  return ((first * 16 + second) * 16 + third) * 16 + fourth

/--
Read up to the closing quote.  Control characters and unknown escapes are
refused; the rest is what follows the quote.
-/
def scan : List Char → Option (List Piece × List Char)
  | [] => none
  | '"' :: rest => some ([], rest)
  | '\\' :: 'u' :: first :: second :: third :: fourth :: rest => do
      let unit ← unit? first second third fourth
      let (pieces, rest) ← scan rest
      return (.unit unit :: pieces, rest)
  | '\\' :: mark :: rest => do
      let char ← unescape? mark
      let (pieces, rest) ← scan rest
      return (.char char :: pieces, rest)
  | char :: rest =>
      if char.toNat < 32 ∨ char = '\\' then
        none
      else do
        let (pieces, rest) ← scan rest
        return (.char char :: pieces, rest)

/-- Whether a unit is the first half of a pair. -/
def isLeading (unit : Nat) : Bool :=
  0xD800 ≤ unit && unit < 0xDC00

/-- Whether a unit is the second half of a pair. -/
def isTrailing (unit : Nat) : Bool :=
  0xDC00 ≤ unit && unit < 0xE000

/-- The characters that pieces stand for, unless half of a pair stands alone. -/
def join? : List Piece → Option (List Char)
  | [] => some []
  | .char value :: rest => (value :: ·) <$> join? rest
  | .unit leading :: .unit trailing :: rest =>
      if isLeading leading then
        if isTrailing trailing then
          (Char.ofNat (0x10000 + (leading - 0xD800) * 0x400 + (trailing - 0xDC00)) :: ·)
            <$> join? rest
        else
          none
      else if isTrailing leading then
        none
      else
        (Char.ofNat leading :: ·) <$> join? (.unit trailing :: rest)
  | .unit value :: rest =>
      if isLeading value || isTrailing value then
        none
      else
        (Char.ofNat value :: ·) <$> join? rest

/-- Reading a quoted text consumes at least its closing quote. -/
theorem length_scan
    {text rest : List Char}
    {pieces : List Piece}
    (accepted : scan text = some (pieces, rest)) :
    rest.length < text.length := by
  fun_induction scan text generalizing pieces rest with
  | case1 => simp at accepted
  | case2 rest =>
      simp at accepted
      simp [accepted.2]
  | case3 first second third fourth tail inductionHypothesis =>
      simp only [Option.bind_eq_bind, Option.bind_eq_some_iff, Option.pure_def,
        Option.some.injEq, Prod.mk.injEq, Prod.exists] at accepted
      obtain ⟨_, _, _, _, scanned, _, rfl⟩ := accepted
      have := inductionHypothesis scanned
      simp only [List.length_cons]
      omega
  | case4 mark tail _ inductionHypothesis =>
      simp only [Option.bind_eq_bind, Option.bind_eq_some_iff, Option.pure_def,
        Option.some.injEq, Prod.mk.injEq, Prod.exists] at accepted
      obtain ⟨_, _, _, _, scanned, _, rfl⟩ := accepted
      have := inductionHypothesis scanned
      simp only [List.length_cons]
      omega
  | case5 => simp at accepted
  | case6 char tail _ _ _ _ inductionHypothesis =>
      simp only [Option.bind_eq_bind, Option.bind_eq_some_iff, Option.pure_def,
        Option.some.injEq, Prod.mk.injEq, Prod.exists] at accepted
      obtain ⟨_, _, scanned, _, rfl⟩ := accepted
      have := inductionHypothesis scanned
      simp only [List.length_cons]
      omega

end SynthGraph.Quoted
