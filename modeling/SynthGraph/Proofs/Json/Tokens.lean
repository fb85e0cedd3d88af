import Mathlib.Data.List.Forall2
import SynthGraph.Json.Token
import SynthGraph.Proofs.Number.Written

namespace SynthGraph

/-!
# Written tokens are read back

The characters of a token are read as that token, whatever follows, as long as
a word is not continued.  A text between quotes is read as pieces that stand
for its characters one by one.

Main statement: `Token.spells_chars`.
-/

namespace Quoted

/-- A piece stands for a character; only control characters are named by a unit. -/
inductive StandsFor : Piece → Char → Prop where
  | char (value : Char) : StandsFor (.char value) value
  | unit (value : Char) (control : value.toNat < 32) : StandsFor (.unit value.toNat) value

/-- A hexadecimal digit has its value. -/
private theorem hexValue?_hexDigit {value : Nat} (isDigit : value < 16) :
    hexValue? (hexDigit value) = some value := by
  have every : ∀ digit : Fin 16, hexValue? (hexDigit digit) = some digit.val := by decide
  exact every ⟨value, isDigit⟩

/-- The unit of a control character is written with two digits behind two zeros. -/
private theorem unit?_control {value : Nat} (control : value < 32) :
    unit? '0' '0' (hexDigit (value / 16)) (hexDigit (value % 16)) = some value := by
  have zero : hexValue? '0' = some 0 := by decide
  have upper : hexValue? (hexDigit (value / 16)) = some (value / 16) :=
    hexValue?_hexDigit (by omega)
  have lower : hexValue? (hexDigit (value % 16)) = some (value % 16) :=
    hexValue?_hexDigit (by omega)
  simp only [unit?, zero, upper, lower, Option.bind_eq_bind, Option.bind_some, Option.pure_def,
    Option.some.injEq]
  omega

/-- A character that needs no escape is read as itself. -/
private theorem scan_plain
    {char : Char}
    (noQuote : char ≠ '"')
    (noBackslash : char ≠ '\\')
    (noControl : ¬ char.toNat < 32)
    (rest : List Char) :
    scan (char :: rest) = (scan rest).map fun read => (.char char :: read.1, read.2) := by
  rw [scan.eq_def]
  split <;> simp_all [Option.map_eq_bind]

/-- What is written for a character is read as one piece that stands for it. -/
theorem exists_scan_escape (char : Char) :
    ∃ piece, StandsFor piece char ∧
      ∀ rest, scan (escape char ++ rest)
        = (scan rest).map fun read => (piece :: read.1, read.2) := by
  by_cases marked :
      char = '"' ∨ char = '\\' ∨ char = '\n' ∨ char = '\r' ∨ char = '\t'
        ∨ char = Char.ofNat 8 ∨ char = Char.ofNat 12
  · refine ⟨.char char, .char char, fun rest => ?_⟩
    rcases marked with rfl | rfl | rfl | rfl | rfl | rfl | rfl <;>
      simp [escape, scan, unescape?, Option.map_eq_bind]
  · simp only [not_or] at marked
    obtain ⟨noQuote, noBackslash, noFeed, noReturn, noTab, noErase, noPage⟩ := marked
    have notEight : char.toNat ≠ 8 := fun eight => noErase (by rw [← eight, Char.ofNat_toNat])
    have notTwelve : char.toNat ≠ 12 := fun twelve => noPage (by rw [← twelve, Char.ofNat_toNat])
    by_cases control : char.toNat < 32
    · refine ⟨.unit char.toNat, .unit char control, fun rest => ?_⟩
      simp [escape, noQuote, noBackslash, noFeed, noReturn, noTab, notEight, notTwelve, control,
        scan, unit?_control control, Option.map_eq_bind]
    · refine ⟨.char char, .char char, fun rest => ?_⟩
      simp only [escape, noQuote, noBackslash, noFeed, noReturn, noTab, notEight, notTwelve,
        control, if_false, List.singleton_append]
      exact scan_plain noQuote noBackslash control rest

/-- A written text is read up to its closing quote, one piece for each character. -/
theorem exists_scan_flatMap_escape (text : List Char) :
    ∃ pieces, List.Forall₂ StandsFor pieces text ∧
      ∀ rest, scan (text.flatMap escape ++ '"' :: rest) = some (pieces, rest) := by
  induction text with
  | nil => exact ⟨[], .nil, fun rest => by simp [scan]⟩
  | cons char text inductionHypothesis =>
      obtain ⟨pieces, standFor, scanned⟩ := inductionHypothesis
      obtain ⟨piece, standsFor, scannedFirst⟩ := exists_scan_escape char
      refine ⟨piece :: pieces, .cons standsFor standFor, fun rest => ?_⟩
      rw [List.flatMap_cons, List.append_assoc, scannedFirst, scanned, Option.map_some]

/-- A control character is no half of a pair. -/
private theorem join?_unit_cons
    {value : Nat}
    (control : value < 32)
    (rest : List Piece) :
    join? (.unit value :: rest) = (Char.ofNat value :: ·) <$> join? rest := by
  have notLeading : isLeading value = false := by
    simp only [isLeading, Bool.and_eq_false_imp, decide_eq_true_eq, decide_eq_false_iff_not]
    omega
  have notTrailing : isTrailing value = false := by
    simp only [isTrailing, Bool.and_eq_false_imp, decide_eq_true_eq, decide_eq_false_iff_not]
    omega
  rcases rest with _ | ⟨_ | _, rest⟩ <;> simp [join?, notLeading, notTrailing]

/-- Pieces that stand for the characters of a text are joined to that text. -/
theorem join?_of_standFor
    {pieces : List Piece}
    {text : List Char}
    (standFor : List.Forall₂ StandsFor pieces text) :
    join? pieces = some text := by
  induction standFor with
  | nil => rfl
  | cons standsFor _ inductionHypothesis =>
      cases standsFor with
      | char value => simp [join?, inductionHypothesis]
      | unit value control =>
          simp [join?_unit_cons control, inductionHypothesis, Char.ofNat_toNat]

end Quoted

namespace Token

/-- A text does not continue a word that ends in front of it. -/
def EndsWord (rest : List Char) : Prop :=
  ∀ next ∈ rest.head?, isWordChar next = false

section Scan

variable {first : Char} {rest : List Char}

/-- Blanks are passed over. -/
theorem scan_blank (blank : isBlank first = true) : scan (first :: rest) = scan rest := by
  rw [scan, if_pos blank]

/-- A single character that is no part of a word is a token of its own. -/
theorem scan_mark
    {token : Token}
    (isMark : mark? first = some token) :
    scan (first :: rest) = (scan rest).map (token :: ·) := by
  have isBracket :
      first = '[' ∨ first = ']' ∨ first = '{' ∨ first = '}' ∨ first = ',' ∨ first = ':' := by
    by_contra other
    simp only [not_or] at other
    simp [mark?, other] at isMark
  obtain ⟨noBlank, noQuote, noWord⟩ :
      isBlank first = false ∧ first ≠ '"' ∧ isWordChar first = false := by
    rcases isBracket with rfl | rfl | rfl | rfl | rfl | rfl <;> exact ⟨rfl, by decide, rfl⟩
  rw [scan, if_neg (by simp [noBlank]), if_neg noQuote, if_neg (by simp [noWord]), isMark]
  simp [Option.map_eq_bind]

/-- A text between quotes is a token. -/
theorem scan_quoted (content : String) :
    scan (Quoted.chars content ++ rest) = (scan rest).map (text (some content) :: ·) := by
  obtain ⟨pieces, standFor, scanned⟩ := Quoted.exists_scan_flatMap_escape content.toList
  have spelled : ofPieces pieces = text (some content) := by
    simp [ofPieces, Quoted.join?_of_standFor standFor]
  have characters : Quoted.chars content ++ rest
      = '"' :: (content.toList.flatMap Quoted.escape ++ '"' :: rest) := by
    simp [Quoted.chars]
  rw [characters, scan, if_neg (by decide), if_pos rfl]
  split
  next refused => rw [scanned] at refused; cases refused
  next read accepted =>
    rw [scanned] at accepted
    cases accepted
    rw [spelled]
    rfl

/-- A word is read as a whole. -/
theorem scan_word
    {word : List Char}
    {token : Token}
    (noBlank : isBlank first = false)
    (noQuote : first ≠ '"')
    (isWord : (first :: word).all isWordChar)
    (spells : word? (first :: word) = some token)
    (ends : EndsWord rest) :
    scan (first :: (word ++ rest)) = (scan rest).map (token :: ·) := by
  rw [List.all_eq_true] at isWord
  have taken : (word ++ rest).takeWhile isWordChar = word := by
    rw [List.takeWhile_append_of_pos (fun char member => isWord char (by simp [member]))]
    cases rest with
    | nil => simp
    | cons next rest => simp [ends next (by simp)]
  have dropped : (word ++ rest).dropWhile isWordChar = rest := by
    rw [List.dropWhile_append_of_pos (fun char member => isWord char (by simp [member]))]
    cases rest with
    | nil => rfl
    | cons next rest => simp [ends next (by simp)]
  rw [scan, if_neg (by simp [noBlank]), if_neg noQuote,
    if_pos (isWord first List.mem_cons_self), taken, dropped, spells]
  simp [Option.map_eq_bind]

end Scan

section Numerals

/-- Digits are characters of words. -/
private theorem isWordChar_char (digit : Digit) : isWordChar digit.char = true := by
  revert digit
  decide

/-- A numeral is written as one word. -/
private theorem isWordChar_of_mem_chars
    {numeral : Numeral}
    {char : Char}
    (member : char ∈ numeral.chars) :
    isWordChar char = true := by
  have ofDigits : ∀ digits : List Digit, ∀ char ∈ digits.map Digit.char,
      isWordChar char = true := by
    intro digits char member
    obtain ⟨digit, _, rfl⟩ := List.mem_map.mp member
    exact isWordChar_char digit
  simp only [Numeral.chars, List.mem_append] at member
  rcases member with ((sign | whole) | fraction) | exponent
  · have isMinus : char = '-' := by
      split at sign <;> simp_all
    rw [isMinus]
    decide
  · exact ofDigits _ char whole
  · cases digits : numeral.fraction with
    | nil => simp [digits, Numeral.fractionChars] at fraction
    | cons first more =>
        rw [digits, Numeral.fractionChars] at fraction
        · rcases List.mem_cons.mp fraction with rfl | later
          · decide
          · exact ofDigits _ char later
        · simp
  · cases written : numeral.exponent with
    | none => simp [written, Numeral.exponentChars] at exponent
    | some value =>
        rw [written, Numeral.exponentChars] at exponent
        rcases List.mem_cons.mp exponent with rfl | later
        · decide
        · rcases List.mem_cons.mp later with rfl | digits
          · split <;> decide
          · exact ofDigits _ char digits

/-- A numeral starts with its sign or with a digit. -/
private theorem exists_chars_eq_cons (numeral : Numeral) :
    ∃ first word, numeral.chars = first :: word ∧
      (first = '-' ∨ ∃ digit : Digit, first = digit.char) := by
  obtain ⟨leading, more, digits⟩ := List.exists_cons_of_ne_nil (Digit.ofNat_ne_nil numeral.whole)
  have spelled : Digit.spell numeral.whole = leading.char :: more.map Digit.char := by
    rw [Digit.spell, digits, List.map_cons]
  unfold Numeral.chars
  split
  · exact ⟨'-', _, rfl, .inl rfl⟩
  · rw [spelled]
    exact ⟨leading.char, _, rfl, .inr ⟨leading, rfl⟩⟩

/-- A written numeral is read as that numeral. -/
theorem scan_numeral
    (numeral : Numeral)
    {rest : List Char}
    (ends : EndsWord rest) :
    scan (numeral.chars ++ rest) = (scan rest).map (number numeral :: ·) := by
  obtain ⟨first, word, characters, starts⟩ := exists_chars_eq_cons numeral
  have facts :
      isBlank first = false ∧ first ≠ '"' ∧ first ≠ 'n' ∧ first ≠ 't' ∧ first ≠ 'f' := by
    rcases starts with rfl | ⟨digit, rfl⟩
    · decide
    · clear characters
      revert digit
      decide
  obtain ⟨noBlank, noQuote, noNull, noTrue, noFalse⟩ := facts
  have spells : word? (first :: word) = some (number numeral) := by
    rw [word?, if_neg (by simp [noNull]), if_neg (by simp [noTrue]), if_neg (by simp [noFalse]),
      ← characters, Numeral.read?_chars, Option.map_some]
  rw [characters, List.cons_append]
  refine scan_word noBlank noQuote ?_ spells ends
  rw [← characters, List.all_eq_true]
  exact fun char member => isWordChar_of_mem_chars member

end Numerals

/--
Characters spell tokens if they are read as these tokens and nothing else,
whatever follows that does not continue their last word.
-/
def Spells (chars : List Char) (tokens : List Token) : Prop :=
  ∀ rest, EndsWord rest → scan (chars ++ rest) = (scan rest).map (tokens ++ ·)

/-- Whatever starts with another character does not continue a word. -/
theorem EndsWord.cons
    {first : Char}
    (noWord : isWordChar first = false)
    (rest : List Char) :
    EndsWord (first :: rest) := by
  simpa [EndsWord] using noWord

/-- Two texts one after the other do not continue a word if neither of them does. -/
theorem EndsWord.append
    {first second : List Char}
    (firstEnds : EndsWord first)
    (secondEnds : EndsWord second) :
    EndsWord (first ++ second) := by
  cases first with
  | nil => exact secondEnds
  | cons => exact firstEnds

/-- Every token but a text with a character missing is spelled by its characters. -/
theorem spells_chars
    (token : Token)
    (complete : token ≠ text none) :
    Spells token.chars [token] := by
  intro rest ends
  match token with
  | openList | closeList | openObject | closeObject | comma | colon => exact scan_mark rfl
  | null | bool true | bool false =>
      exact scan_word rfl (by decide) rfl rfl ends
  | number numeral => exact scan_numeral numeral ends
  | text none => exact absurd rfl complete
  | text (some content) => exact scan_quoted content

namespace Spells

variable {chars others : List Char} {tokens otherTokens : List Token}

/-- Blanks in front change nothing. -/
theorem blank
    {first : Char}
    (isBlank : isBlank first = true)
    (spells : Spells chars tokens) :
    Spells (first :: chars) tokens := by
  intro rest ends
  rw [List.cons_append, scan_blank isBlank, spells rest ends]

/-- A mark in front is one more token. -/
theorem mark
    {first : Char}
    {token : Token}
    (isMark : mark? first = some token)
    (spells : Spells chars tokens) :
    Spells (first :: chars) (token :: tokens) := by
  intro rest ends
  rw [List.cons_append, scan_mark isMark, spells rest ends, Option.map_map]
  rfl

/-- What is spelled by two texts is spelled by both together, if the second starts apart. -/
theorem append
    (spells : Spells chars tokens)
    (apart : EndsWord others)
    (othersSpell : Spells others otherTokens) :
    Spells (chars ++ others) (tokens ++ otherTokens) := by
  intro rest ends
  rw [List.append_assoc, spells _ (apart.append ends), othersSpell rest ends, Option.map_map]
  simp only [Function.comp_def, List.append_assoc]

/-- A whole text is read as the tokens that it spells. -/
theorem scan_eq (spells : Spells chars tokens) : scan chars = some tokens := by
  have alone := spells [] (by simp [EndsWord])
  simpa [scan] using alone

end Spells

end Token

end SynthGraph
