import SynthGraph.Number.Numeral

namespace SynthGraph

/-!
# Numbers as they are typed

On a command line numbers are written more freely than in documents: a plus sign
is allowed, digits may be missing on one side of the point, and there are words
for infinity and for what is no number.
-/

namespace Typed

/-- Whether a text begins with a minus sign, and what follows its sign. -/
def splitSign : List Char → Bool × List Char
  | '-' :: rest => (true, rest)
  | '+' :: rest => (false, rest)
  | text => (false, text)

/-- The integer that a text spells: a sign, if any, and digits. -/
def integer? (text : String) : Option Int :=
  let (negative, rest) := splitSign text.toList
  match Digit.scan rest with
  | (first :: more, []) =>
      let magnitude : Int := Digit.value (first :: more)
      some (if negative then -magnitude else magnitude)
  | _ => none

/-- The natural number below a bound that a text spells. -/
def naturalBelow? (bound : Nat) (text : String) : Option Nat :=
  match integer? text with
  | some (.ofNat value) => if value < bound then some value else none
  | _ => none

/-- The words for numbers without digits; letter case does not matter. -/
def word? (negative : Bool) (text : List Char) : Option Double :=
  let lower := text.map Char.toLower
  if lower = ['i', 'n', 'f'] ∨ lower = ['i', 'n', 'f', 'i', 'n', 'i', 't', 'y'] then
    some (.infinite negative)
  else if lower = ['n', 'a', 'n'] then
    some .notANumber
  else
    none

/-- The digits behind a point, if there is a point, and what follows them. -/
def scanFraction : List Char → List Digit × List Char
  | '.' :: rest => Digit.scan rest
  | text => ([], text)

/-- A number with digits: on at least one side of the point there is a digit. -/
def decimal? (negative : Bool) (text : List Char) : Option Double :=
  let (whole, afterWhole) := Digit.scan text
  let (fraction, afterFraction) := scanFraction afterWhole
  if whole = [] ∧ fraction = [] then
    none
  else
    match Numeral.readExponent? afterFraction with
    | some exponent =>
        some (Numeral.toBinary .double ⟨negative, Digit.value whole, fraction, exponent⟩)
    | none => none

/-- The number that a text spells; one too large is infinite. -/
def number? (text : String) : Option Double :=
  let (negative, rest) := splitSign text.toList
  (word? negative rest).orElse fun _ => decimal? negative rest

end Typed

end SynthGraph
