import SynthGraph.Number.Decimal

namespace SynthGraph

/-!
# Written numerals

A numeral is what a number literal says before it is rounded to any format:
sign, whole part, fraction digits and exponent.  Numbers are written by
choosing a numeral for their shortest decimal, and read by rounding the decimal
a numeral spells.
-/

/--
A decimal literal.  Without fraction and exponent it is an integer literal.
-/
structure Numeral where
  negative : Bool
  whole : Nat
  fraction : List Digit
  exponent : Option Int
  deriving Repr, DecidableEq

namespace Digit

/-- The character of a digit. -/
def char (digit : Digit) : Char :=
  Char.ofNat ('0'.toNat + digit.val)

/-- The digit a character stands for. -/
def ofChar? (char : Char) : Option Digit :=
  if char.isDigit then some (last (char.toNat - '0'.toNat)) else none

/-- The characters of a natural number. -/
def spell (number : Nat) : List Char :=
  (ofNat number).map char

/-- The digits at the front of a text, and what follows them. -/
def scan : List Char → List Digit × List Char
  | [] => ([], [])
  | first :: rest =>
      match ofChar? first with
      | none => ([], first :: rest)
      | some digit => (digit :: (scan rest).1, (scan rest).2)

end Digit

namespace Numeral

/-- The numeral of an integer. -/
def ofInt (value : Int) : Numeral :=
  ⟨value < 0, value.natAbs, [], none⟩

/-- The numeral of a natural number. -/
def ofNat (value : Nat) : Numeral :=
  ⟨false, value, [], none⟩

/-- The characters of an exponent; its sign is always written. -/
def exponentChars : Option Int → List Char
  | none => []
  | some exponent =>
      'e' :: (if exponent < 0 then '-' else '+') :: Digit.spell exponent.natAbs

/-- The characters of a fraction part. -/
def fractionChars : List Digit → List Char
  | [] => []
  | digits => '.' :: digits.map Digit.char

/-- The characters of a numeral. -/
def chars (numeral : Numeral) : List Char :=
  (if numeral.negative then ['-'] else [])
    ++ Digit.spell numeral.whole
    ++ fractionChars numeral.fraction
    ++ exponentChars numeral.exponent

/-- A whole part has no leading zero. -/
def readWhole? : List Digit → Option Nat
  | [] => none
  | [digit] => some digit.val
  | first :: rest => if first.isZero then none else some (Digit.value (first :: rest))

/-- Read an exponent up to the end of the text. -/
def readExponent? : List Char → Option (Option Int)
  | [] => some none
  | mark :: rest =>
      if mark = 'e' ∨ mark = 'E' then
        let (negative, digits) :=
          match rest with
          | '-' :: digits => (true, digits)
          | '+' :: digits => (false, digits)
          | digits => (false, digits)
        match Digit.scan digits with
        | (first :: more, []) =>
            let magnitude : Int := Digit.value (first :: more)
            some (some (if negative then -magnitude else magnitude))
        | _ => none
      else
        none

/-- Read an unsigned numeral up to the end of the text. -/
def readMagnitude? (negative : Bool) (text : List Char) : Option Numeral := do
  let (whole, afterWhole) := Digit.scan text
  let whole ← readWhole? whole
  match afterWhole with
  | '.' :: rest =>
      match Digit.scan rest with
      | ([], _) => none
      | (fraction, afterFraction) =>
          let exponent ← readExponent? afterFraction
          return ⟨negative, whole, fraction, exponent⟩
  | rest =>
      let exponent ← readExponent? rest
      return ⟨negative, whole, [], exponent⟩

/-- Read a numeral that takes up the whole text. -/
def read? : List Char → Option Numeral
  | '-' :: rest => readMagnitude? true rest
  | text => readMagnitude? false text

/-- The magnitude a numeral spells. -/
def magnitude (numeral : Numeral) : Decimal :=
  ⟨numeral.whole * power 10 numeral.fraction.length + Digit.value numeral.fraction,
    numeral.exponent.getD 0 - numeral.fraction.length⟩

/-- The number of a format nearest to a numeral. -/
def toBinary (format : Format) (numeral : Numeral) : Binary format :=
  Binary.ofDecimal format numeral.negative numeral.magnitude

/-- Integers are kept as such within 64 bits, signed or unsigned. -/
def keptInteger (value : Int) : Bool :=
  -(power 2 63 : Int) ≤ value && value < power 2 64

/--
The integer a numeral stands for.  Fractions, exponents, a negative zero and
integers past 64 bits stand for floating point numbers instead.
-/
def integer? (numeral : Numeral) : Option Int :=
  if numeral.fraction = [] ∧ numeral.exponent = none then
    let value : Int := if numeral.negative then -(numeral.whole : Int) else numeral.whole
    if (numeral.negative ∧ numeral.whole = 0) ∨ keptInteger value = false then
      none
    else
      some value
  else
    none

end Numeral

/--
How decimals are laid out: a leading digit whose power of ten is in the range
is written in place, any other number with an exponent.
-/
structure Layout where
  least : Int
  greatest : Int
  deriving Repr, DecidableEq

namespace Layout

/-- 64-bit numbers are written in place from 0.00001 up to sixteen whole digits. -/
def double : Layout :=
  ⟨-5, 15⟩

/-- 32-bit numbers are written in place from 0.000001 up to thirteen whole digits. -/
def single : Layout :=
  ⟨-6, 12⟩

/--
The numeral of a decimal.  In place there is always a fraction part; with an
exponent the fraction is left out when it is empty.
-/
def numeral (layout : Layout) (negative : Bool) (decimal : Decimal) : Numeral :=
  let digits := Digit.ofNat decimal.digits
  let leading : Int := digits.length - 1 + decimal.exponent
  if decimal.digits = 0 then
    ⟨negative, 0, [Digit.last 0], none⟩
  else if layout.least ≤ leading ∧ leading ≤ layout.greatest then
    if 0 ≤ decimal.exponent then
      ⟨negative, decimal.digits * power 10 decimal.exponent.toNat, [Digit.last 0], none⟩
    else
      let places := (-decimal.exponent).toNat
      ⟨negative, decimal.digits / power 10 places, Digit.padded places decimal.digits, none⟩
  else
    ⟨negative, Digit.value (digits.take 1), digits.drop 1, some leading⟩

end Layout

namespace Finite

/-- The numeral a number is written as. -/
def numeral {format : Format} (layout : Layout) (value : Finite format) : Numeral :=
  layout.numeral value.negative value.shortest

/-- The number written out in place, a whole number without a fraction part. -/
def plainText {format : Format} (value : Finite format) : String :=
  let written :=
    value.numeral ⟨-(format.depth : Int), format.exponents⟩
  String.ofList
    (if written.fraction.all Digit.isZero then { written with fraction := [] } else written).chars

end Finite

end SynthGraph
