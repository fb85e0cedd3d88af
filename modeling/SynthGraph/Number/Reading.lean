import SynthGraph.Number.Numeral

namespace SynthGraph

/-!
# Numerals of documents as 64-bit numbers

Numerals in documents and files are read in two roundings.  The leading digits,
as many as 64 bits can count, are rounded to a number of their own; that number
is then scaled by a power of ten and rounded again.  Short numerals are not
affected, but a numeral of sixteen or more digits may end up next to the number
that is nearest to it.
-/

namespace Digit

/--
Append digits to a count, up to the first one that would take it past 64 bits.
Handed back are the count and how many digits were left out.
-/
def append (count : Nat) : List Digit → Nat × Nat
  | [] => (count, 0)
  | digit :: rest =>
      let longer := 10 * count + digit.val
      if longer < power 2 64 then
        append longer rest
      else
        (count, rest.length + 1)

end Digit

namespace Numeral

/--
The leading digits of a numeral.  Digits of the whole part that are left out
still count for its size, those of the fraction are dropped.
-/
def leading (numeral : Numeral) : Decimal :=
  let (whole, wholeLeft) := Digit.append 0 (Digit.ofNat numeral.whole)
  let (digits, fractionLeft) := Digit.append whole numeral.fraction
  let places : Int := numeral.fraction.length - fractionLeft
  ⟨digits, wholeLeft - places + numeral.exponent.getD 0⟩

end Numeral

namespace Decimal

/-- The greatest power of ten among 64-bit numbers. -/
def greatestPower : Nat := 308

/-- The 64-bit number nearest to a power of ten; none if the power is too large. -/
def powerOfTen? (exponent : Nat) : Option (Finite Format.double) :=
  if exponent ≤ greatestPower then
    (Binary.ofNat Format.double (power 10 exponent)).finite?
  else
    none

/-- A number divided by a power of ten, in two steps if the power is too large for one. -/
def scaleDown? (number : Finite Format.double) (places : Nat) :
    Option (Finite Format.double) := do
  if places ≤ greatestPower then
    number.over? (← powerOfTen? places)
  else
    let smaller ← number.over? (← powerOfTen? greatestPower)
    smaller.over? (← powerOfTen? (places - greatestPower))

/--
The number that a decimal is read as: its digits rounded, then scaled and
rounded again.  Nothing is left of what is divided by more than two powers of
ten, and numbers that are too large are not read.
-/
def scaled? (negative : Bool) (decimal : Decimal) : Option (Finite Format.double) := do
  let zero ← (Binary.ofFraction Format.double negative 0 1).finite?
  let digits ← (Binary.ofFraction Format.double negative decimal.digits 1).finite?
  if decimal.digits = 0 then
    return zero
  else if 0 ≤ decimal.exponent then
    digits.times? (← powerOfTen? decimal.exponent.toNat)
  else if (-decimal.exponent).toNat ≤ 2 * greatestPower then
    scaleDown? digits (-decimal.exponent).toNat
  else
    return zero

end Decimal

/-- The 64-bit number that a numeral of a document is read as; none if it is too large. -/
def Numeral.double? (numeral : Numeral) : Option (Finite Format.double) :=
  numeral.leading.scaled? numeral.negative

end SynthGraph
