import SynthGraph.Number.Binary

namespace SynthGraph

/-!
# Decimal numbers and the shortest decimal of a binary number

A decimal is a count of powers of ten.  Reading one rounds its exact value once.
Writing a binary number looks for the fewest digits that read back as the same
number, takes the nearer of two such decimals, and lets an exact tie go to the
even digit.

Main statement: the shortest decimal of a number reads back as that number
(`Finite.ofDecimal_shortest`).
-/

/-- A decimal digit. -/
abbrev Digit := Fin 10

namespace Digit

/-- The last decimal digit of a number. -/
def last (number : Nat) : Digit :=
  Fin.ofNat 10 number

/-- Whether a digit is zero. -/
def isZero (digit : Digit) : Bool :=
  digit.val = 0

/-- The last `places` decimal digits of a number, put in front of `rest`. -/
def paddedOnto : (places number : Nat) → (rest : List Digit) → List Digit
  | 0, _, rest => rest
  | places + 1, number, rest =>
      paddedOnto places (number / 10) (last number :: rest)

/-- The last `places` decimal digits of a number, zeros included. -/
def padded (places number : Nat) : List Digit :=
  paddedOnto places number []

/-- The decimal digits of a number, without leading zeros; zero has one digit. -/
def ofNat (number : Nat) : List Digit :=
  match (padded (Nat.log2 number + 1) number).dropWhile isZero with
  | [] => [last 0]
  | first :: rest => first :: rest

/-- The number a list of digits spells. -/
def value (digits : List Digit) : Nat :=
  digits.foldl (fun number digit => 10 * number + digit.val) 0

end Digit

/-- A count of the power of ten of an exponent. -/
structure Decimal where
  digits : Nat
  exponent : Int
  deriving Repr, DecidableEq

namespace Decimal

/-- A count of powers of ten; a count of one digit more than `length` is one power. -/
def ofCount (length count : Nat) (exponent : Int) : Decimal :=
  if count = power 10 length then ⟨1, exponent + length⟩ else ⟨count, exponent⟩

/-- The dividend of a decimal written as a fraction. -/
def dividend (decimal : Decimal) : Nat :=
  decimal.digits * power 10 decimal.exponent.toNat

/-- The divisor of a decimal written as a fraction. -/
def divisor (decimal : Decimal) : Nat :=
  power 10 (-decimal.exponent).toNat

end Decimal

namespace Binary

/--
The number of the given sign nearest to a decimal.  A decimal far outside the
format is settled by its exponent alone, without computing its value.
-/
def ofDecimal
    (format : Format)
    (negative : Bool)
    (decimal : Decimal) :
    Binary format :=
  if decimal.digits = 0 then
    ofFraction format negative 0 1
  else if format.exponents < decimal.exponent then
    .infinite negative
  else if decimal.exponent + Nat.log2 decimal.digits + 1 < -(format.depth : Int) then
    ofFraction format negative 0 1
  else
    ofFraction format negative decimal.dividend decimal.divisor

end Binary

/-- A natural number literal of a binary format. -/
instance {format : Format} {value : Nat} : OfNat (Binary format) value :=
  ⟨Binary.ofNat format value⟩

/-- A decimal literal of a binary format. -/
instance {format : Format} : OfScientific (Binary format) where
  ofScientific digits below exponent :=
    Binary.ofDecimal format false ⟨digits, if below then -(exponent : Int) else exponent⟩

/-- The same number with the other sign. -/
instance {format : Format} : Neg (Binary format) where
  neg
    | .finite value => .finite { value with negative := !value.negative }
    | .infinite negative => .infinite !negative
    | .notANumber => .notANumber

namespace Finite

variable {format : Format}

/-- The magnitude of a number as a decimal, with every digit. -/
def exactDecimal (value : Finite format) : Decimal :=
  ⟨value.numerator * power 5 format.depth, -(format.depth : Int)⟩

/-- Whether a decimal is read as the magnitude of this number. -/
def isReadFrom (value : Finite format) (decimal : Decimal) : Bool :=
  Binary.ofDecimal format value.negative decimal = .finite value

/-- The power of ten of the leading decimal digit of a positive fraction. -/
def leadingExponent (dividend divisor : Nat) : Int :=
  if divisor ≤ dividend then
    (Digit.ofNat (dividend / divisor)).length - 1
  else
    -((Digit.ofNat ((divisor - 1) / dividend)).length : Int)

/--
The multiples of a power of ten next to a fraction, the nearer one first and
the even one first when both are equally near.
-/
def neighbours (dividend divisor : Nat) (exponent : Int) : List Nat :=
  let dividend := dividend * power 10 (-exponent).toNat
  let divisor := divisor * power 10 exponent.toNat
  let below := dividend / divisor
  let remainder := dividend % divisor
  if remainder = 0 then
    [below]
  else if 2 * remainder < divisor then
    [below, below + 1]
  else if divisor < 2 * remainder then
    [below + 1, below]
  else if below % 2 = 0 then
    [below, below + 1]
  else
    [below + 1, below]

/-- The decimal of a given number of digits that stands for this number, if any does. -/
def decimalOfLength? (value : Finite format) (length : Nat) : Option Decimal :=
  let exponent := leadingExponent value.numerator format.one + 1 - length
  ((neighbours value.numerator format.one exponent).map
    (Decimal.ofCount length · exponent)).find? value.isReadFrom

/-- The shortest decimal that is read as the magnitude of this number. -/
def shortest (value : Finite format) : Decimal :=
  if value.numerator = 0 then
    ⟨0, 0⟩
  else
    ((List.range format.precision).findSome? fun index =>
      value.decimalOfLength? (index + 1)).getD value.exactDecimal

end Finite

namespace Format

/-- Only rank zero stands for the value zero. -/
theorem rank_of_numerator_zero
    (format : Format)
    {rank : Nat}
    (zero : format.numerator rank = 0) :
    rank = 0 := by
  have positive := format.binade_pos
  unfold numerator significand at zero
  have factor := Nat.mul_eq_zero.mp zero
  rcases factor with significandZero | powerZero
  · split at significandZero <;> omega
  · exact absurd powerZero (power_ne_zero (by decide) _)

end Format

namespace Finite

variable {format : Format}

/-- Writing every digit loses nothing. -/
theorem ofDecimal_exactDecimal
    (value : Finite format)
    (positive : value.numerator ≠ 0) :
    Binary.ofDecimal format value.negative value.exactDecimal = .finite value := by
  have digits : value.exactDecimal.digits ≠ 0 :=
    Nat.mul_ne_zero positive (power_ne_zero (by decide) _)
  have small : ¬ ((format.exponents : Int) < value.exactDecimal.exponent) := by
    simp only [exactDecimal]
    omega
  have large :
      ¬ (value.exactDecimal.exponent + Nat.log2 value.exactDecimal.digits + 1
          < -(format.depth : Int)) := by
    simp only [exactDecimal]
    omega
  unfold Binary.ofDecimal
  simp only [digits, small, large, if_false]
  have dividend : value.exactDecimal.dividend = value.numerator * power 5 format.depth := by
    simp only [Decimal.dividend, exactDecimal]
    have : (-(format.depth : Int)).toNat = 0 := by omega
    rw [this, power_zero, Nat.mul_one]
  have divisor : value.exactDecimal.divisor = format.one * power 5 format.depth := by
    simp only [Decimal.divisor, exactDecimal, Int.neg_neg, Int.toNat_natCast]
    exact mul_power 2 5 format.depth
  have scale : 0 < power 5 format.depth := power_pos (by decide) _
  have exact := Binary.ofFraction_numerator value
  unfold Binary.ofFraction at exact ⊢
  simp only [dividend, divisor, format.nearest_mul_mul _ _ scale]
  exact exact

/-- A shortest decimal of zero is zero itself. -/
private theorem ofDecimal_zero
    (value : Finite format)
    (zero : value.numerator = 0) :
    Binary.ofDecimal format value.negative ⟨0, 0⟩ = .finite value := by
  have exact := Binary.ofFraction_numerator value
  rw [zero] at exact
  have ranks : format.nearest 0 format.one = format.nearest 0 1 := by
    simp [Format.nearest, Format.roundedQuotient, format.one_pos, power_zero]
  unfold Binary.ofFraction at exact
  unfold Binary.ofDecimal Binary.ofFraction
  simp only [ranks] at exact
  simpa using exact

/-- The shortest decimal of a number is read as that number. -/
theorem ofDecimal_shortest (value : Finite format) :
    Binary.ofDecimal format value.negative value.shortest = .finite value := by
  unfold shortest
  split
  next zero => exact ofDecimal_zero value zero
  next positive =>
    cases found :
        (List.range format.precision).findSome? fun index =>
          value.decimalOfLength? (index + 1) with
    | none => exact ofDecimal_exactDecimal value positive
    | some decimal =>
        obtain ⟨index, _, chosen⟩ := List.exists_of_findSome?_eq_some found
        have accepted := List.find?_some chosen
        simpa [isReadFrom] using accepted

end Finite

end SynthGraph
