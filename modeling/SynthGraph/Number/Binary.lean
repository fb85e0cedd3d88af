import SynthGraph.Number.Power

namespace SynthGraph

/-!
# Binary floating point numbers

A format lists its non-negative finite values in increasing order, and a finite
number is a sign together with its place in that list.  The place determines
the value exactly, so comparison is comparison of places and conversion between
formats is one rounding of an exact fraction.

Main statement: rounding the exact value of a finite number gives back its
place (`Format.nearest_numerator`).
-/

/--
A binary format.  Its finite values are counted in smallest positive values, of
which a power of two of exponent `depth` make up one.  They are the counts that
`precision` significant bits can hold, up to the last of its exponents.
-/
structure Format where
  precision : Nat
  exponents : Nat
  depth : Nat
  deriving Repr, DecidableEq

namespace Format

/-- Numbers of 64 bits, used for dials and documents. -/
def double : Format :=
  ⟨53, 2047, 1074⟩

/-- Numbers of 32 bits, used for places in the editor. -/
def single : Format :=
  ⟨24, 255, 149⟩

/-- How many values share one exponent. -/
def binade (format : Format) : Nat :=
  power 2 (format.precision - 1)

/-- How many smallest positive values make up one. -/
def one (format : Format) : Nat :=
  power 2 format.depth

/-- The first rank past the finite values. -/
def limit (format : Format) : Nat :=
  format.exponents * format.binade

/-- The significand of the value at a rank, the hidden bit included. -/
def significand (format : Format) (rank : Nat) : Nat :=
  if rank < format.binade then rank else format.binade + rank % format.binade

/-- The value at a rank, counted in smallest positive values. -/
def numerator (format : Format) (rank : Nat) : Nat :=
  format.significand rank * power 2 (rank / format.binade - 1)

/-- A quotient rounded to the nearest natural number, a half to the even one. -/
def roundedQuotient (dividend divisor : Nat) : Nat :=
  let quotient := dividend / divisor
  let remainder := dividend % divisor
  if 2 * remainder < divisor then
    quotient
  else if divisor < 2 * remainder then
    quotient + 1
  else
    quotient + quotient % 2

/--
The rank of the value nearest to a fraction, a half going to the even
significand.  Ranks at or past the limit stand for fractions too large for the
format.
-/
def nearest (format : Format) (dividend divisor : Nat) : Nat :=
  let scaled := dividend * format.one
  let dropped := Nat.log2 (scaled / divisor) - (format.precision - 1)
  roundedQuotient scaled (divisor * power 2 dropped) + dropped * format.binade

/-- A binade is never empty. -/
theorem binade_pos (format : Format) : 0 < format.binade :=
  power_pos (by decide) _

/-- There is a smallest positive value. -/
theorem one_pos (format : Format) : 0 < format.one :=
  power_pos (by decide) _

/-- A quotient without remainder is not rounded. -/
theorem roundedQuotient_mul
    (quotient : Nat)
    {divisor : Nat}
    (positive : 0 < divisor) :
    roundedQuotient (quotient * divisor) divisor = quotient := by
  simp [roundedQuotient, Nat.mul_div_cancel _ positive, positive]

/-- A common factor of dividend and divisor does not change a rounded quotient. -/
theorem roundedQuotient_mul_mul
    (dividend divisor : Nat)
    {factor : Nat}
    (positive : 0 < factor) :
    roundedQuotient (dividend * factor) (divisor * factor)
      = roundedQuotient dividend divisor := by
  have below :
      2 * (dividend % divisor * factor) < divisor * factor
        ↔ 2 * (dividend % divisor) < divisor := by
    rw [← Nat.mul_assoc]
    exact Nat.mul_lt_mul_right positive
  have above :
      divisor * factor < 2 * (dividend % divisor * factor)
        ↔ divisor < 2 * (dividend % divisor) := by
    rw [← Nat.mul_assoc]
    exact Nat.mul_lt_mul_right positive
  simp only [roundedQuotient, Nat.mul_div_mul_right _ _ positive,
    Nat.mul_mod_mul_right, below, above]

/-- A common factor of dividend and divisor does not change the nearest rank. -/
theorem nearest_mul_mul
    (format : Format)
    (dividend divisor : Nat)
    {factor : Nat}
    (positive : 0 < factor) :
    format.nearest (dividend * factor) (divisor * factor)
      = format.nearest dividend divisor := by
  unfold nearest
  have scaled :
      dividend * factor * format.one = dividend * format.one * factor := by
    rw [Nat.mul_right_comm]
  simp only [scaled, Nat.mul_div_mul_right _ _ positive]
  rw [Nat.mul_right_comm divisor factor, roundedQuotient_mul_mul _ _ positive]

/-- A significand of a rank past the first binade has its leading bit set. -/
theorem log2_significand
    (format : Format)
    {rank : Nat}
    (large : format.binade ≤ rank) :
    Nat.log2 (format.significand rank) = format.precision - 1 := by
  have positive := format.binade_pos
  have below : rank % format.binade < format.binade := Nat.mod_lt _ positive
  have shape : format.significand rank = format.binade + rank % format.binade := by
    simp [significand, Nat.not_lt.mpr large]
  rw [shape]
  apply log2_eq_of_power
  · exact Nat.le_add_right _ _
  · rw [power_succ]
    unfold binade at *
    omega

/-- Rounding the exact value at a rank gives the rank back. -/
theorem nearest_numerator
    (format : Format)
    (rank : Nat) :
    format.nearest (format.numerator rank) format.one = rank := by
  have positive := format.binade_pos
  have step := format.one_pos
  unfold nearest
  simp only [Nat.mul_div_cancel _ step]
  by_cases small : rank < format.binade
  · have value : format.numerator rank = rank := by
      simp [numerator, significand, small, Nat.div_eq_of_lt small, power_zero]
    have bits : Nat.log2 rank - (format.precision - 1) = 0 := by
      by_cases zero : rank = 0
      · simp [zero]
      · have := log2_lt_of_lt_power zero small
        omega
    rw [value, bits]
    simp [power_zero, roundedQuotient_mul rank step]
  · have large : format.binade ≤ rank := Nat.not_lt.mp small
    have leading := format.log2_significand large
    have nonzero : format.significand rank ≠ 0 := by
      simp only [significand, small, if_false]
      omega
    have quotient : 1 ≤ rank / format.binade :=
      (Nat.one_le_div_iff positive).mpr large
    have bits :
        Nat.log2 (format.numerator rank) - (format.precision - 1)
          = rank / format.binade - 1 := by
      rw [numerator, log2_mul_power nonzero, leading]
      omega
    rw [bits]
    have regroup :
        format.numerator rank * format.one
          = format.significand rank
            * (format.one * power 2 (rank / format.binade - 1)) := by
      rw [numerator, Nat.mul_assoc, Nat.mul_comm (power 2 _) format.one]
    rw [regroup, roundedQuotient_mul _ (Nat.mul_pos step (power_pos (by decide) _))]
    simp only [significand, small, if_false]
    have split := Nat.div_add_mod rank format.binade
    have one : (rank / format.binade - 1) * format.binade + format.binade
        = format.binade * (rank / format.binade) := by
      rw [← Nat.succ_mul, Nat.succ_eq_add_one, Nat.sub_add_cancel quotient, Nat.mul_comm]
    omega

end Format

/-- A finite number: its sign and the rank of its magnitude. -/
structure Finite (format : Format) where
  negative : Bool
  rank : Fin format.limit
  deriving Repr, DecidableEq

/-- A number of a binary format. -/
inductive Binary (format : Format) where
  | finite (value : Finite format)
  | infinite (negative : Bool)
  | notANumber
  deriving Repr, DecidableEq

/-- A 64-bit number. -/
abbrev Double := Binary Format.double

/-- A 32-bit number. -/
abbrev Single := Binary Format.single

namespace Finite

variable {format : Format}

/-- The magnitude, counted in smallest positive values. -/
def numerator (value : Finite format) : Nat :=
  format.numerator value.rank

/-- Where the number stands in the order of all numbers; both zeros stand at 0. -/
def place (value : Finite format) : Int :=
  if value.negative then -(value.rank.val : Int) else value.rank.val

/-- The integer a number equals, if it has no fractional part. -/
def whole? (value : Finite format) : Option Int :=
  if value.numerator % format.one = 0 then
    let magnitude : Int := (value.numerator / format.one : Nat)
    some (if value.negative then -magnitude else magnitude)
  else
    none

end Finite

namespace Binary

variable {format : Format}

/-- The number of the given sign nearest to a fraction. -/
def ofFraction
    (format : Format)
    (negative : Bool)
    (dividend divisor : Nat) :
    Binary format :=
  if bounded : format.nearest dividend divisor < format.limit then
    .finite ⟨negative, ⟨format.nearest dividend divisor, bounded⟩⟩
  else
    .infinite negative

/-- The number nearest to an integer; zero is positive. -/
def ofInt (format : Format) (value : Int) : Binary format :=
  ofFraction format (value < 0) value.natAbs 1

/-- The number nearest to a natural number. -/
def ofNat (format : Format) (value : Nat) : Binary format :=
  ofFraction format false value 1

/-- The nearest number of another format. -/
def convert (target : Format) : Binary format → Binary target
  | .finite value =>
      ofFraction target value.negative value.numerator format.one
  | .infinite negative =>
      .infinite negative
  | .notANumber =>
      .notANumber

/-- The finite number this is, if it is one. -/
def finite? : Binary format → Option (Finite format)
  | .finite value => some value
  | _ => none

/-- Where the number stands in the order; a value that is no number has no place. -/
def place? : Binary format → Option Int
  | .finite value => some value.place
  | .infinite true => some (-(format.limit : Int))
  | .infinite false => some format.limit
  | .notANumber => none

/-- Numerical order, false as soon as one side is not a number. -/
def less (left right : Binary format) : Bool :=
  match left.place?, right.place? with
  | some first, some second => decide (first < second)
  | _, _ => false

/-- Numerical equality: both zeros are equal, and what is no number equals nothing. -/
def same (left right : Binary format) : Bool :=
  match left.place?, right.place? with
  | some first, some second => decide (first = second)
  | _, _ => false

/-- The numerical order between two numbers that both exist. -/
def atMost (left right : Binary format) : Bool :=
  left.less right || left.same right

/-- A finite number is the nearest one to its own exact value. -/
theorem ofFraction_numerator (value : Finite format) :
    ofFraction format value.negative value.numerator format.one
      = .finite value := by
  have exact := format.nearest_numerator value.rank
  unfold ofFraction Finite.numerator
  simp [exact]

/-- Converting to the same format changes nothing. -/
theorem convert_self (number : Binary format) :
    number.convert format = number := by
  cases number with
  | finite value => exact ofFraction_numerator value
  | infinite negative => rfl
  | notANumber => rfl

end Binary

namespace Finite

variable {format : Format}

/-- The product of two numbers, rounded once; none if it is too large. -/
def times? (left right : Finite format) : Option (Finite format) :=
  (Binary.ofFraction format (left.negative != right.negative)
    (left.numerator * right.numerator) (format.one * format.one)).finite?

/-- The quotient of a number by one that is not zero, rounded once; none if it is too large. -/
def over? (left right : Finite format) : Option (Finite format) :=
  (Binary.ofFraction format (left.negative != right.negative)
    left.numerator right.numerator).finite?

end Finite

end SynthGraph
