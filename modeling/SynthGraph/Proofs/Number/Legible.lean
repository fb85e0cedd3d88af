import SynthGraph.Number.Reading
import SynthGraph.Proofs.Number.Rounding
import SynthGraph.Proofs.Number.Written

namespace SynthGraph

/-!
# Numbers whose written form is read

A numeral is not read if it is too large for 64 bits, and a numeral near the
limit may be read as too large after two roundings.  Far below the limit there
is room for both roundings, so every number there is read from its written
form, though perhaps as its neighbour.

Main statement: `Finite.isSome_double?_numeral`.
-/

namespace Digit

/-- Digits that do not go past 64 bits are all counted. -/
theorem append_eq
    {count : Nat}
    {digits : List Digit}
    (below : count * 10 ^ digits.length + value digits < 2 ^ 64) :
    append count digits = (count * 10 ^ digits.length + value digits, 0) := by
  induction digits generalizing count with
  | nil => simp [append, value]
  | cons digit rest inductionHypothesis =>
      have spelled :
          count * 10 ^ (digit :: rest).length + value (digit :: rest)
            = (10 * count + digit.val) * 10 ^ rest.length + value rest := by
        rw [List.length_cons, pow_succ, value_cons]
        ring
      rw [spelled] at below ⊢
      have longer : 10 * count + digit.val < power 2 64 :=
        (Nat.le_mul_of_pos_right _ (Nat.pow_pos (by decide))).trans_lt
          ((Nat.le_add_right _ _).trans_lt below)
      rw [append, if_pos longer, inductionHypothesis below]

/-- A count of digits stays within 64 bits, and no more digits are left out than there are. -/
theorem append_bounds
    {count : Nat}
    (below : count < 2 ^ 64)
    (digits : List Digit) :
    (append count digits).1 < 2 ^ 64 ∧ (append count digits).2 ≤ digits.length := by
  induction digits generalizing count with
  | nil => exact ⟨below, Nat.le_refl 0⟩
  | cons digit rest inductionHypothesis =>
      simp only [append]
      split
      next longer =>
        have bounds := inductionHypothesis longer
        exact ⟨bounds.1, bounds.2.trans (by simp)⟩
      next => exact ⟨below, by simp⟩

end Digit

namespace Decimal

/-- With digits of 64 bits, an exponent up to this one stays well below the limit. -/
def safeExponent : Nat := 280

/--
What follows a number is done with it.  The library has this for `Option.bind`,
and passing between the two forms would unfold the arithmetic of the numbers.
-/
private theorem some_bind
    {α β : Type}
    (value : α)
    (next : α → Option β) :
    (some value >>= next) = next value :=
  rfl

/-- A natural number below 2 ^ 1020 is rounded to a finite number. -/
private theorem nearest_lt_limit
    {value : Nat}
    (below : value < 2 ^ 1020) :
    Format.double.nearest value 1 < Format.double.limit := by
  have sum : 1020 + Format.double.depth = Format.double.fractionDigits + 2042 := rfl
  have small :
      value * Format.double.one / 1 < 2 ^ (Format.double.fractionDigits + 2042) := by
    rw [Nat.div_one, Format.one_eq_pow, ← sum, pow_add]
    exact Nat.mul_lt_mul_of_pos_right below (Nat.two_pow_pos _)
  have room : 2042 + 1 < Format.double.exponents := by decide
  exact (Format.nearest_le small).trans_lt
    (Nat.mul_lt_mul_of_pos_right room Format.double.binade_pos)

/-- Powers of ten are finite and not below one, and a safe exponent leaves room for digits. -/
theorem exists_powerOfTen?
    {exponent : Nat}
    (bounded : exponent ≤ greatestPower) :
    ∃ power,
      powerOfTen? exponent = some power ∧ Format.double.one ≤ power.numerator ∧
        (exponent ≤ safeExponent → power.numerator ≤ 2 ^ (Format.double.fractionDigits + 1953)) := by
  have finite : Format.double.nearest (power 10 exponent) 1 < Format.double.limit := by
    rcases Nat.lt_or_eq_of_le bounded with smaller | greatest
    · refine nearest_lt_limit ?_
      calc 10 ^ exponent
          ≤ 10 ^ 307 := Nat.pow_le_pow_right (by decide) (Nat.le_of_lt_succ smaller)
        _ < 2 ^ 1020 := by decide +kernel
    · -- The greatest power is in the last binade, where only its exact value decides.
      rw [greatest]
      decide +kernel
  refine ⟨⟨false, ⟨_, finite⟩⟩, ?_, ?_, fun safe => ?_⟩
  · rw [powerOfTen?, if_pos bounded, Binary.ofNat, Binary.ofFraction, dif_pos finite,
      Binary.finite?]
  · have sum : Format.double.depth = Format.double.fractionDigits + 1022 := rfl
    have reaches :
        2 ^ (Format.double.fractionDigits + 1022)
          ≤ power 10 exponent * Format.double.one / 1 := by
      rw [Nat.div_one, Format.one_eq_pow, ← sum]
      exact Nat.le_mul_of_pos_left _ (power_pos (by decide) _)
    have bound := Format.le_numerator (Format.le_nearest reaches)
    rwa [← sum, ← Format.one_eq_pow] at bound
  · have sum : 931 + Format.double.depth = Format.double.fractionDigits + 1953 := rfl
    have small :
        power 10 exponent * Format.double.one / 1
          < 2 ^ (Format.double.fractionDigits + 1953) := by
      rw [Nat.div_one, Format.one_eq_pow, ← sum, pow_add]
      refine Nat.mul_lt_mul_of_pos_right ?_ (Nat.two_pow_pos _)
      calc 10 ^ exponent
          ≤ 10 ^ safeExponent := Nat.pow_le_pow_right (by decide) safe
        _ < 2 ^ 931 := by decide +kernel
    exact Format.numerator_le (Format.nearest_le small)

/-- A number is divided by any two powers of ten. -/
private theorem isSome_scaleDown?
    {number : Finite Format.double}
    {digits places : Nat}
    (within : number.Within digits)
    (room : digits + 3 < Format.double.exponents)
    (bounded : places ≤ 2 * greatestPower) :
    (scaleDown? number places).isSome := by
  unfold scaleDown?
  by_cases single : places ≤ greatestPower
  · obtain ⟨power, isPower, atLeastOne, _⟩ := exists_powerOfTen? single
    obtain ⟨quotient, isQuotient, _⟩ :=
      Finite.exists_over? within atLeastOne (Nat.lt_of_succ_lt room)
    rw [if_pos single, isPower, some_bind, isQuotient, Option.isSome_some]
  · have rest : places - greatestPower ≤ greatestPower := by omega
    obtain ⟨first, isFirst, firstAtLeastOne, _⟩ := exists_powerOfTen? (Nat.le_refl greatestPower)
    obtain ⟨second, isSecond, secondAtLeastOne, _⟩ := exists_powerOfTen? rest
    obtain ⟨smaller, isSmaller, smallerWithin⟩ :=
      Finite.exists_over? within firstAtLeastOne (Nat.lt_of_succ_lt room)
    obtain ⟨quotient, isQuotient, _⟩ := Finite.exists_over? smallerWithin secondAtLeastOne room
    rw [if_neg single, isFirst, some_bind, isSmaller, some_bind, isSecond, some_bind, isQuotient,
      Option.isSome_some]

/-- Digits of 64 bits are read with any exponent up to the safe one. -/
theorem isSome_scaled?
    (negative : Bool)
    {decimal : Decimal}
    (digitsBelow : decimal.digits < 2 ^ 64)
    (safe : decimal.exponent ≤ safeExponent) :
    (decimal.scaled? negative).isSome := by
  have zeroSmall :
      0 * Format.double.one / 1 < 2 ^ (Format.double.fractionDigits + 0) := by
    rw [Nat.zero_mul, Nat.zero_div]
    exact Nat.two_pow_pos _
  obtain ⟨zero, isZero, _⟩ :=
    Binary.exists_finite_ofFraction negative zeroSmall (by decide)
  have sum : 64 + Format.double.depth = Format.double.fractionDigits + 1086 := rfl
  have below :
      decimal.digits * Format.double.one / 1 < 2 ^ (Format.double.fractionDigits + 1086) := by
    rw [Nat.div_one, Format.one_eq_pow, ← sum, pow_add]
    exact Nat.mul_lt_mul_of_pos_right digitsBelow (Nat.two_pow_pos _)
  obtain ⟨digits, isDigits, digitsWithin⟩ :=
    Binary.exists_finite_ofFraction negative below (by decide)
  rw [scaled?, isZero, isDigits, Binary.finite?, Binary.finite?, some_bind, some_bind]
  split
  next => rfl
  next =>
    split
    next whole =>
      have bounded : decimal.exponent.toNat ≤ safeExponent := by omega
      obtain ⟨power, isPower, _, powerBound⟩ :=
        exists_powerOfTen? (Nat.le_trans bounded (by decide))
      rw [isPower, some_bind]
      exact Finite.isSome_times? 2018 digitsWithin.numerator_le (powerBound bounded)
        (by decide) (by decide)
    next =>
      split
      next bounded => exact isSome_scaleDown? digitsWithin (by decide) bounded
      next => rfl

end Decimal

namespace Numeral

/-- A numeral with a whole part of 64 bits is read with any exponent up to the safe one. -/
theorem isSome_double?
    {numeral : Numeral}
    (wholeBelow : numeral.whole < 2 ^ 64)
    (safe : numeral.exponent.getD 0 ≤ Decimal.safeExponent) :
    numeral.double?.isSome := by
  have whole : Digit.append 0 (Digit.ofNat numeral.whole) = (numeral.whole, 0) := by
    have below :
        0 * 10 ^ (Digit.ofNat numeral.whole).length + Digit.value (Digit.ofNat numeral.whole)
          < 2 ^ 64 := by
      simpa using wholeBelow
    simpa using Digit.append_eq below
  have bounds := Digit.append_bounds wholeBelow numeral.fraction
  have leading :
      numeral.leading
        = ⟨(Digit.append numeral.whole numeral.fraction).1,
            0 - ((numeral.fraction.length : Int)
              - (Digit.append numeral.whole numeral.fraction).2) + numeral.exponent.getD 0⟩ := by
    simp [Numeral.leading, whole]
  rw [double?, leading]
  refine Decimal.isSome_scaled? numeral.negative bounds.1 ?_
  simp only
  omega

end Numeral

namespace Layout

/-- The power of ten of the leading digit of a decimal. -/
def leadingPower (decimal : Decimal) : Int :=
  (Digit.ofNat decimal.digits).length - 1 + decimal.exponent

/-- The numeral of a decimal that is not too large has a short whole part or a safe exponent. -/
theorem isSome_double?_numeral
    {layout : Layout}
    (short : layout.greatest ≤ 18)
    (negative : Bool)
    {decimal : Decimal}
    (safe : decimal.digits ≠ 0 → leadingPower decimal ≤ Decimal.safeExponent) :
    (layout.numeral negative decimal).double?.isSome := by
  have digitsBelow : decimal.digits < 10 ^ (Digit.ofNat decimal.digits).length := by
    have below := Digit.value_lt (Digit.ofNat decimal.digits)
    rwa [Digit.value_ofNat] at below
  have short64 : 10 ^ 19 < 2 ^ 64 := by decide
  have noExponent : (0 : Int) ≤ Decimal.safeExponent := by decide
  simp only [numeral]
  split
  next => exact Numeral.isSome_double? (Nat.two_pow_pos 64) noExponent
  next nonzero =>
    have leadingSafe := safe nonzero
    unfold leadingPower at leadingSafe
    split
    next inPlace =>
      split
      next whole =>
        refine Numeral.isSome_double? ?_ noExponent
        obtain ⟨exponent, isExponent⟩ := Int.eq_ofNat_of_zero_le whole
        rw [isExponent] at inPlace ⊢
        calc decimal.digits * 10 ^ exponent
            < 10 ^ (Digit.ofNat decimal.digits).length * 10 ^ exponent :=
              Nat.mul_lt_mul_of_pos_right digitsBelow (Nat.pow_pos (by decide))
          _ = 10 ^ ((Digit.ofNat decimal.digits).length + exponent) := (pow_add _ _ _).symm
          _ ≤ 10 ^ 19 := Nat.pow_le_pow_right (by decide) (by omega)
          _ < 2 ^ 64 := short64
      next fraction =>
        refine Numeral.isSome_double? ?_ noExponent
        refine (Nat.div_lt_of_lt_mul ?_).trans short64
        rw [power_eq_pow]
        calc decimal.digits
            < 10 ^ (Digit.ofNat decimal.digits).length := digitsBelow
          _ ≤ 10 ^ ((-decimal.exponent).toNat + 19) :=
              Nat.pow_le_pow_right (by decide) (by omega)
          _ = 10 ^ (-decimal.exponent).toNat * 10 ^ 19 := pow_add _ _ _
    next =>
      refine Numeral.isSome_double? ?_ leadingSafe
      have single := Digit.value_lt ((Digit.ofNat decimal.digits).take 1)
      calc Digit.value ((Digit.ofNat decimal.digits).take 1)
          < 10 ^ ((Digit.ofNat decimal.digits).take 1).length := single
        _ ≤ 10 ^ 1 := Nat.pow_le_pow_right (by decide) (by simp)
        _ < 2 ^ 64 := by decide

end Layout

namespace Finite

variable {format : Format}

/-- A decimal that is read as a number below a power of two is below that power itself. -/
private theorem dividend_lt
    {value : Finite format}
    {negative : Bool}
    {decimal : Decimal}
    {digits size : Nat}
    (rounded :
      Binary.ofFraction format negative decimal.dividend decimal.divisor = .finite value)
    (below : value.rank.val < (digits + 1) * format.binade)
    (sized : format.fractionDigits + digits ≤ format.depth + size) :
    decimal.dividend < 2 ^ size * decimal.divisor := by
  have nearest : format.nearest decimal.dividend decimal.divisor = value.rank := by
    unfold Binary.ofFraction at rounded
    split at rounded
    · cases rounded
      rfl
    · cases rounded
  have positive : 0 < decimal.divisor := power_pos (by decide) _
  have small :
      decimal.dividend * format.one / decimal.divisor < 2 ^ (format.fractionDigits + digits) := by
    by_contra reaches
    have large := Format.le_nearest (Nat.not_lt.mp reaches)
    omega
  rw [Nat.div_lt_iff_lt_mul positive, Format.one_eq_pow] at small
  refine Nat.lt_of_mul_lt_mul_right (a := 2 ^ format.depth) ?_
  calc decimal.dividend * 2 ^ format.depth
      < 2 ^ (format.fractionDigits + digits) * decimal.divisor := small
    _ ≤ 2 ^ (format.depth + size) * decimal.divisor :=
        Nat.mul_le_mul_right _ (Nat.pow_le_pow_right (by decide) sized)
    _ = 2 ^ size * decimal.divisor * 2 ^ format.depth := by ring

/-- A decimal that is read as a number below 2 ^ 930 has a safe exponent. -/
private theorem leadingPower_le
    {value : Finite format}
    {negative : Bool}
    {decimal : Decimal}
    {digits : Nat}
    (read : Binary.ofDecimal format negative decimal = .finite value)
    (nonzero : decimal.digits ≠ 0)
    (below : value.rank.val < (digits + 1) * format.binade)
    (sized : format.fractionDigits + digits ≤ format.depth + 930) :
    Layout.leadingPower decimal ≤ Decimal.safeExponent := by
  have reaches := Digit.power_length_ofNat_le (Nat.pos_of_ne_zero nonzero)
  have positiveLength := List.length_pos_iff.mpr (Digit.ofNat_ne_nil decimal.digits)
  unfold Layout.leadingPower
  generalize (Digit.ofNat decimal.digits).length = length at *
  unfold Binary.ofDecimal at read
  rw [if_neg nonzero] at read
  split at read
  · cases read
  · split at read
    next tiny =>
      -- There are no more decimal digits than binary ones.
      have fewer : length - 1 ≤ Nat.log2 decimal.digits := by
        refine (Nat.le_log2 nonzero).mpr (le_trans ?_ reaches)
        exact Nat.pow_le_pow_left (by decide) _
      unfold Decimal.safeExponent
      omega
    next =>
      have dividend := dividend_lt read below sized
      simp only [Decimal.dividend, Decimal.divisor, power_eq_pow] at dividend
      have powers :
          10 ^ (length - 1 + decimal.exponent.toNat)
            < 10 ^ (Decimal.safeExponent + (-decimal.exponent).toNat) :=
        calc 10 ^ (length - 1 + decimal.exponent.toNat)
            = 10 ^ (length - 1) * 10 ^ decimal.exponent.toNat := pow_add _ _ _
          _ ≤ decimal.digits * 10 ^ decimal.exponent.toNat := Nat.mul_le_mul_right _ reaches
          _ < 2 ^ 930 * 10 ^ (-decimal.exponent).toNat := dividend
          _ ≤ 10 ^ Decimal.safeExponent * 10 ^ (-decimal.exponent).toNat :=
              Nat.mul_le_mul_right _ (by decide +kernel)
          _ = 10 ^ (Decimal.safeExponent + (-decimal.exponent).toNat) := (pow_add _ _ _).symm
      have := (Nat.pow_lt_pow_iff_right (by decide)).mp powers
      omega

/-- A number below 2 ^ 930 is read from its written form. -/
theorem isSome_double?_numeral
    {layout : Layout}
    (short : layout.greatest ≤ 18)
    {value : Finite format}
    (digits : Nat)
    (below : value.rank.val < (digits + 1) * format.binade)
    (sized : format.fractionDigits + digits ≤ format.depth + 930) :
    (value.numeral layout).double?.isSome :=
  Layout.isSome_double?_numeral short value.negative fun nonzero =>
    leadingPower_le value.ofDecimal_shortest nonzero below sized

end Finite

end SynthGraph
