import Mathlib.Algebra.Order.Ring.Nat
import Mathlib.Tactic.Ring
import SynthGraph.Number.Binary

namespace SynthGraph

/-!
# Sizes of rounded numbers

A fraction is rounded within the binade of its leading binary digit.  So a
fraction below a power of two becomes a number not past that power
(`Format.nearest_le`), and one that reaches a power of two does not fall below
it (`Format.le_nearest`).  Products and quotients are finite where their sizes
leave room.
-/

theorem power_eq_pow (base exponent : Nat) : power base exponent = base ^ exponent :=
  rfl

namespace Format

/-- How many binary digits a significand has behind the leading one. -/
def fractionDigits (format : Format) : Nat :=
  format.precision - 1

section

variable {format : Format}

theorem binade_eq_pow : format.binade = 2 ^ format.fractionDigits :=
  rfl

theorem one_eq_pow : format.one = 2 ^ format.depth :=
  rfl

/-- A rounded quotient is the quotient or the next number. -/
theorem roundedQuotient_le (dividend divisor : Nat) :
    roundedQuotient dividend divisor ≤ dividend / divisor + 1 := by
  simp only [roundedQuotient]
  have parity : dividend / divisor % 2 ≤ 1 := by omega
  split
  · omega
  · split <;> omega

theorem le_roundedQuotient (dividend divisor : Nat) :
    dividend / divisor ≤ roundedQuotient dividend divisor := by
  simp only [roundedQuotient]
  split
  · omega
  · split <;> omega

variable {dividend divisor digits : Nat}

/-- The nearest rank by the binary digits that are dropped of a fraction. -/
private theorem nearest_eq :
    format.nearest dividend divisor
      = roundedQuotient (dividend * format.one)
          (divisor * 2 ^ (Nat.log2 (dividend * format.one / divisor) - format.fractionDigits))
        + (Nat.log2 (dividend * format.one / divisor) - format.fractionDigits) * format.binade :=
  rfl

/-- A fraction below a power of two is not rounded past it. -/
theorem nearest_le
    (below : dividend * format.one / divisor < 2 ^ (format.fractionDigits + digits)) :
    format.nearest dividend divisor ≤ (digits + 1) * format.binade := by
  have rounded (dropped : Nat) :=
    roundedQuotient_le (dividend * format.one) (divisor * 2 ^ dropped)
  simp only [← Nat.div_div_eq_div_mul] at rounded
  rw [nearest_eq]
  generalize dividend * format.one / divisor = quotient at *
  by_cases small : quotient < format.binade
  · -- Nothing is dropped of a fraction in the lowest binade.
    have dropped : Nat.log2 quotient - format.fractionDigits = 0 := by
      by_cases zero : quotient = 0
      · simp [zero]
      · have : Nat.log2 quotient < format.fractionDigits := (Nat.log2_lt zero).mpr small
        omega
    have bound := rounded 0
    rw [pow_zero, Nat.div_one] at bound
    rw [dropped, pow_zero, Nat.zero_mul, Nat.add_zero]
    calc roundedQuotient (dividend * format.one) (divisor * 1)
        ≤ quotient + 1 := bound
      _ ≤ format.binade := small
      _ ≤ (digits + 1) * format.binade := Nat.le_mul_of_pos_left _ (by omega)
  · have reaches : 2 ^ format.fractionDigits ≤ quotient := Nat.not_lt.mp small
    have nonzero : quotient ≠ 0 := by
      have := format.binade_pos
      omega
    have leading : format.fractionDigits ≤ Nat.log2 quotient :=
      (Nat.le_log2 nonzero).mpr reaches
    have leadingBelow : Nat.log2 quotient < format.fractionDigits + digits :=
      (Nat.log2_lt nonzero).mpr below
    obtain ⟨dropped, isDropped⟩ := Nat.exists_eq_add_of_le leading
    rw [isDropped, Nat.add_sub_cancel_left]
    have quotientBelow : quotient / 2 ^ dropped < 2 * format.binade := by
      refine Nat.div_lt_of_lt_mul ?_
      calc quotient
          < 2 ^ (Nat.log2 quotient + 1) := Nat.lt_log2_self
        _ = 2 ^ dropped * (2 * format.binade) := by rw [isDropped, binade_eq_pow]; ring
    have bound := rounded dropped
    calc roundedQuotient (dividend * format.one) (divisor * 2 ^ dropped)
            + dropped * format.binade
        ≤ 2 * format.binade + dropped * format.binade := by omega
      _ = (dropped + 2) * format.binade := by ring
      _ ≤ (digits + 1) * format.binade := Nat.mul_le_mul_right _ (by omega)

/-- A fraction that reaches a power of two is not rounded below it. -/
theorem le_nearest
    (reaches : 2 ^ (format.fractionDigits + digits) ≤ dividend * format.one / divisor) :
    (digits + 1) * format.binade ≤ format.nearest dividend divisor := by
  have rounded (dropped : Nat) :=
    le_roundedQuotient (dividend * format.one) (divisor * 2 ^ dropped)
  simp only [← Nat.div_div_eq_div_mul] at rounded
  rw [nearest_eq]
  generalize dividend * format.one / divisor = quotient at *
  have nonzero : quotient ≠ 0 := by
    have := Nat.two_pow_pos (format.fractionDigits + digits)
    omega
  have leading : format.fractionDigits + digits ≤ Nat.log2 quotient :=
    (Nat.le_log2 nonzero).mpr reaches
  obtain ⟨dropped, isDropped⟩ :=
    Nat.exists_eq_add_of_le (Nat.le_trans (Nat.le_add_right _ _) leading)
  rw [isDropped, Nat.add_sub_cancel_left]
  have kept : format.binade ≤ quotient / 2 ^ dropped := by
    rw [Nat.le_div_iff_mul_le (Nat.two_pow_pos _), binade_eq_pow, ← pow_add, ← isDropped]
    exact Nat.log2_self_le nonzero
  calc (digits + 1) * format.binade
      ≤ (dropped + 1) * format.binade := Nat.mul_le_mul_right _ (by omega)
    _ = format.binade + dropped * format.binade := by ring
    _ ≤ roundedQuotient (dividend * format.one) (divisor * 2 ^ dropped)
          + dropped * format.binade :=
        Nat.add_le_add_right (kept.trans (rounded dropped)) _

/-- A rank up to the start of a binade stands for a number up to a power of two. -/
theorem numerator_le
    {rank : Nat}
    (bounded : rank ≤ (digits + 1) * format.binade) :
    format.numerator rank ≤ 2 ^ (format.fractionDigits + digits) := by
  have positive := format.binade_pos
  rw [numerator, significand, power_eq_pow, pow_add, ← binade_eq_pow]
  by_cases small : rank < format.binade
  · rw [if_pos small, Nat.div_eq_of_lt small]
    exact Nat.mul_le_mul small.le Nat.one_le_two_pow
  · rw [if_neg small]
    have within : rank / format.binade ≤ digits + 1 :=
      (Nat.div_le_div_right bounded).trans_eq (Nat.mul_div_cancel _ positive)
    have reaches : 1 ≤ rank / format.binade :=
      (Nat.one_le_div_iff positive).mpr (Nat.not_lt.mp small)
    have split := Nat.div_add_mod' rank format.binade
    have remainder : rank % format.binade < format.binade := Nat.mod_lt _ positive
    obtain ⟨exponent, isExponent⟩ := Nat.exists_eq_add_of_le' reaches
    rw [isExponent, Nat.add_sub_cancel]
    rw [isExponent] at within split
    rcases Nat.lt_or_eq_of_le within with inside | last
    · -- The significand stays below the next binade, which is still within the bound.
      calc (format.binade + rank % format.binade) * 2 ^ exponent
          ≤ 2 * format.binade * 2 ^ exponent := Nat.mul_le_mul_right _ (by omega)
        _ = format.binade * 2 ^ (exponent + 1) := by ring
        _ ≤ format.binade * 2 ^ digits :=
            Nat.mul_le_mul_left _ (Nat.pow_le_pow_right (by decide) (by omega))
    · -- The bound itself has the smallest significand of its binade.
      have exact : rank % format.binade = 0 := by
        rw [last] at split
        omega
      have same : exponent = digits := by omega
      rw [exact, Nat.add_zero, same]

/-- A rank from the start of a binade on stands for a number from a power of two on. -/
theorem le_numerator
    {rank : Nat}
    (reaches : (digits + 1) * format.binade ≤ rank) :
    2 ^ (format.fractionDigits + digits) ≤ format.numerator rank := by
  have positive := format.binade_pos
  have large : ¬ rank < format.binade :=
    Nat.not_lt.mpr ((Nat.le_mul_of_pos_left _ (Nat.succ_pos digits)).trans reaches)
  have binades : digits ≤ rank / format.binade - 1 := by
    have := (Nat.le_div_iff_mul_le positive).mpr reaches
    omega
  rw [numerator, significand, if_neg large, power_eq_pow, pow_add, ← binade_eq_pow]
  exact Nat.mul_le_mul (Nat.le_add_right _ _) (Nat.pow_le_pow_right (by decide) binades)

end

end Format

namespace Finite

variable {format : Format}

/-- The number is at most the power of two that many binades above the lowest one. -/
def Within (value : Finite format) (digits : Nat) : Prop :=
  value.rank.val ≤ (digits + 1) * format.binade

theorem Within.numerator_le
    {value : Finite format}
    {digits : Nat}
    (within : value.Within digits) :
    value.numerator ≤ 2 ^ (format.fractionDigits + digits) :=
  Format.numerator_le within

end Finite

namespace Binary

variable {format : Format} {dividend divisor digits : Nat}

/-- A fraction well below the limit of a format is rounded to a finite number. -/
theorem exists_finite_ofFraction
    (negative : Bool)
    (below : dividend * format.one / divisor < 2 ^ (format.fractionDigits + digits))
    (room : digits + 1 < format.exponents) :
    ∃ value : Finite format,
      ofFraction format negative dividend divisor = .finite value ∧ value.Within digits := by
  have bound := Format.nearest_le below
  have bounded : format.nearest dividend divisor < format.limit :=
    bound.trans_lt (Nat.mul_lt_mul_of_pos_right room format.binade_pos)
  exact ⟨⟨negative, ⟨_, bounded⟩⟩, by rw [ofFraction, dif_pos bounded], bound⟩

end Binary

namespace Finite

variable {format : Format} {left right : Finite format}

/-- A product is finite if the sizes of its factors leave room for it. -/
theorem isSome_times?
    {leftDigits rightDigits : Nat}
    (digits : Nat)
    (leftBound : left.numerator ≤ 2 ^ leftDigits)
    (rightBound : right.numerator ≤ 2 ^ rightDigits)
    (fits : leftDigits + rightDigits < format.fractionDigits + digits + format.depth)
    (room : digits + 1 < format.exponents) :
    (left.times? right).isSome := by
  have below :
      left.numerator * right.numerator * format.one / (format.one * format.one)
        < 2 ^ (format.fractionDigits + digits) := by
    rw [Nat.mul_div_mul_right _ _ format.one_pos]
    refine Nat.div_lt_of_lt_mul ?_
    calc left.numerator * right.numerator
        ≤ 2 ^ leftDigits * 2 ^ rightDigits := Nat.mul_le_mul leftBound rightBound
      _ = 2 ^ (leftDigits + rightDigits) := (pow_add _ _ _).symm
      _ < 2 ^ (format.fractionDigits + digits + format.depth) :=
          Nat.pow_lt_pow_right (by decide) fits
      _ = format.one * 2 ^ (format.fractionDigits + digits) := by
          rw [Format.one_eq_pow]
          ring
  obtain ⟨product, isProduct, _⟩ :=
    Binary.exists_finite_ofFraction (left.negative != right.negative) below room
  simp [times?, isProduct, Binary.finite?]

/-- Dividing by a number that is not below one leaves a finite number of no greater size. -/
theorem exists_over?
    {digits : Nat}
    (within : left.Within digits)
    (atLeastOne : format.one ≤ right.numerator)
    (room : digits + 2 < format.exponents) :
    ∃ quotient, left.over? right = some quotient ∧ quotient.Within (digits + 1) := by
  have below :
      left.numerator * format.one / right.numerator
        < 2 ^ (format.fractionDigits + (digits + 1)) :=
    calc left.numerator * format.one / right.numerator
        ≤ left.numerator * right.numerator / right.numerator :=
          Nat.div_le_div_right (Nat.mul_le_mul_left _ atLeastOne)
      _ = left.numerator := Nat.mul_div_cancel _ (format.one_pos.trans_le atLeastOne)
      _ ≤ 2 ^ (format.fractionDigits + digits) := within.numerator_le
      _ < 2 ^ (format.fractionDigits + (digits + 1)) :=
          Nat.pow_lt_pow_right (by decide) (by omega)
  obtain ⟨quotient, isQuotient, quotientWithin⟩ :=
    Binary.exists_finite_ofFraction (left.negative != right.negative) below room
  exact ⟨quotient, by simp [over?, isQuotient, Binary.finite?], quotientWithin⟩

end Finite

end SynthGraph
