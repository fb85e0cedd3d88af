import SynthGraph.Document
import SynthGraph.Proofs.Unit.Dials

namespace SynthGraph

/-!
# Numbers read back from documents

A finite number that was written into a document is read back as it was, but for
the sign of zero.  Written again, it gives the same document, also if it is
brought into a range on the way in which it was before.
-/

namespace Finite

variable {format : Format}

/-- The number itself, or the positive zero for the negative one. -/
def unsignedZero (value : Finite format) : Finite format :=
  if value.rank.val = 0 then { value with negative := false } else value

theorem numerator_of_rank_zero
    {value : Finite format}
    (zero : value.rank.val = 0) :
    value.numerator = 0 := by
  simp [numerator, Format.numerator, Format.significand, zero, format.binade_pos]

theorem place_unsignedZero
    (value : Finite format) :
    value.unsignedZero.place = value.place := by
  by_cases zero : value.rank.val = 0
  · simp [unsignedZero, place, zero]
  · rw [unsignedZero, if_neg zero]

theorem whole?_of_rank_zero
    {value : Finite format}
    (zero : value.rank.val = 0) :
    value.whole? = some 0 := by
  simp [whole?, numerator_of_rank_zero zero]

theorem whole?_some
    {value : Finite format}
    {whole : Int}
    (isWhole : value.whole? = some whole) :
    whole.natAbs * format.one = value.numerator ∧
      (whole ≠ 0 → decide (whole < 0) = value.negative) := by
  unfold whole? at isWhole
  split at isWhole
  · rename_i divisible
    have multiple := Nat.div_mul_cancel (Nat.dvd_of_mod_eq_zero divisible)
    generalize value.numerator / format.one = magnitude at isWhole multiple
    cases isNegative : value.negative with
    | false =>
        simp only [isNegative, Bool.false_eq_true, if_false, Option.some.injEq] at isWhole
        subst isWhole
        exact ⟨multiple, fun _ => by simp⟩
    | true =>
        simp only [isNegative, if_true, Option.some.injEq] at isWhole
        subst isWhole
        refine ⟨by simpa using multiple, fun nonzero => ?_⟩
        rw [decide_eq_true_eq]
        omega
  · cases isWhole

/-- The number nearest to a whole number that is a finite number is this number. -/
theorem ofInt_of_whole?
    {value : Finite format}
    {whole : Int}
    (isWhole : value.whole? = some whole) :
    Binary.ofInt format whole = .finite value.unsignedZero := by
  obtain ⟨multiple, sign⟩ := whole?_some isWhole
  -- Counted in smallest positive values, the whole number is the magnitude of the value.
  have nearest : format.nearest whole.natAbs 1 = value.rank := by
    have scaled := format.nearest_mul_mul whole.natAbs 1 format.one_pos
    rw [multiple, Nat.one_mul] at scaled
    exact scaled.symm.trans (format.nearest_numerator value.rank)
  have rounded :
      Binary.ofInt format whole = .finite { value with negative := decide (whole < 0) } := by
    simp [Binary.ofInt, Binary.ofFraction, nearest]
  rw [rounded, unsignedZero]
  by_cases zero : value.rank.val = 0
  · rw [whole?_of_rank_zero zero, Option.some.injEq] at isWhole
    rw [if_pos zero, ← isWhole]
    rfl
  · have nonzero : whole ≠ 0 := by
      rintro rfl
      have numerator : value.numerator = 0 := by
        simpa using multiple.symm
      exact zero (format.rank_of_numerator_zero numerator)
    rw [if_neg zero, sign nonzero]

end Finite

namespace Document

/-- A written number is read back, but for the sign of zero. -/
theorem number?_number
    (value : Finite Format.double) :
    (number (.finite value)).number? = some (.finite value.unsignedZero) := by
  cases isWhole : value.whole? with
  | none =>
      have nonzero : value.rank.val ≠ 0 := by
        intro zero
        rw [Finite.whole?_of_rank_zero zero] at isWhole
        cases isWhole
      simp [number, isWhole, number?, Finite.unsignedZero, nonzero]
  | some whole =>
      by_cases small : whole.natAbs < power 2 63
      · simp [number, isWhole, small, number?, Finite.ofInt_of_whole? isWhole]
      · have nonzero : value.rank.val ≠ 0 := by
          intro zero
          rw [Finite.whole?_of_rank_zero zero, Option.some.injEq] at isWhole
          subst isWhole
          exact small (power_pos (by decide) _)
        simp [number, isWhole, small, number?, Finite.unsignedZero, nonzero]

theorem number_unsignedZero
    (value : Finite Format.double) :
    number (.finite value.unsignedZero) = number (.finite value) := by
  by_cases zero : value.rank.val = 0
  · have positiveZero : value.unsignedZero.rank.val = 0 := by
      rw [Finite.unsignedZero, if_pos zero]
      exact zero
    have small : (0 : Int).natAbs < power 2 63 := power_pos (by decide) 63
    simp only [number, Finite.whole?_of_rank_zero zero, Finite.whole?_of_rank_zero positiveZero,
      if_pos small]
  · rw [Finite.unsignedZero, if_neg zero]

end Document

namespace Dial

variable {dial : Dial}

/-- A number that is in a range lies on neither side of it. -/
theorem not_less_of_clamp
    {value : Double}
    (inRange : dial.clamp value = value) :
    value.less dial.least = false ∧ dial.greatest.less value = false := by
  unfold clamp at inRange
  split at inRange
  · rename_i below
    rw [inRange, Dials.less_irrefl] at below
    cases below
  · rename_i notBelow
    split at inRange
    · rename_i above
      rw [inRange, Dials.less_irrefl] at above
      cases above
    · rename_i notAbove
      exact ⟨Bool.eq_false_of_not_eq_true notBelow, Bool.eq_false_of_not_eq_true notAbove⟩

theorem clamp_unsignedZero
    {value : Finite Format.double}
    (inRange : dial.clamp (.finite value) = .finite value) :
    dial.clamp (.finite value.unsignedZero) = .finite value.unsignedZero := by
  have samePlace :
      (Binary.finite value.unsignedZero).place? = (Binary.finite value).place? :=
    congrArg some value.place_unsignedZero
  obtain ⟨notBelow, notAbove⟩ := not_less_of_clamp inRange
  have stillNotBelow : (Binary.finite value.unsignedZero).less dial.least = false := by
    simpa only [Binary.less, samePlace] using notBelow
  have stillNotAbove : dial.greatest.less (.finite value.unsignedZero) = false := by
    simpa only [Binary.less, samePlace] using notAbove
  simp [clamp, stillNotBelow, stillNotAbove]

end Dial

namespace Document

/--
What is read of a written number is written the same way, and bringing it into a
range in which the number was does not change it.
-/
theorem exists_number?
    {value : Double}
    (isFinite : value.finite?.isSome) :
    ∃ read,
      (number value).number? = some read ∧
        number read = number value ∧
        ∀ dial : Dial, dial.clamp value = value → dial.clamp read = read := by
  cases value with
  | finite value =>
      exact ⟨_, number?_number value, number_unsignedZero value,
        fun dial inRange => dial.clamp_unsignedZero inRange⟩
  | infinite | notANumber =>
      cases isFinite

end Document

end SynthGraph
