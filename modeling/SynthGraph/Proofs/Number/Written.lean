import Mathlib.Tactic.Ring
import SynthGraph.Number.Numeral

namespace SynthGraph

/-!
# Written numerals are read back

The digits of a number spell that number and have no leading zero, so the
characters of a numeral are read as the same numeral.  Nothing is said here
about rounding: a numeral is what is written, not the number it stands for.

Main statement: `Numeral.read?_chars`.
-/

namespace Digit

section Spelling

variable {first : Digit} {digits : List Digit}

/-- One more digit in front counts as often as the digits behind it say. -/
private theorem foldl_value (start : Nat) :
    digits.foldl (fun number digit => 10 * number + digit.val) start
      = start * 10 ^ digits.length + value digits := by
  induction digits generalizing start with
  | nil => simp [value]
  | cons digit rest inductionHypothesis =>
      rw [value, List.foldl_cons, List.foldl_cons, inductionHypothesis,
        inductionHypothesis (10 * 0 + digit.val), List.length_cons, pow_succ]
      ring

/-- The leading digit counts the power of ten of the digits behind it. -/
theorem value_cons :
    value (first :: digits) = first.val * 10 ^ digits.length + value digits := by
  rw [value, List.foldl_cons, foldl_value, Nat.mul_zero, Nat.zero_add]

/-- The digits of two parts spell the parts in their places. -/
theorem value_append (others : List Digit) :
    value (digits ++ others) = value digits * 10 ^ others.length + value others := by
  rw [value, List.foldl_append, foldl_value]
  rfl

/-- Leading zeros do not count. -/
theorem value_dropWhile_isZero :
    value (digits.dropWhile isZero) = value digits := by
  induction digits with
  | nil => rfl
  | cons digit rest inductionHypothesis =>
      rw [List.dropWhile_cons]
      split
      next zero =>
        have noValue : digit.val = 0 := by simpa [isZero] using zero
        rw [inductionHypothesis, value_cons, noValue, Nat.zero_mul, Nat.zero_add]
      next => rfl

/-- Digits spell less than the next power of ten. -/
theorem value_lt (digits : List Digit) : value digits < 10 ^ digits.length := by
  induction digits with
  | nil => simp [value]
  | cons digit rest inductionHypothesis =>
      have digitBelow := digit.isLt
      calc value (digit :: rest)
          = digit.val * 10 ^ rest.length + value rest := value_cons
        _ < digit.val * 10 ^ rest.length + 10 ^ rest.length := by omega
        _ = (digit.val + 1) * 10 ^ rest.length := by ring
        _ ≤ 10 * 10 ^ rest.length := Nat.mul_le_mul_right _ (by omega)
        _ = 10 ^ (digit :: rest).length := by rw [List.length_cons, pow_succ, Nat.mul_comm]

/-- A leading digit that is no zero makes the number reach its power of ten. -/
theorem power_le_value (nonzero : first.isZero = false) :
    10 ^ digits.length ≤ value (first :: digits) := by
  have counts : 0 < first.val := by
    simp only [isZero, decide_eq_false_iff_not] at nonzero
    omega
  rw [value_cons]
  exact Nat.le_add_right_of_le (Nat.le_mul_of_pos_left _ counts)

end Spelling

section Padded

/-- Padding puts a number in front of whatever follows. -/
private theorem paddedOnto_eq (places number : Nat) (rest : List Digit) :
    paddedOnto places number rest = padded places number ++ rest := by
  induction places generalizing number rest with
  | zero => rfl
  | succ places inductionHypothesis =>
      rw [padded, paddedOnto, paddedOnto, inductionHypothesis,
        inductionHypothesis _ [last number], List.append_assoc, List.singleton_append]

/-- The last place holds the last digit, the others the rest of the number. -/
theorem padded_succ (places number : Nat) :
    padded (places + 1) number = padded places (number / 10) ++ [last number] := by
  rw [padded, paddedOnto, paddedOnto_eq]

/-- The last places of a number spell its remainder. -/
theorem value_padded (places number : Nat) :
    value (padded places number) = number % 10 ^ places := by
  induction places generalizing number with
  | zero => simp [padded, paddedOnto, value, Nat.mod_one]
  | succ places inductionHypothesis =>
      have lastValue : value [last number] = number % 10 := by simp [value, last]
      rw [padded_succ, value_append, inductionHypothesis, lastValue, List.length_singleton,
        pow_one, pow_succ', Nat.mod_mul]
      ring

end Padded

section Written

/-- A number has at most as many decimal digits as binary ones. -/
private theorem value_stripped (number : Nat) :
    value ((padded (Nat.log2 number + 1) number).dropWhile isZero) = number := by
  have below : number < 10 ^ (Nat.log2 number + 1) :=
    Nat.lt_log2_self.trans_le (Nat.pow_le_pow_left (by decide) _)
  rw [value_dropWhile_isZero, value_padded, Nat.mod_eq_of_lt below]

/-- Written digits are a single zero, or start with another digit. -/
theorem ofNat_cases (number : Nat) :
    (number = 0 ∧ ofNat number = [last 0]) ∨
      ∃ first rest, ofNat number = first :: rest ∧ first.isZero = false := by
  have spelled := value_stripped number
  unfold ofNat
  cases dropped : (padded (Nat.log2 number + 1) number).dropWhile isZero with
  | nil =>
      left
      rw [dropped] at spelled
      exact ⟨spelled.symm, rfl⟩
  | cons first rest =>
      right
      refine ⟨first, rest, rfl, ?_⟩
      have leads := List.head?_dropWhile_not isZero (padded (Nat.log2 number + 1) number)
      simpa [dropped] using leads

/-- The written digits of a number spell it. -/
@[simp]
theorem value_ofNat (number : Nat) : value (ofNat number) = number := by
  have spelled := value_stripped number
  unfold ofNat
  cases dropped : (padded (Nat.log2 number + 1) number).dropWhile isZero with
  | nil =>
      rw [dropped] at spelled
      exact spelled
  | cons first rest =>
      rw [dropped] at spelled
      exact spelled

theorem ofNat_ne_nil (number : Nat) : ofNat number ≠ [] := by
  rcases ofNat_cases number with ⟨_, zero⟩ | ⟨first, rest, spelled, _⟩
  · simp [zero]
  · simp [spelled]

/-- A positive number reaches the power of ten of its leading digit. -/
theorem power_length_ofNat_le {number : Nat} (positive : 0 < number) :
    10 ^ ((ofNat number).length - 1) ≤ number := by
  rcases ofNat_cases number with ⟨zero, _⟩ | ⟨first, rest, spelled, nonzero⟩
  · omega
  · have reaches : 10 ^ rest.length ≤ value (first :: rest) := power_le_value nonzero
    rw [← spelled, value_ofNat] at reaches
    simpa [spelled] using reaches

end Written

section Characters

@[simp]
theorem ofChar?_char (digit : Digit) : ofChar? digit.char = some digit := by
  revert digit
  decide

/-- Digits are read up to the first character that is none. -/
theorem scan_map_char
    (digits : List Digit)
    {rest : List Char}
    (ends : ∀ next ∈ rest.head?, ofChar? next = none) :
    scan (digits.map char ++ rest) = (digits, rest) := by
  induction digits with
  | nil =>
      cases rest with
      | nil => rfl
      | cons next rest =>
          have noDigit : ofChar? next = none := ends next (by simp)
          simp [scan, noDigit]
  | cons digit digits inductionHypothesis =>
      rw [List.map_cons, List.cons_append, scan, ofChar?_char, inductionHypothesis]

end Characters

end Digit

namespace Numeral

/-- A written number is read as the whole part of a numeral. -/
theorem readWhole?_ofNat (number : Nat) : readWhole? (Digit.ofNat number) = some number := by
  have spelled := Digit.value_ofNat number
  rcases Digit.ofNat_cases number with ⟨rfl, zero⟩ | ⟨first, rest, digits, nonzero⟩
  · rw [zero]
    rfl
  · rw [digits] at spelled ⊢
    cases rest with
    | nil => simpa [readWhole?, Digit.value] using spelled
    | cons second rest => simp [readWhole?, nonzero, spelled]

/-- A written exponent is read back. -/
theorem readExponent?_exponentChars (exponent : Option Int) :
    readExponent? (exponentChars exponent) = some exponent := by
  cases exponent with
  | none => rfl
  | some exponent =>
      have spelled := Digit.value_ofNat exponent.natAbs
      have scanned : Digit.scan (Digit.spell exponent.natAbs)
          = (Digit.ofNat exponent.natAbs, []) := by
        have toEnd : ∀ next ∈ ([] : List Char).head?, Digit.ofChar? next = none := by simp
        simpa [Digit.spell] using Digit.scan_map_char (Digit.ofNat exponent.natAbs) toEnd
      cases digits : Digit.ofNat exponent.natAbs with
      | nil => exact absurd digits (Digit.ofNat_ne_nil _)
      | cons first more =>
          rw [digits] at spelled scanned
          by_cases negative : exponent < 0
          · have magnitude : -((exponent.natAbs : Nat) : Int) = exponent := by omega
            simp only [readExponent?, exponentChars, if_pos negative, scanned, spelled, magnitude,
              true_or, if_true]
          · have magnitude : ((exponent.natAbs : Nat) : Int) = exponent := by omega
            simp only [readExponent?, exponentChars, if_neg negative, scanned, spelled, magnitude,
              true_or, if_true, Bool.false_eq_true, if_false]

/-- No exponent starts with a digit. -/
private theorem head?_exponentChars
    {exponent : Option Int}
    {next : Char}
    (first : next ∈ (exponentChars exponent).head?) :
    next = 'e' := by
  cases exponent with
  | none => simp [exponentChars] at first
  | some exponent => simpa [exponentChars, eq_comm] using first

/-- What is written behind a sign is read back. -/
theorem readMagnitude?_chars
    (negative : Bool)
    (whole : Nat)
    (fraction : List Digit)
    (exponent : Option Int) :
    readMagnitude? negative
        (Digit.spell whole ++ fractionChars fraction ++ exponentChars exponent)
      = some ⟨negative, whole, fraction, exponent⟩ := by
  have exponentEnds : ∀ next ∈ (exponentChars exponent).head?, Digit.ofChar? next = none := by
    intro next first
    rw [head?_exponentChars first]
    decide
  have readWhole := readWhole?_ofNat whole
  have readExponent := readExponent?_exponentChars exponent
  cases fraction with
  | nil =>
      have scanned := Digit.scan_map_char (Digit.ofNat whole) exponentEnds
      -- Without this the reader could still be about to see a fraction.
      have noPoint : ∀ rest, exponentChars exponent = '.' :: rest → False := by
        intro rest starts
        have first : '.' = 'e' :=
          head?_exponentChars (by rw [starts, List.head?_cons]; rfl)
        exact absurd first (by decide)
      simp only [readMagnitude?, Digit.spell, fractionChars, List.append_nil, scanned, readWhole,
        Option.bind_eq_bind, Option.bind_some, readExponent, Option.pure_def]
  | cons digit digits =>
      have pointEnds :
          ∀ next ∈ ('.' :: ((digit :: digits).map Digit.char ++ exponentChars exponent)).head?,
            Digit.ofChar? next = none := by
        intro next first
        simp only [List.head?_cons, Option.mem_def, Option.some.injEq] at first
        rw [← first]
        decide
      have scanned := Digit.scan_map_char (Digit.ofNat whole) pointEnds
      have scannedFraction := Digit.scan_map_char (digit :: digits) exponentEnds
      rw [List.append_assoc]
      simp only [readMagnitude?, Digit.spell, fractionChars, List.cons_append, scanned, readWhole,
        Option.bind_eq_bind, Option.bind_some, scannedFraction, readExponent, Option.pure_def]

/-- A text that starts with a digit is not read as a negative numeral. -/
private theorem read?_of_digit (digit : Digit) (rest : List Char) :
    read? (digit.char :: rest) = readMagnitude? false (digit.char :: rest) := by
  have noMinus : digit.char ≠ '-' := by
    revert digit
    decide
  unfold read?
  split
  next minus => exact absurd (List.cons.inj minus).1 noMinus
  next => rfl

/-- Every numeral is read back from its characters. -/
theorem read?_chars (numeral : Numeral) : read? numeral.chars = some numeral := by
  obtain ⟨negative, whole, fraction, exponent⟩ := numeral
  have magnitude := readMagnitude?_chars negative whole fraction exponent
  cases negative with
  | true => simpa [chars, read?] using magnitude
  | false =>
      cases digits : Digit.ofNat whole with
      | nil => exact absurd digits (Digit.ofNat_ne_nil whole)
      | cons first rest =>
          have spelled : Digit.spell whole = first.char :: rest.map Digit.char := by
            simp [Digit.spell, digits]
          simpa [chars, spelled, read?_of_digit] using magnitude

end Numeral

end SynthGraph
