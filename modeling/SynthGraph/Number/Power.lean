namespace SynthGraph

/-!
# Powers of natural numbers

The scales of binary and decimal numbers are powers of two, five and ten.
-/

/-- A base multiplied with itself. -/
def power (base exponent : Nat) : Nat :=
  Nat.pow base exponent

/-- The empty product is one. -/
theorem power_zero (base : Nat) : power base 0 = 1 :=
  rfl

/-- One more factor multiplies a power by its base. -/
theorem power_succ (base exponent : Nat) :
    power base (exponent + 1) = power base exponent * base :=
  rfl

/-- Powers of a positive base are positive. -/
theorem power_pos
    {base : Nat}
    (positive : 0 < base)
    (exponent : Nat) :
    0 < power base exponent := by
  induction exponent with
  | zero => exact Nat.one_pos
  | succ exponent inductionHypothesis =>
      rw [power_succ]
      exact Nat.mul_pos inductionHypothesis positive

/-- Powers of a positive base are not zero. -/
theorem power_ne_zero
    {base : Nat}
    (positive : 0 < base)
    (exponent : Nat) :
    power base exponent ≠ 0 :=
  Nat.ne_of_gt (power_pos positive exponent)

/-- Powers with one exponent multiply like their bases. -/
theorem mul_power (first second exponent : Nat) :
    power (first * second) exponent = power first exponent * power second exponent := by
  induction exponent with
  | zero => rfl
  | succ exponent inductionHypothesis =>
      rw [power_succ, power_succ, power_succ, inductionHypothesis, Nat.mul_mul_mul_comm]

/-- A number below a power of two has a smaller binary logarithm. -/
theorem log2_lt_of_lt_power
    {number exponent : Nat}
    (nonzero : number ≠ 0)
    (below : number < power 2 exponent) :
    Nat.log2 number < exponent :=
  (Nat.log2_lt nonzero).mpr below

/-- The binary logarithm of a number between two neighbouring powers of two. -/
theorem log2_eq_of_power
    {number exponent : Nat}
    (above : power 2 exponent ≤ number)
    (below : number < power 2 (exponent + 1)) :
    Nat.log2 number = exponent := by
  have positive := power_pos (by decide : 0 < 2) exponent
  exact (Nat.log2_eq_iff (by omega)).mpr ⟨above, below⟩

/-- Multiplying by a power of two adds its exponent to the binary logarithm. -/
theorem log2_mul_power
    {number : Nat}
    (nonzero : number ≠ 0)
    (exponent : Nat) :
    Nat.log2 (number * power 2 exponent) = Nat.log2 number + exponent := by
  induction exponent with
  | zero => rw [power_zero, Nat.mul_one, Nat.add_zero]
  | succ exponent inductionHypothesis =>
      have product : number * power 2 exponent ≠ 0 :=
        Nat.mul_ne_zero nonzero (power_ne_zero (by decide) exponent)
      rw [power_succ, ← Nat.mul_assoc, Nat.mul_comm _ 2, Nat.log2_two_mul product,
        inductionHypothesis, Nat.add_assoc]

end SynthGraph
