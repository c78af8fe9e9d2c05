/-!
# Rounding a quotient to the nearest integer

`roundDiv num den tie` is the integer nearest to `num / den`. The remainder decides; only an
exact half asks the `Tie`.
-/

-- A power of naturals is the core library's everywhere, in modules that import Mathlib too.
attribute [instance (2000), default_instance (20000)] instPowNat

namespace MediaCommand

/-- Where a quotient exactly between two integers goes. -/
inductive Tie where
  | toEven
  | awayFromZero
  deriving DecidableEq, Repr

/-- The integer nearest to `num / den`, for a positive `den`. -/
def roundDiv (num den : Nat) (tie : Tie) : Nat :=
  let quotient := num / den
  let twice := 2 * (num % den)
  if twice < den then quotient
  else if den < twice then quotient + 1
  else match tie with
    | .toEven => quotient + quotient % 2
    | .awayFromZero => quotient + 1

theorem roundDiv_of_dvd {num den : Nat} (tie : Tie) (pos : 0 < den) (exact : num % den = 0) :
    roundDiv num den tie = num / den := by
  simp [roundDiv, exact, pos]

/-- The result is within half a unit below or above. -/
theorem roundDiv_bounds (num den : Nat) (tie : Tie) (pos : 0 < den) :
    2 * num ≤ (2 * roundDiv num den tie + 1) * den ∧
      2 * (roundDiv num den tie * den) ≤ 2 * num + den := by
  have parts := Nat.div_add_mod num den
  have lt := Nat.mod_lt num pos
  generalize hq : num / den = q at parts
  generalize hr : num % den = r at parts lt
  have mul : den * q = q * den := Nat.mul_comm ..
  have grow : (2 * (q + 1) + 1) * den = 2 * (q * den) + 3 * den := by
    rw [Nat.add_mul, Nat.mul_assoc, Nat.add_mul]; omega
  have stay : (2 * q + 1) * den = 2 * (q * den) + den := by
    rw [Nat.add_mul, Nat.mul_assoc]; omega
  have up : (q + 1) * den = q * den + den := by rw [Nat.add_mul]; omega
  unfold roundDiv
  simp only [hq, hr]
  split
  · omega
  · split
    · omega
    · cases tie with
      | awayFromZero => simp only; omega
      | toEven =>
        simp only
        rcases Nat.mod_two_eq_zero_or_one q with h | h <;> rw [h]
        · simp only [Nat.add_zero]; omega
        · omega

end MediaCommand
