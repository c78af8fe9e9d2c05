import MediaCommand.Number.Shortest
import MediaCommand.Proofs.Number.Doubles

/-!
# The shortest decimal denotes its double

The shortest decimal of a double is read back as it, or else it is the exact expansion
(`FiniteDouble.shortest_cases`). Either way the double is nearest to it
(`FiniteDouble.isNearest_shortest`).
-/

namespace MediaCommand

theorem roundDiv_cases (num den : Nat) (tie : Tie) :
    roundDiv num den tie = num / den ∨ roundDiv num den tie = num / den + 1 := by
  unfold roundDiv
  dsimp only
  split
  · exact .inl rfl
  · split
    · exact .inr rfl
    · cases tie with
      | toEven => rcases Nat.mod_two_eq_zero_or_one (num / den) with even | odd <;> simp [*]
      | awayFromZero => exact .inr rfl

namespace FiniteDouble

variable {x : FiniteDouble} {decimal : Scaled}

/-- The nearest multiple of a power is the one below or the one above. -/
theorem readsBack_of_atPower? {power : Int} (found : x.atPower? power = some decimal) :
    x.ReadsBack decimal := by
  unfold atPower? at found
  dsimp only at found
  split at found
  · next both =>
    cases found
    rcases roundDiv_cases (x.significand * 2 ^ x.exponent.toNat * 10 ^ (-power).toNat)
      (2 ^ (-x.exponent).toNat * 10 ^ power.toNat) .toEven with low | high
    · rw [low]
      exact both.1
    · rw [high]
      exact both.2
  · split at found
    · next low =>
      cases found
      exact low
    · split at found
      · next high =>
        cases found
        exact high
      · cases found

theorem negative_carried (decimal : Scaled) (digits : Nat) :
    (carried decimal digits).negative = decimal.negative := by
  unfold carried
  split <;> rfl

theorem toRat_carried (decimal : Scaled) (digits : Nat) :
    (carried decimal digits).toRat = decimal.toRat := by
  unfold carried
  split
  · next full =>
    rw [Scaled.toRat_eq_withSign, Scaled.toRat_eq_withSign, full, zpow_add₀ (by norm_num),
      zpow_natCast]
    push_cast
    congr 1
    ring
  · rfl

theorem readsBack_carried (back : x.ReadsBack decimal) (digits : Nat) :
    x.ReadsBack (carried decimal digits) := by
  rw [ReadsBack, Double.ofScaled_congr (negative_carried decimal digits)
    (toRat_carried decimal digits)]
  exact back

/-- The only doubles with no significand are the zeros. -/
theorem eq_zero_of_isZero (none : x.isZero = true) : x = zero x.negative := by
  have significand : x.significand = 0 := by simpa [isZero] using none
  have exponent : x.exponent = -1074 := x.canonical.resolve_left (by omega)
  cases x
  simp_all [zero]

theorem shortest_cases (x : FiniteDouble) :
    x.ReadsBack x.shortest ∨ x.shortest = x.toScaled := by
  unfold shortest
  split
  · next none =>
    left
    exact congrArg Double.finite (eq_zero_of_isZero none).symm
  · dsimp only
    cases found : ((List.range 17).map (· + 1)).findSome? fun (digits : Nat) =>
      (x.atPower? (decimalPower (x.significand * 2 ^ x.exponent.toNat)
        (2 ^ (-x.exponent).toNat) - digits + 1)).map (carried · digits) with
    | none => exact .inr rfl
    | some decimal =>
      obtain ⟨digits, -, made⟩ := List.exists_of_findSome?_eq_some found
      obtain ⟨multiple, there, rfl⟩ := Option.map_eq_some_iff.1 made
      exact .inl (readsBack_carried (readsBack_of_atPower? there) digits)

/-- A double is nearest to its shortest decimal. -/
theorem isNearest_shortest (x : FiniteDouble) : IsNearest doubles x.shortest.toRat x.toRat := by
  rcases x.shortest_cases with back | exact
  · exact Double.isNearest_ofScaled back
  · rw [exact, toRat_toScaled]
    exact .of_mem x.mem_doubles

theorem abs_sub_shortest_le (x : FiniteDouble) : |x.shortest.toRat - x.toRat| ≤ x.step / 2 := by
  rcases x.shortest_cases with back | exact
  · exact Double.abs_sub_ofScaled_le back
  · have := x.step_pos
    rw [exact, toRat_toScaled, sub_self, abs_zero]
    linarith

end FiniteDouble

end MediaCommand
