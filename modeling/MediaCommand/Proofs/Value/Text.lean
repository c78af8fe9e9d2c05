import MediaCommand.Proofs.Action
import MediaCommand.Value.Text

/-!
# Values as texts

When a value can be spelled, and what the text is.
-/

namespace MediaCommand

namespace Value

variable {value : Value}

theorem spelled_eq_ok {text : String} :
    value.spelled = .ok text ↔ value.spellingFits ∧ value.spelling = text := by
  unfold spelled
  split
  · next fits => simp [fits]
  · next long => simp [long]

theorem spelled_eq_error {failure : Failure} :
    value.spelled = .error failure ↔ ¬value.spellingFits ∧ failure = .integerTooLong := by
  unfold spelled
  split
  · next fits => simp [fits]
  · next long => simp [long, eq_comm]

theorem spelled_of_fits (fits : value.spellingFits) : value.spelled = .ok value.spelling :=
  spelled_eq_ok.2 ⟨fits, rfl⟩

theorem spelled_of_long (long : ¬value.spellingFits) : value.spelled = .error .integerTooLong :=
  spelled_eq_error.2 ⟨long, rfl⟩

/-! ## Actions that spell a value first -/

section Bind

variable {σ α : Type} {f : String → Action σ α} {s t : σ}

theorem spelled_bind (fits : value.spellingFits) :
    (Action.ofExcept value.spelled >>= f) s = f value.spelling s := by
  rw [spelled_of_fits fits]
  rfl

theorem spelled_bind_of_long (long : ¬value.spellingFits) :
    (Action.ofExcept value.spelled >>= f) s = .error .integerTooLong s := by
  rw [spelled_of_long long]
  rfl

theorem spelled_bind_eq_ok {a : α} :
    (Action.ofExcept value.spelled >>= f) s = .ok a t ↔
      value.spellingFits ∧ f value.spelling s = .ok a t := by
  by_cases fits : value.spellingFits
  · rw [spelled_bind fits, and_iff_right fits]
  · rw [spelled_bind_of_long fits]
    exact iff_of_false (fun run => by cases run) fun both => fits both.1

end Bind

end Value

end MediaCommand
