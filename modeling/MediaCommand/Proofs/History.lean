import MediaCommand.Proofs.Action

/-!
# Histories

Calls are made one after the other, and those that fail count with the state they leave. The history
of a run pairs each call with the state that it found. What a cache holds can then be said of the
calls alone: it is what some call of the history was the first to find.
-/

namespace MediaCommand

namespace Action

variable {σ γ : Type} (perform : γ → Action σ Unit)

/-- The state after calls in turn, those that fail included. -/
def afterEach (calls : List γ) (s : σ) : σ := calls.foldl (fun s call => (perform call).after s) s

/-- Each call with the state that it found. -/
def history : List γ → σ → List (σ × γ)
  | [], _ => []
  | call :: rest, s => (s, call) :: history rest ((perform call).after s)

theorem afterEach_append (early late : List γ) (s : σ) :
    afterEach perform (early ++ late) s = afterEach perform late (afterEach perform early s) :=
  List.foldl_append

theorem afterEach_concat (calls : List γ) (call : γ) (s : σ) :
    afterEach perform (calls ++ [call]) s = (perform call).after (afterEach perform calls s) :=
  afterEach_append perform calls [call] s

theorem history_append (early late : List γ) (s : σ) :
    history perform (early ++ late) s =
      history perform early s ++ history perform late (afterEach perform early s) := by
  induction early generalizing s with
  | nil => rfl
  | cons call rest ih =>
    rw [List.cons_append, history, ih]
    rfl

theorem history_concat (calls : List γ) (call : γ) (s : σ) :
    history perform (calls ++ [call]) s =
      history perform calls s ++ [(afterEach perform calls s, call)] :=
  history_append perform calls [call] s

end Action

end MediaCommand
