import MediaCommand.Proofs.Action

/-!
# Actions with a reference

`Action.Realizes` compares an action with a value that is computed without it: the action returns
where there is a value and fails where there is none. The rules for it follow the combinators, as
the reference does.
-/

namespace MediaCommand

namespace Action

variable {σ α β γ δ : Type}

/-- The action returns just when the reference has a value, with a result and a state that suit
it. -/
def Realizes (reference : Option γ) (suits : γ → α → σ → Prop) (action : Action σ α) (s : σ) :
    Prop :=
  match reference with
  | some value => ∃ a t, action s = .ok a t ∧ suits value a t
  | none => ∃ failure t, action s = .error failure t

theorem toOption_outcome_eq_some {action : Action σ α} {s : σ} {a : α} :
    (action.outcome s).toOption = some a ↔ action.outcome s = .ok a := by
  cases action.outcome s with
  | ok b => simp [Except.toOption]
  | error failure => simp [Except.toOption]

namespace Realizes

variable {s : σ}

theorem pure {value : γ} {suits : γ → α → σ → Prop} {a : α} (here : suits value a s) :
    Realizes (some value) suits (pure a) s := ⟨a, s, rfl, here⟩

theorem bind {first : Option γ} {suits : γ → α → σ → Prop} {x : Action σ α}
    {second : γ → Option δ} {fits : δ → β → σ → Prop} {f : α → Action σ β}
    (begun : Realizes first suits x s)
    (onward : ∀ value a t, first = some value → suits value a t →
      Realizes (second value) fits (f a) t) :
    Realizes (first.bind second) fits (x >>= f) s := by
  cases first with
  | none =>
    obtain ⟨failure, t, run⟩ := begun
    exact ⟨failure, t, bind_of_error run⟩
  | some value =>
    obtain ⟨a, t, run, here⟩ := begun
    have rest := onward value a t rfl here
    cases next : second value with
    | none =>
      rw [next] at rest
      obtain ⟨failure, u, later⟩ := rest
      rw [Option.bind_some, next]
      exact ⟨failure, u, (bind_of_ok run).trans later⟩
    | some last =>
      rw [next] at rest
      obtain ⟨b, u, later, there⟩ := rest
      rw [Option.bind_some, next]
      exact ⟨b, u, (bind_of_ok run).trans later, there⟩

theorem mono {reference : Option γ} {suits fits : γ → α → σ → Prop} {action : Action σ α}
    (realizes : Realizes reference suits action s)
    (weaker : ∀ value a t, suits value a t → fits value a t) :
    Realizes reference fits action s := by
  cases reference with
  | none => exact realizes
  | some value =>
    obtain ⟨a, t, run, here⟩ := realizes
    exact ⟨a, t, run, weaker value a t here⟩

/-- The rule for an action that ends with one that returns anyway. -/
theorem before {reference : Option γ} {suits : γ → α → σ → Prop} {x : Action σ α}
    {f : α → Action σ β} {fits : γ → β → σ → Prop} (realizes : Realizes reference suits x s)
    (returns : ∀ value a t, suits value a t → ∃ b u, f a t = .ok b u ∧ fits value b u) :
    Realizes reference fits (x >>= f) s := by
  cases reference with
  | none =>
    obtain ⟨failure, t, run⟩ := realizes
    exact ⟨failure, t, bind_of_error run⟩
  | some value =>
    obtain ⟨a, t, run, here⟩ := realizes
    obtain ⟨b, u, later, there⟩ := returns value a t here
    exact ⟨b, u, (bind_of_ok run).trans later, there⟩

/-- The rule for a reference whose value is turned into another. -/
theorem value {reference : Option γ} {suits : γ → α → σ → Prop} {action : Action σ α}
    (realizes : Realizes reference suits action s) {h : γ → δ} {fits : δ → α → σ → Prop}
    (onward : ∀ value a t, suits value a t → fits (h value) a t) :
    Realizes (reference.bind fun value => some (h value)) fits action s := by
  cases reference with
  | none => exact realizes
  | some value =>
    obtain ⟨a, t, run, here⟩ := realizes
    exact ⟨a, t, run, onward value a t here⟩

/-- The rule for an action that starts with one that returns anyway. -/
theorem after {reference : Option γ} {suits : γ → β → σ → Prop} {x : Action σ α}
    {f : α → Action σ β} {t : σ} {a : α} (run : x s = .ok a t)
    (onward : Realizes reference suits (f a) t) : Realizes reference suits (x >>= f) s := by
  unfold Realizes
  rw [bind_of_ok run]
  exact onward

/-- Actions in turn for the items of a list, each with a reference of its own. -/
theorem mapM {items : List γ} {reference : γ → Option δ} {result : δ → α}
    {action : γ → Action σ α} {kept : σ → Prop}
    (step : ∀ item ∈ items, ∀ t, kept t →
      Realizes (reference item) (fun value a u => a = result value ∧ kept u) (action item) t)
    (here : kept s) :
    Realizes (items.mapM reference) (fun values results t => results = values.map result ∧ kept t)
      (items.mapM action) s := by
  induction items generalizing s with
  | nil => exact pure ⟨rfl, here⟩
  | cons item rest ih =>
    obtain ⟨first, others⟩ := List.forall_mem_cons.1 step
    rw [List.mapM_cons, List.mapM_cons]
    refine bind (first s here) ?_
    rintro value _ t - ⟨rfl, there⟩
    refine bind (ih others there) ?_
    rintro values _ u - ⟨rfl, kept⟩
    exact pure ⟨rfl, kept⟩

theorem of_ok {reference : Option γ} {suits : γ → α → σ → Prop} {action : Action σ α}
    (realizes : Realizes reference suits action s) {a : α} {t : σ} (run : action s = .ok a t) :
    ∃ value, reference = some value ∧ suits value a t := by
  cases reference with
  | none =>
    obtain ⟨failure, u, failed⟩ := realizes
    cases run.symm.trans failed
  | some value =>
    obtain ⟨b, u, returned, here⟩ := realizes
    cases run.symm.trans returned
    exact ⟨value, rfl, here⟩

/-- A result that is made of the value alone. -/
theorem toOption_outcome {reference : Option γ} {result : γ → α} {kept : σ → Prop}
    {action : Action σ α}
    (realizes : Realizes reference (fun value a t => a = result value ∧ kept t) action s) :
    (action.outcome s).toOption = reference.map result := by
  cases reference with
  | none =>
    obtain ⟨failure, t, run⟩ := realizes
    rw [outcome_of_error run]
    rfl
  | some value =>
    obtain ⟨a, t, run, rfl, -⟩ := realizes
    rw [outcome_of_ok run]
    rfl

end Realizes

end Action

end MediaCommand
