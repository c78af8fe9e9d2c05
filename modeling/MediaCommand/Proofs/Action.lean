import MediaCommand.Failure
import Mathlib.Order.Defs.Unbundled

/-!
# Running actions

What the combinators of actions do to a state. `Action.after` is the state that an action leaves,
whether it fails or not. `Action.Respects R` says that every run leads from a state to one that
the preorder `R` relates to it; the rules for it follow the combinators, so that a frame property
of a long action is assembled from those of its steps. `Action.Atomic R` says it of the runs that
fail only. `Action.FailsOnly P` says what an action may fail with, and `Action.Alike R` that it
cannot tell states apart that `R` relates; their rules are of the same kind. Outcomes without a
state are taken apart by `except_bind_eq_ok` and its like.
-/

namespace MediaCommand

namespace Action

variable {σ τ α β : Type}

@[simp] theorem pure_apply (a : α) (s : σ) : (pure a : Action σ α) s = .ok a s := rfl

@[simp] theorem throw_apply (failure : Failure) (s : σ) :
    (throw failure : Action σ α) s = .error failure s := rfl

@[simp] theorem get_apply (s : σ) : (get : Action σ σ) s = .ok s s := rfl

@[simp] theorem modify_apply (f : σ → σ) (s : σ) :
    (modify f : Action σ PUnit) s = .ok ⟨⟩ (f s) := rfl

theorem bind_of_ok {x : Action σ α} {f : α → Action σ β} {s t : σ} {a : α}
    (run : x s = .ok a t) : (x >>= f) s = f a t := by
  simp only [bind, EStateM.bind, run]

theorem bind_of_error {x : Action σ α} {f : α → Action σ β} {s t : σ} {failure : Failure}
    (run : x s = .error failure t) : (x >>= f) s = .error failure t := by
  simp only [bind, EStateM.bind, run]

@[simp] theorem pure_bind_apply (a : α) (f : α → Action σ β) (s : σ) :
    (pure a >>= f) s = f a s := rfl

@[simp] theorem get_bind_apply (f : σ → Action σ β) (s : σ) : (get >>= f) s = f s s := rfl

@[simp] theorem set_bind_apply (t : σ) (f : PUnit → Action σ β) (s : σ) :
    (set t >>= f) s = f ⟨⟩ t := rfl

@[simp] theorem modify_bind_apply (g : σ → σ) (f : PUnit → Action σ β) (s : σ) :
    (modify g >>= f) s = f ⟨⟩ (g s) := rfl

/-- A failure is handled in the state that it leaves. -/
theorem tryCatch_apply (x : Action σ α) (handler : Failure → Action σ α) (s : σ) :
    tryCatch x handler s =
      match x s with
      | .ok a t => .ok a t
      | .error failure t => handler failure t := by
  change EStateM.tryCatch x handler s = _
  delta EStateM.tryCatch
  cases x s with
  | ok a t => rfl
  | error failure t => rfl

theorem bind_eq_ok {x : Action σ α} {f : α → Action σ β} {s u : σ} {b : β} :
    (x >>= f) s = .ok b u ↔ ∃ a t, x s = .ok a t ∧ f a t = .ok b u := by
  constructor
  · intro done
    cases run : x s with
    | ok a t => exact ⟨a, t, rfl, (bind_of_ok run).symm.trans done⟩
    | error failure t => cases (bind_of_error run).symm.trans done
  · rintro ⟨a, t, run, done⟩
    exact (bind_of_ok run).trans done

theorem bind_eq_error {x : Action σ α} {f : α → Action σ β} {s u : σ} {failure : Failure} :
    (x >>= f) s = .error failure u ↔
      x s = .error failure u ∨ ∃ a t, x s = .ok a t ∧ f a t = .error failure u := by
  cases run : x s with
  | ok a t =>
    rw [bind_of_ok run]
    constructor
    · intro failed
      exact .inr ⟨a, t, rfl, failed⟩
    · rintro (failed | ⟨_, _, same, failed⟩)
      · cases failed
      · cases same
        exact failed
  | error cause t =>
    rw [bind_of_error run]
    constructor
    · intro failed
      cases failed
      exact .inl rfl
    · rintro (failed | ⟨_, _, same, _⟩)
      · cases failed
        rfl
      · cases same

/-- Actions in turn return when the first ones do and the others do from there. -/
theorem forM_append_eq_ok {γ : Type} {f : γ → Action σ PUnit} {early late : List γ} {s u : σ} :
    (early ++ late).forM f s = .ok ⟨⟩ u ↔
      ∃ t, early.forM f s = .ok ⟨⟩ t ∧ late.forM f t = .ok ⟨⟩ u := by
  induction early generalizing s with
  | nil =>
    constructor
    · intro done
      exact ⟨s, rfl, done⟩
    · rintro ⟨_, same, done⟩
      cases same
      exact done
  | cons first rest ih =>
    constructor
    · intro done
      obtain ⟨_, mid, start, done⟩ := bind_eq_ok.1 done
      obtain ⟨t, begun, done⟩ := ih.1 done
      exact ⟨t, bind_eq_ok.2 ⟨_, mid, start, begun⟩, done⟩
    · rintro ⟨t, begun, done⟩
      obtain ⟨_, mid, start, begun⟩ := bind_eq_ok.1 begun
      exact bind_eq_ok.2 ⟨_, mid, start, ih.2 ⟨t, begun, done⟩⟩

/-- Looking up an object that is there. -/
theorem require_of_some {object : σ → Option α} {s : σ} {a : α} (present : object s = some a) :
    (do requireObject (object (← get)) : Action σ α) s = .ok a s := by
  rw [get_bind_apply, present]
  rfl

theorem require_of_none {object : σ → Option α} {s : σ} (absent : object s = none) :
    (do requireObject (object (← get)) : Action σ α) s = .error .noObject s := by
  rw [get_bind_apply, absent]
  rfl

theorem require_eq_ok {object : σ → Option α} {s t : σ} {a : α} :
    (do requireObject (object (← get)) : Action σ α) s = .ok a t ↔ object s = some a ∧ t = s := by
  cases present : object s with
  | none => simp [require_of_none present]
  | some b =>
    rw [require_of_some present]
    constructor
    · intro same
      cases same
      exact ⟨rfl, rfl⟩
    · rintro ⟨same, rfl⟩
      cases same
      rfl

theorem ofExcept_eq_ok {outcome : Except Failure α} {s t : σ} {a : α} :
    (ofExcept outcome : Action σ α) s = .ok a t ↔ outcome = .ok a ∧ t = s := by
  cases outcome with
  | ok b =>
    constructor
    · intro same
      cases same
      exact ⟨rfl, rfl⟩
    · rintro ⟨same, rfl⟩
      cases same
      rfl
  | error failure =>
    refine iff_of_false (fun same => ?_) fun ⟨same, _⟩ => ?_
    · cases same
    · cases same

/-- The state that an action leaves, whether it fails or not. -/
def after (action : Action σ α) (s : σ) : σ :=
  match action s with
  | .ok _ t => t
  | .error _ t => t

theorem after_of_ok {action : Action σ α} {s t : σ} {a : α} (run : action s = .ok a t) :
    action.after s = t := by
  simp only [after, run]

theorem after_of_error {action : Action σ α} {s t : σ} {failure : Failure}
    (run : action s = .error failure t) : action.after s = t := by
  simp only [after, run]

theorem after_bind_of_ok {x : Action σ α} {f : α → Action σ β} {s t : σ} {a : α}
    (run : x s = .ok a t) : (x >>= f).after s = (f a).after t := by
  rw [after, bind_of_ok run, after]

theorem after_bind_of_error {x : Action σ α} {f : α → Action σ β} {s t : σ} {failure : Failure}
    (run : x s = .error failure t) : (x >>= f).after s = t :=
  after_of_error (bind_of_error run)

theorem after_bind_congr {x : Action σ α} {f : α → Action σ β} {γ : Type} {g : α → Action σ γ}
    (same : ∀ a t, (f a).after t = (g a).after t) (s : σ) :
    (x >>= f).after s = (x >>= g).after s := by
  cases run : x s with
  | ok a t => rw [after_bind_of_ok run, after_bind_of_ok run, same]
  | error failure t => rw [after_bind_of_error run, after_bind_of_error run]

theorem after_bind_pure (x : Action σ α) (f : α → β) (s : σ) :
    (x >>= fun a => pure (f a)).after s = x.after s := by
  cases run : x s with
  | ok a t => rw [after_bind_of_ok run, after_of_ok run, after_of_ok (pure_apply (f a) t)]
  | error failure t => rw [after_bind_of_error run, after_of_error run]

/-- An action that does not fail returns with the state it leaves. -/
theorem eq_ok_after {action : Action σ Unit} {s : σ}
    (succeeds : (action s matches .ok _ _) = true) : action s = .ok () (action.after s) := by
  cases run : action s with
  | ok a t => rw [after_of_ok run]
  | error failure t => simp [run] at succeeds

/-- The outcome of an action without the state that it leaves. -/
def outcome (action : Action σ α) (s : σ) : Except Failure α :=
  match action s with
  | .ok a _ => .ok a
  | .error failure _ => .error failure

theorem outcome_of_ok {action : Action σ α} {s t : σ} {a : α} (run : action s = .ok a t) :
    action.outcome s = .ok a := by
  simp only [outcome, run]

theorem outcome_of_error {action : Action σ α} {s t : σ} {failure : Failure}
    (run : action s = .error failure t) : action.outcome s = .error failure := by
  simp only [outcome, run]

theorem eq_ok_of_outcome {action : Action σ α} {s : σ} {a : α}
    (returns : action.outcome s = .ok a) : action s = .ok a (action.after s) := by
  cases run : action s with
  | ok b t =>
    rw [outcome_of_ok run] at returns
    cases returns
    rw [after_of_ok run]
  | error failure t =>
    rw [outcome_of_error run] at returns
    cases returns

theorem eq_error_of_outcome {action : Action σ α} {s : σ} {failure : Failure}
    (fails : action.outcome s = .error failure) :
    action s = .error failure (action.after s) := by
  cases run : action s with
  | ok a t =>
    rw [outcome_of_ok run] at fails
    cases fails
  | error other t =>
    rw [outcome_of_error run] at fails
    cases fails
    rw [after_of_error run]

theorem after_congr {x y : Action σ α} {s t : σ} (same : x s = y t) :
    x.after s = y.after t := by
  simp only [after, same]

theorem within_of_ok {part : σ → τ} {replace : τ → σ → σ} {action : Action τ α} {s : σ} {t : τ}
    {a : α} (run : action (part s) = .ok a t) :
    within part replace action s = .ok a (replace t s) := by
  simp only [within, run]

theorem within_of_error {part : σ → τ} {replace : τ → σ → σ} {action : Action τ α} {s : σ}
    {t : τ} {failure : Failure} (run : action (part s) = .error failure t) :
    within part replace action s = .error failure (replace t s) := by
  simp only [within, run]

theorem within_eq_ok {part : σ → τ} {replace : τ → σ → σ} {action : Action τ α} {s u : σ}
    {a : α} : within part replace action s = .ok a u ↔
      ∃ t, action (part s) = .ok a t ∧ u = replace t s := by
  cases run : action (part s) with
  | ok b t =>
    rw [within_of_ok run]
    constructor
    · intro same
      cases same
      exact ⟨t, rfl, rfl⟩
    · rintro ⟨_, same, rfl⟩
      cases same
      rfl
  | error failure t =>
    rw [within_of_error run]
    constructor
    · intro same
      cases same
    · rintro ⟨_, same, _⟩
      cases same

theorem within_eq_error {part : σ → τ} {replace : τ → σ → σ} {action : Action τ α} {s u : σ}
    {failure : Failure} : within part replace action s = .error failure u ↔
      ∃ t, action (part s) = .error failure t ∧ u = replace t s := by
  cases run : action (part s) with
  | ok a t =>
    rw [within_of_ok run]
    constructor
    · intro same
      cases same
    · rintro ⟨_, same, _⟩
      cases same
  | error cause t =>
    rw [within_of_error run]
    constructor
    · intro same
      cases same
      exact ⟨t, rfl, rfl⟩
    · rintro ⟨_, same, rfl⟩
      cases same
      rfl

theorem after_within (part : σ → τ) (replace : τ → σ → σ) (action : Action τ α) (s : σ) :
    (within part replace action).after s = replace (action.after (part s)) s := by
  cases run : action (part s) with
  | ok a t => rw [after_of_ok (within_of_ok run), after_of_ok run]
  | error failure t => rw [after_of_error (within_of_error run), after_of_error run]

/-- Every run of the action leads from a state to one that `R` relates to it. -/
def Respects (R : σ → σ → Prop) (action : Action σ α) : Prop := ∀ s, R s (action.after s)

section Rules

variable {R : σ → σ → Prop} [IsPreorder σ R]

/-- An action that changes nothing. -/
theorem Respects.of_unchanged {action : Action σ α} (same : ∀ s, action.after s = s) :
    Respects R action := fun s => by
  rw [same s]
  exact refl s

theorem Respects.pure (a : α) : Respects R (pure a : Action σ α) := .of_unchanged fun _ => rfl

theorem Respects.throw (failure : Failure) : Respects R (throw failure : Action σ α) :=
  .of_unchanged fun _ => rfl

theorem Respects.ofExcept (outcome : Except Failure α) :
    Respects R (ofExcept outcome : Action σ α) := by
  cases outcome with
  | ok a => exact .pure a
  | error failure => exact .throw failure

omit [IsPreorder σ R] in
theorem Respects.modify {f : σ → σ} (step : ∀ s, R s (f s)) :
    Respects R (modify f : Action σ PUnit) := step

theorem Respects.object (object : Option α) :
    Respects R (requireObject object : Action σ α) := by
  cases object with
  | some a => exact .pure a
  | none => exact .throw .noObject

theorem Respects.bind {x : Action σ α} {f : α → Action σ β} (first : Respects R x)
    (next : ∀ a, Respects R (f a)) : Respects R (x >>= f) := by
  intro s
  have start := first s
  cases run : x s with
  | ok a t =>
    rw [after_of_ok run] at start
    have rest := next a t
    simp only [after, bind_of_ok run] at rest ⊢
    exact trans_of R start rest
  | error failure t =>
    rw [after_of_error run] at start
    rwa [after_of_error (bind_of_error run)]

/-- The rule for an action whose failures are handled. A failure leaves the state it reached. -/
theorem Respects.tryCatch {x : Action σ α} {handler : Failure → Action σ α}
    (first : Respects R x) (next : ∀ failure, Respects R (handler failure)) :
    Respects R (tryCatch x handler) := by
  intro s
  have start := first s
  cases run : x s with
  | ok a t =>
    rw [after_of_ok run] at start
    have same : MonadExcept.tryCatch x handler s = .ok a t := by rw [tryCatch_apply, run]
    rwa [after_of_ok same]
  | error failure t =>
    rw [after_of_error run] at start
    have same : MonadExcept.tryCatch x handler s = handler failure t := by
      rw [tryCatch_apply, run]
    rw [after_congr same]
    exact trans_of R start (next failure t)

omit [IsPreorder σ R] in
/-- The rule for an action that reads the state first. -/
theorem Respects.get_bind {f : σ → Action σ α} (next : ∀ s, R s ((f s).after s)) :
    Respects R (get >>= f) := next

/-- Looking up an object changes nothing, whether it is there or not. -/
theorem Respects.require (object : σ → Option α) :
    Respects R (do requireObject (object (← get)) : Action σ α) :=
  .get_bind fun s => Respects.object (object s) s

omit [IsPreorder σ R] in
/-- The rule for an action on one part, where replacing that part is harmless. -/
theorem Respects.within {part : σ → τ} {replace : τ → σ → σ} (action : Action τ α)
    (frame : ∀ s t, R s (replace t s)) : Respects R (within part replace action) := by
  intro s
  rw [after_within]
  exact frame s _

omit [IsPreorder σ R] in
/-- The rule for an action on one part that respects a relation of its own. -/
theorem Respects.within_of {Q : τ → τ → Prop} {part : σ → τ} {replace : τ → σ → σ}
    {action : Action τ α} (inside : Respects Q action)
    (frame : ∀ s t, Q (part s) t → R s (replace t s)) :
    Respects R (Action.within part replace action) := by
  intro s
  rw [after_within]
  exact frame s _ (inside (part s))

omit [IsPreorder σ R] in
theorem Respects.mono {S : σ → σ → Prop} {action : Action σ α} (respects : Respects R action)
    (weaker : ∀ s t, R s t → S s t) : Respects S action :=
  fun s => weaker s _ (respects s)

omit [IsPreorder σ R] in
theorem Respects.of_ok {action : Action σ α} (respects : Respects R action) {s t : σ} {a : α}
    (run : action s = .ok a t) : R s t := by
  have kept := respects s
  rwa [after_of_ok run] at kept

/-- A run that fails leads from a state to one that `R` relates to it, whatever one that returns
does. -/
def Atomic (R : σ → σ → Prop) (action : Action σ α) : Prop :=
  ∀ ⦃s t : σ⦄ ⦃failure : Failure⦄, action s = .error failure t → R s t

omit [IsPreorder σ R] in
theorem Respects.atomic {action : Action σ α} (respects : Respects R action) :
    Atomic R action := by
  intro s t failure failed
  have kept := respects s
  rwa [after_of_error failed] at kept

omit [IsPreorder σ R] in
/-- A change never fails. -/
theorem Atomic.modify (f : σ → σ) : Atomic R (modify f : Action σ PUnit) := by
  intro s t failure failed
  cases failed

omit [IsPreorder σ R] in
/-- A result may be passed on. -/
theorem Atomic.bind_pure {x : Action σ α} (atomic : Atomic R x) (f : α → β) :
    Atomic R (x >>= fun a => Pure.pure (f a)) := by
  intro s t failure failed
  rcases bind_eq_error.1 failed with failed | ⟨_, _, -, done⟩
  · exact atomic failed
  · cases done

theorem Atomic.bind {x : Action σ α} {f : α → Action σ β} (first : Respects R x)
    (next : ∀ a, Atomic R (f a)) : Atomic R (x >>= f) := by
  intro s u failure failed
  rcases bind_eq_error.1 failed with failed | ⟨a, t, run, failed⟩
  · exact first.atomic failed
  · exact trans_of R (first.of_ok run) (next a failed)

end Rules

/-! ## What actions fail with -/

/-- Every failure of the action is one that `P` allows. -/
def FailsOnly (P : Failure → Prop) (action : Action σ α) : Prop :=
  ∀ ⦃s t : σ⦄ ⦃failure : Failure⦄, action s = .error failure t → P failure

namespace FailsOnly

variable {P : Failure → Prop}

/-- An action that never fails. -/
theorem of_returns {action : Action σ α} (returns : ∀ s, ∃ a t, action s = .ok a t) :
    FailsOnly P action := by
  intro s t failure failed
  obtain ⟨a, u, done⟩ := returns s
  cases done.symm.trans failed

theorem pure (a : α) : FailsOnly P (pure a : Action σ α) := .of_returns fun _ => ⟨_, _, rfl⟩

theorem throw {failure : Failure} (allowed : P failure) :
    FailsOnly P (throw failure : Action σ α) := by
  intro s t other failed
  cases failed
  exact allowed

theorem modify (f : σ → σ) : FailsOnly P (modify f : Action σ PUnit) :=
  .of_returns fun _ => ⟨_, _, rfl⟩

theorem ofExcept {outcome : Except Failure α}
    (allowed : ∀ failure, outcome = .error failure → P failure) :
    FailsOnly P (ofExcept outcome : Action σ α) := by
  cases outcome with
  | ok a => exact .pure a
  | error failure => exact .throw (allowed failure rfl)

theorem bind {x : Action σ α} {f : α → Action σ β} (first : FailsOnly P x)
    (next : ∀ a, FailsOnly P (f a)) : FailsOnly P (x >>= f) := by
  intro s u failure failed
  rcases bind_eq_error.1 failed with failed | ⟨a, t, -, failed⟩
  · exact first failed
  · exact next a failed

/-- The rule for an action that reads the state first. -/
theorem get_bind {f : σ → Action σ α} (next : ∀ s, FailsOnly P (f s)) :
    FailsOnly P (get >>= f) := fun s _ _ failed => next s failed

theorem object (allowed : P .noObject) (object : Option α) :
    FailsOnly P (requireObject object : Action σ α) := by
  cases object with
  | some a => exact .pure a
  | none => exact .throw allowed

/-- Looking up an object may find none. -/
theorem require (allowed : P .noObject) (object : σ → Option α) :
    FailsOnly P (do requireObject (object (← get)) : Action σ α) :=
  .get_bind fun s => .object allowed (object s)

/-- The rule for an action on one part. -/
theorem within {part : σ → τ} {replace : τ → σ → σ} {action : Action τ α}
    (inside : FailsOnly P action) : FailsOnly P (Action.within part replace action) := by
  intro s u failure failed
  obtain ⟨t, failed, -⟩ := within_eq_error.1 failed
  exact inside failed

theorem mono {Q : Failure → Prop} {action : Action σ α} (fails : FailsOnly P action)
    (weaker : ∀ failure, P failure → Q failure) : FailsOnly Q action :=
  fun _ _ _ failed => weaker _ (fails failed)

end FailsOnly

/-! ## Actions that cannot tell states apart -/

/-- From states that `R` relates, the action has one outcome and leads to related states again. -/
def Alike (R : σ → σ → Prop) (action : Action σ α) : Prop :=
  ∀ ⦃s t : σ⦄, R s t → action.outcome s = action.outcome t ∧ R (action.after s) (action.after t)

namespace Alike

variable {R : σ → σ → Prop}

theorem ok {action : Action σ α} (alike : Alike R action) {s t u : σ} {a : α} (related : R s t)
    (run : action s = .ok a u) : ∃ v, action t = .ok a v ∧ R u v := by
  obtain ⟨same, left⟩ := alike related
  rw [outcome_of_ok run] at same
  rw [after_of_ok run] at left
  exact ⟨_, eq_ok_of_outcome same.symm, left⟩

theorem error {action : Action σ α} (alike : Alike R action) {s t u : σ} {failure : Failure}
    (related : R s t) (run : action s = .error failure u) :
    ∃ v, action t = .error failure v ∧ R u v := by
  obtain ⟨same, left⟩ := alike related
  rw [outcome_of_error run] at same
  rw [after_of_error run] at left
  exact ⟨_, eq_error_of_outcome same.symm, left⟩

theorem pure (a : α) : Alike R (pure a : Action σ α) := fun _ _ related => ⟨rfl, related⟩

theorem throw (failure : Failure) : Alike R (throw failure : Action σ α) :=
  fun _ _ related => ⟨rfl, related⟩

theorem ofExcept (outcome : Except Failure α) :
    Alike R (Action.ofExcept outcome : Action σ α) := by
  cases outcome with
  | ok a => exact .pure a
  | error failure => exact .throw failure

theorem modify {f : σ → σ} (step : ∀ s t, R s t → R (f s) (f t)) :
    Alike R (modify f : Action σ PUnit) := fun s t related => ⟨rfl, step s t related⟩

theorem bind {x : Action σ α} {f : α → Action σ β} (first : Alike R x)
    (next : ∀ a, Alike R (f a)) : Alike R (x >>= f) := by
  intro s t related
  cases run : x s with
  | ok a u =>
    obtain ⟨v, again, related⟩ := first.ok related run
    have rest := next a related
    simpa only [outcome, after, bind_of_ok run, bind_of_ok again] using rest
  | error failure u =>
    obtain ⟨v, again, related⟩ := first.error related run
    rw [outcome_of_error (bind_of_error run), outcome_of_error (bind_of_error again),
      after_bind_of_error run, after_bind_of_error again]
    exact ⟨rfl, related⟩

/-- The rule for an action that first reads what related states have in common. -/
theorem read_bind {part : σ → τ} (same : ∀ s t, R s t → part s = part t) {f : τ → Action σ α}
    (next : ∀ x, Alike R (f x)) : Alike R (get >>= fun s => f (part s)) := by
  intro s t related
  have rest := next (part s) related
  have equal := same s t related
  simp only [outcome, after, get_bind_apply, ← equal] at rest ⊢
  exact rest

/-- The rule for an action on one part. -/
theorem within {Q : τ → τ → Prop} {part : σ → τ} {replace : τ → σ → σ} {action : Action τ α}
    (inside : Alike Q action) (enter : ∀ s t, R s t → Q (part s) (part t))
    (leave : ∀ s t x y, R s t → Q x y → R (replace x s) (replace y t)) :
    Alike R (Action.within part replace action) := by
  intro s t related
  cases run : action (part s) with
  | ok a x =>
    obtain ⟨y, again, left⟩ := inside.ok (enter s t related) run
    rw [outcome_of_ok (within_of_ok run), outcome_of_ok (within_of_ok again),
      after_of_ok (within_of_ok run), after_of_ok (within_of_ok again)]
    exact ⟨rfl, leave s t x y related left⟩
  | error failure x =>
    obtain ⟨y, again, left⟩ := inside.error (enter s t related) run
    rw [outcome_of_error (within_of_error run), outcome_of_error (within_of_error again),
      after_of_error (within_of_error run), after_of_error (within_of_error again)]
    exact ⟨rfl, leave s t x y related left⟩

end Alike

end Action

/-! ## Outcomes without a state -/

section Outcomes

variable {ε α β : Type} {x : Except ε α} {failure : ε}

theorem except_bind_eq_ok {f : α → Except ε β} {b : β} :
    (x >>= f) = .ok b ↔ ∃ a, x = .ok a ∧ f a = .ok b := by
  cases x with
  | error other => simp [bind, Except.bind]
  | ok a => simp [bind, Except.bind]

theorem except_bind_eq_error {f : α → Except ε β} :
    (x >>= f) = .error failure ↔ x = .error failure ∨ ∃ a, x = .ok a ∧ f a = .error failure := by
  cases x with
  | error other => simp [bind, Except.bind]
  | ok a => simp [bind, Except.bind]

theorem except_map_eq_ok {f : α → β} {b : β} : f <$> x = .ok b ↔ ∃ a, x = .ok a ∧ f a = b := by
  cases x with
  | error failure => simp [Functor.map, Except.map]
  | ok a => simp [Functor.map, Except.map]

theorem except_map_eq_error {f : α → β} : f <$> x = .error failure ↔ x = .error failure := by
  cases x with
  | error other => simp [Functor.map, Except.map]
  | ok a => simp [Functor.map, Except.map]

theorem except_eq_error [DecidableEq ε]
    (fails : (match x with | .ok _ => false | .error other => decide (other = failure)) = true) :
    x = .error failure := by
  cases x with
  | ok a => cases fails
  | error other => exact congrArg Except.error (of_decide_eq_true fails)

theorem except_returns_with {p : α → Prop} [DecidablePred p]
    (returns : (match x with | .ok a => decide (p a) | .error _ => false) = true) :
    ∃ a, x = .ok a ∧ p a := by
  cases x with
  | ok a => exact ⟨a, rfl, of_decide_eq_true returns⟩
  | error other => cases returns

theorem except_returns_iff : (∃ a, x = .ok a) ↔ ∀ failure, x ≠ .error failure := by
  cases x with
  | error other => simp
  | ok a => simp

end Outcomes

end MediaCommand
