import MediaCommand.Proofs.Action
import MediaCommand.Proofs.Keyed
import MediaCommand.Value.Normal

/-!
# Looking up tokens

A look-up may fix the table of a catalogue, but it leaves every table as it looks (`view_settle`).
So how one value is written does not depend on which others were written before it. `LooksUp` says
this of an action; its rules follow the combinators, down to `normalize`.
-/

namespace MediaCommand

open MediaCommand.Action

namespace Tokens

theorem view_settle (tokens : Tokens) (catalog other : Catalog) :
    (tokens.settle catalog).view other = tokens.view other := by
  cases known : tokens.tables.get? catalog with
  | some table => simp only [settle, known]
  | none =>
    simp only [settle, known]
    by_cases same : other = catalog
    · subst same
      simp only [view, Keyed.get?_put_self, known, Option.getD_some, Option.getD_none]
    · simp only [view, Keyed.get?_put_other same]
      rfl

/-- All tables look the same. -/
def Agrees (tokens others : Tokens) : Prop := ∀ catalog, tokens.view catalog = others.view catalog

instance : IsPreorder Tokens Agrees where
  refl _ _ := rfl
  trans _ _ _ first second catalog := (first catalog).trans (second catalog)

theorem Agrees.symm {tokens others : Tokens} (agree : tokens.Agrees others) :
    others.Agrees tokens := fun catalog => (agree catalog).symm

theorem Agrees.trans {first second third : Tokens} (agree : first.Agrees second)
    (further : second.Agrees third) : first.Agrees third :=
  trans_of Agrees agree further

/-- The action leaves all tables as they look, and its outcome depends on nothing else. -/
structure LooksUp {α : Type} (action : Action Tokens α) : Prop where
  respects : Respects Agrees action
  alike : Alike Agrees action

namespace LooksUp

variable {α β : Type}

theorem pure (a : α) : LooksUp (pure a) := ⟨.pure a, .pure a⟩

theorem throw (failure : Failure) : LooksUp (throw failure : Action Tokens α) :=
  ⟨.throw failure, .throw failure⟩

theorem bind {x : Action Tokens α} {f : α → Action Tokens β} (first : LooksUp x)
    (next : ∀ a, LooksUp (f a)) : LooksUp (x >>= f) :=
  ⟨.bind first.respects fun a => (next a).respects, .bind first.alike fun a => (next a).alike⟩

theorem map {x : Action Tokens α} (f : α → β) (looks : LooksUp x) : LooksUp (f <$> x) :=
  .bind looks fun _ => .pure _

theorem ofExcept (outcome : Except Failure α) : LooksUp (Action.ofExcept outcome) :=
  ⟨.ofExcept outcome, .ofExcept outcome⟩

/-- A look-up that returns leaves tokens that look as before. -/
theorem agrees {action : Action Tokens α} (looks : LooksUp action) {tokens rest : Tokens} {a : α}
    (run : action tokens = .ok a rest) : tokens.Agrees rest := by
  have kept := looks.respects tokens
  rwa [after_of_ok run] at kept

end LooksUp

theorem looksUp_table (catalog : Catalog) : LooksUp (table catalog) where
  respects t other := (view_settle t catalog other).symm
  alike t u agree := by
    refine ⟨congrArg Except.ok (agree catalog), fun other => ?_⟩
    exact (view_settle t catalog other).trans
      ((agree other).trans (view_settle u catalog other).symm)

theorem looksUp_resolve (catalog : Catalog) (name : String) : LooksUp (resolve catalog name) := by
  refine .bind (looksUp_table catalog) fun table => ?_
  split
  · exact .pure _
  · exact .throw _

theorem looksUp_normalize (value : Value) : LooksUp (normalize value) := by
  cases value with
  | member m worth => exact .map _ (looksUp_resolve _ _)
  | decimal d =>
    unfold normalize
    dsimp only
    split
    · exact .pure _
    · exact .throw _
  | int _ | list _ | tuple _ | mapping _ => exact .bind (.ofExcept _) fun _ => .pure _
  | _ => exact .pure _

theorem looksUp_normalizeAll (values : List Value) : LooksUp (normalizeAll values) := by
  induction values with
  | nil => exact .pure _
  | cons value rest ih =>
    exact .bind (looksUp_normalize value) fun _ => .bind ih fun _ => .pure _

theorem looksUp_expandAll (separator : String) (values : List Value) :
    LooksUp (expandAll separator values) :=
  .bind (looksUp_normalizeAll values) fun _ => .pure _

/-- The text that a value is written with; none where it has none or cannot be written. -/
def spell (tokens : Tokens) (value : Value) : Option String :=
  match (normalize value).outcome tokens with
  | .ok text => text
  | .error _ => none

theorem spell_of_ok {tokens rest : Tokens} {value : Value} {text : Option String}
    (run : normalize value tokens = .ok text rest) : tokens.spell value = text := by
  simp only [spell, outcome_of_ok run]

theorem Agrees.spell {tokens others : Tokens} (agree : tokens.Agrees others) (value : Value) :
    tokens.spell value = others.spell value := by
  simp only [Tokens.spell, ((looksUp_normalize value).alike agree).1]

theorem normalizeAll_spelled {values : List Value} {tokens rest : Tokens}
    {texts : List (Option String)} (normal : normalizeAll values tokens = .ok texts rest) :
    texts = values.map tokens.spell := by
  induction values generalizing tokens texts with
  | nil =>
    cases normal
    rfl
  | cons value others ih =>
    obtain ⟨text, mid, first, normal⟩ := bind_eq_ok.1 normal
    obtain ⟨later, _, all, normal⟩ := bind_eq_ok.1 normal
    cases normal
    have agree := (looksUp_normalize value).agrees first
    have same : mid.spell = tokens.spell := funext fun other => (agree.spell other).symm
    rw [ih all, same, List.map_cons, spell_of_ok first]

end Tokens

/-- Only a value that is absent is written without a text. -/
theorem normalize_eq_none {value : Value} {tokens after : Tokens}
    (run : normalize value tokens = .ok none after) : value = .null := by
  cases value with
  | null => rfl
  | decimal d =>
    simp only [normalize] at run
    cases found : d.cents? <;> simp [found] at run
  | member m payload =>
    obtain ⟨text, t, -, done⟩ := Action.bind_eq_ok.1 run
    cases done
  | int _ | list _ | tuple _ | mapping _ =>
    obtain ⟨text, t, -, done⟩ := Action.bind_eq_ok.1 run
    cases done
  | _ => cases run

end MediaCommand
