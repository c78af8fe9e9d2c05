import MediaCommand.Catalog.Fixed
import MediaCommand.Proofs.Number.Range
import MediaCommand.Proofs.Tokens
import MediaCommand.Proofs.Value.Text

/-!
# Which values can be written

A value has a command-line text unless it is a decimal that is too large, infinite or a signaling
NaN, or shows an integer of too many digits (`normalize_returns_iff`). For members this needs that
the tables of tokens cover their catalogues: `Tokens.Sound`, which holds of all tokens that look-ups
and registrations lead to (`Reached.sound`).
-/

namespace MediaCommand

open MediaCommand.Action

/-! ## Tables that cover their catalogues -/

namespace Tokens

/-- Every table has a token for each variant of its catalogue. -/
def Sound (tokens : Tokens) : Prop :=
  ∀ catalog, (tokens.view catalog).map (·.1) = catalog.names

theorem names_build (tokens : Tokens) (catalog : Catalog) :
    (tokens.build catalog).map (·.1) = catalog.names := by
  simp [build, Function.comp_def]

/-- Only tables that are fixed may miss a variant. -/
theorem sound_iff {tokens : Tokens} :
    tokens.Sound ↔ ∀ catalog table, tokens.tables.get? catalog = some table →
      table.map (·.1) = catalog.names := by
  constructor
  · intro sound catalog table fixed
    have seen := sound catalog
    rwa [view, fixed] at seen
  · intro covered catalog
    cases fixed : tokens.tables.get? catalog with
    | none => rw [view, fixed, Option.getD_none, names_build]
    | some table => rw [view, fixed, Option.getD_some, covered catalog table fixed]

theorem sound_initial : Tokens.initial.Sound :=
  sound_iff.2 fun _ _ fixed => by cases fixed

theorem Agrees.sound {tokens others : Tokens} (agree : tokens.Agrees others)
    (sound : tokens.Sound) : others.Sound := by
  intro catalog
  rw [← agree catalog, sound catalog]

/-- A registration has no effect on tables that are fixed. -/
theorem sound_register {tokens : Tokens} (sound : tokens.Sound) (catalog : Catalog)
    (overrides : TokenTable) : ((register catalog overrides).after tokens).Sound := by
  have tables : ((register catalog overrides).after tokens).tables = tokens.tables := by
    unfold register
    dsimp only
    split <;> rfl
  rw [sound_iff, tables]
  exact sound_iff.1 sound

/-- Tokens that look-ups and registrations lead to. -/
inductive Reached : Tokens → Prop where
  | initial : Reached .initial
  | looked {tokens : Tokens} {α : Type} {look : Action Tokens α} (looks : LooksUp look)
      (before : Reached tokens) : Reached (look.after tokens)
  | registered {tokens : Tokens} (catalog : Catalog) (overrides : TokenTable)
      (before : Reached tokens) : Reached ((register catalog overrides).after tokens)

theorem Reached.sound {tokens : Tokens} (reached : tokens.Reached) : tokens.Sound := by
  induction reached with
  | initial => exact sound_initial
  | looked looks _ sound => exact (looks.respects _).sound sound
  | registered catalog overrides _ sound => exact sound_register sound catalog overrides

theorem get?_isSome_iff (table : TokenTable) (name : String) :
    (Keyed.get? table name).isSome ↔ name ∈ table.map (·.1) := by
  simp [Keyed.get?, List.find?_isSome]

/-- Where tables cover their catalogues, each variant has a token. -/
theorem resolve_returns_iff {tokens : Tokens} (sound : tokens.Sound) (catalog : Catalog)
    (name : String) :
    (∃ token rest, resolve catalog name tokens = .ok token rest) ↔ name ∈ catalog.names := by
  rw [← sound catalog, ← get?_isSome_iff]
  have looked : table catalog tokens = .ok (tokens.view catalog) (tokens.settle catalog) := rfl
  rw [resolve, bind_of_ok looked]
  cases Keyed.get? (tokens.view catalog) name with
  | some token => simp
  | none => simp

end Tokens

namespace Value

/-- Whether a value has a command-line text or none to write: members must name a variant of their
catalogue, decimals must fit, and no integer may have too many digits, be it in a collection. -/
def IsWritable : Value → Prop
  | .int n => IsConvertible n
  | .decimal d => d.IsWritable
  | .member m _ => m.name ∈ m.catalog.names
  | .list items => literalsFit items
  | .tuple items => literalsFit items
  | .mapping entries => entryLiteralsFit entries
  | _ => True

variable {value : Value}

/-- Whether a value is written as it is spelled on its own: integers, collections and other
objects. -/
def IsShown : Value → Prop
  | .int _ | .list _ | .tuple _ | .mapping _ | .table _ | .shown .. => True
  | _ => False

theorem normalize_of_isShown (shown : value.IsShown) :
    normalize value = do return some (← Action.ofExcept value.spelled) := by
  cases value with
  | int _ | list _ | tuple _ | mapping _ | table _ | shown _ _ _ => rfl
  | _ => cases shown

theorem isWritable_iff_spellingFits (shown : value.IsShown) :
    value.IsWritable ↔ value.spellingFits := by
  cases value with
  | int n => exact (decide_eq_true_iff (p := IsConvertible n)).symm
  | list _ | tuple _ | mapping _ => exact Iff.rfl
  | table _ | shown _ _ _ => exact iff_of_true trivial rfl
  | _ => cases shown

theorem normalize_returns_of_isShown {tokens : Tokens} (shown : value.IsShown) :
    (∃ text rest, normalize value tokens = .ok text rest) ↔ value.IsWritable := by
  rw [isWritable_iff_spellingFits shown, normalize_of_isShown shown]
  by_cases fits : value.spellingFits
  · rw [spelled_of_fits fits]
    exact iff_of_true ⟨_, _, rfl⟩ fits
  · rw [spelled_of_long fits]
    refine iff_of_false ?_ fits
    rintro ⟨_, _, run⟩
    cases run

end Value

/-! ## Members that callers can name -/

namespace Catalog

variable {catalog : Catalog} {name : String}

/-- Every variant stands for one that is declared, too. -/
def Closed (catalog : Catalog) : Prop := ∀ v ∈ catalog.variants, v.canonical ∈ catalog.names

theorem closed_declare {α : Type} (name : String) (serial : Nat) (same : α → α → Bool)
    (things : List (String × α)) : (declare name serial same things).Closed := by
  intro v mem
  obtain ⟨thing, declared, rfl⟩ := List.mem_map.1 mem
  have names : (declare name serial same things).names = things.map (·.1) := by
    simp [declare, Catalog.names, Function.comp_def]
  rw [names]
  cases found : things.find? fun earlier => same earlier.2 thing.2 with
  | none => exact List.mem_map_of_mem declared
  | some earlier => exact List.mem_map_of_mem (List.mem_of_find?_eq_some found)

/-- A member that a declared name stands for can be written. -/
theorem isWritable_of_member? (closed : catalog.Closed) {m : Member}
    (found : catalog.member? name = some m) (worth : Value) :
    (Value.member m worth).IsWritable := by
  obtain ⟨v, known, rfl⟩ := Option.map_eq_some_iff.1 found
  exact closed v (List.mem_of_find?_eq_some known)

end Catalog

/-! ## Writing values -/

/-- A value is escaped as it is spelled. -/
theorem escapeValue_eq_ok {value : Value} {quote : Bool} {text : String} :
    escapeValue value quote = .ok text ↔
      value.spellingFits ∧ escapeText value.spelling quote = text := by
  by_cases fits : value.spellingFits
  · rw [escapeValue, Value.spelled_of_fits fits, and_iff_right fits]
    exact ⟨Except.ok.inj, congrArg Except.ok⟩
  · rw [escapeValue, Value.spelled_of_long fits]
    exact iff_of_false (fun same => by cases same) fun both => fits both.1

/-- With tables that cover their catalogues, just the writable values can be written. -/
theorem normalize_returns_iff {tokens : Tokens} (sound : tokens.Sound) (value : Value) :
    (∃ text rest, normalize value tokens = .ok text rest) ↔ value.IsWritable := by
  cases value with
  | decimal d =>
    rw [Value.IsWritable, ← Decimal.cents?_isSome_iff, normalize]
    cases d.cents? with
    | some digits => simp
    | none => simp
  | member m worth =>
    rw [Value.IsWritable, ← Tokens.resolve_returns_iff sound, normalize_member]
    constructor
    · rintro ⟨text, rest, done⟩
      obtain ⟨token, mid, resolved, -⟩ := bind_eq_ok.1 done
      exact ⟨token, mid, resolved⟩
    · rintro ⟨token, rest, resolved⟩
      exact ⟨some token, rest, bind_of_ok resolved⟩
  | int _ | list _ | tuple _ | mapping _ => exact Value.normalize_returns_of_isShown trivial
  | _ => exact iff_of_true ⟨_, _, rfl⟩ trivial

theorem not_isWritable_of_error {tokens rest : Tokens} (sound : tokens.Sound) {value : Value}
    {failure : Failure} (failed : normalize value tokens = .error failure rest) :
    ¬value.IsWritable := by
  intro writable
  obtain ⟨text, others, done⟩ := (normalize_returns_iff sound value).2 writable
  cases done.symm.trans failed

end MediaCommand
