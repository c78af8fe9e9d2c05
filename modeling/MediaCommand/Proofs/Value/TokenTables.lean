import MediaCommand.Proofs.Value.Writable
import Mathlib.Data.List.TakeWhile

/-!
# Tables that are computed once

The first look-up in a catalogue fixes its table, also when it fails, and registrations replace each
other until then. `TokenCall.reference` says from the calls alone which table that is: each declared
name with its token in the last registration before the first look-up, otherwise in small letters.
What holds of a catalogue after any calls is `Kept`; a registration, a look-up and a call that is
neither each keep it up (`kept_concat`), and so does a run of calls (`kept_afterCalls`).

Two kinds of calls on members are meant to look something up and do not: writing a member that is
told for a text or a number first, and asking one for its token where a variant has the name of the
question.
-/

namespace MediaCommand

open MediaCommand.Action

/-- Whether all tokens are for variants of the catalogue. -/
def Catalog.Declares (catalog : Catalog) (overrides : TokenTable) : Prop :=
  ∀ name ∈ overrides.map (·.1), name ∈ catalog.names

instance (catalog : Catalog) (overrides : TokenTable) : Decidable (catalog.Declares overrides) :=
  List.decidableBAll (fun name => name ∈ catalog.names) (overrides.map Prod.fst)

/-- A call that registers tokens or is meant to look them up. -/
inductive TokenCall where
  | register (catalog : Catalog) (overrides : TokenTable)
  | table (catalog : Catalog)
  | resolve (catalog : Catalog) (name : String)
  | command (m : Member)
  | normalize (base : MemberBase) (m : Member) (worth : Value)

namespace TokenCall

/-- The catalogue that a call is about. -/
def subject : TokenCall → Catalog
  | .register catalog _ | .table catalog | .resolve catalog _ => catalog
  | .command m | .normalize _ m _ => m.catalog

def perform : TokenCall → Action Tokens Unit
  | .register catalog overrides => Tokens.register catalog overrides
  | .table catalog => do let _ ← Tokens.table catalog
  | .resolve catalog name => do let _ ← Tokens.resolve catalog name
  | .command m => do let _ ← Tokens.command m
  | .normalize base m worth => do let _ ← normalizeMember base m worth

/-- The tokens after calls, failed ones included. -/
def after (tokens : Tokens) (calls : List TokenCall) : Tokens :=
  calls.foldl (fun tokens call => call.perform.after tokens) tokens

/-- The tokens after calls from the very start. -/
def afterCalls (calls : List TokenCall) : Tokens := after ⟨[], []⟩ calls

/-! ## The reference -/

/-- Whether a call looks something up. -/
def isLookup : TokenCall → Bool
  | .register _ _ => false
  | .table _ | .resolve _ _ => true
  | .command m => decide ("command" ∉ m.catalog.names)
  | .normalize base m worth => (base.written? m worth).isNone

/-- Whether a call looks something up in a catalogue. -/
def looksUp (catalog : Catalog) (call : TokenCall) : Bool :=
  call.isLookup && decide (call.subject = catalog)

/-- The tokens that a call registers for a catalogue. -/
def registers? (catalog : Catalog) : TokenCall → Option TokenTable
  | .register other overrides =>
    if other = catalog ∧ other.Declares overrides then some overrides else none
  | _ => none

/-- The last registration for a catalogue before the first look-up in it. -/
def inForce (catalog : Catalog) (calls : List TokenCall) : TokenTable :=
  ((calls.takeWhile (!looksUp catalog ·)).filterMap (registers? catalog)).getLast?.getD []

/-- The token of a declared name after calls. -/
def token (catalog : Catalog) (calls : List TokenCall) (name : String) : String :=
  (Keyed.get? (inForce catalog calls) name).getD (lowercase name)

/-- The table of a catalogue after calls. -/
def reference (catalog : Catalog) (calls : List TokenCall) : TokenTable :=
  catalog.names.map fun name => (name, token catalog calls name)

variable {catalog : Catalog} {calls : List TokenCall}

theorem inForce_append_of_looked (looked : calls.any (looksUp catalog) = true)
    (late : List TokenCall) : inForce catalog (calls ++ late) = inForce catalog calls := by
  have stops : (calls ++ late).takeWhile (!looksUp catalog ·) =
      calls.takeWhile (!looksUp catalog ·) := by
    induction calls with
    | nil => cases looked
    | cons call rest ih =>
      cases here : looksUp catalog call with
      | true => simp [here]
      | false =>
        rw [List.any_cons, here, Bool.false_or] at looked
        simp [here, ih looked]
  rw [inForce, stops, inForce]

theorem inForce_eq_of_unlooked (unlooked : calls.any (looksUp catalog) = false) :
    inForce catalog calls = (calls.filterMap (registers? catalog)).getLast?.getD [] := by
  have whole : calls.takeWhile (!looksUp catalog ·) = calls := by
    rw [List.takeWhile_eq_self_iff]
    simpa using unlooked
  rw [inForce, whole]

/-- Before the first look-up, a registration replaces the one before. -/
theorem inForce_register (unlooked : calls.any (looksUp catalog) = false) (other : Catalog)
    (overrides : TokenTable) :
    inForce catalog (calls ++ [register other overrides]) =
      (registers? catalog (register other overrides)).getD (inForce catalog calls) := by
  have still : (calls ++ [register other overrides]).any (looksUp catalog) = false := by
    simpa [looksUp, isLookup] using unlooked
  rw [inForce_eq_of_unlooked still, inForce_eq_of_unlooked unlooked, List.filterMap_append]
  cases registered : registers? catalog (register other overrides) with
  | none => simp [registered]
  | some tokens => simp [registered]

/-- A call that registers nothing leaves the registration in force, whether it is the first look-up
in the catalogue or none. -/
theorem inForce_silent {call : TokenCall} (silent : registers? catalog call = none) :
    inForce catalog (calls ++ [call]) = inForce catalog calls := by
  cases looked : calls.any (looksUp catalog) with
  | true => exact inForce_append_of_looked looked [call]
  | false =>
    have none : ∀ call ∈ calls, (!looksUp catalog call) = true := by simpa using looked
    rw [inForce_eq_of_unlooked looked, inForce, List.takeWhile_append_of_pos none,
      List.filterMap_append, List.takeWhile_cons]
    split
    · simp [silent]
    · simp

/-- Calls about other catalogues make no difference. -/
theorem inForce_filter (catalog : Catalog) (calls : List TokenCall) :
    inForce catalog (calls.filter fun call => decide (call.subject = catalog)) =
      inForce catalog calls := by
  have same : ((calls.filter fun call => decide (call.subject = catalog)).takeWhile
        (!looksUp catalog ·)).filterMap (registers? catalog) =
      (calls.takeWhile (!looksUp catalog ·)).filterMap (registers? catalog) := by
    induction calls with
    | nil => rfl
    | cons call rest ih =>
      by_cases about : call.subject = catalog
      · rw [List.filter_cons_of_pos (by simpa using about), List.takeWhile_cons,
          List.takeWhile_cons]
        split
        · rw [List.filterMap_cons, List.filterMap_cons, ih]
        · rfl
      · have quiet : looksUp catalog call = false := by
          rw [looksUp, decide_eq_false about, Bool.and_false]
        have nothing : registers? catalog call = none := by
          cases call with
          | register other overrides => exact if_neg fun both => about both.1
          | _ => rfl
        rw [List.filter_cons_of_neg (by simpa using about), List.takeWhile_cons, quiet, ih]
        simp [List.filterMap_cons_none nothing]
  rw [inForce, same, inForce]

/-! ## One call -/

section Calls

variable {tokens : Tokens} {overrides : TokenTable}

theorem register_of_declares (declares : catalog.Declares overrides) :
    Tokens.register catalog overrides tokens =
      .ok () { tokens with overrides := tokens.overrides.put catalog overrides } := by
  have none : (overrides.map (·.1)).filter (!catalog.names.contains ·) = [] := by
    rw [List.filter_eq_nil_iff]
    intro name mem
    simpa using declares name mem
  simp only [Tokens.register, none]
  rfl

/-- A registration that is refused changes nothing, and says which names are not declared. -/
theorem register_of_undeclared (undeclared : ¬catalog.Declares overrides) :
    ∃ unknown, Tokens.register catalog overrides tokens =
        .error (.contract (.undeclaredVariants catalog.name unknown)) tokens ∧
      ∀ name, name ∈ unknown ↔ name ∈ overrides.map (·.1) ∧ name ∉ catalog.names := by
  have some : ¬((overrides.map (·.1)).filter (!catalog.names.contains ·)).isEmpty = true := by
    intro empty
    apply undeclared
    intro name mem
    have known := List.filter_eq_nil_iff.1 (List.isEmpty_iff.1 empty) name mem
    simpa using known
  simp only [Tokens.register, if_neg some]
  refine ⟨_, rfl, fun name => ?_⟩
  rw [List.mem_mergeSort, List.mem_eraseDups, List.mem_filter]
  simp

theorem tables_register (catalog : Catalog) (overrides : TokenTable) (tokens : Tokens) :
    ((Tokens.register catalog overrides).after tokens).tables = tokens.tables := by
  by_cases declares : catalog.Declares overrides
  · rw [after_of_ok (register_of_declares declares)]
  · obtain ⟨unknown, refused, -⟩ := @register_of_undeclared catalog tokens overrides declares
    rw [after_of_error refused]

/-- A registration counts for its own catalogue. -/
theorem get?_overrides_register (other : Catalog) :
    ((Tokens.register other overrides).after tokens).overrides.get? catalog =
      (registers? catalog (.register other overrides)).or (tokens.overrides.get? catalog) := by
  by_cases declares : other.Declares overrides
  · rw [after_of_ok (register_of_declares declares)]
    by_cases same : other = catalog
    · subst same
      simp [registers?, declares, Keyed.get?_put_self]
    · simp [registers?, same, Keyed.get?_put_other (Ne.symm same)]
  · obtain ⟨unknown, refused, -⟩ := @register_of_undeclared other tokens overrides declares
    rw [after_of_error refused]
    simp [registers?, declares]

theorem after_resolve (catalog : Catalog) (name : String) (tokens : Tokens) :
    (Tokens.resolve catalog name).after tokens = tokens.settle catalog := by
  have looked : Tokens.table catalog tokens = .ok (tokens.view catalog) (tokens.settle catalog) :=
    rfl
  rw [Tokens.resolve, after_bind_of_ok looked]
  cases Keyed.get? (tokens.view catalog) name with
  | some token => rfl
  | none => rfl

theorem command_of_callable {m : Member} (callable : "command" ∉ m.catalog.names) :
    Tokens.command m = Tokens.resolve m.catalog m.name := if_neg callable

theorem command_of_shadowed {m : Member} (shadowed : "command" ∈ m.catalog.names) :
    Tokens.command m tokens = .error (.notCallable m.catalog.name) tokens := by
  rw [Tokens.command, if_pos shadowed]
  rfl

theorem normalizeMember_of_none {base : MemberBase} {m : Member} {worth : Value}
    (member : base.written? m worth = none) :
    normalizeMember base m worth = some <$> Tokens.resolve m.catalog m.name := by
  simp only [normalizeMember, member]

theorem normalizeMember_of_some {base : MemberBase} {m : Member} {worth : Value}
    {written : Except Failure String} (first : base.written? m worth = some written) :
    normalizeMember base m worth tokens = Action.ofExcept (written.map some) tokens := by
  simp only [normalizeMember, first]
  cases written <;> rfl

/-- A look-up fixes the table of its catalogue, whether it fails or not. -/
theorem after_lookup {call : TokenCall} (lookup : call.isLookup = true)
    (tokens : Tokens) : call.perform.after tokens = tokens.settle call.subject := by
  cases call with
  | register other overrides => cases lookup
  | table other => rfl
  | resolve other name => exact (after_bind_pure _ _ _).trans (after_resolve other name tokens)
  | command m =>
    refine (after_bind_pure _ _ _).trans ?_
    rw [command_of_callable (of_decide_eq_true lookup)]
    exact after_resolve m.catalog m.name tokens
  | normalize base m worth =>
    refine (after_bind_pure _ _ _).trans ?_
    rw [normalizeMember_of_none (Option.isNone_iff_eq_none.1 lookup)]
    exact (after_bind_pure _ _ _).trans (after_resolve m.catalog m.name tokens)

/-- What neither registers nor looks up changes nothing. -/
theorem after_idle {call : TokenCall} (idle : call.isLookup = false)
    (silent : ∀ catalog overrides, call ≠ .register catalog overrides) (tokens : Tokens) :
    call.perform.after tokens = tokens := by
  cases call with
  | register other overrides => exact absurd rfl (silent other overrides)
  | table other | resolve other name => cases idle
  | command m =>
    refine (after_bind_pure _ _ _).trans ?_
    exact after_of_error (command_of_shadowed (not_not.1 (of_decide_eq_false idle)))
  | normalize base m worth =>
    refine (after_bind_pure _ _ _).trans ?_
    obtain ⟨written, first⟩ := Option.isSome_iff_exists.1 (Option.isNone_eq_false_iff.1 idle)
    rw [Action.after, normalizeMember_of_some first]
    cases written <;> rfl

theorem overrides_settle (tokens : Tokens) (catalog : Catalog) :
    (tokens.settle catalog).overrides = tokens.overrides := by
  unfold Tokens.settle
  split <;> rfl

theorem get?_tables_settle (tokens : Tokens) (other : Catalog) :
    (tokens.settle other).tables.get? catalog =
      if catalog = other then some (tokens.view catalog) else tokens.tables.get? catalog := by
  cases known : tokens.tables.get? other with
  | some table =>
    simp only [Tokens.settle, known]
    split
    · next same =>
      subst same
      rw [Tokens.view, known, Option.getD_some]
    · rfl
  | none =>
    simp only [Tokens.settle, known]
    split
    · next same =>
      subst same
      rw [Keyed.get?_put_self, Tokens.view, known, Option.getD_none]
    · next differ => exact Keyed.get?_put_other differ

end Calls

/-! ## Runs of calls -/

/-- What holds of a catalogue after calls. -/
structure Kept (catalog : Catalog) (calls : List TokenCall) (tokens : Tokens) : Prop where
  unfixed : calls.any (looksUp catalog) = false → tokens.tables.get? catalog = none
  registered : calls.any (looksUp catalog) = false →
    (tokens.overrides.get? catalog).getD [] = inForce catalog calls
  fixed : calls.any (looksUp catalog) = true →
    tokens.tables.get? catalog = some (reference catalog calls)

/-- Look-ups answer from the reference. -/
theorem Kept.view {tokens : Tokens} (kept : Kept catalog calls tokens) :
    tokens.view catalog = reference catalog calls := by
  cases looked : calls.any (looksUp catalog) with
  | true => rw [Tokens.view, kept.fixed looked, Option.getD_some]
  | false =>
    rw [Tokens.view, kept.unfixed looked, Option.getD_none]
    simp only [Tokens.build, reference, token, kept.registered looked]

theorem reference_congr {others : List TokenCall}
    (same : inForce catalog calls = inForce catalog others) :
    reference catalog calls = reference catalog others := by
  simp only [reference, token, same]

theorem reference_append_of_looked (looked : calls.any (looksUp catalog) = true)
    (late : List TokenCall) : reference catalog (calls ++ late) = reference catalog calls :=
  reference_congr (inForce_append_of_looked looked late)

variable {tokens : Tokens}

theorem kept_register (kept : Kept catalog calls tokens) (other : Catalog)
    (overrides : TokenTable) : Kept catalog (calls ++ [register other overrides])
      ((Tokens.register other overrides).after tokens) := by
  have quiet : (calls ++ [register other overrides]).any (looksUp catalog) =
      calls.any (looksUp catalog) := by simp [looksUp, isLookup]
  constructor
  · intro unlooked
    rw [tables_register]
    exact kept.unfixed (quiet ▸ unlooked)
  · intro unlooked
    rw [quiet] at unlooked
    rw [get?_overrides_register, inForce_register unlooked, ← kept.registered unlooked]
    cases registers? catalog (register other overrides) <;> rfl
  · intro looked
    rw [quiet] at looked
    rw [tables_register, reference_append_of_looked looked]
    exact kept.fixed looked

theorem registers?_of_silent {call : TokenCall}
    (silent : ∀ catalog overrides, call ≠ .register catalog overrides) :
    registers? catalog call = none := by
  cases call with
  | register other overrides => exact absurd rfl (silent other overrides)
  | _ => rfl

theorem kept_idle (kept : Kept catalog calls tokens) {call : TokenCall}
    (idle : call.isLookup = false) (silent : registers? catalog call = none) :
    Kept catalog (calls ++ [call]) tokens := by
  have looks : (calls ++ [call]).any (looksUp catalog) = calls.any (looksUp catalog) := by
    simp [looksUp, idle]
  have same : inForce catalog (calls ++ [call]) = inForce catalog calls := inForce_silent silent
  constructor
  · rw [looks]
    exact kept.unfixed
  · rw [looks, same]
    exact kept.registered
  · rw [looks, reference_congr same]
    exact kept.fixed

theorem kept_lookup (kept : Kept catalog calls tokens) {call : TokenCall}
    (lookup : call.isLookup = true) (silent : registers? catalog call = none) :
    Kept catalog (calls ++ [call]) (tokens.settle call.subject) := by
  have looks : (calls ++ [call]).any (looksUp catalog) =
      (calls.any (looksUp catalog) || decide (call.subject = catalog)) := by
    simp [looksUp, lookup]
  constructor
  · intro unlooked
    obtain ⟨before, other⟩ := Bool.or_eq_false_iff.1 (looks ▸ unlooked)
    rw [get?_tables_settle, if_neg (Ne.symm (of_decide_eq_false other))]
    exact kept.unfixed before
  · intro unlooked
    obtain ⟨before, -⟩ := Bool.or_eq_false_iff.1 (looks ▸ unlooked)
    rw [overrides_settle, inForce_silent silent]
    exact kept.registered before
  · intro looked
    rw [get?_tables_settle, reference_congr (inForce_silent silent)]
    by_cases about : catalog = call.subject
    · rw [if_pos about, kept.view]
    · rw [if_neg about]
      rw [looks, decide_eq_false (Ne.symm about), Bool.or_false] at looked
      exact kept.fixed looked

theorem kept_concat (kept : Kept catalog calls tokens) (call : TokenCall) :
    Kept catalog (calls ++ [call]) (call.perform.after tokens) := by
  by_cases registers : ∃ other overrides, call = .register other overrides
  · obtain ⟨other, overrides, rfl⟩ := registers
    exact kept_register kept other overrides
  · have other : ∀ catalog overrides, call ≠ .register catalog overrides :=
      fun catalog overrides same => registers ⟨catalog, overrides, same⟩
    have silent : registers? catalog call = none := registers?_of_silent other
    cases lookup : call.isLookup with
    | true =>
      rw [after_lookup lookup]
      exact kept_lookup kept lookup silent
    | false =>
      rw [after_idle lookup other]
      exact kept_idle kept lookup silent

theorem kept_afterCalls (catalog : Catalog) (calls : List TokenCall) :
    Kept catalog calls (afterCalls calls) := by
  induction calls using List.reverseRecOn with
  | nil =>
    refine ⟨fun _ => rfl, fun _ => rfl, ?_⟩
    intro looked
    cases looked
  | append_singleton calls call ih =>
    rw [afterCalls, after, List.foldl_append]
    exact kept_concat ih call

theorem names_reference (catalog : Catalog) (calls : List TokenCall) :
    (reference catalog calls).map (·.1) = catalog.names := by
  simp [reference, Function.comp_def]

/-- A declared name is looked up in the reference. -/
theorem get?_reference {name : String} (declared : name ∈ catalog.names) :
    Keyed.get? (reference catalog calls) name = some (token catalog calls name) := by
  unfold reference
  generalize catalog.names = names at declared
  induction names with
  | nil => cases declared
  | cons first rest ih =>
    rw [List.map_cons, Keyed.get?_cons]
    by_cases here : first = name
    · rw [if_pos here, here]
    · rw [if_neg here]
      exact ih ((List.mem_cons.1 declared).resolve_left (Ne.symm here))

theorem get?_reference_of_undeclared {name : String} (undeclared : name ∉ catalog.names) :
    Keyed.get? (reference catalog calls) name = none := by
  rw [← Option.not_isSome_iff_eq_none, Tokens.get?_isSome_iff, names_reference]
  exact undeclared

/-- What calls on the tokens, failed ones included, and the look-ups after them say of a
catalogue. -/
structure ComputedOnce (catalog : Catalog) (calls : List TokenCall) : Prop where
  /-- The table has the declared names, in order of declaration. -/
  names : (reference catalog calls).map (·.1) = catalog.names
  table : (Tokens.table catalog).outcome (afterCalls calls) = .ok (reference catalog calls)
  resolve : ∀ name ∈ catalog.names,
    (Tokens.resolve catalog name).outcome (afterCalls calls) = .ok (token catalog calls name)
  unknown : ∀ name ∉ catalog.names,
    (Tokens.resolve catalog name).outcome (afterCalls calls) =
      .error (.unknownVariant catalog.name name)
  /-- Members are written under the name that they have, unless they are told for something else
  first. -/
  written : ∀ declared m base worth, catalog.member? declared = some m →
    m.name ∈ catalog.names ∧
      (normalizeMember base m worth).outcome (afterCalls calls) =
        ((base.written? m worth).getD (.ok (token catalog calls m.name))).map some
  /-- They answer with the token, unless a variant stands in the place of the question. -/
  command : ∀ declared m, catalog.member? declared = some m →
    (Tokens.command m).outcome (afterCalls calls) =
      if "command" ∈ catalog.names then .error (.notCallable catalog.name)
      else .ok (token catalog calls m.name)
  /-- The first look-up fixes the table, whatever is called later. -/
  fixed : calls.any (looksUp catalog) = true → ∀ late,
    (afterCalls (calls ++ late)).tables.get? catalog = some (reference catalog calls) ∧
      reference catalog (calls ++ late) = reference catalog calls
  registered : ∀ overrides, catalog.Declares overrides →
    ∃ rest, Tokens.register catalog overrides (afterCalls calls) = .ok () rest
  /-- A registration that names an undeclared variant changes nothing. -/
  refused : ∀ overrides, ¬catalog.Declares overrides → ∃ unknown,
    Tokens.register catalog overrides (afterCalls calls) =
        .error (.contract (.undeclaredVariants catalog.name unknown)) (afterCalls calls) ∧
      ∀ name, name ∈ unknown ↔ name ∈ overrides.map (·.1) ∧ name ∉ catalog.names
  /-- Calls about other catalogues have no effect. -/
  alone : reference catalog (calls.filter fun call => decide (call.subject = catalog)) =
    reference catalog calls

theorem outcome_resolve (name : String) (calls : List TokenCall) :
    (Tokens.resolve catalog name).outcome (afterCalls calls) =
      match Keyed.get? (reference catalog calls) name with
      | some token => .ok token
      | none => .error (.unknownVariant catalog.name name) := by
  have view := (kept_afterCalls catalog calls).view
  have looked : Tokens.table catalog (afterCalls calls) =
      .ok (reference catalog calls) ((afterCalls calls).settle catalog) := view ▸ rfl
  unfold outcome
  rw [Tokens.resolve, bind_of_ok looked]
  cases Keyed.get? (reference catalog calls) name with
  | some token => rfl
  | none => rfl

theorem catalog_of_member? {declared : String} {m : Member}
    (found : catalog.member? declared = some m) : m.catalog = catalog := by
  obtain ⟨v, -, rfl⟩ := Option.map_eq_some_iff.1 found
  rfl

/-- The name of a member has a token. -/
theorem resolved_member (closed : catalog.Closed) {declared : String} {m : Member}
    (found : catalog.member? declared = some m) (calls : List TokenCall) :
    m.name ∈ catalog.names ∧ (Tokens.resolve m.catalog m.name).outcome (afterCalls calls) =
      .ok (token catalog calls m.name) := by
  have same := catalog_of_member? found
  have known : m.name ∈ catalog.names := same ▸ Catalog.isWritable_of_member? closed found .null
  exact ⟨known, by rw [same, outcome_resolve, get?_reference known]⟩

theorem computedOnce_of_closed (closed : catalog.Closed) (calls : List TokenCall) :
    ComputedOnce catalog calls where
  names := names_reference catalog calls
  table := congrArg Except.ok (kept_afterCalls catalog calls).view
  resolve name declared := by rw [outcome_resolve, get?_reference declared]
  unknown name undeclared := by rw [outcome_resolve, get?_reference_of_undeclared undeclared]
  written declared m base worth found := by
    obtain ⟨known, resolved⟩ := resolved_member closed found calls
    refine ⟨known, ?_⟩
    cases first : base.written? m worth with
    | none =>
      rw [normalizeMember_of_none first, Option.getD_none]
      exact outcome_of_ok (bind_of_ok (eq_ok_of_outcome resolved))
    | some written =>
      rw [Action.outcome, normalizeMember_of_some first, Option.getD_some]
      cases written <;> rfl
  command declared m found := by
    obtain ⟨-, resolved⟩ := resolved_member closed found calls
    have same := catalog_of_member? found
    by_cases shadowed : "command" ∈ catalog.names
    · rw [if_pos shadowed, ← same]
      exact outcome_of_error (command_of_shadowed (same ▸ shadowed))
    · rw [if_neg shadowed, command_of_callable (same ▸ shadowed)]
      exact resolved
  fixed looked late := by
    have still : (calls ++ late).any (looksUp catalog) = true := by
      rw [List.any_append, looked, Bool.true_or]
    have same := reference_append_of_looked looked late
    exact ⟨same ▸ (kept_afterCalls catalog (calls ++ late)).fixed still, same⟩
  registered overrides declares := ⟨_, register_of_declares declares⟩
  refused overrides undeclared := register_of_undeclared undeclared
  alone := reference_congr (inForce_filter catalog calls)

/-- A declared name stands for the first thing that counts as the same. -/
theorem member?_declare {α : Type} (name : String) (serial : Nat) (same : α → α → Bool)
    {things : List (String × α)} {thing : String × α}
    (declared : things.find? (fun other => decide (other.1 = thing.1)) = some thing) :
    (Catalog.declare name serial same things).member? thing.1 =
      some ⟨Catalog.declare name serial same things,
        ((things.find? fun earlier => same earlier.2 thing.2).getD thing).1⟩ := by
  simp only [Catalog.member?, Catalog.declare, List.find?_map, Function.comp_def, declared]
  rfl

/-- **Tables are computed once.** Take any declared catalogue, names that stand for the same thing
included, and any calls that register tokens or look them up, in any catalogues, failed ones
included. The table of the catalogue and every look-up then answer from the reference, which no
later call changes once something was looked up. A member has the first name that was declared for
the same thing. It is written as the token of that name unless it is told for a text or a number
first, and answers with it unless a variant is named like the question; then nothing is looked
up. -/
theorem computedOnce_declared {α : Type} (name : String) (serial : Nat) (same : α → α → Bool)
    (things : List (String × α)) (calls : List TokenCall) :
    ComputedOnce (Catalog.declare name serial same things) calls ∧
      ∀ thing, things.find? (fun other => decide (other.1 = thing.1)) = some thing →
        (Catalog.declare name serial same things).member? thing.1 =
          some ⟨Catalog.declare name serial same things,
            ((things.find? fun earlier => same earlier.2 thing.2).getD thing).1⟩ :=
  ⟨computedOnce_of_closed (Catalog.closed_declare name serial same things) calls,
    fun _ declared => member?_declare name serial same declared⟩

/-- A member that is a text is written as it, and a token that is registered after that still
counts. A member whose own name is that of the question does not answer. -/
theorem member_misses_token :
    let speed : Catalog := .declare "Speed" 1 (fun a b => decide (a = b)) [("FAST", "f")]
    let mode : Catalog := .declare "Mode" 1 (fun a b => decide (a = b)) [("command", "c")]
    let written : TokenCall := .normalize .text ⟨speed, "FAST"⟩ (.text "f")
    (normalizeMember .text ⟨speed, "FAST"⟩ (.text "f")).outcome (afterCalls []) = .ok (some "f") ∧
      (Tokens.resolve speed "FAST").outcome (afterCalls [written]) = .ok "fast" ∧
      (Tokens.resolve speed "FAST").outcome
        (afterCalls [written, .register speed [("FAST", "quick")]]) = .ok "quick" ∧
      (Tokens.command ⟨mode, "command"⟩).outcome (afterCalls []) =
        .error (.notCallable "Mode") :=
  ⟨rfl, by rfl, by rfl, rfl⟩

/-! ## The library's own catalogues -/

theorem fixed_eq_declare (name : String) (variants : List String) :
    Catalog.fixed name variants =
      Catalog.declare name 0 (fun a b => decide (a = b)) (variants.map fun v => (v, v)) := by
  unfold Catalog.fixed Catalog.declare
  rw [List.map_map]
  congr 1
  refine List.map_congr_left fun v _ => ?_
  rw [Function.comp_apply, List.find?_map]
  cases found : variants.find? ((fun earlier => decide (earlier.2 = v)) ∘ fun v => (v, v)) with
  | none => rfl
  | some other =>
    have same : other = v := by simpa using List.find?_some found
    rw [same]
    rfl

/-- The registrations that the library makes when it is loaded. -/
def registrations : List TokenCall :=
  Tokens.initial.overrides.map fun entry => .register entry.1 entry.2

theorem initial_eq : Tokens.initial = afterCalls registrations := rfl

theorem after_initial (calls : List TokenCall) :
    after .initial calls = afterCalls (registrations ++ calls) := by
  rw [initial_eq, afterCalls, afterCalls, after, after, after, List.foldl_append]

/-- A registration replaces the one that the library makes, and has no effect once a look-up, though
it failed, came before. -/
theorem computedOnce_preset :
    let calls : List TokenCall := [.register .preset [("FAST", "quick")], .resolve .preset "NONE",
      .register .preset [("FAST", "slow")]]
    (Tokens.resolve .preset "FAST").outcome (after .initial calls) = .ok "quick" ∧
      (Tokens.resolve .preset "VERY_FAST").outcome (after .initial calls) = .ok "very_fast" := by
  intro calls
  obtain ⟨once, -⟩ := computedOnce_declared "Preset" 0 (fun a b => decide (a = b))
    (Catalog.preset.names.map fun v => (v, v)) (registrations ++ calls)
  have same : Catalog.declare "Preset" 0 (fun a b => decide (a = b))
      (Catalog.preset.names.map fun v => (v, v)) = .preset := (fixed_eq_declare _ _).symm
  rw [same] at once
  rw [after_initial]
  exact ⟨once.resolve "FAST" (by decide), once.resolve "VERY_FAST" (by decide)⟩

end TokenCall

end MediaCommand
