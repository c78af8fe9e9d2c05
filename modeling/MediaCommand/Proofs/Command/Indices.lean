import MediaCommand.Proofs.Command.Edits
import MediaCommand.Proofs.Tokens

/-!
# Indices of arguments

`ListCall` lists the three calls that change an argument list, and `put_of_ok`, `remove_text` and
`replace_of_ok` say what each leaves. An index is given once: what is left of a list stands, later
too, in front of all that was added since (`Precedes`), so an index that is gone never comes back.
`indexed_of_calls` states this with the other invariants of every list that calls make from the
empty one, calls that fail included.
-/

namespace MediaCommand

/-- The argument stands under the key that a value names. -/
def Argument.IsUnder (a : Argument) (key : Value) : Prop :=
  ∃ name, key = .text name ∧ a.key = commandKey name

namespace ArgumentList

open MediaCommand.Action

variable {list later : ArgumentList} {d : Desk}

/-! ## What a list keeps as it changes -/

/-- The keys of the arguments with their indices, in order. -/
def places (list : ArgumentList) : List (String × Int) :=
  list.arguments.map fun a => (a.key, a.index)

/-- The second list came later: of its arguments those with an index from before were there, under
the same keys and in the same order. -/
structure Precedes (list later : ArgumentList) : Prop where
  next : list.nextIndex ≤ later.nextIndex
  places : (later.places.filter fun place => decide (place.2 < (list.nextIndex : Int))).Sublist
    list.places

theorem Precedes.of_places (next : later.nextIndex = list.nextIndex)
    (places : later.places.Sublist list.places) : list.Precedes later :=
  ⟨Nat.le_of_eq next.symm, List.filter_sublist.trans places⟩

theorem Precedes.refl (list : ArgumentList) : list.Precedes list :=
  .of_places rfl (List.Sublist.refl _)

theorem Precedes.trans {last : ArgumentList} (first : list.Precedes later)
    (second : later.Precedes last) : list.Precedes last where
  next := Nat.le_trans first.next second.next
  places := by
    -- An index from before the first list is one from before the second.
    have early : last.places.filter (fun place => decide (place.2 < (list.nextIndex : Int))) =
        (last.places.filter fun place => decide (place.2 < (later.nextIndex : Int))).filter
          fun place => decide (place.2 < (list.nextIndex : Int)) := by
      rw [List.filter_filter]
      refine List.filter_congr fun place _ => ?_
      have next := first.next
      by_cases before : place.2 < (list.nextIndex : Int)
      · have still : place.2 < (later.nextIndex : Int) := by omega
        simp [before, still]
      · simp [before]
    rw [early]
    exact (second.places.filter _).trans first.places

theorem places_change (list : ArgumentList) (index : Int) {f : Argument → Argument}
    (key : ∀ a, (f a).key = a.key) (place : ∀ a, (f a).index = a.index) :
    (list.change index f).places = list.places := by
  simp only [places, change, List.map_map]
  refine List.map_congr_left fun a _ => ?_
  by_cases here : a.index = index
  · simp [here, key, place]
  · simp [here]

theorem Touch.precedes (touch : Touch list later) : list.Precedes later := by
  cases touch with
  | append key =>
    refine ⟨Nat.le_succ _, ?_⟩
    have new : (list.append key).places =
        list.places ++ [(commandKey key, (list.nextIndex : Int))] := by
      simp [places, ArgumentList.append]
    rw [new, List.filter_append]
    simp
  | erase key => exact .of_places rfl (List.eraseP_sublist.map _)
  | change index f key place =>
    have same := places_change list index key place
    exact .of_places rfl (by rw [same])

theorem Edited.precedes (edited : Edited list later) : list.Precedes later := by
  induction edited with
  | refl => exact .refl _
  | tail _ touch ih => exact ih.trans touch.precedes

/-- An index that was given and is gone is never given again. -/
theorem Precedes.gone (precedes : list.Precedes later) {index : Int}
    (given : index < list.nextIndex) (gone : index ∉ list.arguments.map (·.index)) :
    index ∉ later.arguments.map (·.index) := by
  intro back
  obtain ⟨a, there, rfl⟩ := List.mem_map.1 back
  have place : (a.key, a.index) ∈ later.places := List.mem_map_of_mem there
  have early := precedes.places.subset (List.mem_filter.2 ⟨place, decide_eq_true given⟩)
  obtain ⟨b, here, same⟩ := List.mem_map.1 early
  exact gone (List.mem_map.2 ⟨b, here, congrArg Prod.snd same⟩)

/-! ## What single operations leave -/

theorem matchesKey_iff {a : Argument} {key : String} :
    a.matchesKey key = true ↔ a.key = commandKey key := by
  simp [Argument.matchesKey]

/-- The first argument under a key, between those in front of it and those behind. -/
theorem split_of_found {key : String} {a : Argument} (found : list.find? key = some a) :
    ∃ front back, list.arguments = front ++ a :: back ∧ a.key = commandKey key ∧
      ∀ b ∈ front, b.key ≠ commandKey key := by
  obtain ⟨here, front, back, split, first⟩ := List.find?_eq_some_iff_append.1 found
  refine ⟨front, back, split, matchesKey_iff.1 here, fun b mem under => ?_⟩
  have other := first b mem
  rw [matchesKey_iff.2 under] at other
  cases other

theorem absent_of_not_found {key : String} (missing : list.find? key = none) :
    ∀ a ∈ list.arguments, a.key ≠ commandKey key := by
  intro a mem under
  exact List.find?_eq_none.1 missing a mem (matchesKey_iff.2 under)

/-- A value that is written under a unique key is in the place of the first argument there, or at
the end. -/
theorem WellFormed.assign_split (formed : list.WellFormed) (key : String) (value : Option String)
    (quoted : Bool) :
    ∃ front old back index,
      list.arguments = front ++ old ++ back ∧
      (list.assign key value quoted).arguments =
        front ++ ⟨commandKey key, value, quoted, index⟩ :: back ∧
      (∀ a ∈ front, a.key ≠ commandKey key) ∧
      ((∃ a, old = [a] ∧ a.key = commandKey key) ∨ old = [] ∧ back = []) := by
  cases found : list.find? key with
  | some a =>
    obtain ⟨front, back, split, under, first⟩ := split_of_found found
    have assigned := formed.assign_present split (by simpa [Argument.matchesKey] using first)
      (matchesKey_iff.2 under) value quoted
    refine ⟨front, [a], back, a.index, by simp [split], ?_, first, .inl ⟨a, rfl, under⟩⟩
    rw [assigned, ← under]
  | none =>
    exact ⟨list.arguments, [], [], list.nextIndex, by simp, formed.assign_absent found value quoted,
      absent_of_not_found found, .inr ⟨rfl, rfl⟩⟩

theorem erase_of_not_found {key : String} (missing : list.find? key = none) :
    list.erase key = list := by
  have same : list.arguments.eraseP (·.matchesKey key) = list.arguments :=
    List.eraseP_of_forall_not (List.find?_eq_none.1 missing)
  simp only [erase, same]

theorem erase_of_split {key : String} {front back : List Argument} {a : Argument}
    (split : list.arguments = front ++ a :: back) (under : a.key = commandKey key)
    (first : ∀ b ∈ front, b.key ≠ commandKey key) :
    (list.erase key).arguments = front ++ back := by
  have others : ∀ b ∈ front, ¬ b.matchesKey key = true :=
    fun b mem same => first b mem (matchesKey_iff.1 same)
  simp only [erase, split]
  rw [List.eraseP_append_right _ others, List.eraseP_cons_of_pos]
  exact matchesKey_iff.2 under

/-- Erasing the first argument under a key is erasing the first argument that is equal to it. -/
theorem erase_of_found {key : String} {a : Argument} (found : list.find? key = some a) :
    (list.erase key).arguments = list.arguments.erase a := by
  obtain ⟨front, back, split, under, first⟩ := split_of_found found
  have fresh : a ∉ front := fun mem => first a mem under
  rw [erase_of_split split under first, split, List.erase_append_right _ fresh,
    List.erase_cons_head]

/-- The index that a value for a key goes to. -/
def slot (list : ArgumentList) (key : String) (unique : Bool) : Int :=
  match if unique then list.find? key else none with
  | some a => a.index
  | none => list.nextIndex

/-- The list with a place for a value under a key. -/
def opened (list : ArgumentList) (key : String) (unique : Bool) : ArgumentList :=
  match if unique then list.find? key else none with
  | some _ => list
  | none => list.append key

/-- The list after a value has been put under a key. -/
def entered (list : ArgumentList) (key : String) (unique : Bool) (value : Option String)
    (quoted : Bool) : ArgumentList :=
  (list.opened key unique).change (list.slot key unique) ({ · with value, quoted })

theorem place_apply (key : String) (unique : Bool) (d : Desk) :
    place key unique d = .ok (d.list.slot key unique) ⟨d.tokens, d.list.opened key unique⟩ := by
  simp only [place, get_bind_apply, slot, opened]
  cases (if unique then d.list.find? key else none) with
  | some a => rfl
  | none => rfl

theorem put_of_ok {key : String} {value : Value} {unique quoted : Bool} {text : Option String}
    {rest : Tokens} (normal : normalize value d.tokens = .ok text rest) :
    put (.text key) value unique quoted d =
      .ok (d.list.slot key unique) ⟨rest, d.list.entered key unique text quoted⟩ := by
  rw [put, bind_of_ok (place_apply key unique d)]
  have looked : withTokens (normalize value) ⟨d.tokens, d.list.opened key unique⟩ =
      .ok text ⟨rest, d.list.opened key unique⟩ := within_of_ok normal
  rw [bind_of_ok looked]
  rfl

/-- A value that cannot be written leaves its place, which is new or was there. -/
theorem put_of_error {key : String} {value : Value} {unique quoted : Bool} {failure : Failure}
    {rest : Tokens} (normal : normalize value d.tokens = .error failure rest) :
    put (.text key) value unique quoted d = .error failure ⟨rest, d.list.opened key unique⟩ := by
  rw [put, bind_of_ok (place_apply key unique d)]
  exact bind_of_error (within_of_error normal)

theorem put_eq_ok {key value : Value} {unique quoted : Bool} {index : Int} {after : Desk}
    (done : put key value unique quoted d = .ok index after) :
    ∃ name text, key = .text name ∧ normalize value d.tokens = .ok text after.tokens ∧
      index = d.list.slot name unique ∧ after.list = d.list.entered name unique text quoted := by
  cases key with
  | text name =>
    cases normal : normalize value d.tokens with
    | ok text rest =>
      cases (put_of_ok normal).symm.trans done
      exact ⟨name, text, rfl, rfl, rfl, rfl⟩
    | error failure rest => cases (put_of_error normal).symm.trans done
  | _ => cases done

theorem entered_new {key : String} {unique : Bool} (formed : list.WellFormed)
    (new : (if unique then list.find? key else none) = none) (value : Option String)
    (quoted : Bool) :
    (list.entered key unique value quoted).arguments =
      list.arguments ++ [⟨commandKey key, value, quoted, list.nextIndex⟩] := by
  simp only [entered, opened, slot, new]
  exact (formed.append key).change_arguments (a := ⟨commandKey key, none, false, list.nextIndex⟩)
    rfl _

theorem entered_present {key : String} (formed : list.WellFormed) {a : Argument}
    (found : list.find? key = some a) {front back : List Argument}
    (split : list.arguments = front ++ a :: back) (value : Option String) (quoted : Bool) :
    (list.entered key true value quoted).arguments = front ++ { a with value, quoted } :: back := by
  simp only [entered, opened, slot, found, if_true]
  exact formed.change_arguments split _

theorem mem_places_entered {place : String × Int} (there : place ∈ list.places) (key : String)
    (unique : Bool) (value : Option String) (quoted : Bool) :
    place ∈ (list.entered key unique value quoted).places := by
  have same := places_change (list.opened key unique) (list.slot key unique)
    (f := ({ · with value, quoted })) (fun _ => rfl) fun _ => rfl
  rw [entered, same]
  unfold opened
  split
  · exact there
  · rw [places, ArgumentList.append, List.map_append]
    exact List.mem_append_left _ there

theorem mem_places_erase {place : String × Int} {key : String} (other : place.1 ≠ commandKey key)
    (there : place ∈ list.places) : place ∈ (list.erase key).places := by
  obtain ⟨a, mem, rfl⟩ := List.mem_map.1 there
  have differ : ¬ a.matchesKey key = true := mt matchesKey_iff.1 other
  exact List.mem_map_of_mem ((List.mem_eraseP_of_neg (l := list.arguments) differ).2 mem)

/-- A value that is put is stored under its key, at the index that is told. -/
theorem mem_entered (formed : list.WellFormed) (key : String) (unique : Bool)
    (value : Option String) (quoted : Bool) :
    ⟨commandKey key, value, quoted, list.slot key unique⟩ ∈
      (list.entered key unique value quoted).arguments := by
  cases target : (if unique then list.find? key else none) with
  | none =>
    rw [entered_new formed target, slot, target]
    exact List.mem_append_right _ (List.mem_singleton.2 rfl)
  | some a =>
    cases unique with
    | false => cases target
    | true =>
      have found : list.find? key = some a := target
      obtain ⟨front, back, split, under, -⟩ := split_of_found found
      have here : list.slot key true = a.index := by simp only [slot, found, if_true]
      rw [entered_present formed found split, here, ← under]
      exact List.mem_append_right _ List.mem_cons_self

theorem remove_text (key : String) (d : Desk) :
    remove (.text key) d = .ok () ⟨d.tokens, d.list.erase key⟩ := rfl

theorem find_text (key : String) (d : Desk) :
    find (.text key) d = .ok (d.list.find? key) d := rfl

theorem replace_of_not_found {key : String} {value : Value} (missing : d.list.find? key = none) :
    replace (.text key) value d = .ok () d := by
  rw [replace, bind_of_ok (find_text key d), missing]
  rfl

theorem replace_of_found {key : String} {value : Value} {a : Argument} {text : Option String}
    {rest : Tokens} (found : d.list.find? key = some a)
    (normal : normalize value d.tokens = .ok text rest) :
    replace (.text key) value d =
      .ok () ⟨rest, d.list.change a.index ({ · with value := text })⟩ := by
  rw [replace, bind_of_ok (find_text key d), found]
  have looked : withTokens (normalize value) d = .ok text ⟨rest, d.list⟩ := within_of_ok normal
  exact (bind_of_ok looked).trans rfl

theorem replace_of_error {key : String} {value : Value} {a : Argument} {failure : Failure}
    {rest : Tokens} (found : d.list.find? key = some a)
    (normal : normalize value d.tokens = .error failure rest) :
    replace (.text key) value d = .error failure ⟨rest, d.list⟩ := by
  rw [replace, bind_of_ok (find_text key d), found]
  exact bind_of_error (within_of_error normal)

theorem replace_eq_ok {key : String} {value : Value} {after : Desk} {a : Argument}
    (found : d.list.find? key = some a) (done : replace (.text key) value d = .ok () after) :
    ∃ text, normalize value d.tokens = .ok text after.tokens ∧
      after.list = d.list.change a.index ({ · with value := text }) := by
  cases normal : normalize value d.tokens with
  | ok text rest =>
    cases (replace_of_found found normal).symm.trans done
    exact ⟨text, rfl, rfl⟩
  | error failure rest => cases (replace_of_error found normal).symm.trans done

/-- A key that is no text is looked for in an empty list only, where it changes nothing. -/
theorem searchKey_other {key : Value} (other : ∀ name, key ≠ .text name) (d : Desk) :
    (d.list.arguments = [] ∧ searchKey key d = .ok none d) ∨
      (d.list.arguments ≠ [] ∧ ∃ failure, searchKey key d = .error failure d) := by
  cases key with
  | text name => exact absurd rfl (other name)
  | _ =>
    simp only [searchKey, get_bind_apply]
    cases d.list.arguments with
    | nil => exact .inl ⟨rfl, rfl⟩
    | cons => exact .inr ⟨List.cons_ne_nil _ _, _, rfl⟩

theorem after_remove_other {key : Value} (other : ∀ name, key ≠ .text name) (d : Desk) :
    (remove key).after d = d := by
  rcases searchKey_other other d with ⟨-, searched⟩ | ⟨-, failure, searched⟩
  · rw [remove, after_bind_of_ok searched]
    rfl
  · rw [remove, after_bind_of_error searched]

/-! ## Tokens do not matter beyond how they look -/

/-- Two desks with the same list, whose tokens look the same. -/
structure Desk.Matches (d e : Desk) : Prop where
  list : d.list = e.list
  tokens : d.tokens.Agrees e.tokens

theorem Desk.Matches.trans {d e f : Desk} (first : d.Matches e) (second : e.Matches f) :
    d.Matches f :=
  ⟨first.list.trans second.list, first.tokens.trans second.tokens⟩

/-- The desk's tokens look as before. -/
def Desk.KeepsTokens (before after : Desk) : Prop := before.tokens.Agrees after.tokens

instance : IsPreorder Desk Desk.KeepsTokens where
  refl d := refl d.tokens
  trans _ _ _ first second := first.trans second

/-- An edit that leaves the tokens as they look, and depends on nothing else of them. -/
structure Uniform {α : Type} (edit : Edit α) : Prop where
  respects : Respects Desk.KeepsTokens edit
  alike : Alike Desk.Matches edit

namespace Uniform

variable {α β : Type}

theorem pure (a : α) : Uniform (pure a) := ⟨.pure a, .pure a⟩

theorem throw (failure : Failure) : Uniform (throw failure : Edit α) :=
  ⟨.throw failure, .throw failure⟩

theorem bind {x : Edit α} {f : α → Edit β} (first : Uniform x) (next : ∀ a, Uniform (f a)) :
    Uniform (x >>= f) :=
  ⟨.bind first.respects fun a => (next a).respects, .bind first.alike fun a => (next a).alike⟩

/-- The rule for an edit that first reads the list. -/
theorem read_bind {f : ArgumentList → Edit α} (next : ∀ list, Uniform (f list)) :
    Uniform (do f (← get).list) where
  respects := .get_bind fun d => (next d.list).respects d
  alike := .read_bind (fun _ _ same => same.list) fun list => (next list).alike

theorem update (f : ArgumentList → ArgumentList) : Uniform (ArgumentList.update f) where
  respects d := refl d.tokens
  alike := .modify fun _ _ same => ⟨congrArg f same.list, same.tokens⟩

theorem withTokens {action : Action Tokens α} (looks : Tokens.LooksUp action) :
    Uniform (ArgumentList.withTokens action) where
  respects := .within_of looks.respects fun _ _ kept => kept
  alike := .within looks.alike (fun _ _ same => same.tokens)
    fun _ _ _ _ same left => ⟨same.list, left⟩

end Uniform

theorem uniform_searchKey (key : Value) : Uniform (searchKey key) := by
  unfold searchKey
  split
  · exact .pure _
  · refine .read_bind (f := fun list => if list.arguments.isEmpty then _ else _) fun list => ?_
    split
    · exact .pure _
    · exact .throw _

theorem uniform_find (key : Value) : Uniform (find key) := by
  refine .bind (uniform_searchKey key) fun found => ?_
  split
  · exact .read_bind (f := fun list => Pure.pure (list.find? _)) fun list => .pure _
  · exact .pure _

theorem uniform_place (key : String) (unique : Bool) : Uniform (place key unique) := by
  refine .read_bind (f := fun list => match if unique then list.find? key else none with
    | some a => Pure.pure a.index
    | none => do
      ArgumentList.update (·.append key)
      return list.nextIndex) fun list => ?_
  split
  · exact .pure _
  · exact .bind (.update _) fun _ => .pure _

theorem uniform_put (key value : Value) (unique quoted : Bool) :
    Uniform (put key value unique quoted) := by
  unfold put
  split
  · exact .throw _
  · exact .bind (uniform_place _ _) fun index =>
      .bind (.withTokens (Tokens.looksUp_normalize _)) fun text =>
        .bind (.update _) fun _ => .pure _
  · exact .throw _

theorem uniform_remove (key : Value) : Uniform (remove key) := by
  refine .bind (uniform_searchKey key) fun found => ?_
  split
  · exact .update _
  · exact .pure _

theorem uniform_replace (key value : Value) : Uniform (replace key value) := by
  refine .bind (uniform_find key) fun found => ?_
  split
  · exact .bind (.withTokens (Tokens.looksUp_normalize _)) fun text => .update _
  · exact .pure _

/-! ## Runs of calls -/

/-- A call that changes a list. -/
inductive ListCall where
  | put (key value : Value) (unique quoted : Bool)
  | remove (key : Value)
  | replace (key value : Value)

namespace ListCall

/-- Makes a call. -/
def perform : ListCall → Edit Unit
  | .put key value unique quoted => do let _ ← ArgumentList.put key value unique quoted
  | .remove key => ArgumentList.remove key
  | .replace key value => ArgumentList.replace key value

theorem edits_perform (call : ListCall) : Edits call.perform := by
  cases call with
  | put key value unique quoted => exact .bind (edits_put _ _ _ _) fun _ => .pure _
  | remove key => exact edits_remove _
  | replace key value => exact edits_replace _ _

theorem uniform_perform (call : ListCall) : Uniform call.perform := by
  cases call with
  | put key value unique quoted => exact .bind (uniform_put _ _ _ _) fun _ => .pure _
  | remove key => exact uniform_remove _
  | replace key value => exact uniform_replace _ _

/-- The desk after calls in turn, those that fail included. -/
def afterCalls (calls : List ListCall) (d : Desk) : Desk :=
  calls.foldl (fun d call => call.perform.after d) d

theorem edited_afterCalls (calls : List ListCall) (d : Desk) :
    Edited d.list (afterCalls calls d).list := by
  induction calls generalizing d with
  | nil => exact .refl
  | cons call rest ih => exact (edits_perform call d).trans (ih _)

theorem edited_run {calls : List ListCall} {d after : Desk}
    (done : calls.forM perform d = .ok () after) : Edited d.list after.list := by
  induction calls generalizing d with
  | nil =>
    cases done
    exact .refl
  | cons call rest ih =>
    obtain ⟨_, mid, first, done⟩ := bind_eq_ok.1 done
    have edited := edits_perform call d
    rw [after_of_ok first] at edited
    exact edited.trans (ih done)

end ListCall

/-! ## What calls keep -/

/-- What is left of arguments without the first one under a key; all of them where there is none. -/
inductive WithoutFirst (key : Value) (before : List Argument) : List Argument → Prop where
  | absent (none : ∀ a ∈ before, ¬ a.IsUnder key) : WithoutFirst key before before
  | removed (front : List Argument) (a : Argument) (back : List Argument)
      (split : before = front ++ a :: back) (under : a.IsUnder key)
      (first : ∀ b ∈ front, ¬ b.IsUnder key) : WithoutFirst key before (front ++ back)

theorem isUnder_text {a : Argument} {name : String} :
    a.IsUnder (.text name) ↔ a.key = commandKey name := by
  constructor
  · rintro ⟨other, same, under⟩
    cases same
    exact under
  · intro under
    exact ⟨name, rfl, under⟩

theorem withoutFirst_remove (key : Value) (d : Desk) :
    WithoutFirst key d.list.arguments ((remove key).after d).list.arguments := by
  by_cases named : ∃ name, key = .text name
  · obtain ⟨name, rfl⟩ := named
    rw [after_of_ok (remove_text name d)]
    cases found : d.list.find? name with
    | none =>
      rw [erase_of_not_found found]
      refine .absent fun a mem under => ?_
      exact absent_of_not_found found a mem (isUnder_text.1 under)
    | some a =>
      obtain ⟨front, back, split, under, first⟩ := split_of_found found
      rw [erase_of_split split under first]
      refine .removed front a back split (isUnder_text.2 under) fun b mem same => ?_
      exact first b mem (isUnder_text.1 same)
  · have other (name : String) : key ≠ .text name := fun same => named ⟨name, same⟩
    rw [after_remove_other other d]
    exact .absent fun a _ ⟨name, same, _⟩ => other name same

theorem remove_equal {key : Value} {a : Argument} (found : find key d = .ok (some a) d) :
    ((remove key).after d).list.arguments = d.list.arguments.erase a := by
  by_cases named : ∃ name, key = .text name
  · obtain ⟨name, rfl⟩ := named
    have same := (find_text name d).symm.trans found
    injection same with same
    rw [after_of_ok (remove_text name d), erase_of_found same]
  · have other (name : String) : key ≠ .text name := fun same => named ⟨name, same⟩
    rcases searchKey_other other d with ⟨-, searched⟩ | ⟨-, failure, searched⟩
    · rw [find, bind_of_ok searched] at found
      cases found
    · rw [find, bind_of_error searched] at found
      cases found

/-- **What holds of every list that calls make.** After any calls on the empty list, those that
fail included: the indices increase along the list and are below the next one, and every key has
its dash; an index that was given and is gone is on no later list; a put returns exactly when its
key is a text and its value can be written, and then tells the index at which the argument stands,
with the text of the value and the quotes asked for; and a removal, whether it fails or not, leaves
the arguments without the first one under its key, which is also the first equal to the one
found. -/
theorem indexed_of_calls (tokens : Tokens) (calls : List ListCall) :
    let d := ListCall.afterCalls calls ⟨tokens, .empty⟩
    (d.list.arguments.Pairwise fun a b => a.index < b.index) ∧
    (∀ a ∈ d.list.arguments, a.index < d.list.nextIndex ∧ a.key.toList.head? = some '-') ∧
    (∀ (more : List ListCall) (index : Int), index < d.list.nextIndex →
      index ∉ d.list.arguments.map (·.index) →
      index ∉ (ListCall.afterCalls more d).list.arguments.map (·.index)) ∧
    (∀ key value unique quoted,
      (∀ index after, put key value unique quoted d = .ok index after →
        ∃ name text, key = .text name ∧ normalize value d.tokens = .ok text after.tokens ∧
          ⟨commandKey name, text, quoted, index⟩ ∈ after.list.arguments) ∧
      ∀ name text rest, key = .text name → normalize value d.tokens = .ok text rest →
        ∃ index after, put key value unique quoted d = .ok index after) ∧
    ∀ key, WithoutFirst key d.list.arguments ((remove key).after d).list.arguments ∧
      ∀ a, find key d = .ok (some a) d →
        ((remove key).after d).list.arguments = d.list.arguments.erase a := by
  intro d
  have formed : d.list.WellFormed :=
    (ListCall.edited_afterCalls calls ⟨tokens, .empty⟩).wellFormed .empty
  refine ⟨formed.increasing, fun a mem => ⟨formed.below a mem, formed.dashed a mem⟩, ?_, ?_, ?_⟩
  · intro more index given gone
    exact (ListCall.edited_afterCalls more d).precedes.gone given gone
  · intro key value unique quoted
    constructor
    · intro index after done
      obtain ⟨name, text, named, normal, rfl, list⟩ := put_eq_ok done
      refine ⟨name, text, named, normal, ?_⟩
      rw [list]
      exact mem_entered formed name unique text quoted
    · rintro name text rest rfl normal
      exact ⟨_, _, put_of_ok normal⟩
  · intro key
    exact ⟨withoutFirst_remove key d, fun a found => remove_equal found⟩

/-- Of two equal inputs the first goes, and its index is not given again. -/
example :
    let input := ListCall.put (.text "i") (.text "a.mp4") false false
    let calls := [input, input, .remove (.text "-i"), input]
    (ListCall.afterCalls calls ⟨.initial, .empty⟩).list.places = [("-i", 1), ("-i", 2)] := by
  decide

end ArgumentList

end MediaCommand
