import MediaCommand.Proofs.Command.Indices
import Mathlib.Data.List.Flatten

/-!
# What is stored under a key

`stored` is what a list holds under one key. A call on that key has one effect on it (`onStored`),
and a call on another key has none (`stored_perform`). So what a run of calls leaves under a key is
the fold of the calls on that key, and these alone leave the same (`stored_alone`). A key that is
only put as a unique one is a cell: `StandsSince` says where its argument stands.
-/

namespace MediaCommand

namespace ArgumentList

open MediaCommand.Action

/-- A stored value with its quotes. -/
abbrev Cell := Option String × Bool

/-- What arguments hold under a key, in order. -/
def storedIn (key : String) (arguments : List Argument) : List Cell :=
  (arguments.filter (·.matchesKey key)).map fun a => (a.value, a.quoted)

/-- What a list holds under a key, in order. -/
def stored (list : ArgumentList) (key : String) : List Cell := storedIn key list.arguments

variable {list : ArgumentList} {d e after : Desk} {key : String}

theorem storedIn_append (front back : List Argument) :
    storedIn key (front ++ back) = storedIn key front ++ storedIn key back := by
  simp [storedIn]

theorem storedIn_of_under (key : String) {arguments : List Argument} {name : String}
    (under : ∀ a ∈ arguments, a.key = commandKey name) :
    storedIn key arguments =
      if commandKey name = commandKey key then arguments.map fun a => (a.value, a.quoted)
      else [] := by
  split
  · next same =>
    rw [storedIn, List.filter_eq_self.2]
    intro a mem
    exact matchesKey_iff.2 ((under a mem).trans same)
  · next differ =>
    rw [storedIn, List.filter_eq_nil_iff.2, List.map_nil]
    intro a mem here
    exact differ ((under a mem).symm.trans (matchesKey_iff.1 here))

theorem storedIn_eq_nil {arguments : List Argument}
    (absent : ∀ a ∈ arguments, a.key ≠ commandKey key) : storedIn key arguments = [] := by
  rw [storedIn, List.filter_eq_nil_iff.2, List.map_nil]
  intro a mem here
  exact absent a mem (matchesKey_iff.1 here)

/-- Arguments in place of the first one under a name change what is stored under that name, where
they come first, and under no other. -/
theorem storedIn_replaced (key : String) {front back : List Argument} {name : String}
    {a : Argument} (first : ∀ b ∈ front, b.key ≠ commandKey name) (under : a.key = commandKey name)
    (others : List Argument) (same : ∀ b ∈ others, b.key = commandKey name) :
    storedIn key (front ++ others ++ back) =
      if commandKey name = commandKey key then
        (others.map fun b => (b.value, b.quoted)) ++ (storedIn key (front ++ a :: back)).tail
      else storedIn key (front ++ a :: back) := by
  have single : ∀ b ∈ [a], b.key = commandKey name := by simpa using under
  rw [List.append_cons front a back]
  simp only [storedIn_append, storedIn_of_under key single, storedIn_of_under key same]
  by_cases equal : commandKey name = commandKey key
  · have none : storedIn key front = [] := storedIn_eq_nil (equal ▸ first)
    simp [equal, none]
  · simp [equal]

theorem stored_of_split {front back : List Argument} {name : String} {a : Argument}
    (split : list.arguments = front ++ a :: back) (under : a.key = commandKey name)
    (first : ∀ b ∈ front, b.key ≠ commandKey name) (same : commandKey name = commandKey key) :
    list.stored key = (a.value, a.quoted) :: (list.stored key).tail := by
  have itself := @storedIn_replaced key front back name a first under [a] (by simpa using under)
  rw [if_pos same, List.append_assoc, List.singleton_append, ← split] at itself
  exact itself

theorem stored_eq_nil_iff {name : String} (same : commandKey name = commandKey key) :
    list.stored key = [] ↔ list.find? name = none := by
  cases found : list.find? name with
  | none => simp [stored, storedIn_eq_nil (same ▸ absent_of_not_found found)]
  | some a =>
    obtain ⟨front, back, split, under, first⟩ := split_of_found found
    rw [stored_of_split split under first same]
    simp

/-! ## What changes of a list do to what it stores -/

theorem stored_entered (formed : list.WellFormed) (name : String) (unique : Bool)
    (text : Option String) (quoted : Bool) (key : String) :
    (list.entered name unique text quoted).stored key =
      if commandKey name = commandKey key then
        if unique then (text, quoted) :: (list.stored key).tail
        else list.stored key ++ [(text, quoted)]
      else list.stored key := by
  cases aim : (if unique then list.find? name else none) with
  | none =>
    have under : ∀ a ∈ [(⟨commandKey name, text, quoted, list.nextIndex⟩ : Argument)],
        a.key = commandKey name := by simp
    rw [stored, entered_new formed aim, storedIn_append, storedIn_of_under key under, ← stored]
    by_cases same : commandKey name = commandKey key
    · cases unique with
      | false => simp [same]
      | true =>
        have nothing : list.stored key = [] := (stored_eq_nil_iff same).2 aim
        simp [same, nothing]
    · simp [same]
  | some a =>
    cases unique with
    | false => cases aim
    | true =>
      have found : list.find? name = some a := aim
      obtain ⟨front, back, split, under, first⟩ := split_of_found found
      rw [stored, entered_present formed found split, List.append_cons,
        storedIn_replaced key first under _ (by simpa using under), ← split, ← stored]
      simp

theorem stored_erase (list : ArgumentList) (name key : String) :
    (list.erase name).stored key =
      if commandKey name = commandKey key then (list.stored key).tail else list.stored key := by
  cases found : list.find? name with
  | none =>
    rw [erase_of_not_found found]
    by_cases same : commandKey name = commandKey key
    · simp [(stored_eq_nil_iff same).2 found]
    · simp [same]
  | some a =>
    obtain ⟨front, back, split, under, first⟩ := split_of_found found
    have erased := @storedIn_replaced key front back name a first under [] (by simp)
    rw [List.append_nil, ← erase_of_split split under first, ← split] at erased
    exact erased

theorem stored_replaced (formed : list.WellFormed) {name : String} {a : Argument}
    (found : list.find? name = some a) (text : Option String) (key : String) :
    (list.change a.index ({ · with value := text })).stored key =
      if commandKey name = commandKey key then (text, a.quoted) :: (list.stored key).tail
      else list.stored key := by
  obtain ⟨front, back, split, under, first⟩ := split_of_found found
  rw [stored, formed.change_arguments split, List.append_cons,
    storedIn_replaced key first under _ (by simpa using under), ← split, ← stored]
  simp

/-! ## The effect of a call -/

namespace ListCall

/-- The key that a call names. -/
def target : ListCall → Value
  | .put key _ _ _ => key
  | .remove key => key
  | .replace key _ => key

/-- Whether a call is on a key, whichever way it is spelled. -/
def concerns (key : String) (call : ListCall) : Bool :=
  match call.target with
  | .text name => decide (commandKey name = commandKey key)
  | _ => false

/-- What is stored under a key after a call on it. -/
def onStored (tokens : Tokens) (cells : List Cell) : ListCall → List Cell
  | .put _ value unique quoted =>
    if unique then (tokens.spell value, quoted) :: cells.tail
    else cells ++ [(tokens.spell value, quoted)]
  | .remove _ => cells.tail
  | .replace _ value => match cells with
    | [] => []
    | (_, quoted) :: rest => (tokens.spell value, quoted) :: rest

theorem concerns_text {call : ListCall} {name : String} (named : call.target = .text name) :
    call.concerns key = decide (commandKey name = commandKey key) := by
  simp only [concerns, named]

theorem onStored_congr {tokens others : Tokens} (agree : tokens.Agrees others) :
    onStored tokens = onStored others := by
  funext cells call
  cases call with
  | put name value unique quoted => simp only [onStored, agree.spell]
  | remove name => rfl
  | replace name value => simp only [onStored, agree.spell]

/-- What a call that returns has done: nothing, for a key that is no text or not there, or one
change of the list. -/
inductive Done (d : Desk) : ListCall → Desk → Prop where
  | nothing {call : ListCall} (other : ∀ name, call.target ≠ .text name) : Done d call d
  | entered {name : String} {value : Value} {unique quoted : Bool} {text : Option String}
      {after : Desk} (normal : normalize value d.tokens = .ok text after.tokens)
      (list : after.list = d.list.entered name unique text quoted) :
      Done d (.put (.text name) value unique quoted) after
  | erased (name : String) : Done d (.remove (.text name)) ⟨d.tokens, d.list.erase name⟩
  | absent {name : String} {value : Value} (missing : d.list.find? name = none) :
      Done d (.replace (.text name) value) d
  | replaced {name : String} {value : Value} {a : Argument} {text : Option String} {after : Desk}
      (found : d.list.find? name = some a)
      (normal : normalize value d.tokens = .ok text after.tokens)
      (list : after.list = d.list.change a.index ({ · with value := text })) :
      Done d (.replace (.text name) value) after

theorem done_of_perform {call : ListCall} (run : call.perform d = .ok () after) :
    Done d call after := by
  by_cases named : ∃ name, call.target = .text name
  · obtain ⟨name, named⟩ := named
    cases call with
    | put key value unique quoted =>
      obtain ⟨_, _, put, run⟩ := bind_eq_ok.1 run
      cases run
      obtain ⟨other, text, rfl, normal, -, list⟩ := put_eq_ok put
      exact .entered normal list
    | remove key =>
      cases named
      cases (remove_text name d).symm.trans run
      exact .erased name
    | replace key value =>
      cases named
      cases found : d.list.find? name with
      | none =>
        cases (replace_of_not_found found).symm.trans run
        exact .absent found
      | some a =>
        obtain ⟨text, normal, list⟩ := replace_eq_ok found run
        exact .replaced found normal list
  · have other (name : String) : call.target ≠ .text name := fun same => named ⟨name, same⟩
    cases call with
    | put key value unique quoted =>
      obtain ⟨_, _, put, _⟩ := bind_eq_ok.1 run
      obtain ⟨name, _, rfl, _⟩ := put_eq_ok put
      exact absurd rfl (other name)
    | remove key =>
      rcases searchKey_other other d with ⟨-, searched⟩ | ⟨-, failure, searched⟩
      · cases (bind_of_ok searched).symm.trans run
        exact .nothing other
      · cases (bind_of_error searched).symm.trans run
    | replace key value =>
      rcases searchKey_other other d with ⟨-, searched⟩ | ⟨-, failure, searched⟩
      · have found : find key d = .ok none d := bind_of_ok searched
        cases (bind_of_ok found).symm.trans run
        exact .nothing other
      · have found : find key d = .error failure d := bind_of_error searched
        cases (bind_of_error found).symm.trans run

theorem wellFormed_perform {call : ListCall} (formed : d.list.WellFormed)
    (done : call.perform d = .ok () after) : after.list.WellFormed := by
  have edited := edits_perform call d
  rw [after_of_ok done] at edited
  exact edited.wellFormed formed

theorem agrees_perform {call : ListCall} (done : call.perform d = .ok () after) :
    d.tokens.Agrees after.tokens := by
  have kept := (uniform_perform call).respects d
  rwa [after_of_ok done] at kept

theorem agrees_run {calls : List ListCall} (done : calls.forM perform d = .ok () after) :
    d.tokens.Agrees after.tokens := by
  induction calls generalizing d with
  | nil =>
    cases done
    exact refl after.tokens
  | cons call rest ih =>
    obtain ⟨_, mid, first, done⟩ := bind_eq_ok.1 done
    exact (agrees_perform first).trans (ih done)

theorem concerns_other {call : ListCall} (other : ∀ name, call.target ≠ .text name) :
    call.concerns key = false := by
  unfold concerns
  split
  · next name same => exact absurd same (other name)
  · rfl

/-- What a call does to what is stored, under its own key and under all others. -/
theorem stored_perform {call : ListCall} (formed : d.list.WellFormed)
    (run : call.perform d = .ok () after) (key : String) :
    after.list.stored key =
      if call.concerns key then call.onStored d.tokens (d.list.stored key)
      else d.list.stored key := by
  cases done_of_perform run with
  | nothing other =>
    rw [concerns_other other]
    rfl
  | entered normal list =>
    rw [concerns_text rfl, list, stored_entered formed]
    simp [onStored, Tokens.spell_of_ok normal]
  | erased name =>
    rw [concerns_text rfl, stored_erase]
    simp [onStored]
  | @absent name value missing =>
    rw [concerns_text rfl]
    by_cases same : commandKey name = commandKey key
    · simp [same, onStored, (stored_eq_nil_iff same).2 missing]
    · simp [same]
  | @replaced name value a text _ found normal list =>
    rw [concerns_text rfl, list, stored_replaced formed found]
    by_cases same : commandKey name = commandKey key
    · obtain ⟨front, back, split, under, first⟩ := split_of_found found
      have before := stored_of_split split under first same
      rw [before]
      simp [same, onStored, Tokens.spell_of_ok normal]
    · simp [same]

/-- A call on a key returns in every list that holds the same under it. -/
theorem perform_again {call : ListCall} (concerned : call.concerns key = true)
    (agree : d.tokens.Agrees e.tokens) (same : d.list.stored key = e.list.stored key)
    (run : call.perform d = .ok () after) : ∃ rest, call.perform e = .ok () rest := by
  have again {value : Value} {text : Option String}
      (normal : normalize value d.tokens = .ok text after.tokens) :
      ∃ others, normalize value e.tokens = .ok text others := by
    obtain ⟨others, normal, -⟩ := (Tokens.looksUp_normalize value).alike.ok agree normal
    exact ⟨others, normal⟩
  cases done_of_perform run with
  | nothing other =>
    rw [concerns_other other] at concerned
    cases concerned
  | entered normal list =>
    obtain ⟨others, normal⟩ := again normal
    exact ⟨_, (bind_of_ok (put_of_ok normal)).trans rfl⟩
  | erased name => exact ⟨_, remove_text name e⟩
  | @absent name value missing =>
    have spelled : commandKey name = commandKey key := of_decide_eq_true concerned
    have nothing := same.symm.trans ((stored_eq_nil_iff spelled).2 missing)
    exact ⟨_, replace_of_not_found ((stored_eq_nil_iff spelled).1 nothing)⟩
  | @replaced name value a text _ found normal list =>
    cases here : e.list.find? name with
    | none => exact ⟨_, replace_of_not_found here⟩
    | some b =>
      obtain ⟨others, normal⟩ := again normal
      exact ⟨_, replace_of_found here normal⟩

/-! ## Runs -/

/-- What a run leaves under a key is what the calls on that key make of what was there. -/
theorem stored_run {calls : List ListCall} (formed : d.list.WellFormed)
    (done : calls.forM perform d = .ok () after) (key : String) :
    after.list.stored key =
      (calls.filter (concerns key)).foldl (onStored d.tokens) (d.list.stored key) := by
  induction calls generalizing d with
  | nil =>
    cases done
    rfl
  | cons call rest ih =>
    obtain ⟨_, mid, first, done⟩ := bind_eq_ok.1 done
    rw [ih (wellFormed_perform formed first) done, stored_perform formed first,
      onStored_congr (agrees_perform first)]
    by_cases concerned : call.concerns key = true
    · rw [if_pos concerned, List.filter_cons_of_pos concerned, List.foldl_cons]
    · rw [if_neg concerned, List.filter_cons_of_neg concerned]

/-- The calls on a key return without the others, too, and leave the same under it. -/
theorem stored_alone {calls : List ListCall} (formed : d.list.WellFormed)
    (other : e.list.WellFormed) (agree : d.tokens.Agrees e.tokens)
    (same : d.list.stored key = e.list.stored key) (done : calls.forM perform d = .ok () after) :
    ∃ alone, (calls.filter (concerns key)).forM perform e = .ok () alone ∧
      after.list.stored key = alone.list.stored key := by
  induction calls generalizing d e with
  | nil =>
    cases done
    exact ⟨e, rfl, same⟩
  | cons call rest ih =>
    obtain ⟨_, mid, first, done⟩ := bind_eq_ok.1 done
    have midFormed := wellFormed_perform formed first
    have midAgree := agrees_perform first
    have effect := stored_perform formed first key
    by_cases concerned : call.concerns key = true
    · obtain ⟨next, again⟩ := perform_again concerned agree same first
      have matching := stored_perform other again key
      rw [if_pos concerned] at effect matching
      rw [onStored_congr agree, same, ← matching] at effect
      have nextAgree := midAgree.symm.trans (agree.trans (agrees_perform again))
      obtain ⟨alone, run, equal⟩ :=
        ih midFormed (wellFormed_perform other again) nextAgree effect done
      rw [List.filter_cons_of_pos concerned]
      exact ⟨alone, bind_eq_ok.2 ⟨_, next, again, run⟩, equal⟩
    · rw [if_neg concerned] at effect
      rw [List.filter_cons_of_neg concerned]
      exact ih midFormed other (midAgree.symm.trans agree) (effect.trans same) done

/-! ## A key that is put once or again and again -/

/-- Whether the call may stand in a run that only puts its key as a unique one. -/
def keepsUnique : ListCall → Bool
  | .put _ _ unique _ => unique
  | _ => true

def isRemoval : ListCall → Bool
  | .remove _ => true
  | _ => false

/-- Whether the call puts a value behind all that are there. -/
def appends : ListCall → Bool
  | .put _ _ unique _ => !unique
  | _ => false

/-- A cell after a call on it. -/
def onCell (tokens : Tokens) (cell : Option Cell) : ListCall → Option Cell
  | .put _ value _ quoted => some (tokens.spell value, quoted)
  | .remove _ => none
  | .replace _ value => cell.map fun old => (tokens.spell value, old.2)

/-- What the cell of a key holds after calls: the value written last, by a put or a replacement,
since it was last removed. -/
def cellAfter (tokens : Tokens) (key : String) (calls : List ListCall) : Option Cell :=
  (calls.filter (concerns key)).foldl (onCell tokens) none

/-- The values that calls put under a key, in order. -/
def valuesPut (tokens : Tokens) (key : String) (calls : List ListCall) : List Cell :=
  (calls.filter (concerns key)).filterMap fun
    | .put _ value _ quoted => some (tokens.spell value, quoted)
    | _ => none

theorem onStored_toList {call : ListCall} (unique : call.keepsUnique = true) (tokens : Tokens)
    (cell : Option Cell) :
    call.onStored tokens cell.toList = (call.onCell tokens cell).toList := by
  cases call with
  | put key value once quoted =>
    have once : once = true := unique
    cases cell <;> simp [onStored, onCell, once]
  | remove key => cases cell <;> rfl
  | replace key value => cases cell <;> rfl

theorem foldl_onStored_unique {calls : List ListCall}
    (unique : ∀ call ∈ calls, call.keepsUnique = true) (tokens : Tokens) (cell : Option Cell) :
    calls.foldl (onStored tokens) cell.toList = (calls.foldl (onCell tokens) cell).toList := by
  induction calls generalizing cell with
  | nil => rfl
  | cons call rest ih =>
    rw [List.foldl_cons, List.foldl_cons, onStored_toList (unique call List.mem_cons_self)]
    exact ih (fun other mem => unique other (List.mem_cons_of_mem _ mem)) _

theorem foldl_onStored_appends {calls : List ListCall}
    (append : ∀ call ∈ calls, call.appends = true) (tokens : Tokens) (cells : List Cell) :
    calls.foldl (onStored tokens) cells = cells ++ calls.filterMap fun
      | .put _ value _ quoted => some (tokens.spell value, quoted)
      | _ => none := by
  induction calls generalizing cells with
  | nil => simp
  | cons call rest ih =>
    have first := append call List.mem_cons_self
    rw [List.foldl_cons, ih fun other mem => append other (List.mem_cons_of_mem _ mem)]
    cases call with
    | put key value unique quoted =>
      have behind : unique = false := by simpa [appends] using first
      simp [onStored, behind]
    | remove key => cases first
    | replace key value => cases first

/-! ## Where the argument of a cell stands -/

/-- Under a key the later list has an argument that stands right behind what is left of the
arguments from before, and in front of all that were added since. -/
def StandsSince (list later : ArgumentList) (key : String) : Prop :=
  ∃ front a back, later.arguments = front ++ a :: back ∧ a.key = commandKey key ∧
    a.index = (list.nextIndex : Int) ∧
    (front.map fun b => (b.key, b.index)).Sublist list.places ∧
    ∀ b ∈ back, (list.nextIndex : Int) < b.index

theorem standsSince_of_mem {later : ArgumentList} (precedes : list.Precedes later)
    (formed : later.WellFormed) (there : (commandKey key, (list.nextIndex : Int)) ∈ later.places) :
    StandsSince list later key := by
  obtain ⟨a, mem, place⟩ := List.mem_map.1 there
  obtain ⟨under, index⟩ := Prod.mk.inj place
  obtain ⟨front, back, split⟩ := List.append_of_mem mem
  have order := formed.increasing
  rw [split, List.pairwise_append, List.pairwise_cons] at order
  obtain ⟨-, ⟨behind, -⟩, inFront⟩ := order
  have early (b : Argument) (mem : b ∈ front) : b.index < (list.nextIndex : Int) := by
    have := inFront b mem a List.mem_cons_self
    omega
  have late (b : Argument) (mem : b ∈ back) : (list.nextIndex : Int) < b.index := by
    have := behind b mem
    omega
  refine ⟨front, a, back, split, under, index, ?_, late⟩
  -- What has an index from before is just what stands in front.
  have kept := precedes.places
  have frontKept : (front.map fun b => (b.key, b.index)).filter
      (fun place => decide (place.2 < (list.nextIndex : Int))) =
        front.map fun b => (b.key, b.index) := by
    rw [List.filter_eq_self]
    intro place here
    obtain ⟨b, mem, rfl⟩ := List.mem_map.1 here
    exact decide_eq_true (early b mem)
  rw [places, split, List.map_append, List.filter_append, frontKept] at kept
  exact (List.sublist_append_left _ _).trans kept

/-- An argument keeps its place until its key is removed. -/
theorem place_kept {calls : List ListCall} {index : Int}
    (quiet : ∀ call ∈ calls, call.concerns key = true → call.isRemoval = false)
    (there : (commandKey key, index) ∈ d.list.places)
    (done : calls.forM perform d = .ok () after) : (commandKey key, index) ∈ after.list.places := by
  induction calls generalizing d with
  | nil =>
    cases done
    exact there
  | cons call rest ih =>
    obtain ⟨_, mid, first, done⟩ := bind_eq_ok.1 done
    refine ih (fun other mem => quiet other (List.mem_cons_of_mem _ mem)) ?_ done
    cases done_of_perform first with
    | nothing other => exact there
    | entered normal list =>
      rw [list]
      exact mem_places_entered there _ _ _ _
    | erased name =>
      refine mem_places_erase (fun same => ?_) there
      have concerned : (ListCall.remove (.text name)).concerns key = true :=
        decide_eq_true same.symm
      cases quiet _ List.mem_cons_self concerned
    | absent missing => exact there
    | @replaced name value a text _ found normal list =>
      have same := places_change d.list a.index
        (f := ({ · with value := text })) (fun _ => rfl) fun _ => rfl
      rw [list, same]
      exact there

/-- An argument that is put under a key without one stands, as long as the key is not removed,
behind what was there before and in front of what is added later. -/
theorem standsSince_of_run {early late : List ListCall} {name : String} {value : Value}
    {unique quoted : Bool} (formed : d.list.WellFormed)
    (spelled : commandKey name = commandKey key)
    (done : (early ++ .put (.text name) value unique quoted :: late).forM perform d = .ok () after)
    (absent : (early.filter (concerns key)).foldl (onStored d.tokens) (d.list.stored key) = [])
    (quiet : ∀ call ∈ late, call.concerns key = true → call.isRemoval = false) :
    ∃ start, early.forM perform d = .ok () start ∧ StandsSince start.list after.list key := by
  obtain ⟨start, begun, done⟩ := forM_append_eq_ok.1 done
  obtain ⟨_, mid, first, rest⟩ := bind_eq_ok.1 done
  refine ⟨start, begun, ?_⟩
  have startFormed := (edited_run begun).wellFormed formed
  have edited := edited_run done
  have missing : start.list.find? name = none := by
    rw [← stored_run formed begun key] at absent
    exact (stored_eq_nil_iff spelled).1 absent
  have aim : (if unique then start.list.find? name else none) = none := by simp [missing]
  obtain ⟨other⟩ | ⟨-, list⟩ := done_of_perform first
  · exact absurd rfl (other name)
  have there : (commandKey key, (start.list.nextIndex : Int)) ∈ mid.list.places := by
    rw [list, places, entered_new startFormed aim, List.map_append, spelled]
    exact List.mem_append_right _ (List.mem_singleton.2 rfl)
  exact standsSince_of_mem edited.precedes (edited.wellFormed startFormed)
    (place_kept quiet there rest)

end ListCall

end ArgumentList

end MediaCommand
