import MediaCommand.Command.Setting
import MediaCommand.Proofs.Action
import Mathlib.Logic.Relation

/-!
# Editing argument lists

Every operation on an argument list is a sequence of touches: an argument appended, one erased, or
the value of the argument of an index changed. `Edited` is the closure of these, and what each touch
keeps (`WellFormed`: indices increase along the list, keys have their dash) every operation keeps.
On a well-formed list an index picks out one argument, so that `assign`, the list that a write
under a unique key leaves, is known place by place.
-/

namespace MediaCommand

theorem commandKey_dashed (key : String) : (commandKey key).toList.head? = some '-' := by
  unfold commandKey
  split
  · assumption
  · rw [String.toList_append]
    rfl

namespace ArgumentList

/-- One change of a list. -/
inductive Touch (list : ArgumentList) : ArgumentList → Prop where
  | append (key : String) : Touch list (list.append key)
  | erase (key : String) : Touch list (list.erase key)
  | change (index : Int) (f : Argument → Argument) (key : ∀ a, (f a).key = a.key)
      (place : ∀ a, (f a).index = a.index) : Touch list (list.change index f)

/-- The second list results from changes of the first. -/
abbrev Edited : ArgumentList → ArgumentList → Prop := Relation.ReflTransGen Touch

/-- What holds of every list that operations make from the empty one. -/
structure WellFormed (list : ArgumentList) : Prop where
  increasing : list.arguments.Pairwise fun a b => a.index < b.index
  below : ∀ a ∈ list.arguments, a.index < list.nextIndex
  dashed : ∀ a ∈ list.arguments, a.key.toList.head? = some '-'

theorem WellFormed.empty : WellFormed empty := ⟨.nil, by simp [ArgumentList.empty],
  by simp [ArgumentList.empty]⟩

theorem WellFormed.append {list : ArgumentList} (formed : list.WellFormed) (key : String) :
    (list.append key).WellFormed where
  increasing := by
    rw [ArgumentList.append, List.pairwise_append]
    refine ⟨formed.increasing, List.pairwise_singleton _ _, ?_⟩
    intro a mem b new
    rw [List.mem_singleton.1 new]
    exact formed.below a mem
  below := by
    intro a mem
    simp only [ArgumentList.append, List.mem_append, List.mem_singleton] at mem ⊢
    rcases mem with old | rfl
    · have := formed.below a old
      omega
    · exact Int.lt_succ _
  dashed := by
    intro a mem
    simp only [ArgumentList.append, List.mem_append, List.mem_singleton] at mem
    rcases mem with old | rfl
    · exact formed.dashed a old
    · exact commandKey_dashed key

theorem WellFormed.erase {list : ArgumentList} (formed : list.WellFormed) (key : String) :
    (list.erase key).WellFormed where
  increasing := formed.increasing.sublist List.eraseP_sublist
  below a mem := formed.below a (List.mem_of_mem_eraseP mem)
  dashed a mem := formed.dashed a (List.mem_of_mem_eraseP mem)

theorem WellFormed.change {list : ArgumentList} (formed : list.WellFormed) (index : Int)
    {f : Argument → Argument} (key : ∀ a, (f a).key = a.key)
    (place : ∀ a, (f a).index = a.index) : (list.change index f).WellFormed := by
  have samePlace (a : Argument) : (if a.index = index then f a else a).index = a.index := by
    split <;> simp [place]
  have sameKey (a : Argument) : (if a.index = index then f a else a).key = a.key := by
    split <;> simp [key]
  constructor
  · simp only [ArgumentList.change, List.pairwise_map, samePlace]
    exact formed.increasing
  · simp only [ArgumentList.change, List.forall_mem_map, samePlace]
    exact formed.below
  · simp only [ArgumentList.change, List.forall_mem_map, sameKey]
    exact formed.dashed

theorem Touch.wellFormed {list next : ArgumentList} (touch : Touch list next)
    (formed : list.WellFormed) : next.WellFormed := by
  cases touch with
  | append key => exact formed.append key
  | erase key => exact formed.erase key
  | change index f key place => exact formed.change index key place

/-- Operations keep a list well formed, in however many changes. -/
theorem Edited.wellFormed {list last : ArgumentList} (edited : Edited list last)
    (formed : list.WellFormed) : last.WellFormed := by
  induction edited with
  | refl => exact formed
  | tail _ touch ih => exact touch.wellFormed ih

/-! ## Writing under a unique key -/

/-- The list after a value has been written under a unique key. -/
def assign (list : ArgumentList) (key : String) (value : Option String) (quoted : Bool) :
    ArgumentList :=
  match list.find? key with
  | some argument => list.change argument.index ({ · with value, quoted })
  | none => (list.append key).change list.nextIndex ({ · with value, quoted })

/-- On a well-formed list an index picks out one argument. -/
theorem WellFormed.change_arguments {list : ArgumentList} (formed : list.WellFormed)
    {front back : List Argument} {a : Argument} (split : list.arguments = front ++ a :: back)
    (f : Argument → Argument) :
    (list.change a.index f).arguments = front ++ f a :: back := by
  have order := formed.increasing
  rw [split, List.pairwise_append, List.pairwise_cons] at order
  obtain ⟨-, ⟨behind, -⟩, inFront⟩ := order
  have keep (part : List Argument) (other : ∀ b ∈ part, b.index ≠ a.index) :
      part.map (fun b => if b.index = a.index then f b else b) = part :=
    (List.map_congr_left fun b mem => if_neg (other b mem)).trans (List.map_id part)
  have frontSame := keep front fun b mem => Int.ne_of_lt (inFront b mem a List.mem_cons_self)
  have backSame := keep back fun b mem => Int.ne_of_gt (behind b mem)
  simp only [ArgumentList.change, split, List.map_append, List.map_cons, frontSame, backSame,
    if_true]

/-- A key that is present keeps its place. -/
theorem WellFormed.assign_present {list : ArgumentList} (formed : list.WellFormed)
    {front back : List Argument} {a : Argument} {key : String}
    (split : list.arguments = front ++ a :: back)
    (first : ∀ b ∈ front, b.matchesKey key = false) (here : a.matchesKey key = true)
    (value : Option String) (quoted : Bool) :
    (list.assign key value quoted).arguments = front ++ { a with value, quoted } :: back := by
  have found : list.find? key = some a := by
    rw [find?, split, List.find?_append, List.find?_eq_none.2 (by simpa using first)]
    simp [here]
  simp only [assign, found]
  exact formed.change_arguments split _

/-- A new key comes last. -/
theorem WellFormed.assign_absent {list : ArgumentList} (formed : list.WellFormed) {key : String}
    (absent : list.find? key = none) (value : Option String) (quoted : Bool) :
    (list.assign key value quoted).arguments =
      list.arguments ++ [⟨commandKey key, value, quoted, list.nextIndex⟩] := by
  simp only [assign, absent]
  exact (formed.append key).change_arguments (a := ⟨commandKey key, none, false, list.nextIndex⟩)
    rfl _

/-! ## Operations are edits -/

/-- The desk after an operation: its list results from changes of the one before. -/
def Desk.EditedTo (before after : Desk) : Prop := Edited before.list after.list

instance : IsPreorder Desk Desk.EditedTo where
  refl _ := .refl
  trans _ _ _ first second := first.trans second

/-- An operation that only edits the list. -/
abbrev Edits {α : Type} (edit : Edit α) : Prop := Action.Respects Desk.EditedTo edit

open MediaCommand.Action (Respects)

theorem edits_withTokens {α : Type} (action : Action Tokens α) : Edits (withTokens action) :=
  .within action fun _ _ => .refl

theorem edits_update {f : ArgumentList → ArgumentList} (touch : ∀ list, Touch list (f list)) :
    Edits (update f) :=
  fun d => .single (touch d.list)

theorem edits_searchKey (key : Value) : Edits (searchKey key) := by
  unfold searchKey
  split
  · exact .pure _
  · refine .get_bind fun d => ?_
    split
    · exact .refl
    · exact .refl

theorem edits_find (key : Value) : Edits (find key) := by
  refine .bind (edits_searchKey key) fun found => ?_
  split
  · exact .get_bind fun d => .refl
  · exact .pure _

theorem edits_place (key : String) (unique : Bool) : Edits (place key unique) := by
  refine .get_bind fun d => ?_
  dsimp only
  split
  · exact .refl
  · exact .single (.append key)

theorem edits_put (key value : Value) (unique quoted : Bool) :
    Edits (put key value unique quoted) := by
  unfold put
  split
  · exact .throw _
  · refine .bind (edits_place _ _) fun index => .bind (edits_withTokens _) fun text =>
      .bind (edits_update fun list => ?_) fun _ => .pure _
    exact .change _ _ (fun _ => rfl) fun _ => rfl
  · exact .throw _

theorem edits_remove (key : Value) : Edits (remove key) := by
  refine .bind (edits_searchKey key) fun found => ?_
  split
  · exact edits_update fun list => .erase _
  · exact .pure _

theorem edits_replace (key value : Value) : Edits (replace key value) := by
  refine .bind (edits_find key) fun found => ?_
  split
  · refine .bind (edits_withTokens _) fun text => edits_update fun list => ?_
    exact .change _ _ (fun _ => rfl) fun _ => rfl
  · exact .pure _

theorem edits_write (key : String) (value : Value) : Edits (write key value) :=
  .bind (edits_put _ _ _ _) fun _ => .pure _

theorem edits_addAgain (key : String) (value : Value) : Edits (addAgain key value) :=
  .bind (edits_put _ _ _ _) fun _ => .pure _

theorem edits_setOverwrite (overwrite : Value) : Edits (setOverwrite overwrite) := by
  unfold setOverwrite
  split
  exact .bind (edits_remove _) fun _ => edits_write _ _

theorem edits_setFeatures (flags : List Value) : Edits (setFeatures flags) :=
  .bind (edits_withTokens _) fun _ => edits_write _ _

theorem edits_addInputs (paths : List Value) : Edits (addInputs paths) := by
  induction paths with
  | nil => exact .pure _
  | cons path rest ih =>
    unfold addInputs
    split
    · exact .bind (edits_addAgain _ _) fun _ => ih
    · exact ih

theorem edits_setCodec (codec streamType : Value) : Edits (setCodec codec streamType) := by
  unfold setCodec
  split
  · exact edits_write _ _
  · exact .bind (.ofExcept _) fun _ => edits_write _ _

theorem edits_addMetadata (key value : Value) : Edits (addMetadata key value) :=
  .bind (.ofExcept _) fun _ => .bind (edits_withTokens _) fun _ => edits_addAgain _ _

theorem edits_setSearch (start stop : Value) : Edits (setSearch start stop) :=
  .bind (edits_write _ _) fun _ => edits_write _ _

theorem edits_setSearchFor (start length : Value) : Edits (setSearchFor start length) :=
  .bind (edits_write _ _) fun _ => edits_write _ _

theorem edits_setSize (width height : Value) : Edits (setSize width height) := by
  unfold setSize
  split
  · exact edits_write _ _
  · exact .bind (.ofExcept _) fun _ => .bind (.ofExcept _) fun _ => edits_write _ _

theorem edits_setOutput (path : Value) : Edits (setOutput path) := by
  unfold setOutput
  split
  · exact .throw _
  · exact edits_write _ _

/-- A text is written as it is. -/
theorem write_text (key text : String) (d : Desk) :
    write key (.text text) d = .ok () ⟨d.tokens, d.list.assign key (some text) false⟩ := by
  have placed : ∃ index list, place key true d = .ok index ⟨d.tokens, list⟩ ∧
      d.list.assign key (some text) false =
        list.change index ({ · with value := some text, quoted := false }) := by
    simp only [place, assign, Action.get_bind_apply, if_true]
    cases d.list.find? key with
    | some argument => exact ⟨_, _, rfl, rfl⟩
    | none => exact ⟨_, _, rfl, rfl⟩
  obtain ⟨index, list, run, same⟩ := placed
  simp only [write, put, bind, EStateM.bind, run, same]
  rfl

end ArgumentList

end MediaCommand
