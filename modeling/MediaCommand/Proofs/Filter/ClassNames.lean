import MediaCommand.Proofs.Command.Calls
import MediaCommand.Proofs.Filter.NameLookups
import MediaCommand.Proofs.History
import MediaCommand.Settings.Variables
import Mathlib.Data.List.TakeWhile

/-!
# Names of classes that are fixed once

`NameCall` lists the calls that declare classes, tag them or look their names up, hidden look-ups
included. `NameCall.reference` says from the history of the calls which name a class has: the last
tag of the nearest tagged class in its line before the class itself was first looked up. What holds
of a class after calls is `Kept`; each call keeps it up (`kept_concat`), and so does a run
(`kept_run`).
-/

namespace MediaCommand

open MediaCommand.Action

/-! ## Calls -/

/-- Names of classes as they were. -/
def Session.SameNames (before after : Session) : Prop :=
  after.workspace.names = before.workspace.names

instance : IsPreorder Session Session.SameNames where
  refl _ := rfl
  trans _ _ _ first second := Eq.trans second first

namespace Session

theorem names_work {α : Type} (action : Work α) (s : Session) :
    ((work action).after s).workspace.names = (action.after s.workspace).names :=
  congrArg (·.workspace.names) (after_within _ _ action s)

theorem sameNames_work {α : Type} {action : Work α}
    (same : Respects Workspace.SameNames action) : Respects SameNames (work action) :=
  .within_of same fun _ _ kept => kept

/-- What leaves the names alone can follow. -/
theorem names_bind {α β : Type} {x : Step α} {f : α → Step β}
    (same : ∀ a, Respects SameNames (f a)) (s : Session) :
    ((x >>= f).after s).workspace.names = (x.after s).workspace.names := by
  cases run : x s with
  | ok a t =>
    rw [after_bind_of_ok run, after_of_ok run]
    exact same a t
  | error failure t => rw [after_bind_of_error run, after_of_error run]

end Session

namespace Command

theorem sameNames_edit {α : Type} (ref : Ref .command) (edit : ArgumentList.Edit α) :
    Respects Session.SameNames (Command.edit ref edit) :=
  respects_edit (fun _ _ _ => rfl) edit

/-- The classes that the items of a filter option look up. -/
def filterLooks (items : List GraphItem) (w : Workspace) : List FilterClass :=
  Graph.newLooks (some w.sets.next) items
    ((FilterSet.enter (.fresh FilterSet.simpleOption)).after w)

theorem names_filterSetOf (items : List GraphItem) (w : Workspace) :
    ((filterSetOf items).after w).names = w.names.settleAll (filterLooks items w) := by
  by_cases one : ∃ ref, items = [.filterSet ref]
  · obtain ⟨ref, rfl⟩ := one
    rw [filterLooks, Graph.newLooks_single]
    rfl
  · have other (ref : Ref .filterSet) : items = [.filterSet ref] → False :=
      fun same => one ⟨ref, same⟩
    have entered : FilterSet.enter (.fresh FilterSet.simpleOption) w = .ok w.sets.next
      ((FilterSet.enter (.fresh FilterSet.simpleOption)).after w) := rfl
    rw [filterSetOf.eq_2 _ other, after_bind_of_ok entered, after_bind_pure,
      FilterSet.names_start]
    rfl

theorem names_setFilters (ref : Ref .command) (items : List GraphItem) (s : Session) :
    ((setFilters ref items).after s).workspace.names =
      s.workspace.names.settleAll (filterLooks items s.workspace) := by
  rw [← names_filterSetOf, ← Session.names_work]
  refine Session.names_bind (fun filters => ?_) s
  refine .bind (Session.sameNames_work (respects_renderNow filters)) fun text => ?_
  split
  · exact .bind (Session.sameNames_work (.require _)) fun _ => sameNames_edit ref _
  · exact .pure _

end Command

/-- A call that declares a class, tags one or looks names up. `elsewhere` is anything else that goes
on in the session. -/
inductive NameCall where
  /-- Declares a class below another, perhaps with a tag. -/
  | declare (name : String) (wrapper : Option (String × String)) (parent : FilterClass)
      (given : Option String)
  | tag (cls : FilterClass) (name : String)
  | lookup (cls : FilterClass)
  | render (ref : Ref .node)
  | literal (ref : Ref .node)
  | add (ref : Ref .graph) (items : List GraphItem)
  | append (owner : Option (Ref .filterSet)) (items : List GraphItem)
  | hold (ref : Ref .filterSet) (items : List GraphItem)
  | start (ref : Ref .filterSet) (items : List GraphItem)
  | filters (ref : Ref .command) (items : List GraphItem)
  | elsewhere (action : Step Unit) (apart : Respects Session.SameNames action)

namespace NameCall

open Session (work)

def perform : NameCall → Step Unit
  | .declare name wrapper parent given => do
    let cls := FilterClass.derived (← Session.nextSerial) name wrapper parent
    if let some first := given then work (Workspace.withNames (FilterNames.tag cls first))
  | .tag cls name => work (Workspace.withNames (FilterNames.tag cls name))
  | .lookup cls => do let _ ← work (Workspace.withNames (FilterNames.lookup cls))
  | .render ref => do let _ ← work (Node.render ref)
  | .literal ref => do let _ ← work (Node.literal ref)
  | .add ref items => work (Graph.addItems ref items)
  | .append owner items => do let _ ← work (Graph.ofItems owner items)
  | .hold ref items => work (FilterSet.addItems ref items)
  | .start ref items => do let _ ← work (FilterSet.start ref items)
  | .filters ref items => Command.setFilters ref items
  | .elsewhere action _ => action

/-- The classes that a call looks up in a session. -/
def looksUp : NameCall → Session → List FilterClass
  | .lookup cls, _ => [cls]
  | .render ref, s => Node.renderLooks ref s.workspace
  | .literal ref, s => Node.literalLooks ref s.workspace
  | .add ref items, s => Graph.itemsLook ref items s.workspace
  | .append owner items, s => Graph.newLooks owner items s.workspace
  | .hold _ items, s => Graph.newLooks none items s.workspace
  | .start ref items, s => Graph.newLooks (some ref) items s.workspace
  | .filters _ items, s => Command.filterLooks items s.workspace
  | .declare _ _ _ _, _ | .tag _ _, _ | .elsewhere _ _, _ => []

/-- The tag that a call registers for a class. A class that is declared has the next serial. -/
def registers? (cls : FilterClass) : NameCall → Session → Option String
  | .declare name wrapper parent (some first), s =>
    if FilterClass.derived (s.declared + 1) name wrapper parent = cls then some first else none
  | .tag other name, _ => if other = cls then some name else none
  | _, _ => none

/-! ## The reference -/

variable (s : Session) (cls : FilterClass) (calls : List NameCall)

/-- Whether a call of a history looks up a class. -/
def looksAt (entry : Session × NameCall) : Bool := decide (cls ∈ entry.2.looksUp entry.1)

/-- Whether some call looks up a class. -/
def looked : Bool := (history perform calls s).any (looksAt cls)

/-- The last tag that a history registers for a class, or the one it has from the start. -/
def lastTag (past : List (Session × NameCall)) : Option String :=
  (past.filterMap fun entry => entry.2.registers? cls entry.1).getLast?.or
    (s.workspace.names.tags.get? cls)

/-- The calls before the first that looks up a class. -/
def beforeLook : List (Session × NameCall) :=
  (history perform calls s).takeWhile (!looksAt cls ·)

/-- The name of a class after calls: the last tag of the nearest tagged class in its line, before
the class itself is first looked up. -/
def reference : Option String := cls.lineage.findSome? (lastTag s · (beforeLook s cls calls))

variable {s cls calls}

theorem beforeLook_of_looked (before : looked s cls calls = true) (late : List NameCall) :
    beforeLook s cls (calls ++ late) = beforeLook s cls calls := by
  rw [beforeLook, history_append, List.takeWhile_append, if_neg, beforeLook]
  -- If no entry were cut off, none would look the class up.
  intro whole
  have quiet := List.takeWhile_eq_self_iff.1 ((List.takeWhile_prefix _).eq_of_length whole)
  obtain ⟨entry, mem, looks⟩ := List.any_eq_true.1 before
  have silent := quiet entry mem
  rw [looks] at silent
  cases silent

theorem beforeLook_of_unlooked (before : looked s cls calls = false) :
    beforeLook s cls calls = history perform calls s := by
  unfold looked at before
  rw [beforeLook, List.takeWhile_eq_self_iff]
  simpa using before

theorem looked_concat (call : NameCall) : looked s cls (calls ++ [call]) =
    (looked s cls calls || looksAt cls (afterEach perform calls s, call)) := by
  rw [looked, history_concat, List.any_append, List.any_cons, List.any_nil, Bool.or_false]
  rfl

/-- Only calls that look up other classes count before a class is looked up. -/
theorem beforeLook_concat (before : looked s cls calls = false) (call : NameCall) :
    beforeLook s cls (calls ++ [call]) =
      history perform calls s ++
        if looksAt cls (afterEach perform calls s, call) then []
        else [(afterEach perform calls s, call)] := by
  have quiet : ∀ entry ∈ history perform calls s, (!looksAt cls entry) = true := by
    unfold looked at before
    simpa using before
  rw [beforeLook, history_concat, List.takeWhile_append_of_pos quiet, List.takeWhile_cons]
  cases looksAt cls (afterEach perform calls s, call) with
  | true => rfl
  | false => rfl

/-! ## What a call does to names -/

theorem names_of_looksUp (call : NameCall) (quiet : ∀ cls, call.registers? cls s = none) :
    (call.perform.after s).workspace.names = s.workspace.names.settleAll (call.looksUp s) := by
  have returned {α : Type} (action : Work α) :
      ((do let _ ← work action : Step Unit).after s).workspace.names =
        (action.after s.workspace).names :=
    (congrArg (fun t : Session => t.workspace.names) (after_bind_pure _ _ s)).trans
      (Session.names_work action s)
  cases call with
  | declare name wrapper parent given =>
    cases given with
    | none => rfl
    | some first =>
      have registered := quiet (.derived (s.declared + 1) name wrapper parent)
      simp [registers?] at registered
  | tag other name =>
    have registered := quiet other
    simp [registers?] at registered
  | lookup other => exact returned _
  | render ref => exact (returned _).trans (Node.names_render ref s.workspace)
  | literal ref => exact (returned _).trans (Node.names_literal ref s.workspace)
  | add ref items =>
    exact (Session.names_work _ s).trans (Graph.names_addItems ref items s.workspace)
  | append owner items => exact (returned _).trans (Graph.names_ofItems owner items s.workspace)
  | hold ref items =>
    exact (Session.names_work _ s).trans (FilterSet.names_addItems ref items s.workspace)
  | start ref items => exact (returned _).trans (FilterSet.names_start ref items s.workspace)
  | filters ref items => exact Command.names_setFilters ref items s
  | elsewhere action apart => exact apart s

/-- A call either looks classes up or registers one tag. -/
theorem perform_cases (call : NameCall) (s : Session) :
    ((∀ cls, call.registers? cls s = none) ∧
      (call.perform.after s).workspace.names = s.workspace.names.settleAll (call.looksUp s)) ∨
    ∃ cls name, call.looksUp s = [] ∧
      (∀ other, call.registers? other s = if cls = other then some name else none) ∧
      (call.perform.after s).workspace.names =
        (FilterNames.tag cls name).after s.workspace.names := by
  by_cases quiet : ∀ cls, call.registers? cls s = none
  · exact .inl ⟨quiet, names_of_looksUp call quiet⟩
  · right
    cases call with
    | declare name wrapper parent given =>
      cases given with
      | none => exact absurd (fun _ => rfl) quiet
      | some first => exact ⟨_, first, rfl, fun _ => rfl, rfl⟩
    | tag cls name => exact ⟨cls, name, rfl, fun _ => rfl, rfl⟩
    | _ => exact absurd (fun _ => rfl) quiet

theorem tags_perform (call : NameCall) (s : Session) (cls : FilterClass) :
    (call.perform.after s).workspace.names.tags.get? cls =
      (call.registers? cls s).or (s.workspace.names.tags.get? cls) := by
  rcases perform_cases call s with ⟨quiet, names⟩ | ⟨other, name, -, registers, names⟩
  · rw [names, FilterNames.tags_settleAll, quiet, Option.none_or]
  · rw [names, FilterNames.get?_tags_tag, registers]
    split
    · rfl
    · rfl

theorem known_perform (call : NameCall) (s : Session) (cls : FilterClass) :
    (call.perform.after s).workspace.names.known.get? cls =
      if cls ∈ call.looksUp s then some (s.workspace.names.view cls)
      else s.workspace.names.known.get? cls := by
  rcases perform_cases call s with ⟨-, names⟩ | ⟨other, name, silent, -, names⟩
  · rw [names, FilterNames.get?_known_settleAll]
  · rw [names, silent, if_neg List.not_mem_nil]
    rfl

/-! ## Runs of calls -/

theorem lastTag_concat (cls : FilterClass) (past : List (Session × NameCall))
    (entry : Session × NameCall) : lastTag s cls (past ++ [entry]) =
      (entry.2.registers? cls entry.1).or (lastTag s cls past) := by
  unfold lastTag
  rw [List.filterMap_append]
  cases registered : entry.2.registers? cls entry.1 with
  | none => simp [registered]
  | some name => simp [registered]

/-- What holds of a class after calls. -/
structure Kept (s : Session) (cls : FilterClass) (calls : List NameCall)
    (names : FilterNames) : Prop where
  tags : ∀ other, names.tags.get? other = lastTag s other (history perform calls s)
  unfixed : looked s cls calls = false → names.known.get? cls = none
  fixed : looked s cls calls = true → names.known.get? cls = some (reference s cls calls)

/-- Look-ups answer from the reference. -/
theorem Kept.view {names : FilterNames} (kept : Kept s cls calls names) :
    names.view cls = reference s cls calls := by
  cases before : looked s cls calls with
  | true => rw [FilterNames.view, kept.fixed before, Option.getD_some]
  | false =>
    have tags : names.tags.get? = (lastTag s · (history perform calls s)) := funext kept.tags
    rw [FilterNames.view, kept.unfixed before, Option.getD_none, FilterNames.nearest, tags,
      reference, beforeLook_of_unlooked before]

theorem reference_of_looked (before : looked s cls calls = true) (late : List NameCall) :
    reference s cls (calls ++ late) = reference s cls calls := by
  rw [reference, beforeLook_of_looked before, reference]

/-- The first look-up of a class finds the tags of all calls before it. -/
theorem reference_of_looksAt {call : NameCall} (before : looked s cls calls = false)
    (looks : looksAt cls (afterEach perform calls s, call) = true) :
    reference s cls (calls ++ [call]) = reference s cls calls := by
  rw [reference, beforeLook_concat before, if_pos looks, List.append_nil, reference,
    beforeLook_of_unlooked before]

theorem kept_concat (kept : Kept s cls calls (afterEach perform calls s).workspace.names)
    (call : NameCall) :
    Kept s cls (calls ++ [call]) (afterEach perform (calls ++ [call]) s).workspace.names := by
  rw [afterEach_concat]
  constructor
  · intro other
    rw [tags_perform, history_concat, lastTag_concat, kept.tags]
  · intro unlooked
    rw [looked_concat, Bool.or_eq_false_iff] at unlooked
    rw [known_perform, if_neg (of_decide_eq_false unlooked.2)]
    exact kept.unfixed unlooked.1
  · intro lookedUp
    rw [looked_concat, Bool.or_eq_true] at lookedUp
    have same : reference s cls (calls ++ [call]) = reference s cls calls := by
      cases before : looked s cls calls with
      | true => exact reference_of_looked before [call]
      | false =>
        refine reference_of_looksAt before (lookedUp.resolve_left ?_)
        rw [before]
        exact Bool.false_ne_true
    rw [known_perform, kept.view, same]
    split
    · rfl
    · next other => exact kept.fixed (lookedUp.resolve_right fun looks =>
        other (of_decide_eq_true looks))

theorem kept_run (new : s.workspace.names.known = []) (cls : FilterClass)
    (calls : List NameCall) :
    Kept s cls calls (afterEach perform calls s).workspace.names := by
  induction calls using List.reverseRecOn with
  | nil =>
    refine ⟨fun _ => rfl, fun _ => ?_, ?_⟩
    · change s.workspace.names.known.get? cls = none
      rw [new]
      rfl
    · intro lookedUp
      cases lookedUp
  | append_singleton calls call ih => exact kept_concat ih call

/-- What calls and the look-ups after them say of the name of a class. -/
structure NamedOnce (s : Session) (cls : FilterClass) (calls : List NameCall) : Prop where
  lookup : (FilterNames.lookup cls).outcome (afterEach perform calls s).workspace.names =
    .ok (reference s cls calls)
  /-- A class that is added to a graph stands for its name. -/
  item : (Graph.expressionOf (.cls cls)).outcome (afterEach perform calls s).workspace =
    .ok (reference s cls calls)
  /-- A node that does not carry a name of its own is written under that of its class. -/
  node : ∀ ref node, (afterEach perform calls s).workspace.nodes.get? ref = some node →
    node.cls = cls → node.ownName = none →
      (Node.literal ref).outcome (afterEach perform calls s).workspace =
        .ok (node.literalAs (reference s cls calls)) ∧
      ∀ desk, Node.flush ⟨(afterEach perform calls s).workspace.tokens, node⟩ = .ok () desk →
        (Node.render ref).outcome (afterEach perform calls s).workspace =
          .ok (desk.node.expression (reference s cls calls))
  /-- The first look-up fixes the name, whatever is called later. -/
  fixed : looked s cls calls = true → ∀ late,
    (afterEach perform (calls ++ late) s).workspace.names.known.get? cls =
        some (reference s cls calls) ∧
      reference s cls (calls ++ late) = reference s cls calls
  /-- No look-up of another class fixes it. -/
  unfixed : looked s cls calls = false →
    (afterEach perform calls s).workspace.names.known.get? cls = none
  /-- A call that neither looks the class up nor tags its line has no effect on it. -/
  alone : ∀ call : NameCall, cls ∉ call.looksUp (afterEach perform calls s) →
    (∀ other ∈ cls.lineage, call.registers? other (afterEach perform calls s) = none) →
      (afterEach perform (calls ++ [call]) s).workspace.names.known.get? cls =
          (afterEach perform calls s).workspace.names.known.get? cls ∧
        reference s cls (calls ++ [call]) = reference s cls calls

theorem findSome?_congr {α β : Type} {f g : α → Option β} {items : List α}
    (same : ∀ item ∈ items, f item = g item) : items.findSome? f = items.findSome? g := by
  induction items with
  | nil => rfl
  | cons first rest ih =>
    obtain ⟨here, later⟩ := List.forall_mem_cons.1 same
    rw [List.findSome?_cons, List.findSome?_cons, here, ih later]

theorem reference_alone {call : NameCall}
    (other : cls ∉ call.looksUp (afterEach perform calls s))
    (untagged : ∀ k ∈ cls.lineage, call.registers? k (afterEach perform calls s) = none) :
    reference s cls (calls ++ [call]) = reference s cls calls := by
  cases before : looked s cls calls with
  | true => exact reference_of_looked before [call]
  | false =>
    have elsewhere : looksAt cls (afterEach perform calls s, call) = false := decide_eq_false other
    rw [reference, beforeLook_concat before, elsewhere, reference, beforeLook_of_unlooked before]
    apply findSome?_congr
    intro k mem
    simp only [Bool.false_eq_true, if_false]
    rw [lastTag_concat, untagged k mem, Option.none_or]

/-- **Names of classes are fixed once.** Take any class in any line of classes, and any calls that
declare classes, tag them and look names up, hidden look-ups and failed calls included, in a session
in which nothing was looked up before. Whatever asks for the name of the class is answered by the
reference: the last tag of its nearest tagged class at the moment of its own first look-up. From
then on no call changes it, and no look-up of another class fixes or changes it. -/
theorem namedOnce_of_calls {s : Session} (new : s.workspace.names.known = []) (cls : FilterClass)
    (calls : List NameCall) : NamedOnce s cls calls := by
  have kept := kept_run new cls calls
  constructor
  · exact congrArg Except.ok kept.view
  · exact congrArg Except.ok kept.view
  · intro ref node present same unnamed
    have name :
        node.nameIn (afterEach perform calls s).workspace.names = reference s cls calls := by
      rw [Node.nameIn, unnamed, Option.getD_none, same, kept.view]
    constructor
    · rw [outcome_of_ok (Node.literal_apply present), name]
    · intro desk flushed
      rw [outcome_of_ok (Node.render_of_flush present flushed), name]
  · intro lookedUp late
    have same := reference_of_looked lookedUp late
    have still : looked s cls (calls ++ late) = true := by
      unfold looked at *
      rw [history_append, List.any_append, lookedUp, Bool.true_or]
    exact ⟨same ▸ (kept_run new cls (calls ++ late)).fixed still, same⟩
  · exact kept.unfixed
  · intro call other untagged
    rw [afterEach_concat, known_perform, if_neg other]
    exact ⟨rfl, reference_alone other untagged⟩

/-- A class below one of the library's, as the first declaration makes it. -/
def thumbnail : FilterClass := .derived 1 "Thumbnail" none .scale

/-- Tags that come after a class was added to a graph. -/
def lateTags : List NameCall :=
  [.declare "Thumbnail" none .scale none, .append none [.text "fps=25", .cls thumbnail],
    .tag .scale "zscale", .tag thumbnail "thumbnail"]

/-- The class keeps the name that it had in the graph. Its parent, which nothing has looked up, has
the new tag. -/
theorem namedOnce_lateTags :
    let s := afterEach perform lateTags (.initial Settings.fromVariables)
    (FilterNames.lookup thumbnail).outcome s.workspace.names = .ok (some "scale") ∧
      (FilterNames.lookup .scale).outcome s.workspace.names = .ok (some "zscale") := by
  intro s
  have none : (Session.initial Settings.fromVariables).workspace.names.known = [] := rfl
  have below := (namedOnce_of_calls none thumbnail lateTags).lookup
  have above := (namedOnce_of_calls none .scale lateTags).lookup
  have early : reference (.initial Settings.fromVariables) thumbnail lateTags = some "scale" := by
    decide +kernel
  have late : reference (.initial Settings.fromVariables) .scale lateTags = some "zscale" := by
    decide +kernel
  rw [early] at below
  rw [late] at above
  exact ⟨below, above⟩

end NameCall

end MediaCommand
