import MediaCommand.Proofs.Filter.Flushing
import MediaCommand.Proofs.History
import MediaCommand.Proofs.Store

/-!
# Shared nodes, graphs and sets

A graph takes nodes as the texts they have at that moment, a set takes graphs by reference. So a
graph changes only by the calls that name it (`apart_perform`), and a set shows its graphs as they
are, as long as the graphs that it names are there (`Workspace.Linked`, which every call keeps).
-/

namespace MediaCommand

open MediaCommand.Action

theorem Store.get?_modify_other {κ : ObjectKind} {α : Type} (store : Store κ α)
    {ref other : Ref κ} (differ : other ≠ ref) (f : α → α) :
    (store.modify ref f).get? other = store.get? other := by
  have apart : ref.index ≠ other.index := fun same =>
    differ (by cases ref; cases other; exact congrArg Ref.mk same.symm)
  rw [get?, get?, modify, List.getElem?_modify_ne _ _ apart]

/-! ## What work on graphs leaves alone -/

/-- Graphs were made, and at most one was changed. Sets are as they were. -/
structure Workspace.Drafts (graph : Option (Ref .graph)) (before after : Workspace) : Prop where
  others : ∀ ref object, before.graphs.get? ref = some object → graph ≠ some ref →
    after.graphs.get? ref = some object
  grow : ∀ ref, (before.graphs.get? ref).isSome → (after.graphs.get? ref).isSome
  sets : after.sets = before.sets

instance (graph : Option (Ref .graph)) : IsPreorder Workspace (Workspace.Drafts graph) where
  refl _ := ⟨fun _ _ present _ => present, fun _ present => present, rfl⟩
  trans _ _ _ first second :=
    ⟨fun ref object present differ => second.others ref object
        (first.others ref object present differ) differ,
      fun ref present => second.grow ref (first.grow ref present), second.sets.trans first.sets⟩

namespace Workspace.Drafts

variable {graph : Option (Ref .graph)} {ref : Ref .graph} {w after : Workspace}

theorem of_sameGraphs (same : w.SameGraphs after) : w.Drafts graph after where
  others _ _ present _ := same.1 ▸ present
  grow _ present := same.1 ▸ present
  sets := same.2

theorem respects_withTokens {α : Type} (action : Action Tokens α) :
    Respects (Workspace.Drafts graph) (Workspace.withTokens action) :=
  .within action fun _ _ => of_sameGraphs ⟨rfl, rfl⟩

theorem respects_change (ref : Ref .graph) (f : Graph → Graph) :
    Respects (Workspace.Drafts (some ref)) (Graph.change ref f) := by
  intro w
  rw [Graph.after_change]
  refine ⟨fun other object present differ => ?_, fun other present => ?_, rfl⟩
  · rwa [Store.get?_modify_other _ fun same => differ (congrArg some same.symm)]
  · rwa [Store.isSome_get?_modify]

theorem respects_setInputs (ref : Ref .graph) (labels : List Value) :
    Respects (Workspace.Drafts (some ref)) (Graph.setInputs ref labels) :=
  .bind (respects_withTokens _) fun _ => respects_change ref _

theorem respects_setOutput (ref : Ref .graph) (label : Value) :
    Respects (Workspace.Drafts (some ref)) (Graph.setOutput ref label) := by
  unfold Graph.setOutput
  split
  · exact .pure _
  · exact .pure _
  · exact .bind (respects_withTokens _) fun _ => respects_change ref _

theorem respects_addItems (ref : Ref .graph) (items : List GraphItem) :
    Respects (Workspace.Drafts (some ref)) (Graph.addItems ref items) := by
  induction items with
  | nil => exact .pure _
  | cons item rest ih =>
    refine .bind (.mono (sameGraphs_expressionOf item) fun _ _ => of_sameGraphs) fun text => ?_
    dsimp only
    split
    · exact .bind (respects_change ref _) fun _ => ih
    · exact ih

theorem respects_enter (fresh : Graph) :
    Respects (Workspace.Drafts graph) (Graph.enter fresh) := by
  intro w
  refine ⟨fun other object present _ => Store.get?_add_of_some present, fun other present => ?_, rfl⟩
  obtain ⟨object, present⟩ := Option.isSome_iff_exists.1 present
  exact Option.isSome_iff_exists.2 ⟨object, Store.get?_add_of_some present⟩

/-- Work on a new graph changes none of those that were there. -/
theorem respects_new {work : Ref .graph → Work Unit}
    (inside : ∀ ref, Respects (Workspace.Drafts (some ref)) (work ref)) (fresh : Graph) :
    Respects (Workspace.Drafts graph)
      (do let ref ← Graph.enter fresh; work ref; return ref) := by
  intro w
  have entered : Graph.enter fresh w = .ok w.graphs.next ((Graph.enter fresh).after w) := rfl
  have made : w.Drafts graph _ := respects_enter fresh w
  have worked := inside w.graphs.next ((Graph.enter fresh).after w)
  rw [after_bind_of_ok entered, after_bind_pure]
  refine ⟨fun other object present differ => ?_, fun other present => ?_, ?_⟩
  · refine worked.others other object (made.others other object present differ) ?_
    rintro ⟨⟩
    cases (Store.get?_next w.graphs).symm.trans present
  · exact worked.grow other (made.grow other present)
  · exact worked.sets.trans made.sets

theorem respects_ofInputs (owner : Option (Ref .filterSet)) (labels : List Value) :
    Respects (Workspace.Drafts graph) (Graph.ofInputs owner labels) :=
  respects_new (respects_setInputs · labels) _

theorem respects_ofItems (owner : Option (Ref .filterSet)) (items : List GraphItem) :
    Respects (Workspace.Drafts graph) (Graph.ofItems owner items) :=
  respects_new (respects_addItems · items) _

/-- A new graph is there when it is returned. -/
theorem isSome_new {work : Ref .graph → Work Unit} {fresh : Graph} {w next : Workspace}
    {ref : Ref .graph}
    (inside : ∀ ref, Respects (Workspace.Drafts (some ref)) (work ref))
    (made : (do let ref ← Graph.enter fresh; work ref; return ref : Work (Ref .graph)) w =
      .ok ref next) : (next.graphs.get? ref).isSome := by
  obtain ⟨_, mid, entered, made⟩ := bind_eq_ok.1 made
  cases entered
  obtain ⟨_, last, worked, made⟩ := bind_eq_ok.1 made
  cases made
  have drafts := inside w.graphs.next { w with graphs := w.graphs.add fresh }
  rw [after_of_ok worked] at drafts
  exact drafts.grow _ (by rw [Store.get?_add_next]; rfl)

end Workspace.Drafts

/-- At most one graph and one set were changed. -/
structure Workspace.Apart (graph : Option (Ref .graph)) (set : Option (Ref .filterSet))
    (before after : Workspace) : Prop where
  graphs : ∀ ref object, before.graphs.get? ref = some object → graph ≠ some ref →
    after.graphs.get? ref = some object
  sets : ∀ ref object, before.sets.get? ref = some object → set ≠ some ref →
    after.sets.get? ref = some object

instance (graph : Option (Ref .graph)) (set : Option (Ref .filterSet)) :
    IsPreorder Workspace (Workspace.Apart graph set) where
  refl _ := ⟨fun _ _ present _ => present, fun _ _ present _ => present⟩
  trans _ _ _ first second :=
    ⟨fun ref object present differ => second.graphs ref object
        (first.graphs ref object present differ) differ,
      fun ref object present differ => second.sets ref object
        (first.sets ref object present differ) differ⟩

namespace Workspace.Apart

variable {graph : Option (Ref .graph)} {set : Option (Ref .filterSet)} {w after : Workspace}

theorem of_drafts (drafts : w.Drafts graph after) : w.Apart graph set after :=
  ⟨drafts.others, fun _ _ present _ => drafts.sets ▸ present⟩

theorem respects_enter (fresh : FilterSet) :
    Respects (Workspace.Apart graph set) (FilterSet.enter fresh) := fun _ =>
  ⟨fun _ _ present _ => present, fun _ _ present _ => Store.get?_add_of_some present⟩

theorem respects_ofOption (option : Value) :
    Respects (Workspace.Apart graph set) (FilterSet.ofOption option) := by
  cases option with
  | text option => exact respects_enter _
  | _ => exact .throw _

theorem respects_change (ref : Ref .filterSet) (f : FilterSet → FilterSet) :
    Respects (Workspace.Apart graph (some ref)) (FilterSet.change ref f) := by
  intro w
  rw [FilterSet.after_change]
  refine ⟨fun _ _ present _ => present, fun other object present differ => ?_⟩
  rwa [Store.get?_modify_other _ fun same => differ (congrArg some same.symm)]

theorem respects_setSplit (ref : Ref .filterSet) (labels : List Value) :
    Respects (Workspace.Apart graph (some ref)) (FilterSet.setSplit ref labels) := by
  unfold FilterSet.setSplit
  dsimp only
  split
  · exact .bind (.throw _) fun _ => .bind (.mono (.respects_withTokens _) fun _ _ => of_drafts)
      fun _ => respects_change ref _
  · exact .bind (.mono (.respects_withTokens _) fun _ _ => of_drafts) fun _ => respects_change ref _

/-- A set takes a new graph. -/
theorem respects_hold {made : Work (Ref .graph)}
    (drafts : Respects (Workspace.Drafts graph) made) (ref : Ref .filterSet) :
    Respects (Workspace.Apart graph (some ref)) (do FilterSet.addGraph ref (← made)) :=
  .bind (drafts.mono fun _ _ => of_drafts) fun _ => respects_change ref _

theorem respects_start {made : Work (Ref .graph)}
    (drafts : Respects (Workspace.Drafts graph) made) (ref : Ref .filterSet) :
    Respects (Workspace.Apart graph (some ref))
      (do let graph ← made; FilterSet.addGraph ref graph; return graph) :=
  .bind (drafts.mono fun _ _ => of_drafts) fun _ => .bind (respects_change ref _) fun _ => .pure _

theorem respects_addItems (ref : Ref .filterSet) (items : List GraphItem) :
    Respects (Workspace.Apart graph (some ref)) (FilterSet.addItems ref items) := by
  unfold FilterSet.addItems
  split
  · exact respects_change ref _
  · exact .throw _
  · exact respects_hold (Drafts.respects_ofItems none _) ref

end Workspace.Apart

/-! ## Calls -/

namespace GraphCall

/-- The graph that a call changes. -/
def graph? : GraphCall → Option (Ref .graph)
  | .inputs ref _ | .add ref _ | .output ref _ => some ref
  | _ => none

/-- The set that a call changes. -/
def set? : GraphCall → Option (Ref .filterSet)
  | .split ref _ | .hold ref _ | .startFrom ref _ | .start ref _ => some ref
  | _ => none

/-- A graph that a set is to hold must be there. -/
def Known (w : Workspace) : GraphCall → Prop
  | .hold _ [.graph held] => (w.graphs.get? held).isSome
  | _ => True

/-- Whether a call works on graphs alone. -/
def drafts : GraphCall → Bool
  | .graph _ | .stream _ | .append _ | .inputs .. | .add .. | .output .. | .elsewhere .. => true
  | _ => false

theorem drafts_perform {call : GraphCall} (drafts : call.drafts = true) :
    Respects (Workspace.Drafts call.graph?) call.perform := by
  cases call with
  | graph owner => exact .bind (Workspace.Drafts.respects_enter _) fun _ => .pure _
  | stream labels => exact .bind (Workspace.Drafts.respects_ofInputs none labels) fun _ => .pure _
  | append items => exact .bind (Workspace.Drafts.respects_ofItems none items) fun _ => .pure _
  | inputs ref labels => exact Workspace.Drafts.respects_setInputs ref labels
  | add ref items => exact Workspace.Drafts.respects_addItems ref items
  | output ref label => exact Workspace.Drafts.respects_setOutput ref label
  | elsewhere action other => exact other.mono fun _ _ => Workspace.Drafts.of_sameGraphs
  | _ => cases drafts

/-- A call changes no other graph and no other set than it names. -/
theorem apart_perform (call : GraphCall) :
    Respects (Workspace.Apart call.graph? call.set?) call.perform := by
  cases call with
  | set option => exact .bind (Workspace.Apart.respects_ofOption option) fun _ => .pure _
  | define option =>
    refine .bind ?_ fun _ => .pure _
    unfold FilterSet.define
    split
    · exact Workspace.Apart.respects_ofOption option
    · exact .throw _
  | split ref labels => exact Workspace.Apart.respects_setSplit ref labels
  | hold ref items => exact Workspace.Apart.respects_addItems ref items
  | startFrom ref labels =>
    exact .bind (Workspace.Apart.respects_start (Workspace.Drafts.respects_ofInputs _ labels) ref)
      fun _ => .pure _
  | start ref items =>
    exact .bind (Workspace.Apart.respects_start (Workspace.Drafts.respects_ofItems _ items) ref)
      fun _ => .pure _
  | graph | stream | append | inputs | add | output | elsewhere =>
    exact (drafts_perform rfl).mono fun _ _ => Workspace.Apart.of_drafts

end GraphCall

/-! ## Sets and their graphs -/

/-- Every graph that a set names is there. -/
def Workspace.Linked (w : Workspace) : Prop :=
  ∀ ref set, w.sets.get? ref = some set → ∀ graph ∈ set.graphs, (w.graphs.get? graph).isSome

namespace Workspace.Linked

variable {w after : Workspace}

theorem of_drafts {graph : Option (Ref .graph)} (linked : w.Linked)
    (drafts : w.Drafts graph after) : after.Linked := by
  intro ref set present held mem
  rw [drafts.sets] at present
  exact drafts.grow held (linked ref set present held mem)

theorem of_sameGraphs (linked : w.Linked) (same : w.SameGraphs after) : after.Linked := by
  have drafts : w.Drafts none after := .of_sameGraphs same
  exact linked.of_drafts drafts

/-- Sets may change if they name no other graphs than those that are there. -/
theorem change (linked : w.Linked) (ref : Ref .filterSet) {f : FilterSet → FilterSet}
    (known : ∀ set, ∀ graph ∈ (f set).graphs, graph ∈ set.graphs ∨ (w.graphs.get? graph).isSome) :
    ((FilterSet.change ref f).after w).Linked := by
  rw [FilterSet.after_change]
  intro other set present held mem
  by_cases here : other = ref
  · subst here
    obtain ⟨old, was, rfl⟩ : ∃ old, w.sets.get? other = some old ∧ f old = set := by
      have found := present
      rw [Store.get?, Store.modify, List.getElem?_modify_eq, Option.map_eq_map,
        Option.map_eq_some_iff] at found
      exact found
    exact (known old held mem).elim (linked other old was held) id
  · rw [Store.get?_modify_other _ here] at present
    exact linked other set present held mem

theorem addGraph (linked : w.Linked) (ref : Ref .filterSet) {graph : Ref .graph}
    (present : (w.graphs.get? graph).isSome) : ((FilterSet.addGraph ref graph).after w).Linked := by
  apply linked.change ref
  intro set held mem
  rcases List.mem_append.1 mem with old | new
  · exact .inl old
  · rw [List.mem_singleton.1 new]
    exact .inr present

theorem enter (linked : w.Linked) (option : String) :
    ((FilterSet.enter (.fresh option)).after w).Linked := by
  intro ref set present held mem
  have found : (w.sets.cells ++ [FilterSet.fresh option])[ref.index]? = some set := present
  rw [List.getElem?_append] at found
  split at found
  · exact linked ref set found held mem
  · have empty : set = .fresh option :=
      List.mem_singleton.1 (List.mem_of_getElem? found)
    rw [empty] at mem
    cases mem

theorem bind {α β : Type} {x : Work α} {f : α → Work β} {graph : Option (Ref .graph)}
    (linked : w.Linked) (drafts : w.Drafts graph (x.after w))
    (next : ∀ a mid, x w = .ok a mid → mid.Linked → ((f a).after mid).Linked) :
    ((x >>= f).after w).Linked := by
  have drafted := linked.of_drafts drafts
  cases run : x w with
  | ok a mid =>
    rw [after_of_ok run] at drafted
    rw [after_bind_of_ok run]
    exact next a mid run drafted
  | error failure mid =>
    rw [after_of_error run] at drafted
    rwa [after_bind_of_error run]

/-- A set takes a new graph. -/
theorem hold {made : Work (Ref .graph)} (linked : w.Linked) (drafts : w.Drafts none (made.after w))
    (present : ∀ graph mid, made w = .ok graph mid → (mid.graphs.get? graph).isSome)
    (ref : Ref .filterSet) : ((do FilterSet.addGraph ref (← made)).after w).Linked :=
  linked.bind drafts fun graph mid run drafted => drafted.addGraph ref (present graph mid run)

theorem setSplit (linked : w.Linked) (ref : Ref .filterSet) (labels : List Value) :
    ((FilterSet.setSplit ref labels).after w).Linked := by
  unfold FilterSet.setSplit
  dsimp only
  split
  · exact linked
  · exact linked.bind (Drafts.respects_withTokens _ w : w.Drafts none _) fun split mid _ drafted =>
      drafted.change ref fun _ _ mem => .inl mem

end Workspace.Linked

namespace GraphCall

variable {w : Workspace}

theorem linked_ofOption (linked : w.Linked) (option : Value) :
    ((FilterSet.ofOption option).after w).Linked := by
  cases option with
  | text option => exact linked.enter option
  | _ => exact linked

/-- Sets name graphs that are there after every call, too. -/
theorem linked_perform (linked : w.Linked) {call : GraphCall} (known : call.Known w) :
    (call.perform.after w).Linked := by
  cases call with
  | set option =>
    rw [perform, after_bind_pure]
    exact linked_ofOption linked option
  | define option =>
    rw [perform, after_bind_pure, FilterSet.define]
    split
    · exact linked_ofOption linked option
    · exact linked
  | split ref labels => exact linked.setSplit ref labels
  | hold ref items =>
    rw [perform]
    unfold FilterSet.addItems
    split
    · exact linked.addGraph ref known
    · exact linked
    · exact linked.hold (Workspace.Drafts.respects_ofItems none _ w)
        (fun _ _ => Workspace.Drafts.isSome_new (Workspace.Drafts.respects_addItems · _)) ref
  | startFrom ref labels =>
    rw [perform, after_bind_pure, FilterSet.startFrom,
      after_bind_congr fun graph w => after_bind_pure _ _ w]
    exact linked.hold (Workspace.Drafts.respects_ofInputs _ labels w)
      (fun _ _ => Workspace.Drafts.isSome_new (Workspace.Drafts.respects_setInputs · labels)) ref
  | start ref items =>
    rw [perform, after_bind_pure, FilterSet.start,
      after_bind_congr fun graph w => after_bind_pure _ _ w]
    exact linked.hold (Workspace.Drafts.respects_ofItems _ items w)
      (fun _ _ => Workspace.Drafts.isSome_new (Workspace.Drafts.respects_addItems · items)) ref
  | graph | stream | append | inputs | add | output | elsewhere =>
    exact linked.of_drafts (drafts_perform rfl w)

end GraphCall

/-! ## Runs -/

/-- A call on shared objects: one that makes a node, works on it in any way, renders it or describes
it, or one on graphs and sets. -/
inductive SharedCall where
  | make (build : Action Tokens Node)
  | work (ref : Ref .node) (edit : Node.Edit Unit)
  | render (ref : Ref .node)
  | describe (ref : Ref .node)
  | graphs (call : GraphCall)

namespace SharedCall

def perform : SharedCall → Work Unit
  | .make build => do let _ ← Node.enter build
  | .work ref edit => Node.run ref edit
  | .render ref => do let _ ← Node.render ref
  | .describe ref => do let _ ← Node.literal ref
  | .graphs call => call.perform

/-- Whether a call is one on nodes. -/
def onNodes : SharedCall → Bool
  | .graphs _ => false
  | _ => true

/-- The graph that a call changes. -/
def graph? : SharedCall → Option (Ref .graph)
  | .graphs call => call.graph?
  | _ => none

/-- The set that a call changes. -/
def set? : SharedCall → Option (Ref .filterSet)
  | .graphs call => call.set?
  | _ => none

/-- A graph that a set is to hold must be there. -/
def Known (w : Workspace) : SharedCall → Prop
  | .graphs call => call.Known w
  | _ => True

/-- No call on nodes changes a graph or a set. -/
theorem sameGraphs_perform {call : SharedCall} (nodes : call.onNodes = true) :
    Respects Workspace.SameGraphs call.perform := by
  cases call with
  | make build =>
    refine .bind ?_ fun _ => .pure _
    refine .bind (.within build fun _ _ => ⟨rfl, rfl⟩) fun node => ?_
    exact .get_bind fun w => ⟨rfl, rfl⟩
  | work ref edit => exact sameGraphs_run ref edit
  | render ref => exact .bind (sameGraphs_render ref) fun _ => .pure _
  | describe ref =>
    refine .bind ?_ fun _ => .pure _
    exact .bind (.require _) fun node => .bind (sameGraphs_filterName node) fun _ => .pure _
  | graphs call => cases nodes

theorem apart_perform (call : SharedCall) :
    Respects (Workspace.Apart call.graph? call.set?) call.perform := by
  cases call with
  | graphs call => exact call.apart_perform
  | _ => exact (sameGraphs_perform rfl).mono fun _ _ same => .of_drafts (.of_sameGraphs same)

theorem linked_perform {w : Workspace} (linked : w.Linked) {call : SharedCall}
    (known : call.Known w) : (call.perform.after w).Linked := by
  cases call with
  | graphs call => exact GraphCall.linked_perform linked known
  | _ => exact linked.of_sameGraphs (sameGraphs_perform rfl w)

end SharedCall

/-- A workspace that calls on shared objects lead to, those that fail included. -/
inductive Workspace.Reached : Workspace → Prop where
  | initial : Reached .initial
  | call {w : Workspace} (call : SharedCall) (known : call.Known w) (before : Reached w) :
      Reached (call.perform.after w)

theorem Workspace.linked_initial : Workspace.initial.Linked := by
  intro ref set present
  cases present

theorem Workspace.Reached.linked {w : Workspace} (reached : w.Reached) : w.Linked := by
  induction reached with
  | initial => exact linked_initial
  | call call known before ih => exact SharedCall.linked_perform ih known

namespace SharedCall

variable {w : Workspace}

/-- A graph stays as it is through calls that do not name it. -/
theorem graph_kept {calls : List SharedCall} {ref : Ref .graph} {graph : Graph}
    (present : w.graphs.get? ref = some graph) (apart : ∀ call ∈ calls, call.graph? ≠ some ref) :
    (afterEach perform calls w).graphs.get? ref = some graph := by
  induction calls generalizing w with
  | nil => exact present
  | cons call rest ih =>
    obtain ⟨first, others⟩ := List.forall_mem_cons.1 apart
    exact ih ((apart_perform call w).graphs ref graph present first) others

/-- And so does a set, which names the same graphs then. -/
theorem set_kept {calls : List SharedCall} {ref : Ref .filterSet} {set : FilterSet}
    (present : w.sets.get? ref = some set) (apart : ∀ call ∈ calls, call.set? ≠ some ref) :
    (afterEach perform calls w).sets.get? ref = some set := by
  induction calls generalizing w with
  | nil => exact present
  | cons call rest ih =>
    obtain ⟨first, others⟩ := List.forall_mem_cons.1 apart
    exact ih ((apart_perform call w).sets ref set present first) others

end SharedCall

/-! ## What is shown -/

/-- The text of a graph as it is. -/
def Workspace.output (w : Workspace) (ref : Ref .graph) : String :=
  (w.graphs.get? ref).elim "" Graph.render

theorem Workspace.output_congr {w u : Workspace} {ref : Ref .graph}
    (same : u.graphs.get? ref = w.graphs.get? ref) : u.output ref = w.output ref :=
  congrArg (·.elim "" Graph.render) same

/-- The text of a set with a text for each of its graphs. -/
def FilterSet.showing (set : FilterSet) (output : Ref .graph → String) : String :=
  if set.graphs.isEmpty then ""
  else ";".intercalate ((set.split.map Split.render).toList ++ set.graphs.map output)

namespace FilterSet

variable {w : Workspace} {ref : Ref .filterSet} {set : FilterSet}

theorem currentGraphs_apply {refs : List (Ref .graph)}
    (there : ∀ graph ∈ refs, (w.graphs.get? graph).isSome) :
    ∃ graphs, currentGraphs refs w = .ok graphs w ∧ graphs.map Graph.render = refs.map w.output := by
  induction refs with
  | nil => exact ⟨[], rfl, rfl⟩
  | cons ref rest ih =>
    obtain ⟨first, others⟩ := List.forall_mem_cons.1 there
    obtain ⟨graph, found⟩ := Option.isSome_iff_exists.1 first
    obtain ⟨graphs, current, texts⟩ := ih others
    have read : Graph.read ref w = .ok graph w := require_of_some found
    refine ⟨graph :: graphs, ?_, ?_⟩
    · rw [currentGraphs, bind_of_ok read, bind_of_ok current, pure_apply]
    · rw [List.map_cons, List.map_cons, texts, Workspace.output, found, Option.elim]

/-- A set shows each of its graphs as it is, and nothing changes by it. -/
theorem renderNow_apply (present : w.sets.get? ref = some set)
    (there : ∀ graph ∈ set.graphs, (w.graphs.get? graph).isSome) :
    renderNow ref w = .ok (set.showing w.output) w := by
  obtain ⟨graphs, current, texts⟩ := currentGraphs_apply there
  have read : FilterSet.read ref w = .ok set w := require_of_some present
  have empty : graphs.isEmpty = set.graphs.isEmpty := by
    have lengths := congrArg List.length texts
    rw [List.length_map, List.length_map] at lengths
    rw [Bool.eq_iff_iff, List.isEmpty_iff_length_eq_zero, List.isEmpty_iff_length_eq_zero, lengths]
  rw [renderNow, bind_of_ok read, bind_of_ok current, pure_apply, FilterSet.render, statements,
    texts, showing, empty]

/-- What a set shows depends on its own graphs alone. -/
theorem showing_congr {one two : Ref .graph → String}
    (same : ∀ graph ∈ set.graphs, one graph = two graph) : set.showing one = set.showing two := by
  rw [showing, showing, List.map_congr_left same]

/-- A set shows the same text where it and its graphs are the same. -/
theorem outcome_renderNow_congr (linked : w.Linked) {u : Workspace}
    (sets : u.sets.get? ref = w.sets.get? ref)
    (graphs : ∀ set, w.sets.get? ref = some set → ∀ graph ∈ set.graphs,
      u.graphs.get? graph = w.graphs.get? graph) :
    (renderNow ref).outcome u = (renderNow ref).outcome w := by
  cases present : w.sets.get? ref with
  | none =>
    have missing (v : Workspace) (absent : v.sets.get? ref = none) :
        (renderNow ref).outcome v = .error .noObject :=
      outcome_of_error (bind_of_error (require_of_none absent))
    rw [missing w present, missing u (sets.trans present)]
  | some set =>
    have there := linked ref set present
    have still : ∀ graph ∈ set.graphs, (u.graphs.get? graph).isSome := by
      intro graph mem
      rw [graphs set present graph mem]
      exact there graph mem
    have shown : set.showing u.output = set.showing w.output :=
      showing_congr fun graph mem => Workspace.output_congr (graphs set present graph mem)
    rw [outcome_of_ok (renderNow_apply (sets.trans present) still),
      outcome_of_ok (renderNow_apply present there), shown]

end FilterSet

/-! ## Looking at graphs and sets -/

/-- Nodes as they were. -/
def Workspace.SameNodes (before after : Workspace) : Prop := after.nodes = before.nodes

instance : IsPreorder Workspace Workspace.SameNodes where
  refl _ := rfl
  trans _ _ _ first second := Eq.trans second first

namespace Graph

variable {w : Workspace}

theorem sameNodes_filterName (node : Node) : Respects Workspace.SameNodes node.filterName := by
  unfold Node.filterName
  split
  · exact .pure _
  · exact .within _ fun _ _ => rfl

theorem sameNodes_change (ref : Ref .graph) (f : Graph → Graph) :
    Respects Workspace.SameNodes (change ref f) := by
  intro w
  rw [after_change]
  rfl

/-- Rendering a node does to nodes what flushing it does. -/
theorem nodes_render (ref : Ref .node) (w : Workspace) :
    ((Node.render ref).after w).nodes = ((Node.run ref Node.flush).after w).nodes := by
  cases run : Node.run ref Node.flush w with
  | error failure mid =>
    rw [after_of_error run, Node.render, after_bind_of_error run]
  | ok _ mid =>
    rw [after_of_ok run, Node.render, after_bind_of_ok run]
    have rest : Respects Workspace.SameNodes (do
        let node ← Node.read ref
        return node.expression (← node.filterName)) :=
      .bind (.require _) fun node => .bind (sameNodes_filterName node) fun _ => .pure _
    exact rest mid

/-- So does adding the node to a graph. -/
theorem nodes_addItems (graph : Ref .graph) (ref : Ref .node) (w : Workspace) :
    ((addItems graph [.node ref]).after w).nodes = ((Node.run ref Node.flush).after w).nodes := by
  rw [← nodes_render]
  have expressed : (expressionOf (.node ref)).after w = (Node.render ref).after w :=
    after_bind_pure (Node.render ref) some w
  rw [← expressed, addItems]
  cases had : expressionOf (.node ref) w with
  | error failure mid => rw [after_bind_of_error had, after_of_error had]
  | ok text mid =>
    rw [after_bind_of_ok had, after_of_ok had]
    dsimp only
    split
    · exact Respects.bind (sameNodes_change graph _) (fun _ => .pure _) mid
    · rfl

end Graph

namespace SharedCall

variable {w : Workspace}

/-- A set shows the same text through calls that name neither it nor one of its graphs. -/
theorem shows_kept (linked : w.Linked) {calls : List SharedCall} {ref : Ref .filterSet}
    {set : FilterSet} (present : w.sets.get? ref = some set)
    (apart : ∀ call ∈ calls, call.set? ≠ some ref)
    (others : ∀ graph ∈ set.graphs, ∀ call ∈ calls, call.graph? ≠ some graph) :
    (FilterSet.renderNow ref).outcome (afterEach perform calls w) =
      (FilterSet.renderNow ref).outcome w := by
  refine FilterSet.outcome_renderNow_congr linked ?_ fun known found graph mem => ?_
  · rw [present]
    exact set_kept present apart
  · cases present.symm.trans found
    obtain ⟨object, there⟩ := Option.isSome_iff_exists.1 (linked ref set present graph mem)
    rw [there]
    exact graph_kept there (others graph mem)

theorem drafts_of_graph? {call : SharedCall} {graph : Ref .graph}
    (named : call.graph? = some graph) : Respects (Workspace.Drafts (some graph)) call.perform := by
  cases call with
  | graphs call =>
    have drafts : call.drafts = true := by
      cases call with
      | inputs | add | output => rfl
      | _ => cases named
    have performed := call.drafts_perform drafts
    rwa [show call.graph? = some graph from named] at performed
  | _ => cases named

/-- A set shows a graph as a call on it has left it, and its other graphs as they were. -/
theorem shows_changed (linked : w.Linked) {call : SharedCall} {graph : Ref .graph}
    (named : call.graph? = some graph) {ref : Ref .filterSet} {set : FilterSet}
    (present : w.sets.get? ref = some set) :
    FilterSet.renderNow ref (call.perform.after w) =
      .ok (set.showing fun held =>
          if held = graph then (call.perform.after w).output graph else w.output held)
        (call.perform.after w) := by
  have drafts := drafts_of_graph? named w
  have there := linked ref set present
  have kept : (call.perform.after w).sets.get? ref = some set := drafts.sets ▸ present
  rw [FilterSet.renderNow_apply kept fun held mem => drafts.grow held (there held mem)]
  congr 1
  apply FilterSet.showing_congr
  intro held mem
  by_cases here : held = graph
  · rw [if_pos here, here]
  · obtain ⟨object, found⟩ := Option.isSome_iff_exists.1 (there held mem)
    rw [if_neg here]
    apply Workspace.output_congr
    rw [found]
    exact drafts.others held object found fun same => here (Option.some.inj same).symm

end SharedCall

/-- **Nodes are captured, graphs are shared.** Take a workspace that any calls on nodes, graphs and
sets have led to.

A call on nodes leaves all graphs and sets as they are. Through any further calls a graph stays as
it is until one names it, and a set until one names the set; if none names one of its graphs either,
the set shows the same text.

After a call on a graph every set shows the graph as it then is, at each place where it holds it,
and its other graphs as they were.

Rendering a graph or a set changes nothing at all. Adding a node to a graph does to nodes just what
flushing that node does, and adding any items does no more than flush the nodes among them. -/
theorem nodes_captured_graphs_shared {w : Workspace} (reached : w.Reached) :
    (∀ call : SharedCall, call.onNodes = true → w.SameGraphs (call.perform.after w)) ∧
    (∀ calls : List SharedCall,
      let after := afterEach SharedCall.perform calls w
      (∀ ref graph, w.graphs.get? ref = some graph → (∀ call ∈ calls, call.graph? ≠ some ref) →
        after.graphs.get? ref = some graph) ∧
      ∀ ref set, w.sets.get? ref = some set → (∀ call ∈ calls, call.set? ≠ some ref) →
        after.sets.get? ref = some set ∧
        ((∀ graph ∈ set.graphs, ∀ call ∈ calls, call.graph? ≠ some graph) →
          (FilterSet.renderNow ref).outcome after = (FilterSet.renderNow ref).outcome w)) ∧
    (∀ (call : SharedCall) (graph : Ref .graph), call.graph? = some graph →
      let after := call.perform.after w
      after.sets = w.sets ∧
      ∀ ref set, w.sets.get? ref = some set →
        FilterSet.renderNow ref after =
          .ok (set.showing fun held => if held = graph then after.output graph else w.output held)
            after) ∧
    ((∀ graph, (do return (← Graph.read graph).render : Work String).after w = w) ∧
      ∀ set, (FilterSet.renderNow set).after w = w) ∧
    ∀ graph : Ref .graph,
      (∀ ref, ((Graph.addItems graph [.node ref]).after w).nodes =
        ((Node.run ref Node.flush).after w).nodes) ∧
      ∀ items, w.OnlyFlushes (fun ref => .node ref ∈ items) ((Graph.addItems graph items).after w) := by
  have linked := reached.linked
  refine ⟨?_, ?_, ?_, ⟨?_, ?_⟩, ?_⟩
  · intro call nodes
    exact SharedCall.sameGraphs_perform nodes w
  · intro calls after
    refine ⟨fun ref graph => SharedCall.graph_kept, fun ref set present apart => ?_⟩
    exact ⟨SharedCall.set_kept present apart, SharedCall.shows_kept linked present apart⟩
  · intro call graph named after
    refine ⟨(SharedCall.drafts_of_graph? named w).sets, fun ref set present => ?_⟩
    exact SharedCall.shows_changed linked named present
  · intro graph
    rw [after_bind_pure]
    exact (Respects.require (R := Eq) _ w).symm
  · intro set
    exact (respects_renderNow (R := Eq) set w).symm
  · intro graph
    refine ⟨fun ref => Graph.nodes_addItems graph ref w, fun items => ?_⟩
    exact Workspace.OnlyFlushes.respects_addItems graph (fun _ mem => mem) w

/-- A run in which each call finds the graphs that it names. -/
theorem Workspace.Reached.run {w : Workspace} (reached : w.Reached) {calls : List SharedCall}
    (known : ∀ found ∈ history SharedCall.perform calls w, found.2.Known found.1) :
    (afterEach SharedCall.perform calls w).Reached := by
  induction calls generalizing w with
  | nil => exact reached
  | cons call rest ih =>
    obtain ⟨first, others⟩ := List.forall_mem_cons.1 known
    exact ih (.call call first reached) others

/-- A node in a graph that one set holds twice, and another set once. -/
def doubled : List SharedCall :=
  [.make (pure (.freshNamed .custom (some "f") ":")), .graphs (.append [.node ⟨0⟩]),
    .graphs (.set (.text "vf")), .graphs (.set (.text "filter_complex")),
    .graphs (.hold ⟨0⟩ [.graph ⟨0⟩]), .graphs (.hold ⟨0⟩ [.graph ⟨0⟩]),
    .graphs (.hold ⟨1⟩ [.graph ⟨0⟩])]

/-- What is done to the node later does not show, what is done to the graph shows at each place. -/
theorem nodes_captured_graphs_doubled :
    let w := afterEach SharedCall.perform doubled .initial
    let worked := (SharedCall.work ⟨0⟩ (Node.addNamed "k" (.int 1))).perform.after w
    let grown := (SharedCall.graphs (.add ⟨0⟩ [.text "g"])).perform.after w
    w.SameGraphs worked ∧
      (FilterSet.renderNow ⟨0⟩).outcome w = .ok "f;f" ∧
      FilterSet.renderNow ⟨0⟩ grown = .ok "f,g;f,g" grown ∧
      FilterSet.renderNow ⟨1⟩ grown = .ok "f,g" grown := by
  intro w worked grown
  have reached : w.Reached := by
    refine Workspace.Reached.initial.run ?_
    simp only [doubled, history, List.forall_mem_cons]
    exact ⟨trivial, trivial, trivial, trivial, rfl, rfl, rfl, List.forall_mem_nil _⟩
  obtain ⟨captured, -, shared, -, -⟩ := nodes_captured_graphs_shared reached
  obtain ⟨-, shown⟩ := shared (.graphs (.add ⟨0⟩ [.text "g"])) ⟨0⟩ rfl
  exact ⟨captured (.work ⟨0⟩ (Node.addNamed "k" (.int 1))) rfl, rfl, shown ⟨0⟩ _ rfl, shown ⟨1⟩ _ rfl⟩

end MediaCommand
