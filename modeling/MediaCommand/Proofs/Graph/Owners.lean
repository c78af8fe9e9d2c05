import MediaCommand.Proofs.Graph.Sharing

/-!
# Owners of graphs

A graph knows the set that it was started from, to come back to it. Nothing else depends on that:
workspaces that differ in the owners of graphs at most (`Workspace.SameButOwners`) cannot be told
apart by work on graphs and sets, so a graph of items shows the same whoever owns it.
-/

namespace MediaCommand

open MediaCommand.Action

/-- The same graph, perhaps with another owner. -/
def Graph.SameButOwner (one other : Graph) : Prop := ∃ owner, other = { one with owner }

/-- Workspaces that differ in the owners of graphs at most. -/
def Workspace.SameButOwners (w u : Workspace) : Prop :=
  ∃ graphs : Store .graph Graph, u = { w with graphs } ∧
    List.Forall₂ Graph.SameButOwner w.graphs.cells graphs.cells

namespace Workspace.SameButOwners

variable {α : Type} {w u : Workspace}

theorem present (same : w.SameButOwners u) {ref : Ref .graph} {graph : Graph}
    (found : w.graphs.get? ref = some graph) :
    ∃ owner, u.graphs.get? ref = some { graph with owner } := by
  obtain ⟨graphs, rfl, related⟩ := same
  obtain ⟨_, there, owner, rfl⟩ := forall₂_getElem? related found
  exact ⟨owner, there⟩

theorem absent (same : w.SameButOwners u) {ref : Ref .graph}
    (missing : w.graphs.get? ref = none) : u.graphs.get? ref = none := by
  obtain ⟨graphs, rfl, related⟩ := same
  have beyond := List.getElem?_eq_none_iff.1 missing
  rw [related.length_eq] at beyond
  exact List.getElem?_eq_none_iff.2 beyond

/-! ## Work that owners do not matter to -/

theorem alike_eq {σ : Type} (action : Action σ α) : Alike Eq action := by
  rintro s _ rfl
  exact ⟨rfl, rfl⟩

/-- Looking up an object other than a graph. -/
theorem alike_require {object : Workspace → Option α}
    (apart : ∀ w graphs, object { w with graphs } = object w) :
    Alike SameButOwners (do requireObject (object (← get))) := by
  refine .read_bind (fun w u same => ?_) fun found => ?_
  · obtain ⟨graphs, rfl, -⟩ := same
    exact (apart w graphs).symm
  · cases found with
    | some object => exact .pure object
    | none => exact .throw .noObject

theorem alike_withNames (action : Action FilterNames α) :
    Alike SameButOwners (withNames action) := by
  refine .within (alike_eq action) ?_ ?_
  · rintro w _ ⟨graphs, rfl, -⟩
    rfl
  · rintro w _ names _ ⟨graphs, rfl, related⟩ rfl
    exact ⟨graphs, rfl, related⟩

theorem alike_run (ref : Ref .node) (edit : Node.Edit α) :
    Alike SameButOwners (Node.run ref edit) := by
  refine .bind (alike_require fun _ _ => rfl) fun node => .within (alike_eq edit) ?_ ?_
  · rintro w _ ⟨graphs, rfl, -⟩
    rfl
  · rintro w _ desk _ ⟨graphs, rfl, related⟩ rfl
    exact ⟨graphs, rfl, related⟩

theorem alike_filterName (node : Node) : Alike SameButOwners node.filterName := by
  unfold Node.filterName
  split
  · exact .pure _
  · exact alike_withNames _

theorem alike_render (ref : Ref .node) : Alike SameButOwners (Node.render ref) :=
  .bind (alike_run ref _) fun _ => .bind (alike_require fun _ _ => rfl) fun node =>
    .bind (alike_filterName node) fun _ => .pure _

/-- Reading a graph for something other than its owner. -/
theorem alike_read_bind {f : Graph → Work α} (ref : Ref .graph)
    (blind : ∀ graph owner, f { graph with owner } = f graph)
    (next : ∀ graph, Alike SameButOwners (f graph)) :
    Alike SameButOwners (Graph.read ref >>= f) := by
  intro w u same
  cases found : w.graphs.get? ref with
  | none =>
    have one : Graph.read ref w = .error .noObject w := require_of_none found
    have two : Graph.read ref u = .error .noObject u := require_of_none (same.absent found)
    rw [outcome_of_error (bind_of_error one), outcome_of_error (bind_of_error two),
      after_bind_of_error one, after_bind_of_error two]
    exact ⟨rfl, same⟩
  | some graph =>
    obtain ⟨owner, there⟩ := same.present found
    have one : Graph.read ref w = .ok graph w := require_of_some found
    have two : Graph.read ref u = .ok { graph with owner } u := require_of_some there
    have rest := next graph same
    simpa only [outcome, after, bind_of_ok one, bind_of_ok two, blind] using rest

theorem alike_currentGraphs_bind (refs : List (Ref .graph)) {f : List String → Work α}
    (next : ∀ texts, Alike SameButOwners (f texts)) :
    Alike SameButOwners (do f ((← FilterSet.currentGraphs refs).map Graph.render)) := by
  induction refs generalizing f with
  | nil => exact next []
  | cons ref rest ih =>
    simp only [FilterSet.currentGraphs, bind_assoc, pure_bind, List.map_cons]
    refine alike_read_bind ref (fun _ _ => rfl) fun graph => ?_
    exact @ih (fun texts => f (graph.render :: texts)) fun texts => next _

theorem alike_renderNow (ref : Ref .filterSet) :
    Alike SameButOwners (FilterSet.renderNow ref) := by
  refine .bind (alike_require fun _ _ => rfl) fun set => ?_
  have texts (graphs : List Graph) : set.render graphs =
      if (graphs.map Graph.render).isEmpty then ""
      else ";".intercalate ((set.split.map Split.render).toList ++ graphs.map Graph.render) := by
    rw [FilterSet.render, FilterSet.statements, List.isEmpty_map]
  simp only [texts]
  exact @alike_currentGraphs_bind _ set.graphs (fun texts => pure (if texts.isEmpty then ""
    else ";".intercalate ((set.split.map Split.render).toList ++ texts))) fun texts => .pure _

theorem alike_expressionOf (item : GraphItem) :
    Alike SameButOwners (Graph.expressionOf item) := by
  cases item with
  | nothing => exact .pure _
  | text s => exact .pure _
  | node ref => exact .bind (alike_render ref) fun _ => .pure _
  | graph ref => exact alike_read_bind ref (fun _ _ => rfl) fun _ => .pure _
  | split ref =>
    change Alike SameButOwners (do return some (← Split.read ref).render)
    exact .bind (alike_require fun _ _ => rfl) fun _ => .pure _
  | filterSet ref => exact .bind (alike_renderNow ref) fun _ => .pure _
  | cls cls => exact alike_withNames _
  | other kind => exact .throw _

/-- A change that keeps the owner. -/
theorem alike_change (ref : Ref .graph) {f : Graph → Graph}
    (keeps : ∀ graph owner, f { graph with owner } = { f graph with owner }) :
    Alike SameButOwners (Graph.change ref f) := by
  intro w u same
  have step (one other : Graph) (twin : one.SameButOwner other) :
      (f one).SameButOwner (f other) := by
    obtain ⟨owner, rfl⟩ := twin
    exact ⟨owner, keeps one owner⟩
  have left : ((Graph.change ref f).after w).SameButOwners ((Graph.change ref f).after u) := by
    rw [Graph.after_change, Graph.after_change]
    obtain ⟨graphs, rfl, related⟩ := same
    exact ⟨graphs.modify ref f, rfl, forall₂_modify step related ref.index⟩
  refine ⟨?_, left⟩
  cases found : w.graphs.get? ref with
  | none =>
    rw [outcome_of_error (Graph.change_absent found f),
      outcome_of_error (Graph.change_absent (same.absent found) f)]
  | some graph =>
    obtain ⟨owner, there⟩ := same.present found
    rw [outcome_of_ok (Graph.change_apply found f), outcome_of_ok (Graph.change_apply there f)]

theorem alike_addItems (ref : Ref .graph) (items : List GraphItem) :
    Alike SameButOwners (Graph.addItems ref items) := by
  induction items with
  | nil => exact .pure _
  | cons item rest ih =>
    refine .bind (alike_expressionOf item) fun text => ?_
    dsimp only
    split
    · exact .bind (alike_change ref fun _ _ => rfl) fun _ => ih
    · exact ih

theorem alike_addGraph (ref : Ref .filterSet) (graph : Ref .graph) :
    Alike SameButOwners (FilterSet.addGraph ref graph) := by
  refine .bind (alike_require fun _ _ => rfl) fun set => .modify ?_
  rintro w _ ⟨graphs, rfl, related⟩
  exact ⟨graphs, rfl, related⟩

end Workspace.SameButOwners

/-- What goes on with a graph of items goes on alike, whoever owns it. -/
theorem Graph.outcome_ofItems_bind {α : Type} {f : Ref .graph → Work α}
    (onward : ∀ ref, Alike Workspace.SameButOwners (f ref)) (one other : Option (Ref .filterSet))
    (items : List GraphItem) (w : Workspace) :
    (ofItems one items >>= f).outcome w = (ofItems other items >>= f).outcome w := by
  have entered (owner : Option (Ref .filterSet)) : (ofItems owner items >>= f).outcome w =
      (do addItems w.graphs.next items; f w.graphs.next : Work α).outcome
        { w with graphs := w.graphs.add (.fresh owner) } := by
    simp only [ofItems, bind_assoc, pure_bind]
    rfl
  have rest : Alike Workspace.SameButOwners
      (do addItems w.graphs.next items; f w.graphs.next) :=
    .bind (Workspace.SameButOwners.alike_addItems _ items) fun _ => onward _
  rw [entered, entered]
  have others : List.Forall₂ Graph.SameButOwner w.graphs.cells w.graphs.cells :=
    List.forall₂_same.2 fun graph _ => ⟨graph.owner, rfl⟩
  exact (rest ⟨w.graphs.add (.fresh other), rfl, List.rel_append others (.cons ⟨other, rfl⟩ .nil)⟩).1

end MediaCommand
