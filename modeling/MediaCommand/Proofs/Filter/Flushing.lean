import MediaCommand.Proofs.Filter.Looking

/-!
# Flushes of nodes

Looking at nodes flushes them. What a flush leaves of a node depends on nothing but the texts of
tokens, and a second flush does nothing (`flushedIn_flushedIn`), so in whatever order nodes are
looked at, each is as it was or as its own flush leaves it (`Workspace.OnlyFlushes`).
-/

namespace MediaCommand

open MediaCommand.Action

namespace Node

/-! ## One node -/

/-- Desks with one node, whose tokens look the same. -/
def Desk.Matches (d e : Desk) : Prop := d.tokens.Agrees e.tokens ∧ d.node = e.node

theorem alike_change (f : Node → Node) : Alike Desk.Matches (change f) :=
  .modify fun _ _ related => ⟨related.1, congrArg f related.2⟩

theorem alike_storeAll (values : List Value) : Alike Desk.Matches (storeAll values) := by
  induction values with
  | nil => exact .pure _
  | cons value rest ih =>
    refine .bind ?_ fun text => .bind (alike_change _) fun _ => ih
    exact .within (Tokens.looksUp_normalize value).alike (fun _ _ related => related.1)
      fun _ _ _ _ related left => ⟨left, related.2⟩

/-- A flush of a node as it is found. -/
def flushFrom (node : Node) : Edit Unit :=
  match node.phase with
  | .flushed => return
  | .buffering => do
    change fun node => { node with phase := .flushed, base := [] }
    storeAll (node.base.map (·.2))

theorem flush_eq : flush = (do flushFrom (← get).node) := rfl

theorem alike_flush : Alike Desk.Matches flush := by
  rw [flush_eq]
  refine .read_bind (fun _ _ related => related.2) fun node => ?_
  unfold flushFrom
  split
  · exact .pure _
  · exact .bind (alike_change _) fun _ => alike_storeAll _

/-- Tokens look the same, and a flushed node stays so. -/
structure Desk.Settles (d e : Desk) : Prop where
  tokens : d.tokens.Agrees e.tokens
  phase : d.node.phase = .flushed → e.node.phase = .flushed

instance : IsPreorder Desk Desk.Settles where
  refl d := ⟨refl d.tokens, id⟩
  trans _ _ _ first second :=
    ⟨first.tokens.trans second.tokens, fun flushed => second.phase (first.phase flushed)⟩

theorem settles_storeAll (values : List Value) : Respects Desk.Settles (storeAll values) := by
  induction values with
  | nil => exact .pure _
  | cons value rest ih =>
    refine .bind ?_ fun text => .bind (.modify fun d => ⟨refl d.tokens, id⟩) fun _ => ih
    exact .within_of (Tokens.looksUp_normalize value).respects fun _ _ agree => ⟨agree, id⟩

/-- The node after its flush. -/
def flushedIn (tokens : Tokens) (node : Node) : Node := (flush.after ⟨tokens, node⟩).node

theorem flushedIn_agrees {tokens others : Tokens} (agree : tokens.Agrees others) (node : Node) :
    node.flushedIn tokens = node.flushedIn others :=
  (@alike_flush ⟨tokens, node⟩ ⟨others, node⟩ ⟨agree, rfl⟩).2.2

theorem flushedIn_flushed {node : Node} (flushed : node.phase = .flushed) (tokens : Tokens) :
    node.flushedIn tokens = node := by
  rw [flushedIn, after_of_ok (NodeCall.flush_flushed (d := ⟨tokens, node⟩) flushed)]

/-- However it ends, a flush leaves a flushed node. -/
theorem settles_flush (d : Desk) :
    d.tokens.Agrees (flush.after d).tokens ∧ (flush.after d).node.phase = .flushed := by
  cases phase : d.node.phase with
  | flushed =>
    rw [after_of_ok (NodeCall.flush_flushed phase)]
    exact ⟨refl d.tokens, phase⟩
  | buffering =>
    have started : flush.after d = (storeAll (d.node.base.map (·.2))).after
        ⟨d.tokens, { d.node with phase := .flushed, base := [] }⟩ := by
      rw [flush_eq]
      simp only [after, get_bind_apply, flushFrom, phase]
      rfl
    have settles := settles_storeAll (d.node.base.map (·.2))
      ⟨d.tokens, { d.node with phase := .flushed, base := [] }⟩
    rw [started]
    exact ⟨settles.tokens, settles.phase rfl⟩

theorem flushedIn_flushedIn (tokens others : Tokens) (node : Node) :
    (node.flushedIn tokens).flushedIn others = node.flushedIn tokens :=
  flushedIn_flushed (settles_flush ⟨tokens, node⟩).2 others

end Node

/-! ## Nodes in the workspace -/

/-- Tokens look the same, and each node is as it was or, if it is one of some, flushed. -/
structure Workspace.OnlyFlushes (among : Ref .node → Prop) (before after : Workspace) : Prop where
  tokens : before.tokens.Agrees after.tokens
  nodes : ∀ ref, after.nodes.get? ref = before.nodes.get? ref ∨
    among ref ∧ after.nodes.get? ref =
      (before.nodes.get? ref).map (Node.flushedIn before.tokens)

namespace Workspace.OnlyFlushes

variable {among : Ref .node → Prop} {before after : Workspace}

theorem of_same (tokens : before.tokens.Agrees after.tokens) (nodes : after.nodes = before.nodes) :
    before.OnlyFlushes among after := ⟨tokens, fun _ => .inl (by rw [nodes])⟩

instance : IsPreorder Workspace (Workspace.OnlyFlushes among) where
  refl w := of_same (refl w.tokens) rfl
  trans before mid after first second := by
    refine ⟨first.tokens.trans second.tokens, fun ref => ?_⟩
    rcases first.nodes ref with same | ⟨one, flushed⟩
    · have agree : Node.flushedIn mid.tokens = Node.flushedIn before.tokens :=
        funext fun node => (Node.flushedIn_agrees first.tokens node).symm
      rw [← same, ← agree]
      exact second.nodes ref
    · right
      rcases second.nodes ref with same | ⟨-, again⟩
      · exact ⟨one, same.trans flushed⟩
      · refine ⟨one, ?_⟩
        rw [again, flushed, Option.map_map]
        congr 1
        funext node
        exact Node.flushedIn_flushedIn before.tokens mid.tokens node

theorem respects_flush {ref : Ref .node} (one : among ref) :
    Respects (Workspace.OnlyFlushes among) (Node.run ref Node.flush) := by
  intro w
  cases present : w.nodes.get? ref with
  | none =>
    have absent : Node.read ref w = .error .noObject w := require_of_none present
    rw [Node.run, after_bind_of_error absent]
    exact refl w
  | some node =>
    rw [Node.run, after_bind_of_ok (NodeCall.read_apply present), after_within]
    refine ⟨(Node.settles_flush ⟨w.tokens, node⟩).1, fun other => ?_⟩
    by_cases here : other = ref
    · subst here
      right
      refine ⟨one, ?_⟩
      rw [present]
      exact Store.get?_put_self present
    · exact .inl (Store.get?_put_other here)

theorem respects_withNames {α : Type} (action : Action FilterNames α) :
    Respects (Workspace.OnlyFlushes among) (Workspace.withNames action) :=
  .within action fun w _ => of_same (refl w.tokens) rfl

theorem respects_render {ref : Ref .node} (one : among ref) :
    Respects (Workspace.OnlyFlushes among) (Node.render ref) := by
  refine .bind (respects_flush one) fun _ => .bind (.require _) fun node => .bind ?_ fun _ => .pure _
  unfold Node.filterName
  split
  · exact .pure _
  · exact respects_withNames _

theorem respects_change (ref : Ref .graph) (f : Graph → Graph) :
    Respects (Workspace.OnlyFlushes among) (Graph.change ref f) := by
  intro w
  rw [Graph.after_change]
  exact of_same (refl w.tokens) rfl

/-- An item is expressed by flushing it, if it is a node. -/
theorem respects_expressionOf {item : GraphItem} (one : ∀ ref, item = .node ref → among ref) :
    Respects (Workspace.OnlyFlushes among) (Graph.expressionOf item) := by
  cases item with
  | nothing => exact .pure _
  | text s => exact .pure _
  | node ref => exact .bind (respects_render (one ref rfl)) fun _ => .pure _
  | graph ref => exact .bind (.require _) fun _ => .pure _
  | split ref => exact .get_bind fun w => Respects.bind (.object _) (fun _ => .pure _) w
  | filterSet ref => exact .bind (respects_renderNow ref) fun _ => .pure _
  | cls cls => exact respects_withNames _
  | other kind => exact .throw _

theorem respects_addItems (graph : Ref .graph) {items : List GraphItem}
    (those : ∀ ref, .node ref ∈ items → among ref) :
    Respects (Workspace.OnlyFlushes among) (Graph.addItems graph items) := by
  induction items with
  | nil => exact .pure _
  | cons item rest ih =>
    have later := ih fun ref mem => those ref (List.mem_cons_of_mem _ mem)
    refine .bind (respects_expressionOf ?_) fun text => ?_
    · rintro ref rfl
      exact those ref List.mem_cons_self
    dsimp only
    split
    · exact .bind (respects_change graph _) fun _ => later
    · exact later

end Workspace.OnlyFlushes

end MediaCommand
