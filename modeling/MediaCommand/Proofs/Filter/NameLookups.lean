import MediaCommand.Command.Run
import MediaCommand.Proofs.Filter.Rendering

/-!
# Which operations look up the names of classes

A look-up fixes the name of its class and leaves every name as it is seen (`view_settle`). Each
operation that takes filters to a text looks up some classes in turn: rendering a node its class
unless the node carries a name of its own, adding items to a graph those of the items up to the
first that cannot be added. One lemma for each operation says which classes these are.
-/

namespace MediaCommand

open MediaCommand.Action

/-! ## Look-ups -/

namespace FilterNames

variable (names : FilterNames) (cls other : FilterClass)

theorem tags_settle : (names.settle cls).tags = names.tags := by
  unfold settle
  split <;> rfl

theorem nearest_settle : (names.settle other).nearest cls = names.nearest cls := by
  rw [nearest, nearest, tags_settle]

theorem get?_known_settle : (names.settle other).known.get? cls =
    if cls = other then some (names.view cls) else names.known.get? cls := by
  cases known : names.known.get? other with
  | some name =>
    simp only [settle, known]
    split
    · next same =>
      subst same
      rw [view, known, Option.getD_some]
    · rfl
  | none =>
    simp only [settle, known]
    split
    · next same =>
      subst same
      rw [Keyed.get?_put_self, view, known, Option.getD_none]
    · next differ => exact Keyed.get?_put_other differ

/-- A look-up leaves every name as it is seen. -/
theorem view_settle : (names.settle other).view cls = names.view cls := by
  rw [view, get?_known_settle, nearest_settle]
  split
  · rfl
  · rfl

/-- The state after look-ups of classes in turn. -/
def settleAll (names : FilterNames) (classes : List FilterClass) : FilterNames :=
  classes.foldl settle names

theorem settleAll_append (early late : List FilterClass) :
    names.settleAll (early ++ late) = (names.settleAll early).settleAll late := List.foldl_append

theorem tags_settleAll (classes : List FilterClass) :
    (names.settleAll classes).tags = names.tags := by
  induction classes generalizing names with
  | nil => rfl
  | cons first rest ih => exact (ih (names.settle first)).trans (tags_settle names first)

theorem view_settleAll (classes : List FilterClass) :
    (names.settleAll classes).view cls = names.view cls := by
  induction classes generalizing names with
  | nil => rfl
  | cons first rest ih => exact (ih (names.settle first)).trans (view_settle names cls first)

/-- Look-ups fix the names of just the classes that are looked up. -/
theorem get?_known_settleAll (classes : List FilterClass) :
    (names.settleAll classes).known.get? cls =
      if cls ∈ classes then some (names.view cls) else names.known.get? cls := by
  induction classes generalizing names with
  | nil => rfl
  | cons first rest ih =>
    have later := ih (names.settle first)
    rw [view_settle, get?_known_settle] at later
    refine later.trans ?_
    by_cases here : cls = first
    · simp [here]
    · simp [here]

theorem get?_tags_tag (name : String) :
    ((tag other name).after names).tags.get? cls =
      if other = cls then some name else names.tags.get? cls := by
  change (names.tags.put other name).get? cls = _
  split
  · next same => rw [same, Keyed.get?_put_self]
  · next differ => exact Keyed.get?_put_other (Ne.symm differ)

end FilterNames

/-! ## Nodes -/

namespace Node

/-- The filter name of a node: its own, or the one that its class is seen under. -/
def nameIn (names : FilterNames) (node : Node) : Option String :=
  node.ownName.getD (names.view node.cls)

/-- The classes that the filter name of a node is looked up under: none if it carries its own. -/
def namedBy (node : Node) : List FilterClass := if node.ownName.isNone then [node.cls] else []

theorem filterName_apply (node : Node) (w : Workspace) :
    node.filterName w =
      .ok (node.nameIn w.names) { w with names := w.names.settleAll node.namedBy } := by
  cases own : node.ownName with
  | some name => simp [filterName, nameIn, namedBy, own, FilterNames.settleAll]
  | none =>
    simp only [filterName, nameIn, namedBy, own]
    rfl

/-- Flushing changes no more of a node than its phase and what it holds. -/
theorem named_of_flush {d after : Desk} (done : flush d = .ok () after) :
    after.node.ownName = d.node.ownName ∧ after.node.cls = d.node.cls := by
  cases phase : d.node.phase with
  | flushed =>
    cases (NodeCall.flush_flushed phase).symm.trans done
    exact ⟨rfl, rfl⟩
  | buffering =>
    simp only [flush, get_bind_apply, phase] at done
    obtain ⟨texts, -, node⟩ := NodeCall.storeAll_eq_ok done
    rw [node]
    exact ⟨rfl, rfl⟩

/-- A rendering writes the base arguments and then looks the name up. -/
theorem render_of_flush {w : Workspace} {ref : Ref .node} {node : Node} {desk : Desk}
    (present : w.nodes.get? ref = some node) (flushed : flush ⟨w.tokens, node⟩ = .ok () desk) :
    render ref w = .ok (desk.node.expression (node.nameIn w.names))
      { w with
        tokens := desk.tokens
        names := w.names.settleAll node.namedBy
        nodes := w.nodes.put ref desk.node } := by
  obtain ⟨own, cls⟩ := named_of_flush flushed
  have same : desk.node.nameIn w.names = node.nameIn w.names := by simp only [nameIn, own, cls]
  have under : desk.node.namedBy = node.namedBy := by simp only [namedBy, own, cls]
  have run := NodeCall.run_of_ok present flushed
  have there : (w.nodes.put ref desk.node).get? ref = some desk.node := Store.get?_put_self present
  rw [render, bind_of_ok run, bind_of_ok (NodeCall.read_apply there),
    bind_of_ok (filterName_apply _ _), pure_apply, same, under]

/-- The classes that rendering a node looks up. One that fails has not come to the name. -/
def renderLooks (ref : Ref .node) (w : Workspace) : List FilterClass :=
  match render ref w, w.nodes.get? ref with
  | .ok _ _, some node => node.namedBy
  | _, _ => []

theorem names_render (ref : Ref .node) (w : Workspace) :
    ((render ref).after w).names = w.names.settleAll (renderLooks ref w) := by
  cases present : w.nodes.get? ref with
  | none =>
    have missing : read ref w = .error .noObject w := require_of_none present
    have failed : render ref w = .error .noObject w :=
      bind_of_error (bind_of_error missing)
    rw [after_of_error failed, renderLooks, failed]
    rfl
  | some node =>
    cases flushed : flush ⟨w.tokens, node⟩ with
    | ok _ desk =>
      have done := render_of_flush present flushed
      rw [after_of_ok done, renderLooks, done, present]
    | error failure desk =>
      have failed : render ref w = .error failure _ :=
        bind_of_error (NodeCall.run_of_error present flushed)
      rw [after_of_error failed, renderLooks, failed]
      rfl

/-- A node for messages, under a filter name. -/
def literalAs (node : Node) (name : Option String) : String :=
  "<" ++ node.cls.name ++ " " ++ name.elim "None" quoted ++ ">"

theorem literal_apply {w : Workspace} {ref : Ref .node} {node : Node}
    (present : w.nodes.get? ref = some node) :
    literal ref w = .ok (node.literalAs (node.nameIn w.names))
      { w with names := w.names.settleAll node.namedBy } := by
  rw [literal, bind_of_ok (NodeCall.read_apply present), bind_of_ok (filterName_apply node w),
    pure_apply, literalAs]
  cases node.nameIn w.names <;> rfl

/-- The classes that the text of a node for messages looks up. -/
def literalLooks (ref : Ref .node) (w : Workspace) : List FilterClass :=
  (w.nodes.get? ref).elim [] namedBy

theorem names_literal (ref : Ref .node) (w : Workspace) :
    ((literal ref).after w).names = w.names.settleAll (literalLooks ref w) := by
  cases present : w.nodes.get? ref with
  | none =>
    have missing : read ref w = .error .noObject w := require_of_none present
    rw [literal, after_bind_of_error missing, literalLooks, present]
    rfl
  | some node => rw [after_of_ok (literal_apply present), literalLooks, present, Option.elim]

end Node

/-! ## Graphs -/

/-- Names of classes as they were. -/
def Workspace.SameNames (before after : Workspace) : Prop := after.names = before.names

instance : IsPreorder Workspace Workspace.SameNames where
  refl _ := rfl
  trans _ _ _ first second := Eq.trans second first

namespace Graph

theorem sameNames_change (ref : Ref .graph) (f : Graph → Graph) :
    Respects Workspace.SameNames (change ref f) := by
  intro w
  rw [after_change]
  rfl

/-- The classes that an item looks up to become an expression. -/
def itemLooks : GraphItem → Workspace → List FilterClass
  | .node ref, w => Node.renderLooks ref w
  | .cls cls, _ => [cls]
  | _, _ => []

theorem names_expressionOf (item : GraphItem) (w : Workspace) :
    ((expressionOf item).after w).names = w.names.settleAll (itemLooks item w) := by
  have unnamed {α : Type} {action : Work α} (same : Respects Workspace.SameNames action) :
      (action.after w).names = w.names.settleAll [] := same w
  cases item with
  | nothing => exact unnamed (.pure _)
  | text s => exact unnamed (.pure _)
  | node ref =>
    refine Eq.trans ?_ (Node.names_render ref w)
    exact congrArg Workspace.names (after_bind_pure (Node.render ref) some w)
  | graph ref => exact unnamed (.bind (.require _) fun _ => .pure _)
  | split ref =>
    refine unnamed (.get_bind fun v => ?_)
    exact Respects.bind (.object _) (fun _ => .pure _) v
  | filterSet ref => exact unnamed (.bind (respects_renderNow ref) fun _ => .pure _)
  | cls cls => rfl
  | other kind => exact unnamed (.throw _)

theorem names_addItem (ref : Ref .graph) (item : GraphItem) (w : Workspace) :
    ((addItems ref [item]).after w).names = w.names.settleAll (itemLooks item w) := by
  have looked := names_expressionOf item w
  cases had : expressionOf item w with
  | error failure mid =>
    rw [after_of_error had] at looked
    rw [addItems, after_bind_of_error had, looked]
  | ok text mid =>
    rw [after_of_ok had] at looked
    rw [addItems, after_bind_of_ok had, ← looked]
    by_cases silent : text.getD "" = ""
    · simp only [silent, ne_eq, not_true_eq_false, if_false]
      rfl
    · simp only [silent, ne_eq, not_false_eq_true, if_true]
      have changed : Respects Workspace.SameNames (do
          change ref fun graph => { graph with nodes := graph.nodes ++ [text.getD ""] }
          addItems ref []) := .bind (sameNames_change ref _) fun _ => .pure _
      exact changed mid

/-- The classes that adding items to a graph looks up, up to the first that cannot be added. -/
def itemsLook (ref : Ref .graph) : List GraphItem → Workspace → List FilterClass
  | [], _ => []
  | item :: rest, w =>
    itemLooks item w ++
      match addItems ref [item] w with
      | .ok _ next => itemsLook ref rest next
      | .error _ _ => []

theorem names_addItems (ref : Ref .graph) (items : List GraphItem) (w : Workspace) :
    ((addItems ref items).after w).names = w.names.settleAll (itemsLook ref items w) := by
  induction items generalizing w with
  | nil => rfl
  | cons item rest ih =>
    have first := names_addItem ref item w
    rw [Account.addItems_cons, itemsLook, FilterNames.settleAll_append, ← first]
    cases added : addItems ref [item] w with
    | ok _ next =>
      rw [after_bind_of_ok added, after_of_ok added]
      exact ih next
    | error failure next =>
      rw [after_bind_of_error added, after_of_error added]
      rfl

/-- The classes that a new graph of items looks up. -/
def newLooks (owner : Option (Ref .filterSet)) (items : List GraphItem) (w : Workspace) :
    List FilterClass :=
  itemsLook w.graphs.next items ((enter (.fresh owner)).after w)

theorem names_ofItems (owner : Option (Ref .filterSet)) (items : List GraphItem) (w : Workspace) :
    ((ofItems owner items).after w).names = w.names.settleAll (newLooks owner items w) := by
  have entered : enter (.fresh owner) w = .ok w.graphs.next ((enter (.fresh owner)).after w) := rfl
  rw [ofItems, after_bind_of_ok entered, after_bind_pure, names_addItems]
  rfl

/-- One item looks up its own classes, whether it is added or not. -/
theorem newLooks_single (owner : Option (Ref .filterSet)) (item : GraphItem) (w : Workspace) :
    newLooks owner [item] w = itemLooks item ((enter (.fresh owner)).after w) := by
  unfold newLooks itemsLook
  split
  · exact List.append_nil _
  · exact List.append_nil _

end Graph

namespace FilterSet

theorem sameNames_addGraph (ref : Ref .filterSet) (graph : Ref .graph) :
    Respects Workspace.SameNames (addGraph ref graph) := by
  intro w
  rw [addGraph, after_change]
  rfl

/-- A set that takes a new graph looks up what the graph does. -/
theorem names_hold {made : Work (Ref .graph)} {w : Workspace} {classes : List FilterClass}
    (looked : (made.after w).names = w.names.settleAll classes) (ref : Ref .filterSet) :
    ((do addGraph ref (← made)).after w).names = w.names.settleAll classes := by
  cases run : made w with
  | ok graph next =>
    rw [after_of_ok run] at looked
    rw [after_bind_of_ok run, ← looked]
    exact sameNames_addGraph ref graph next
  | error failure next =>
    rw [after_of_error run] at looked
    rw [after_bind_of_error run, looked]

theorem names_addItems (ref : Ref .filterSet) (items : List GraphItem) (w : Workspace) :
    ((addItems ref items).after w).names = w.names.settleAll (Graph.newLooks none items w) := by
  by_cases one : ∃ graph, items = [.graph graph]
  · obtain ⟨graph, rfl⟩ := one
    rw [Graph.newLooks_single]
    exact sameNames_addGraph ref graph w
  by_cases missing : items = [.nothing]
  · subst missing
    rfl
  have other (graph : Ref .graph) : items = [.graph graph] → False := fun same => one ⟨graph, same⟩
  rw [addItems.eq_3 _ _ other missing]
  exact names_hold (Graph.names_ofItems none items w) ref

theorem names_start (ref : Ref .filterSet) (items : List GraphItem) (w : Workspace) :
    ((start ref items).after w).names =
      w.names.settleAll (Graph.newLooks (some ref) items w) := by
  rw [start, after_bind_congr fun graph w => after_bind_pure _ _ w]
  exact names_hold (Graph.names_ofItems (some ref) items w) ref

end FilterSet

end MediaCommand
