import MediaCommand.Proofs.Filter.ArgumentStorage
import MediaCommand.Proofs.Graph.Outline
import MediaCommand.Proofs.Value.Writable

/-!
# Which nodes can be rendered

Every call but one writes its values at once and fails if it cannot. Base arguments are held back
as they are, so a value among them that cannot be written shows only when the node is rendered
(`render_returns_iff`).
-/

namespace MediaCommand

open MediaCommand.Action

namespace NodeCall

variable {d after : Node.Desk}

/-! ## Flushing -/

theorem storeAll_returns_iff (sound : d.tokens.Sound) (values : List Value) :
    (∃ after, Node.storeAll values d = .ok () after) ↔ ∀ value ∈ values, value.IsWritable := by
  induction values generalizing d with
  | nil => exact iff_of_true ⟨d, rfl⟩ (by simp)
  | cons value rest ih =>
    have later {text : Option String} {tokens : Tokens}
        (normal : normalize value d.tokens = .ok text tokens) : tokens.Sound :=
      ((Tokens.looksUp_normalize value).agrees normal).sound sound
    rw [List.forall_mem_cons, ← normalize_returns_iff sound]
    constructor
    · rintro ⟨after, done⟩
      obtain ⟨text, mid, looked, done⟩ := bind_eq_ok.1 done
      obtain ⟨tokens, normal, rfl⟩ := within_eq_ok.1 looked
      exact ⟨⟨text, tokens, normal⟩, (ih (d := ⟨tokens, _⟩) (later normal)).1 ⟨after, done⟩⟩
    · rintro ⟨⟨text, tokens, normal⟩, others⟩
      obtain ⟨after, done⟩ := (ih (d := ⟨tokens, d.node.store none text⟩) (later normal)).2 others
      exact ⟨after, bind_eq_ok.2 ⟨text, _, within_eq_ok.2 ⟨tokens, normal, rfl⟩, done⟩⟩

theorem flush_returns_iff (sound : d.tokens.Sound) (buffering : d.node.phase = .buffering) :
    (∃ after, Node.flush d = .ok () after) ↔
      ∀ value ∈ d.node.base.map (·.2), value.IsWritable := by
  rw [← storeAll_returns_iff (d := ⟨d.tokens, { d.node with phase := .flushed, base := [] }⟩) sound]
  simp only [Node.flush, get_bind_apply, buffering]
  rfl

/-- Base arguments are only held back, as the writes that they are. -/
theorem hold_run {calls : List NodeCall} {writes : List (Option String × Value)}
    (only : effective calls = []) (buffering : d.node.phase = .buffering)
    (base : d.node.base = Keyed.ofList writes) :
    calls.forM edit d =
      .ok () ⟨d.tokens, { d.node with base := Keyed.ofList (writes ++ held calls) }⟩ := by
  induction calls generalizing d writes with
  | nil => simp [held, ← base]
  | cons call rest ih =>
    cases call with
    | base name value =>
      have first : (NodeCall.base name value).edit d =
          .ok () ⟨d.tokens, { d.node with base := d.node.base.put name value }⟩ := by
        simp only [edit, Node.addBase, get_bind_apply, buffering, Node.change, modify_apply]
      have written : d.node.base.put name value = Keyed.ofList (writes ++ [(name, value)]) := by
        rw [base, Keyed.ofList_concat]
      have later := @ih ⟨d.tokens, { d.node with base := d.node.base.put name value }⟩ _
        only buffering written
      rw [List.append_assoc, List.singleton_append] at later
      exact bind_eq_ok.2 ⟨(), _, first, later⟩
    | _ => cases only

/-! ## Rendering -/

variable {w : Workspace} {ref : Ref .node} {node : Node}

theorem run_of_ok {α : Type} (present : w.nodes.get? ref = some node) {edit : Node.Edit α}
    {desk : Node.Desk} {a : α} (done : edit ⟨w.tokens, node⟩ = .ok a desk) :
    Node.run ref edit w =
      .ok a { w with tokens := desk.tokens, nodes := w.nodes.put ref desk.node } := by
  rw [Node.run, bind_of_ok (read_apply present)]
  exact within_eq_ok.2 ⟨desk, done, rfl⟩

theorem run_of_error {α : Type} (present : w.nodes.get? ref = some node) {edit : Node.Edit α}
    {desk : Node.Desk} {failure : Failure} (failed : edit ⟨w.tokens, node⟩ = .error failure desk) :
    Node.run ref edit w =
      .error failure { w with tokens := desk.tokens, nodes := w.nodes.put ref desk.node } := by
  rw [Node.run, bind_of_ok (read_apply present)]
  exact within_eq_error.2 ⟨desk, failed, rfl⟩

theorem filterName_returns (node : Node) (w : Workspace) :
    ∃ name rest, node.filterName w = .ok name rest := by
  cases own : node.ownName with
  | some name => exact ⟨name, w, by simp only [Node.filterName, own, pure_apply]⟩
  | none =>
    refine ⟨w.names.view node.cls, { w with names := w.names.settle node.cls }, ?_⟩
    simp only [Node.filterName, own]
    rfl

/-- A node is rendered when its base arguments can be written. -/
theorem render_returns_iff_flush (present : w.nodes.get? ref = some node) :
    (∃ text rest, Node.render ref w = .ok text rest) ↔
      ∃ desk, Node.flush ⟨w.tokens, node⟩ = .ok () desk := by
  constructor
  · rintro ⟨text, rest, done⟩
    obtain ⟨desk, flushed, -⟩ := render_eq_ok present done
    exact ⟨desk, flushed⟩
  · rintro ⟨desk, flushed⟩
    have run := run_of_ok present flushed
    have there : (w.nodes.put ref desk.node).get? ref = some desk.node :=
      Store.get?_put_self present
    obtain ⟨name, rest, named⟩ := filterName_returns desk.node
      { w with tokens := desk.tokens, nodes := w.nodes.put ref desk.node }
    refine ⟨desk.node.expression name, rest, ?_⟩
    rw [Node.render, bind_of_ok run, bind_of_ok (read_apply there), bind_of_ok named, pure_apply]

/-- A node that holds nothing back is rendered as it is. -/
theorem render_flushed (present : w.nodes.get? ref = some node)
    (flushed : node.phase = .flushed) :
    ∃ name rest, node.filterName w = .ok name rest ∧
      Node.render ref w = .ok (node.expression name) rest := by
  obtain ⟨name, rest, named⟩ := filterName_returns node w
  have idle := run_of_ok present (flush_flushed (d := ⟨w.tokens, node⟩) flushed)
  rw [Store.put_self present] at idle
  refine ⟨name, rest, named, ?_⟩
  rw [Node.render, bind_of_ok idle, bind_of_ok (read_apply present), bind_of_ok named, pure_apply]

/-- A graph takes a node when it can be rendered. -/
theorem addItems_returns_iff_render {graph : Ref .graph} {old : Graph}
    (present : w.graphs.get? graph = some old) (ref : Ref .node) :
    (∃ rest, Graph.addItems graph [.node ref] w = .ok () rest) ↔
      ∃ text rest, Node.render ref w = .ok text rest := by
  constructor
  · rintro ⟨rest, done⟩
    obtain ⟨_, mid, expressed, -⟩ := bind_eq_ok.1 done
    obtain ⟨text, mid, rendered, -⟩ := bind_eq_ok.1 expressed
    exact ⟨text, mid, rendered⟩
  · rintro ⟨text, mid, rendered⟩
    have graphs : mid.graphs = w.graphs := by
      have same := sameGraphs_render ref w
      rw [after_of_ok rendered] at same
      exact same.1
    have there : mid.graphs.get? graph = some old := graphs ▸ present
    have expressed : Graph.expressionOf (.node ref) w = .ok (some text) mid := bind_of_ok rendered
    rw [Graph.addItems, bind_of_ok expressed]
    by_cases empty : text = ""
    · exact ⟨mid, by simp [empty, Graph.addItems]⟩
    · have added := Graph.change_apply there fun graph =>
        { graph with nodes := graph.nodes ++ [text] }
      simp only [Option.getD_some, ne_eq, empty, not_false_eq_true, if_true]
      exact ⟨_, bind_eq_ok.2 ⟨(), _, added, rfl⟩⟩

/-! ## Nodes that callers make -/

/-- What rendering after calls depends on: either a call has written the base arguments already, or
the last value of each base name can be written. -/
def Renders (calls : List NodeCall) : Prop :=
  effective calls ≠ [] ∨ ∀ value ∈ Keyed.lastValues (held calls), value.IsWritable

theorem flush_returns_iff_renders {calls : List NodeCall} (sound : d.tokens.Sound)
    (fresh : d.node.IsFresh) (done : calls.forM edit d = .ok () after) :
    (∃ desk, Node.flush after = .ok () desk) ↔ Renders calls := by
  obtain ⟨buffering, base, empty⟩ := fresh
  by_cases only : effective calls = []
  · have ran := @hold_run d calls [] only buffering base
    cases ran.symm.trans done
    rw [flush_returns_iff (by exact sound) (by exact buffering), Renders]
    simp only [List.nil_append, Keyed.values_ofList, only, ne_eq, not_true_eq_false, false_or]
  · have flushed := (outcome_of_run ⟨buffering, base, empty⟩ done).phase.2 only
    exact iff_of_true ⟨after, flush_flushed flushed⟩ (.inl only)

end NodeCall

/-- A coordinate without a margin. -/
def Coordinate.atEdge (coordinate : Coordinate) : String :=
  if coordinate.takesMargin then coordinate.expression ++ "0" else coordinate.expression

/-- A node as callers get it: a bare one, one that carries its own name, or one that is filled in
by the factory of its filter. -/
inductive NodeMaker where
  | bare (cls : FilterClass) (separator : String)
  | named (cls : FilterClass) (name : Option String) (separator : String)
  | scale (cls : FilterClass) (width height : Value)
  | crop (cls : FilterClass) (width height x y : Value)
  | overlay (cls : FilterClass) (x y : Value)
  | movie (cls : FilterClass) (path : Value)

namespace NodeMaker

open NodeCall

def build : NodeMaker → Action Tokens Node
  | .bare cls separator => pure (Node.fresh cls separator)
  | .named cls name separator => pure (Node.freshNamed cls name separator)
  | .scale cls width height => Node.scale cls width height
  | .crop cls width height x y => Node.crop cls width height x y
  | .overlay cls x y => Node.overlay cls x y
  | .movie cls path => Node.movie cls path

/-- The node that a maker starts from. -/
def start : NodeMaker → Node
  | .bare cls separator => .fresh cls separator
  | .named cls name separator => .freshNamed cls name separator
  | .scale cls _ _ | .crop cls _ _ _ _ | .overlay cls _ _ | .movie cls _ =>
    .fresh cls Node.defaultSeparator

/-- A base argument that may be missing. -/
def basePresent (name : String) : Value → List NodeCall
  | .null => []
  | value => [.base (some name) value]

/-- The calls that fill in the node. -/
def calls : NodeMaker → List NodeCall
  | .bare .. | .named .. => []
  | .scale _ width height =>
    if width.isMemberOf .videoSize then [.arg (some "s") [width]]
    else [.base (some "w") width, .base (some "h") height]
  | .crop _ width height x y =>
    [.base (some "w") width, .base (some "h") height] ++ basePresent "x" x ++ basePresent "y" y
  | .overlay _ x y => match x.position? with
    | some (across, down) =>
      [.base (some "x") (.text across.atEdge), .base (some "y") (.text down.atEdge)]
    | none => [.base (some "x") x, .base (some "y") y]
  | .movie _ path => [.base (some "filename") (.text (escapeText path.spelling true))]

theorem isFresh_start (maker : NodeMaker) : maker.start.IsFresh := by
  cases maker <;> exact ⟨rfl, rfl, rfl⟩

theorem edit_of_build {start node : Node} {edit : Node.Edit Unit} {tokens rest : Tokens}
    (done : Node.build start edit tokens = .ok node rest) :
    edit ⟨tokens, start⟩ = .ok () ⟨rest, node⟩ := by
  unfold Node.build at done
  split at done
  · next desk run =>
    cases done
    exact run
  · cases done

theorem fill_atEdge (coordinate : Coordinate) (tokens : Tokens) :
    coordinate.fill (.int 0) tokens = .ok coordinate.atEdge tokens := by
  unfold Coordinate.fill Coordinate.atEdge
  split <;> rfl

theorem position?_of_other {value : Value} (other : ¬value.isMemberOf .overlays = true) :
    value.position? = none := by
  cases value with
  | member m worth =>
    have differ : m.catalog ≠ .overlays := fun same => other (decide_eq_true same)
    exact if_neg differ
  | _ => rfl

theorem run_cons {call : NodeCall} {others : List NodeCall} {d mid after : Node.Desk}
    (first : call.edit d = .ok () mid) (run : others.forM edit mid = .ok () after) :
    (call :: others).forM edit d = .ok () after :=
  bind_eq_ok.2 ⟨(), mid, first, run⟩

theorem run_two {first second : NodeCall} {d after : Node.Desk}
    (done : (do first.edit; second.edit) d = .ok () after) :
    [first, second].forM edit d = .ok () after := by
  obtain ⟨_, mid, begun, done⟩ := bind_eq_ok.1 done
  exact run_cons begun (run_cons done rfl)

/-- A node that is made is a bare one after the calls that fill it in. -/
theorem calls_of_build {maker : NodeMaker} {tokens rest : Tokens} {node : Node}
    (done : maker.build tokens = .ok node rest) :
    maker.calls.forM edit ⟨tokens, maker.start⟩ = .ok () ⟨rest, node⟩ := by
  cases maker with
  | bare cls separator =>
    cases done
    rfl
  | named cls name separator =>
    cases done
    rfl
  | scale cls width height =>
    simp only [build, Node.scale] at done
    by_cases sized : width.isMemberOf .videoSize = true
    · rw [if_pos sized] at done
      rw [calls, if_pos sized]
      exact run_cons (edit_of_build done) rfl
    · rw [if_neg sized] at done
      rw [calls, if_neg sized]
      split at done
      · exact run_two (edit_of_build done)
      · cases done
  | crop cls width height x y =>
    have edited := edit_of_build done
    obtain ⟨_, one, wide, edited⟩ := bind_eq_ok.1 edited
    obtain ⟨_, two, high, edited⟩ := bind_eq_ok.1 edited
    obtain ⟨_, three, first, second⟩ := bind_eq_ok.1 edited
    have across : (basePresent "x" x).forM edit two = .ok () three := by
      cases x with
      | null => exact first
      | _ => exact run_cons first rfl
    have down : (basePresent "y" y).forM edit three = .ok () ⟨rest, node⟩ := by
      cases y with
      | null => exact second
      | _ => exact run_cons second rfl
    have size : [NodeCall.base (some "w") width, .base (some "h") height].forM edit
        ⟨tokens, .fresh cls Node.defaultSeparator⟩ = .ok () two :=
      run_cons wide (run_cons high rfl)
    exact forM_append_eq_ok.2 ⟨three, forM_append_eq_ok.2 ⟨two, size, across⟩, down⟩
  | overlay cls x y =>
    simp only [build, Node.overlay] at done
    by_cases named : x.isMemberOf .overlays = true
    · rw [if_pos named, Node.overlayAnchored, Value.positionX, Value.positionY] at done
      rw [calls]
      cases position : x.position? with
      | none =>
        rw [position] at done
        cases done
      | some both =>
        obtain ⟨across, down⟩ := both
        rw [position] at done
        dsimp only at done ⊢
        rw [bind_of_ok (fill_atEdge across tokens), bind_of_ok (fill_atEdge down tokens)] at done
        exact run_two (edit_of_build done)
    · rw [if_neg named] at done
      rw [calls, position?_of_other named]
      exact run_two (edit_of_build done)
  | movie cls path =>
    obtain ⟨text, _, escaped, done⟩ := bind_eq_ok.1 done
    obtain ⟨outcome, rfl⟩ := ofExcept_eq_ok.1 escaped
    obtain ⟨-, rfl⟩ := escapeValue_eq_ok.1 outcome
    exact run_cons (edit_of_build done) rfl

theorem enter_eq_ok {w made : Workspace} {build : Action Tokens Node} {ref : Ref .node}
    (done : Node.enter build w = .ok ref made) :
    ∃ node, build w.tokens = .ok node made.tokens ∧ made.nodes.get? ref = some node := by
  obtain ⟨node, mid, looked, done⟩ := bind_eq_ok.1 done
  obtain ⟨tokens, built, rfl⟩ := within_eq_ok.1 looked
  cases done
  exact ⟨node, built, Store.get?_add_next w.nodes node⟩

/-- **When a node can be rendered.** Take a node that a caller makes, bare or by a factory, and any
calls on it that all succeed, with any values. Rendering it returns, and so does adding it to a
graph, exactly when some call has written the base arguments before or the last value of each base
name can be written. -/
theorem render_returns_iff {w made after : Workspace} {ref : Ref .node} (sound : w.tokens.Sound)
    {maker : NodeMaker} (entered : Node.enter maker.build w = .ok ref made)
    {calls : List NodeCall} (done : calls.forM (perform ref) made = .ok () after) :
    ((∃ text rest, Node.render ref after = .ok text rest) ↔ Renders (maker.calls ++ calls)) ∧
    ∀ graph old, after.graphs.get? graph = some old →
      ((∃ rest, Graph.addItems graph [.node ref] after = .ok () rest) ↔
        Renders (maker.calls ++ calls)) := by
  obtain ⟨node, built, present⟩ := enter_eq_ok entered
  obtain ⟨desk, edited, tokens, there⟩ := performs_eq_ok present done
  have run : (maker.calls ++ calls).forM edit ⟨w.tokens, maker.start⟩ = .ok () desk :=
    forM_append_eq_ok.2 ⟨_, calls_of_build built, edited⟩
  have flushes : (∃ last, Node.flush ⟨after.tokens, desk.node⟩ = .ok () last) ↔
      Renders (maker.calls ++ calls) := by
    rw [tokens]
    exact flush_returns_iff_renders (by exact sound) maker.isFresh_start run
  have renders := (render_returns_iff_flush there).trans flushes
  exact ⟨renders, fun graph old known => (addItems_returns_iff_render known ref).trans renders⟩

/-- A crop to an infinite width. -/
def endlessCrop : NodeMaker := .crop .crop (.decimal (.infinite false)) (.int 360) .null .null

/-- An infinite width counts no more once another is registered. -/
theorem render_returns_overwritten :
    let made := (Node.enter endlessCrop.build).after .initial
    let width := NodeCall.base (some "w") (.int 640)
    ∃ text rest, Node.render ⟨0⟩ ((width.perform ⟨0⟩).after made) = .ok text rest := by
  intro made width
  have entered : Node.enter endlessCrop.build .initial = .ok ⟨0⟩ made := eq_ok_of_outcome rfl
  have first : width.perform ⟨0⟩ made = .ok () ((width.perform ⟨0⟩).after made) :=
    eq_ok_after rfl
  have done : [width].forM (perform ⟨0⟩) made = .ok () ((width.perform ⟨0⟩).after made) :=
    bind_eq_ok.2 ⟨(), _, first, rfl⟩
  refine (render_returns_iff Tokens.sound_initial entered done).1.2 (.inr fun value mem => ?_)
  have values : Keyed.lastValues (held (endlessCrop.calls ++ [width])) = [.int 640, .int 360] := rfl
  rw [values] at mem
  rcases List.mem_pair.1 mem with rfl | rfl
  · exact (by decide : IsConvertible 640)
  · exact (by decide : IsConvertible 360)

/-- A factory takes an infinite width, and rendering the node fails. -/
theorem render_infinite :
    ∃ made, Node.enter (scale .scale (.decimal (.infinite false)) (.int 720)).build
        Workspace.initial = .ok ⟨0⟩ made ∧
      (Node.render ⟨0⟩).outcome made = .error .decimalInvalid :=
  ⟨_, rfl, rfl⟩

end NodeMaker

end MediaCommand
