import MediaCommand.Proofs.Filter.FailedCalls
import MediaCommand.Proofs.Filter.NameLookups

/-!
# Looking at nodes

Rendering a node, or adding it to a graph, writes the base arguments that it holds back. Two runs of
the same calls, of which one looks at the node in between, then have nodes in different phases. As
long as no base name comes twice, their `writtenOut` is the same. `Observed` relates such nodes.
Each call keeps it up (`observed_edit`), so does each look (`observed_flush`), and therefore so do
runs (`beside_run`).
-/

namespace MediaCommand

open MediaCommand.Action

/-- Work on one object leaves all objects there. -/
theorem Store.isSome_get?_modify {κ : ObjectKind} {α : Type} (store : Store κ α)
    (ref other : Ref κ) (f : α → α) :
    ((store.modify ref f).get? other).isSome = (store.get? other).isSome := by
  rw [get?, get?, modify, List.getElem?_modify, Option.map_eq_map, Option.isSome_map]

namespace Node

/-- The node once its base arguments are written. -/
def writtenOut (tokens : Tokens) (node : Node) : Node :=
  match node.phase with
  | .flushed => node
  | .buffering => node.cutShort ((node.base.map (·.2)).map tokens.spell)

theorem writtenOut_flushed {node : Node} (flushed : node.phase = .flushed) (tokens : Tokens) :
    node.writtenOut tokens = node := by
  rw [writtenOut, flushed]

theorem writtenOut_buffering {node : Node} (buffering : node.phase = .buffering)
    (tokens : Tokens) :
    node.writtenOut tokens = node.cutShort ((node.base.map (·.2)).map tokens.spell) := by
  rw [writtenOut, buffering]

theorem phase_writtenOut (tokens : Tokens) (node : Node) :
    (node.writtenOut tokens).phase = .flushed := by
  cases phase : node.phase with
  | flushed => rw [writtenOut_flushed phase, phase]
  | buffering => rw [writtenOut_buffering phase, cutShort]

theorem separator_writtenOut (tokens : Tokens) (node : Node) :
    (node.writtenOut tokens).separator = node.separator := by
  unfold writtenOut
  split
  · rfl
  · rfl

theorem writtenOut_agrees {tokens others : Tokens} (agree : tokens.Agrees others) (node : Node) :
    node.writtenOut tokens = node.writtenOut others := by
  have same : tokens.spell = others.spell := funext agree.spell
  unfold writtenOut
  rw [same]

end Node

namespace NodeCall

/-! ## What a call does on a desk -/

theorem looksUp_withText (name : Option String) {text : Action Tokens (Option String)}
    (looks : Tokens.LooksUp text) : Tokens.LooksUp (withText name text) :=
  .bind looks fun _ => .pure _

theorem looksUp_joined (separator : String) (values : List Value) :
    Tokens.LooksUp (Node.joined separator values) := by
  unfold Node.joined
  split
  · exact .pure _
  · exact Tokens.looksUp_normalize _
  · exact .map _ (Tokens.looksUp_expandAll _ _)

theorem looksUp_argument (separator : String) (call : NodeCall) :
    Tokens.LooksUp (call.argument separator) := by
  cases call with
  | base name value | single value => exact looksUp_withText _ (Tokens.looksUp_normalize _)
  | joined name between values | arg name values | several values =>
    exact looksUp_withText _ (looksUp_joined _ _)
  | status name state | enable name | disable name | render => exact .pure _

variable {d e after : Node.Desk}

theorem flush_eq_writtenOut (done : Node.flush d = .ok () after) :
    after.node = d.node.writtenOut d.tokens ∧ d.tokens.Agrees after.tokens := by
  cases phase : d.node.phase with
  | flushed =>
    cases (flush_flushed phase).symm.trans done
    exact ⟨(Node.writtenOut_flushed phase _).symm, refl d.tokens⟩
  | buffering =>
    obtain ⟨texts, normals, -⟩ := (flushedTo_of_ok done).arguments phase
    constructor
    · rw [flush_eq_ok phase done, Node.writtenOut_buffering phase]
    · exact (Tokens.looksUp_normalizeAll _).agrees normals

/-- What a call that returns does to a node: a base argument is held back, or the node is written
out and gets the argument of the call. -/
inductive EditedTo (d : Node.Desk) (call : NodeCall) (after : Node) : Prop where
  | held (name : Option String) (value : Value) (same : call = .base name value)
      (buffering : d.node.phase = .buffering)
      (node : after = { d.node with base := d.node.base.put name value })
  | written (writes : d.node.phase = .flushed ∨ effective [call] ≠ [])
      (added : Option FilterArgument)
      (argument : (call.argument d.node.separator).outcome d.tokens = .ok added)
      (node : after = stored (d.node.writtenOut d.tokens) added)

/-- A call on a desk where nothing is held back adds its argument. -/
theorem edit_flushed_eq_ok_iff (flushed : d.node.phase = .flushed) (call : NodeCall) :
    call.edit d = .ok () after ↔ ∃ added,
      call.argument d.node.separator d.tokens = .ok added after.tokens ∧
        after.node = stored d.node added := by
  rw [edit_flushed flushed]
  constructor
  · intro done
    obtain ⟨added, mid, looked, done⟩ := bind_eq_ok.1 done
    obtain ⟨tokens, text, rfl⟩ := within_eq_ok.1 looked
    cases done
    exact ⟨added, text, rfl⟩
  · rintro ⟨added, text, node⟩
    obtain ⟨tokens, last⟩ := after
    subst node
    exact bind_eq_ok.2 ⟨added, _, within_of_ok text, rfl⟩

/-- What every call that returns does. -/
theorem edit_eq_ok {call : NodeCall} (done : call.edit d = .ok () after) :
    EditedTo d call after.node ∧ d.tokens.Agrees after.tokens := by
  by_cases flushes : effective [call] = []
  · cases call with
    | base name value =>
      cases phase : d.node.phase with
      | buffering =>
        simp only [edit, Node.addBase, get_bind_apply, phase, Node.change, modify_apply] at done
        cases done
        exact ⟨.held name value rfl phase (by simp only [phase]), refl d.tokens⟩
      | flushed =>
        obtain ⟨added, text, node⟩ := (edit_flushed_eq_ok_iff phase _).1 done
        constructor
        · refine .written (.inl phase) added (outcome_of_ok text) ?_
          rw [node, Node.writtenOut_flushed phase]
        · exact (looksUp_argument _ _).agrees text
    | _ => cases flushes
  · rw [edit_flushes flushes] at done
    obtain ⟨_, mid, flushed, done⟩ := bind_eq_ok.1 done
    obtain ⟨node, agree⟩ := flush_eq_writtenOut flushed
    obtain ⟨added, text, last⟩ := (edit_flushed_eq_ok_iff (flushedTo_of_ok flushed).phase _).1 done
    have separator : mid.node.separator = d.node.separator := by
      rw [node, Node.separator_writtenOut]
    constructor
    · refine .written (.inr flushes) added ?_ ?_
      · rw [((looksUp_argument _ _).alike agree).1, ← separator, outcome_of_ok text]
      · rw [last, node]
    · exact agree.trans ((looksUp_argument _ _).agrees text)

/-- A call that writes returns when the base arguments and its own one can be written. -/
theorem edit_returns {call : NodeCall} {mid : Node.Desk} {added : Option FilterArgument}
    (writes : d.node.phase = .flushed ∨ effective [call] ≠ [])
    (flushed : Node.flush d = .ok () mid)
    (argument : (call.argument d.node.separator).outcome d.tokens = .ok added) :
    ∃ after, call.edit d = .ok () after ∧ after.node = stored (d.node.writtenOut d.tokens) added ∧
      d.tokens.Agrees after.tokens := by
  obtain ⟨node, agree⟩ := flush_eq_writtenOut flushed
  have same : call.edit d = call.edit mid := by
    rcases writes with phase | flushes
    · cases (flush_flushed phase).symm.trans flushed
      rfl
    · rw [edit_flushes flushes, bind_of_ok flushed]
  have separator : mid.node.separator = d.node.separator := by
    rw [node, Node.separator_writtenOut]
  have later : (call.argument mid.node.separator).outcome mid.tokens = .ok added := by
    rw [separator, ← ((looksUp_argument _ _).alike agree).1, argument]
  have text := eq_ok_of_outcome later
  let after : Node.Desk := ⟨(call.argument mid.node.separator).after mid.tokens,
    stored mid.node added⟩
  have done : call.edit mid = .ok () after :=
    (edit_flushed_eq_ok_iff (flushedTo_of_ok flushed).phase call).2 ⟨added, text, rfl⟩
  refine ⟨after, same.trans done, ?_, ?_⟩
  · rw [← node]
  · exact agree.trans ((looksUp_argument _ _).agrees text)

theorem flush_returns (sound : d.tokens.Sound)
    (held : d.node.phase = .buffering → ∀ value ∈ d.node.base.map (·.2), value.IsWritable) :
    ∃ after, Node.flush d = .ok () after := by
  cases phase : d.node.phase with
  | flushed => exact ⟨d, flush_flushed phase⟩
  | buffering => exact (flush_returns_iff sound phase).2 (held phase)

/-- A named value that can be written is the argument of its name afterwards. -/
theorem addNamed_returns (sound : d.tokens.Sound)
    (held : d.node.phase = .buffering → ∀ value ∈ d.node.base.map (·.2), value.IsWritable)
    (key : String) {value : Value} (writable : value.IsWritable) :
    ∃ after, Node.addNamed key value d = .ok () after ∧
      after.node =
        stored (d.node.writtenOut d.tokens) (some ⟨some key, d.tokens.spell value⟩) := by
  obtain ⟨mid, flushed⟩ := flush_returns sound held
  obtain ⟨text, tokens, normal⟩ := (normalize_returns_iff sound value).2 writable
  have argument : ((NodeCall.arg (some key) [value]).argument d.node.separator).outcome d.tokens =
      .ok (some ⟨some key, d.tokens.spell value⟩) := by
    rw [Tokens.spell_of_ok normal]
    exact outcome_of_ok (bind_of_ok normal)
  obtain ⟨after, done, last, -⟩ := edit_returns (.inr (by simp [effective])) flushed argument
  exact ⟨after, done, last⟩

/-! ## Base names that come once -/

/-- The base arguments that calls register, before or after the node is flushed. -/
def registered (calls : List NodeCall) : List (Option String × Value) :=
  calls.filterMap fun
    | .base name value => some (name, value)
    | _ => none

/-- What calls on a desk may rely on: no base name comes twice, those held back included, and every
base value can be written. -/
structure Fits (d : Node.Desk) (calls : List NodeCall) : Prop where
  sound : d.tokens.Sound
  distinct : ((d.node.base ++ registered calls).map (·.1)).Nodup
  writable : ∀ entry ∈ d.node.base ++ registered calls, entry.2.IsWritable

theorem Fits.of_sublist {calls rest : List NodeCall} (fits : Fits d calls)
    (agree : d.tokens.Agrees after.tokens)
    (fewer : (after.node.base ++ registered rest).Sublist (d.node.base ++ registered calls)) :
    Fits after rest where
  sound := agree.sound fits.sound
  distinct := fits.distinct.sublist (fewer.map _)
  writable entry mem := fits.writable entry (fewer.subset mem)

theorem base_writtenOut (tokens : Tokens) (node : Node) :
    (node.writtenOut tokens).base.Sublist node.base := by
  unfold Node.writtenOut
  split
  · exact List.Sublist.refl _
  · exact List.nil_sublist _

/-- A base name that is new comes last. -/
theorem Fits.put_eq {name : Option String} {value : Value} {rest : List NodeCall}
    (fits : Fits d (.base name value :: rest)) :
    d.node.base.put name value = d.node.base ++ [(name, value)] := by
  apply Keyed.put_of_notMem
  have distinct := fits.distinct
  rw [List.map_append, List.nodup_append] at distinct
  intro mem
  exact distinct.2.2 name mem name List.mem_cons_self rfl

theorem fits_edit {call : NodeCall} {rest : List NodeCall} (fits : Fits d (call :: rest))
    (done : call.edit d = .ok () after) : Fits after rest := by
  obtain ⟨how, agree⟩ := edit_eq_ok done
  apply fits.of_sublist agree
  cases how with
  | held name value same buffering node =>
    subst same
    rw [node, fits.put_eq, List.append_assoc]
    exact List.Sublist.refl _
  | written writes added argument node =>
    rw [node]
    apply List.Sublist.append
    · exact base_writtenOut d.tokens d.node
    · exact (List.sublist_cons_self call rest).filterMap _

/-! ## A node that is looked at -/

/-- The same node in two runs, of which the second may have been looked at: it is as in the first
run, or already written out. -/
structure Observed (d e : Node.Desk) : Prop where
  agree : d.tokens.Agrees e.tokens
  node : e.node = d.node ∨ e.node = d.node.writtenOut d.tokens

theorem Observed.writtenOut (observed : Observed d e) :
    e.node.writtenOut e.tokens = d.node.writtenOut d.tokens := by
  rcases observed.node with same | ahead
  · rw [same, Node.writtenOut_agrees observed.agree]
  · rw [Node.writtenOut_flushed, ahead]
    rw [ahead, Node.phase_writtenOut]

theorem Observed.separator (observed : Observed d e) : e.node.separator = d.node.separator := by
  rcases observed.node with same | ahead
  · rw [same]
  · rw [ahead, Node.separator_writtenOut]

/-- A look writes the node out, and no later than its own run does. -/
theorem observed_flush {calls : List NodeCall} (fits : Fits d calls) (observed : Observed d e) :
    ∃ after, Node.flush e = .ok () after ∧ after.node = d.node.writtenOut d.tokens ∧
      Observed d after := by
  obtain ⟨after, flushed⟩ : ∃ after, Node.flush e = .ok () after := by
    cases phase : e.node.phase with
    | flushed => exact ⟨e, flush_flushed phase⟩
    | buffering =>
      apply (flush_returns_iff (observed.agree.sound fits.sound) phase).2
      rcases observed.node with same | ahead
      · intro value mem
        rw [same] at mem
        obtain ⟨entry, held, rfl⟩ := List.mem_map.1 mem
        exact fits.writable entry (List.mem_append_left _ held)
      · rw [ahead, Node.phase_writtenOut] at phase
        cases phase
  obtain ⟨node, agree⟩ := flush_eq_writtenOut flushed
  rw [observed.writtenOut] at node
  exact ⟨after, flushed, node, ⟨observed.agree.trans agree, .inr node⟩⟩

/-- A call does to a node that was looked at what it does to the other. -/
theorem observed_edit {call : NodeCall} {rest : List NodeCall} (fits : Fits d (call :: rest))
    (observed : Observed d e) (done : call.edit d = .ok () after) :
    ∃ last, call.edit e = .ok () last ∧ Observed after last := by
  obtain ⟨how, agree⟩ := edit_eq_ok done
  obtain ⟨mid, flushed, -, -⟩ := observed_flush fits observed
  have together {last : Node.Desk} (onward : e.tokens.Agrees last.tokens) :
      after.tokens.Agrees last.tokens := agree.symm.trans (observed.agree.trans onward)
  cases how with
  | written writes added argument node =>
    have writesToo : e.node.phase = .flushed ∨ effective [call] ≠ [] := by
      apply writes.imp_left
      intro phase
      rcases observed.node with same | ahead
      · rw [same, phase]
      · rw [ahead, Node.phase_writtenOut]
    have sameArgument : (call.argument e.node.separator).outcome e.tokens = .ok added := by
      rw [observed.separator, ← ((looksUp_argument _ _).alike observed.agree).1, argument]
    obtain ⟨last, edited, left, onward⟩ := edit_returns writesToo flushed sameArgument
    refine ⟨last, edited, together onward, .inl ?_⟩
    rw [left, observed.writtenOut, node]
  | held name value same buffering node =>
    subst same
    cases phase : e.node.phase with
    | buffering =>
      have sameNode : e.node = d.node := by
        rcases observed.node with same | ahead
        · exact same
        · rw [ahead, Node.phase_writtenOut] at phase
          cases phase
      let last : Node.Desk := ⟨e.tokens, { e.node with base := e.node.base.put name value }⟩
      have edited : (NodeCall.base name value).edit e = .ok () last := by
        simp only [edit, Node.addBase, get_bind_apply, phase, Node.change, modify_apply, last]
      refine ⟨last, edited, together (refl e.tokens), .inl ?_⟩
      rw [node, ← sameNode]
    | flushed =>
      -- Here the value is written at once, right where it would come when it was held back.
      have fitsValue : value.IsWritable :=
        fits.writable (name, value) (List.mem_append_right _ List.mem_cons_self)
      obtain ⟨text, tokens, written⟩ :=
        (normalize_returns_iff (observed.agree.sound fits.sound) value).2 fitsValue
      have argument : ((NodeCall.base name value).argument e.node.separator).outcome e.tokens =
        .ok (some ⟨none, text⟩) := outcome_of_ok (bind_of_ok written)
      obtain ⟨last, edited, left, onward⟩ := edit_returns (.inl phase) flushed argument
      refine ⟨last, edited, together onward, .inr ?_⟩
      have spelled : d.tokens.spell value = text := by
        rw [observed.agree.spell, Tokens.spell_of_ok written]
      have held : after.node.phase = .buffering := by rw [node, buffering]
      rw [left, observed.writtenOut, Node.writtenOut_buffering buffering,
        ← Node.writtenOut_agrees agree, Node.writtenOut_buffering held, node, fits.put_eq]
      simp [stored, Node.cutShort, written_positional, spelled]

/-! ## Looks in the workspace -/

/-- What work on a node leaves of the workspace. -/
structure Left (ref : Ref .node) (before : Workspace) (desk : Node.Desk) (after : Workspace) :
    Prop where
  tokens : after.tokens = desk.tokens
  node : after.nodes.get? ref = some desk.node
  names : ∀ cls, after.names.view cls = before.names.view cls
  graphs : ∀ graph, (before.graphs.get? graph).isSome → (after.graphs.get? graph).isSome

variable {w : Workspace} {ref : Ref .node} {node : Node} {desk : Node.Desk}

theorem left_render (present : w.nodes.get? ref = some node)
    (flushed : Node.flush ⟨w.tokens, node⟩ = .ok () desk) :
    ∃ rest, Node.render ref w = .ok (desk.node.expression (node.nameIn w.names)) rest ∧
      Left ref w desk rest := by
  refine ⟨_, Node.render_of_flush present flushed, rfl, Store.get?_put_self present, ?_, ?_⟩
  · intro cls
    exact FilterNames.view_settleAll _ _ _
  · intro graph there
    exact there

theorem left_perform (present : w.nodes.get? ref = some node) {call : NodeCall}
    (edited : call.edit ⟨w.tokens, node⟩ = .ok () desk) :
    ∃ rest, call.perform ref w = .ok () rest ∧ Left ref w desk rest := by
  cases call with
  | render =>
    obtain ⟨rest, rendered, left⟩ := left_render present edited
    exact ⟨rest, bind_of_ok rendered, left⟩
  | _ =>
    exact ⟨_, run_of_ok present edited, rfl, Store.get?_put_self present, fun _ => rfl,
      fun _ there => there⟩

/-- Adding a node to a graph does to it what rendering it does. -/
theorem left_addItems (present : w.nodes.get? ref = some node)
    (flushed : Node.flush ⟨w.tokens, node⟩ = .ok () desk) {graph : Ref .graph}
    (known : (w.graphs.get? graph).isSome) :
    ∃ rest, Graph.addItems graph [.node ref] w = .ok () rest ∧ Left ref w desk rest := by
  obtain ⟨mid, rendered, left⟩ := left_render present flushed
  have expressed : Graph.expressionOf (.node ref) w =
      .ok (some (desk.node.expression (node.nameIn w.names))) mid := bind_of_ok rendered
  generalize desk.node.expression (node.nameIn w.names) = text at expressed
  obtain ⟨old, there⟩ := Option.isSome_iff_exists.1 (left.graphs graph known)
  rw [Graph.addItems, bind_of_ok expressed]
  by_cases empty : text = ""
  · exact ⟨mid, by simp [empty, Graph.addItems], left⟩
  · have added := Graph.change_apply there fun graph =>
      { graph with nodes := graph.nodes ++ [text] }
    simp only [Option.getD_some, ne_eq, empty, not_false_eq_true, if_true]
    refine ⟨_, bind_eq_ok.2 ⟨(), _, added, rfl⟩, left.tokens, left.node, left.names, ?_⟩
    intro other was
    exact (Store.isSome_get?_modify mid.graphs graph other _).trans (left.graphs other was)

/-- Calls other than those that register base arguments flush a node, and it stays so. -/
theorem flushed_of_calls {calls : List NodeCall} (done : calls.forM edit d = .ok () after)
    (flushes : d.node.phase = .flushed ∨ effective calls ≠ []) : after.node.phase = .flushed := by
  induction calls generalizing d with
  | nil =>
    cases done
    exact flushes.resolve_right fun some => some rfl
  | cons call rest ih =>
    obtain ⟨_, mid, first, done⟩ := bind_eq_ok.1 done
    apply ih done
    cases (edit_eq_ok first).1 with
    | held name value same buffering node =>
      subst same
      rcases flushes with phase | flushes
      · rw [buffering] at phase
        cases phase
      · exact .inr flushes
    | written writes added argument node =>
      left
      rw [node]
      exact Node.phase_writtenOut _ _

end NodeCall

/-! ## Runs with looks -/

/-- A call on a node, or a look at it: its text, or an addition of it to a graph. -/
inductive NodeGlance where
  | add (call : NodeCall)
  | render
  | addTo (graph : Ref .graph)

namespace NodeGlance

open NodeCall

def perform (ref : Ref .node) : NodeGlance → Work Unit
  | .add call => call.perform ref
  | .render => do let _ ← Node.render ref
  | .addTo graph => Graph.addItems graph [.node ref]

/-- The calls of a run without the looks. -/
def calls (steps : List NodeGlance) : List NodeCall :=
  steps.filterMap fun
    | .add call => some call
    | .render | .addTo _ => none

variable {ref : Ref .node} {w u plain : Workspace} {node other : Node}

/-- Two workspaces with the same node, of which the second may have been looked at. -/
structure Beside (ref : Ref .node) (w u : Workspace) (node other : Node) : Prop where
  present : w.nodes.get? ref = some node
  seen : u.nodes.get? ref = some other
  observed : Observed ⟨w.tokens, node⟩ ⟨u.tokens, other⟩
  names : ∀ cls, u.names.view cls = w.names.view cls

/-- A call in both runs leaves the nodes beside one another. -/
theorem Beside.call {mid v : Workspace} {desk last : Node.Desk} (beside : Beside ref w u node other)
    (left : Left ref w desk mid) (leftSeen : Left ref u last v) (ahead : Observed desk last) :
    Beside ref mid v desk.node last.node where
  present := left.node
  seen := leftSeen.node
  observed := by
    rw [left.tokens, leftSeen.tokens]
    exact ahead
  names cls := by rw [leftSeen.names, left.names, beside.names]

/-- So does a look in the second one. -/
theorem Beside.look {v : Workspace} {last : Node.Desk} (beside : Beside ref w u node other)
    (leftSeen : Left ref u last v) (ahead : Observed ⟨w.tokens, node⟩ last) :
    Beside ref w v node last.node where
  present := beside.present
  seen := leftSeen.node
  observed := by
    rw [leftSeen.tokens]
    exact ahead
  names cls := (leftSeen.names cls).trans (beside.names cls)

/-- A look at a node whose base values can be written returns, and writes the node out. -/
theorem perform_of_flush {step : NodeGlance} (looks : calls [step] = []) {desk : Node.Desk}
    (present : u.nodes.get? ref = some other)
    (flushed : Node.flush ⟨u.tokens, other⟩ = .ok () desk)
    (known : ∀ graph, step = .addTo graph → (u.graphs.get? graph).isSome) :
    ∃ v, step.perform ref u = .ok () v ∧ Left ref u desk v := by
  cases step with
  | add call => cases looks
  | render =>
    obtain ⟨v, rendered, left⟩ := left_render present flushed
    exact ⟨v, bind_of_ok rendered, left⟩
  | addTo graph => exact left_addItems present flushed (known graph rfl)

/-- A run with looks returns when the run without them does, and leaves the same node beside its
own. -/
theorem beside_run {steps : List NodeGlance} (beside : Beside ref w u node other)
    (fits : Fits ⟨w.tokens, node⟩ (calls steps))
    (known : ∀ graph, .addTo graph ∈ steps → (u.graphs.get? graph).isSome)
    (done : (calls steps).forM (NodeCall.perform ref) w = .ok () plain) :
    ∃ seen last later, steps.forM (perform ref) u = .ok () seen ∧
      Beside ref plain seen last later ∧ Fits ⟨plain.tokens, last⟩ [] := by
  induction steps generalizing w u node other with
  | nil =>
    cases done
    exact ⟨u, node, other, rfl, beside, fits⟩
  | cons step rest ih =>
    have knownLater {v : Workspace} {desk : Node.Desk} (left : Left ref u desk v) :
        ∀ graph, .addTo graph ∈ rest → (v.graphs.get? graph).isSome := by
      intro graph mem
      exact left.graphs graph (known graph (List.mem_cons_of_mem _ mem))
    have onward {v seen : Workspace} (first : step.perform ref u = .ok () v)
        (ran : rest.forM (perform ref) v = .ok () seen) :
        (step :: rest).forM (perform ref) u = .ok () seen := bind_eq_ok.2 ⟨(), v, first, ran⟩
    by_cases looks : calls [step] = []
    · -- A look is no step of the run without looks, whose node stays where it is.
      have same : calls (step :: rest) = calls rest := by
        rw [← List.singleton_append, calls, List.filterMap_append]
        exact congrArg (· ++ calls rest) looks
      rw [same] at fits done
      obtain ⟨desk, flushed, -, ahead⟩ := observed_flush fits beside.observed
      obtain ⟨v, performed, left⟩ := perform_of_flush looks beside.seen flushed fun graph which =>
        known graph (which ▸ List.mem_cons_self)
      obtain ⟨seen, last, later, ran, result⟩ :=
        ih (beside.look left ahead) fits (knownLater left) done
      exact ⟨seen, last, later, onward performed ran, result⟩
    · cases step with
      | add call =>
        obtain ⟨_, mid, first, done⟩ := bind_eq_ok.1 done
        obtain ⟨desk, edited, -, -⟩ := perform_eq_ok beside.present first
        obtain ⟨_, same, left⟩ := left_perform beside.present edited
        cases first.symm.trans same
        obtain ⟨last, editedSeen, ahead⟩ := observed_edit fits beside.observed edited
        obtain ⟨v, performed, leftSeen⟩ := left_perform beside.seen editedSeen
        have fitsNext : Fits ⟨mid.tokens, desk.node⟩ (calls rest) := by
          rw [left.tokens]
          exact fits_edit fits edited
        obtain ⟨seen, final, later, ran, result⟩ :=
          ih (beside.call left leftSeen ahead) fitsNext (knownLater leftSeen) done
        exact ⟨seen, final, later, onward performed ran, result⟩
      | render | addTo graph => exact absurd rfl looks

theorem nameIn_writtenOut {names others : FilterNames}
    (same : ∀ cls, others.view cls = names.view cls) (tokens : Tokens) (node : Node) :
    (node.writtenOut tokens).nameIn others = node.nameIn names := by
  have kept : (node.writtenOut tokens).ownName = node.ownName ∧
      (node.writtenOut tokens).cls = node.cls := by
    unfold Node.writtenOut
    split
    · exact ⟨rfl, rfl⟩
    · exact ⟨rfl, rfl⟩
  rw [Node.nameIn, Node.nameIn, kept.1, kept.2, same]

/-- A node that was rendered is rendered alike the next time, and stays as it is. -/
theorem render_again {text : String} (done : Node.render ref w = .ok text u) :
    ∃ last, Node.render ref u = .ok text last ∧ last.nodes.get? ref = u.nodes.get? ref := by
  cases present : w.nodes.get? ref with
  | none =>
    have missing : Node.read ref w = .error .noObject w := require_of_none present
    have failed : Node.render ref w = .error .noObject w := bind_of_error (bind_of_error missing)
    cases failed.symm.trans done
  | some node =>
    obtain ⟨desk, flushed, -⟩ := render_eq_ok present done
    obtain ⟨_, rendered, left⟩ := left_render present flushed
    cases rendered.symm.trans done
    have phase := (flushedTo_of_ok flushed).phase
    have still : Node.flush ⟨u.tokens, desk.node⟩ = .ok () ⟨u.tokens, desk.node⟩ :=
      flush_flushed phase
    obtain ⟨last, again, kept⟩ := left_render left.node still
    refine ⟨last, ?_, kept.node.trans left.node.symm⟩
    rw [again, (flush_eq_writtenOut flushed).1, nameIn_writtenOut left.names]

/-- **Looking at a node does not change what it becomes.** Take any node, and any calls on it that
all succeed, where no base name comes twice and every base value can be written. Whatever looks are
taken in between, the calls succeed again. A final rendering gives the same text and leaves the same
node, arguments included. Before it the node is the same, too, unless each call registered a base
argument, in which case the run without looks still holds them back. And rendering a node twice
gives the same text. -/
theorem looks_keep {steps : List NodeGlance} (sound : w.tokens.Sound)
    (present : w.nodes.get? ref = some node)
    (distinct : ((node.base ++ registered (calls steps)).map (·.1)).Nodup)
    (writable : ∀ entry ∈ node.base ++ registered (calls steps), entry.2.IsWritable)
    (known : ∀ graph, .addTo graph ∈ steps → (w.graphs.get? graph).isSome)
    (done : (calls steps).forM (NodeCall.perform ref) w = .ok () plain) :
    ∃ seen, steps.forM (perform ref) w = .ok () seen ∧
      (∃ text final first second,
        Node.render ref plain = .ok text first ∧ Node.render ref seen = .ok text second ∧
        first.nodes.get? ref = some final ∧ second.nodes.get? ref = some final) ∧
      (node.phase = .flushed ∨ effective (calls steps) ≠ [] →
        seen.nodes.get? ref = plain.nodes.get? ref) ∧
      ∀ (other : Ref .node) (v rest : Workspace) (text : String),
        Node.render other v = .ok text rest →
          ∃ last, Node.render other rest = .ok text last ∧
            last.nodes.get? other = rest.nodes.get? other := by
  have start : Beside ref w w node node :=
    ⟨present, present, ⟨refl w.tokens, .inl rfl⟩, fun _ => rfl⟩
  obtain ⟨seen, last, later, ran, ⟨there, here, observed, names⟩, fits⟩ :=
    beside_run start ⟨sound, distinct, writable⟩ known done
  refine ⟨seen, ran, ?_, ?_, fun other v rest text rendered => render_again rendered⟩
  · have alone : Observed ⟨plain.tokens, last⟩ ⟨plain.tokens, last⟩ :=
      ⟨refl plain.tokens, .inl rfl⟩
    obtain ⟨one, flushed, oneNode, -⟩ := observed_flush fits alone
    obtain ⟨two, flushedSeen, twoNode, -⟩ := observed_flush fits observed
    obtain ⟨first, rendered, left⟩ := left_render there flushed
    obtain ⟨second, renderedSeen, leftSeen⟩ := left_render here flushedSeen
    have name : later.nameIn seen.names = last.nameIn plain.names := by
      rw [← nameIn_writtenOut (fun _ => rfl) seen.tokens later, observed.writtenOut,
        nameIn_writtenOut names]
    rw [name, twoNode] at renderedSeen
    rw [oneNode] at rendered
    refine ⟨_, _, first, second, rendered, renderedSeen, left.node, ?_⟩
    rw [leftSeen.node, twoNode, oneNode]
  · intro flushes
    obtain ⟨desk, edited, -, same⟩ := performs_eq_ok present done
    cases there.symm.trans same
    have phase : desk.node.phase = .flushed := flushed_of_calls edited flushes
    rw [here, there]
    rcases observed.node with equal | ahead
    · exact congrArg some equal
    · rw [Node.writtenOut_flushed phase] at ahead
      exact congrArg some ahead

/-- A workspace with a node that carries its own name, and a graph. -/
def desktop : Workspace := { holding [] with graphs := ⟨[Graph.fresh none]⟩ }

/-- Two base arguments and a named one, looked at after the first and the second. -/
def glances : List NodeGlance :=
  [.add (.base (some "w") (.int 1280)), .render, .add (.base (some "h") (.int 720)),
    .addTo ⟨0⟩, .add (.arg (some "flags") [.text "area"])]

theorem looks_keep_glances :
    ∃ seen rest, glances.forM (perform ⟨0⟩) desktop = .ok () seen ∧
      Node.render ⟨0⟩ seen = .ok "f=1280:720:flags=area" rest := by
  have present : desktop.nodes.get? ⟨0⟩ =
    some { Node.freshNamed .custom (some "f") ":" with base := [] } := rfl
  have done : (calls glances).forM (NodeCall.perform ⟨0⟩) desktop = .ok () _ := eq_ok_after rfl
  obtain ⟨seen, ran, ⟨text, final, first, second, rendered, same, -, -⟩, -, -⟩ :=
    looks_keep Tokens.sound_initial present (by decide)
      (by simp [glances, calls, registered, Value.IsWritable]; decide)
      (by simp [glances, desktop]; rfl) done
  have plain : (Node.render ⟨0⟩).outcome
      (((calls glances).forM (NodeCall.perform ⟨0⟩)).after desktop) =
    .ok "f=1280:720:flags=area" := rfl
  rw [outcome_of_ok rendered] at plain
  injection plain with plain
  rw [plain] at same
  exact ⟨seen, second, ran, same⟩

/-- A base argument that is held back shows as soon as the node is looked at. -/
theorem look_shows_held :
    let call := NodeCall.base (some "w") (.int 1)
    ∃ plain seen, [call].forM (NodeCall.perform ⟨0⟩) desktop = .ok () plain ∧
      [.add call, .render].forM (perform ⟨0⟩) desktop = .ok () seen ∧
      (plain.nodes.get? ⟨0⟩).map Node.arguments = some [] ∧
      (seen.nodes.get? ⟨0⟩).map Node.arguments = some [⟨none, some "1"⟩] :=
  ⟨_, _, rfl, rfl, rfl, rfl⟩

end NodeGlance

end MediaCommand
