import MediaCommand.Graph.Workspace
import MediaCommand.Proofs.Action
import MediaCommand.Proofs.Keyed

/-!
# The arguments that calls leave on a node

`NodeCall.reference` says which arguments a run of calls on a fresh node stores, without phases or
buffers: the last value of each base name that came before the first other call, in order of the
names, and then what each later call adds. `arguments_of_calls` shows that the node stores just
these. The run is cut at the call that flushes. Before it the base arguments are the list of writes
so far (`buffered_run`), after it each call adds its argument to what is there (`flushed_run`).
-/

namespace MediaCommand

open MediaCommand.Action

/-- A call that adds to a node or renders it. -/
inductive NodeCall where
  | base (name : Option String) (value : Value)
  | joined (name : Option String) (separator : String) (values : List Value)
  | arg (name : Option String) (values : List Value)
  | single (value : Value)
  | several (values : List Value)
  | status (name : Option String) (state : Value)
  | enable (name : Option String)
  | disable (name : Option String)
  | render

/-- Whether nothing has been added to a node since it was made. -/
def Node.IsFresh (node : Node) : Prop :=
  node.phase = .buffering ∧ node.base = [] ∧ node.arguments = []

namespace NodeCall

/-- What a call does with its node. -/
def edit : NodeCall → Node.Edit Unit
  | .base name value => Node.addBase name value
  | .joined name separator values => Node.addJoined name separator values
  | .arg name values => Node.add name values
  | .single value => Node.add none [value]
  | .several values => Node.add none values
  | .status name state => Node.addSwitch name state
  | .enable name => Node.addSwitch name (.bool true)
  | .disable name => Node.addSwitch name (.bool false)
  | .render => Node.flush

/-- Makes a call on a node of the workspace. -/
def perform (ref : Ref .node) : NodeCall → Work Unit
  | .render => do let _ ← Node.render ref
  | call => Node.run ref call.edit

/-! ## The reference -/

/-- The base arguments registered before the first other call. -/
def held : List NodeCall → List (Option String × Value)
  | .base name value :: rest => (name, value) :: held rest
  | _ => []

/-- The first call that does not register a base argument, and all after it. -/
def effective : List NodeCall → List NodeCall
  | .base _ _ :: rest => effective rest
  | calls => calls

theorem effective_append {early : List NodeCall} (started : effective early ≠ [])
    (late : List NodeCall) : effective (early ++ late) ≠ [] := by
  induction early with
  | nil => exact absurd rfl started
  | cons call rest ih =>
    cases call with
    | base name value => exact ih started
    | _ => exact List.cons_ne_nil _ _

/-- An argument whose text is looked up. -/
def withText (name : Option String) (text : Action Tokens (Option String)) :
    Action Tokens (Option FilterArgument) := do
  return some ⟨name, ← text⟩

/-- The argument that a call adds once base arguments are no longer held back. -/
def argument (separator : String) : NodeCall → Action Tokens (Option FilterArgument)
  | .base _ value => withText none (normalize value)
  | .joined name between values => withText name (Node.joined between values)
  | .arg name values => withText name (Node.joined separator values)
  | .single value => withText none (normalize value)
  | .several values => withText none (Node.joined separator values)
  | .status name state => return some ⟨name, some (if state.isTruthy then "1" else "0")⟩
  | .enable name => return some ⟨name, some "1"⟩
  | .disable name => return some ⟨name, some "0"⟩
  | .render => return none

/-- Arguments after one more: a name that occurs gets its value replaced where it stands, anything
else comes last. -/
def placed (done : List FilterArgument) (argument : FilterArgument) : List FilterArgument :=
  if argument.name ≠ none ∧ argument.name ∈ done.map (·.name) then
    done.map fun other => if other.name = argument.name then argument else other
  else done ++ [argument]

/-- Arguments after the effect of calls in turn. -/
def inTurn (separator : String) (done : List FilterArgument) :
    List NodeCall → Action Tokens (List FilterArgument)
  | [] => return done
  | call :: rest => do
    let added ← call.argument separator
    inTurn separator (added.elim done (placed done)) rest

/-- The arguments that calls on a fresh node leave. -/
def reference (separator : String) (calls : List NodeCall) :
    Action Tokens (List FilterArgument) := do
  match effective calls with
  | [] => return []
  | later =>
    let texts ← normalizeAll (Keyed.lastValues (held calls))
    inTurn separator (texts.map (⟨none, ·⟩)) later

/-- Whether a call adds a positional argument once base arguments are no longer held back. -/
def addsPositional : NodeCall → Bool
  | .base _ _ | .single _ | .several _ => true
  | .joined name _ _ | .arg name _ | .status name _ | .enable name | .disable name => name.isNone
  | .render => false

/-- The number of positional arguments that calls leave: one for each base name held back, once
they are written, and one for each later call that adds one. -/
def positionals (calls : List NodeCall) : Nat :=
  match effective calls with
  | [] => 0
  | later => (Keyed.firstKeys (held calls)).length + later.countP addsPositional

/-! ## One argument more -/

/-- No two named arguments have the same name. -/
def DistinctNames (arguments : List FilterArgument) : Prop :=
  (arguments.filterMap (·.name)).Nodup

theorem mem_names {done : List FilterArgument} {name : String} :
    name ∈ done.filterMap (·.name) ↔ some name ∈ done.map (·.name) := by
  simp

theorem map_overwrite {done : List FilterArgument} {argument : FilterArgument}
    (absent : argument.name ∉ done.map (·.name)) :
    (done.map fun other => if other.name = argument.name then argument else other) = done := by
  refine (List.map_congr_left fun other mem => if_neg fun same => absent ?_).trans
    (List.map_id' done)
  rw [← same]
  exact List.mem_map_of_mem mem

/-- Writing replaces the first argument of a name. Where names are distinct, that is the only
one. -/
theorem written_eq_placed {done : List FilterArgument} (distinct : DistinctNames done)
    (argument : FilterArgument) : Node.written done argument = placed done argument := by
  induction done with
  | nil => simp [Node.written, placed]
  | cons first rest ih =>
    have restDistinct : DistinctNames rest :=
      List.Nodup.sublist ((List.sublist_cons_self first rest).filterMap _) distinct
    by_cases here : argument.name ≠ none ∧ first.name = argument.name
    · obtain ⟨named, same⟩ := here
      have absent : argument.name ∉ rest.map (·.name) := by
        obtain ⟨name, given⟩ := Option.ne_none_iff_exists'.1 named
        rw [DistinctNames, List.filterMap_cons_some (same.trans given)] at distinct
        rw [given, ← mem_names]
        exact (List.nodup_cons.1 distinct).1
      rw [Node.written, if_pos ⟨named, same⟩, placed, if_pos ⟨named, by simp [same]⟩,
        List.map_cons, if_pos same, map_overwrite absent]
    · rw [Node.written, if_neg here, ih restDistinct]
      by_cases named : argument.name = none
      · simp [placed, named]
      · have differ : first.name ≠ argument.name := fun same => here ⟨named, same⟩
        simp only [placed, List.map_cons, List.mem_cons, differ.symm, false_or, if_neg differ,
          List.cons_append]
        split <;> rfl

/-- Overwriting keeps the names, and adding adds one that is new. -/
theorem distinctNames_placed {done : List FilterArgument} (distinct : DistinctNames done)
    (argument : FilterArgument) : DistinctNames (placed done argument) := by
  unfold placed DistinctNames
  split
  · have same : (done.map fun other =>
        if other.name = argument.name then argument else other).filterMap (·.name) =
          done.filterMap (·.name) := by
      rw [List.filterMap_map]
      refine List.filterMap_congr fun other _ => ?_
      by_cases here : other.name = argument.name
      · simp [here]
      · simp [here]
    rw [same]
    exact distinct
  · next new =>
    rw [List.filterMap_append]
    cases given : argument.name with
    | none =>
      rw [List.filterMap_cons_none given, List.filterMap_nil, List.append_nil]
      exact distinct
    | some name =>
      have absent : name ∉ done.filterMap (·.name) := by
        rw [mem_names, ← given]
        exact fun present => new ⟨by simp [given], present⟩
      rw [List.filterMap_cons_some given, List.filterMap_nil]
      exact List.nodup_append_comm.1 (List.nodup_cons.2 ⟨absent, distinct⟩)

theorem countP_placed (done : List FilterArgument) (argument : FilterArgument) :
    (placed done argument).countP (·.isPositional) =
      done.countP (·.isPositional) + if argument.isPositional then 1 else 0 := by
  unfold placed
  split
  · next named =>
    have keeps : (done.map fun other =>
        if other.name = argument.name then argument else other).countP (·.isPositional) =
          done.countP (·.isPositional) := by
      rw [List.countP_map]
      refine List.countP_congr fun other _ => ?_
      by_cases here : other.name = argument.name
      · simp [here, FilterArgument.isPositional]
      · simp [here]
    have counted : argument.isPositional = false := by
      simpa [FilterArgument.isPositional, Option.isSome_iff_ne_none] using named.1
    rw [keeps, counted]
    rfl
  · simp [List.countP_append]

/-! ## Calls on a node -/

/-- The node after one argument more, if there is one. -/
def stored (node : Node) (added : Option FilterArgument) : Node :=
  { node with arguments := added.elim node.arguments (Node.written node.arguments) }

theorem flush_flushed {d : Node.Desk} (flushed : d.node.phase = .flushed) :
    Node.flush d = .ok () d := by
  simp only [Node.flush, get_bind_apply, flushed, pure_apply]

theorem store_apply (name : Option String) (text : Action Tokens (Option String)) (d : Node.Desk) :
    (do let text ← Node.withTokens text
        Node.change (·.store name text)) d =
      (do let added ← Node.withTokens (withText name text)
          Node.change (stored · added)) d := by
  simp only [Node.withTokens, withText, bind, EStateM.bind, within]
  cases text d.tokens <;> rfl

theorem addJoined_flushed {d : Node.Desk} (flushed : d.node.phase = .flushed)
    (name : Option String) (between : String) (values : List Value) :
    Node.addJoined name between values d =
      (do let added ← Node.withTokens (withText name (Node.joined between values))
          Node.change (stored · added)) d := by
  rw [Node.addJoined, bind_of_ok (flush_flushed flushed), store_apply]

theorem switch_text (between : String) (state : Value) :
    Node.joined between [.int (if state.isTruthy then 1 else 0)] =
      pure (some (if state.isTruthy then "1" else "0")) := by
  cases state.isTruthy <;> rfl

/-- What a call does on a node that holds nothing back. -/
theorem edit_flushed {d : Node.Desk} (flushed : d.node.phase = .flushed) (call : NodeCall) :
    call.edit d = (do
      let added ← Node.withTokens (call.argument d.node.separator)
      Node.change (stored · added)) d := by
  cases call with
  | base name value =>
    rw [edit, Node.addBase, get_bind_apply, flushed]
    exact store_apply none _ d
  | joined name between values => exact addJoined_flushed flushed name between values
  | arg name values => exact addJoined_flushed flushed name _ values
  | single value => exact addJoined_flushed flushed none _ [value]
  | several values => exact addJoined_flushed flushed none _ values
  | status name state =>
    refine (addJoined_flushed flushed name _ _).trans ?_
    rw [switch_text]
    rfl
  | enable name => exact addJoined_flushed flushed name _ _
  | disable name => exact addJoined_flushed flushed name _ _
  | render =>
    rw [edit, flush_flushed flushed]
    rfl

/-- An argument without a name, or with a new one, comes last. -/
theorem written_new {done : List FilterArgument} {argument : FilterArgument}
    (new : argument.name ≠ none → argument.name ∉ done.map (·.name)) :
    Node.written done argument = done ++ [argument] := by
  induction done with
  | nil => rfl
  | cons first rest ih =>
    have other : ¬(argument.name ≠ none ∧ first.name = argument.name) := by
      rintro ⟨named, same⟩
      exact new named (by simp [same])
    rw [Node.written, if_neg other, ih fun named mem => new named (List.mem_cons_of_mem _ mem),
      List.cons_append]

theorem written_positional (done : List FilterArgument) (text : Option String) :
    Node.written done ⟨none, text⟩ = done ++ [⟨none, text⟩] :=
  written_new fun named => absurd rfl named

theorem storeAll_eq_ok {values : List Value} {d after : Node.Desk}
    (done : Node.storeAll values d = .ok () after) :
    ∃ texts, normalizeAll values d.tokens = .ok texts after.tokens ∧
      after.node = { d.node with arguments := d.node.arguments ++ texts.map (⟨none, ·⟩) } := by
  induction values generalizing d with
  | nil =>
    cases done
    exact ⟨[], rfl, by simp⟩
  | cons value rest ih =>
    obtain ⟨text, mid, looked, done⟩ := bind_eq_ok.1 done
    obtain ⟨tokens, normal, rfl⟩ := within_eq_ok.1 looked
    obtain ⟨texts, normals, node⟩ := ih done
    refine ⟨text :: texts, ?_, ?_⟩
    · rw [normalizeAll, bind_of_ok normal, bind_of_ok normals, pure_apply]
    · simp [node, Node.store, written_positional]

/-- What a flush does to a node. -/
structure FlushedTo (before after : Node.Desk) : Prop where
  phase : after.node.phase = .flushed
  separator : after.node.separator = before.node.separator
  arguments : before.node.phase = .buffering → ∃ texts,
    normalizeAll (before.node.base.map (·.2)) before.tokens = .ok texts after.tokens ∧
      after.node.arguments = before.node.arguments ++ texts.map (⟨none, ·⟩)

theorem flushedTo_of_ok {d after : Node.Desk} (done : Node.flush d = .ok () after) :
    FlushedTo d after := by
  cases phase : d.node.phase with
  | flushed =>
    cases (flush_flushed phase).symm.trans done
    exact ⟨phase, rfl, fun buffering => by cases phase.symm.trans buffering⟩
  | buffering =>
    simp only [Node.flush, get_bind_apply, phase] at done
    obtain ⟨texts, normals, node⟩ := storeAll_eq_ok done
    exact ⟨by rw [node], by rw [node], fun _ => ⟨texts, normals, by rw [node]⟩⟩

theorem addJoined_flushes (name : Option String) (between : String) (values : List Value)
    (d : Node.Desk) :
    Node.addJoined name between values d =
      (do Node.flush; Node.addJoined name between values) d := by
  cases run : Node.flush d with
  | ok _ mid =>
    have again := flush_flushed (flushedTo_of_ok run).phase
    rw [bind_of_ok run, Node.addJoined, bind_of_ok run, bind_of_ok again]
  | error failure mid => rw [bind_of_error run, Node.addJoined, bind_of_error run]

theorem add_flushes (name : Option String) (values : List Value) (d : Node.Desk) :
    Node.add name values d = (do Node.flush; Node.add name values) d := by
  rw [Node.add, get_bind_apply, addJoined_flushes]
  cases run : Node.flush d with
  | ok _ mid =>
    rw [bind_of_ok run, bind_of_ok run, get_bind_apply, (flushedTo_of_ok run).separator]
  | error failure mid => rw [bind_of_error run, bind_of_error run]

/-- A call that does not register a base argument flushes first. -/
theorem edit_flushes {call : NodeCall} (flushes : effective [call] ≠ []) (d : Node.Desk) :
    call.edit d = (do Node.flush; call.edit) d := by
  cases call with
  | base name value => exact absurd rfl flushes
  | joined name between values => exact addJoined_flushes name between values d
  | render =>
    cases run : Node.flush d with
    | ok _ mid =>
      have again := flush_flushed (flushedTo_of_ok run).phase
      rw [bind_of_ok run, edit, run, again]
    | error failure mid => rw [bind_of_error run, edit, run]
  | _ => exact add_flushes _ _ d

/-! ## Runs -/

/-- What calls on a node that holds nothing back make of its arguments. -/
structure RanTo (separator : String) (done : List FilterArgument) (calls : List NodeCall)
    (tokens : Tokens) (after : Node.Desk) : Prop where
  phase : after.node.phase = .flushed
  arguments : inTurn separator done calls tokens = .ok after.node.arguments after.tokens
  distinct : DistinctNames after.node.arguments
  positionals : after.node.arguments.countP (·.isPositional) =
    done.countP (·.isPositional) + calls.countP addsPositional

/-- One call adds its argument. -/
theorem flushed_step {d after : Node.Desk} (flushed : d.node.phase = .flushed)
    (distinct : DistinctNames d.node.arguments) {call : NodeCall}
    (done : call.edit d = .ok () after) :
    ∃ added, call.argument d.node.separator d.tokens = .ok added after.tokens ∧
      after.node = { d.node with
        arguments := added.elim d.node.arguments (placed d.node.arguments) } := by
  rw [edit_flushed flushed] at done
  obtain ⟨added, mid, looked, done⟩ := bind_eq_ok.1 done
  obtain ⟨tokens, text, rfl⟩ := within_eq_ok.1 looked
  cases done
  refine ⟨added, text, ?_⟩
  cases added with
  | none => rfl
  | some argument => simp [stored, written_eq_placed distinct]

theorem argument_positional {separator : String} {call : NodeCall} {tokens after : Tokens}
    {added : Option FilterArgument} (looked : call.argument separator tokens = .ok added after) :
    added.elim false (·.isPositional) = call.addsPositional := by
  have named {name : Option String} {text : Action Tokens (Option String)}
      (looked : withText name text tokens = .ok added after) :
      added.elim false (·.isPositional) = name.isNone := by
    obtain ⟨text, mid, -, done⟩ := bind_eq_ok.1 looked
    cases done
    rfl
  cases call with
  | status name state | enable name | disable name | render =>
    cases looked
    rfl
  | _ => exact named looked

theorem distinctNames_added {done : List FilterArgument} (distinct : DistinctNames done)
    (added : Option FilterArgument) : DistinctNames (added.elim done (placed done)) := by
  cases added with
  | none => exact distinct
  | some argument => exact distinctNames_placed distinct argument

theorem countP_added (done : List FilterArgument) (added : Option FilterArgument) :
    (added.elim done (placed done)).countP (·.isPositional) =
      done.countP (·.isPositional) +
        if added.elim false (·.isPositional) then 1 else 0 := by
  cases added with
  | none => rfl
  | some argument => exact countP_placed done argument

/-- Calls after the flush each add their argument. -/
theorem flushed_run {calls : List NodeCall} {d after : Node.Desk}
    (flushed : d.node.phase = .flushed) (distinct : DistinctNames d.node.arguments)
    (done : calls.forM edit d = .ok () after) :
    RanTo d.node.separator d.node.arguments calls d.tokens after := by
  induction calls generalizing d with
  | nil =>
    cases done
    exact ⟨flushed, rfl, distinct, rfl⟩
  | cons call rest ih =>
    obtain ⟨_, mid, first, done⟩ := bind_eq_ok.1 done
    obtain ⟨added, looked, node⟩ := flushed_step flushed distinct first
    have ran := ih (by rw [node, flushed])
      (by rw [node]; exact distinctNames_added distinct added) done
    simp only [node] at ran
    refine ⟨ran.phase, ?_, ran.distinct, ?_⟩
    · rw [inTurn, bind_of_ok looked]
      exact ran.arguments
    · rw [ran.positionals, countP_added, argument_positional looked, List.countP_cons]
      omega

/-- Before the flush, base arguments are held back as the writes that they are. -/
theorem buffered_run {calls : List NodeCall} {writes : List (Option String × Value)}
    {d after : Node.Desk} (done : calls.forM edit d = .ok () after)
    (buffering : d.node.phase = .buffering) (base : d.node.base = Keyed.ofList writes)
    (empty : d.node.arguments = []) :
    (effective calls = [] ∧ after.node.phase = .buffering ∧ after.node.arguments = [] ∧
      after.tokens = d.tokens) ∨
    (effective calls ≠ [] ∧ ∃ texts tokens,
      normalizeAll (Keyed.lastValues (writes ++ held calls)) d.tokens = .ok texts tokens ∧
        RanTo d.node.separator (texts.map (⟨none, ·⟩)) (effective calls) tokens after) := by
  induction calls generalizing d writes with
  | nil =>
    cases done
    exact .inl ⟨rfl, buffering, empty, rfl⟩
  | cons call rest ih =>
    by_cases flushes : effective [call] = []
    · cases call with
      | base name value =>
        obtain ⟨_, mid, first, done⟩ := bind_eq_ok.1 done
        simp only [edit, Node.addBase, get_bind_apply, buffering, Node.change,
          modify_apply] at first
        cases first
        have later := ih done rfl
          ((congrArg (·.put name value) base).trans (Keyed.ofList_concat _ _ _).symm) empty
        simpa [effective, held] using later
      | _ => cases flushes
    · -- This call flushes, so what was held back is complete and `flushed_run` does the rest.
      have cut : effective (call :: rest) = call :: rest ∧ held (call :: rest) = [] := by
        cases call with
        | base name value => exact absurd rfl flushes
        | _ => exact ⟨rfl, rfl⟩
      obtain ⟨_, next, first, done⟩ := bind_eq_ok.1 done
      rw [edit_flushes flushes] at first
      obtain ⟨_, mid, flushed, again⟩ := bind_eq_ok.1 first
      have flushedTo := flushedTo_of_ok flushed
      obtain ⟨texts, normals, written⟩ := flushedTo.arguments buffering
      rw [empty, List.nil_append] at written
      have ran : RanTo mid.node.separator mid.node.arguments (call :: rest) mid.tokens after := by
        refine flushed_run flushedTo.phase ?_ (bind_eq_ok.2 ⟨_, next, again, done⟩)
        rw [written, DistinctNames, List.filterMap_map]
        simp
      rw [written, flushedTo.separator] at ran
      rw [base, Keyed.values_ofList] at normals
      rw [cut.1, cut.2, List.append_nil]
      exact .inr ⟨List.cons_ne_nil _ _, texts, mid.tokens, normals, ran⟩

/-- What calls leave on a node. -/
structure Outcome (separator : String) (calls : List NodeCall) (tokens : Tokens)
    (after : Node.Desk) : Prop where
  arguments : reference separator calls tokens = .ok after.node.arguments after.tokens
  distinct : DistinctNames after.node.arguments
  positionals : after.node.arguments.countP (·.isPositional) = positionals calls
  phase : after.node.phase = .flushed ↔ effective calls ≠ []

theorem countP_positionals (texts : List (Option String)) :
    (texts.map (⟨none, ·⟩ : Option String → FilterArgument)).countP (·.isPositional) =
      texts.length := by
  rw [List.countP_map]
  exact List.countP_eq_length.2 fun _ _ => rfl

theorem length_normalizeAll {values : List Value} {tokens after : Tokens}
    {texts : List (Option String)} (done : normalizeAll values tokens = .ok texts after) :
    texts.length = values.length := by
  induction values generalizing tokens texts with
  | nil =>
    cases done
    rfl
  | cons value rest ih =>
    obtain ⟨text, mid, -, done⟩ := bind_eq_ok.1 done
    obtain ⟨others, last, later, done⟩ := bind_eq_ok.1 done
    cases done
    simp [ih later]

/-- Calls on a fresh node have the outcome that the reference gives. -/
theorem outcome_of_run {calls : List NodeCall} {d after : Node.Desk} (fresh : d.node.IsFresh)
    (done : calls.forM edit d = .ok () after) :
    Outcome d.node.separator calls d.tokens after := by
  obtain ⟨buffering, base, empty⟩ := fresh
  have nothing : d.node.base = Keyed.ofList [] := base
  rcases buffered_run done buffering nothing empty with
    ⟨none, phase, arguments, tokens⟩ | ⟨some, texts, tokens, normals, ran⟩
  · have reference : reference d.node.separator calls d.tokens = .ok [] d.tokens := by
      simp only [NodeCall.reference, none, pure_apply]
    refine ⟨by rw [reference, arguments, tokens], ?_, ?_, ?_⟩
    · rw [arguments]
      exact .nil
    · simp [arguments, NodeCall.positionals, none]
    · simp [phase, none]
  · rw [List.nil_append] at normals
    obtain ⟨first, rest, cut⟩ := List.exists_cons_of_ne_nil some
    rw [cut] at ran some
    refine ⟨?_, ran.distinct, ?_, ⟨fun _ => by rw [cut]; exact some, fun _ => ran.phase⟩⟩
    · simp only [reference, cut, bind_of_ok normals]
      exact ran.arguments
    · rw [ran.positionals, countP_positionals, length_normalizeAll normals,
        Keyed.length_lastValues]
      simp only [NodeCall.positionals, cut]

/-! ## Calls in the workspace -/

theorem read_apply {w : Workspace} {ref : Ref .node} {node : Node}
    (present : w.nodes.get? ref = some node) : Node.read ref w = .ok node w :=
  require_of_some present

theorem run_eq_ok {α : Type} {w after : Workspace} {ref : Ref .node} {node : Node}
    (present : w.nodes.get? ref = some node) {edit : Node.Edit α} {a : α}
    (done : Node.run ref edit w = .ok a after) :
    ∃ desk, edit ⟨w.tokens, node⟩ = .ok a desk ∧ after.tokens = desk.tokens ∧
      after.nodes.get? ref = some desk.node := by
  rw [Node.run, bind_of_ok (read_apply present)] at done
  obtain ⟨desk, edited, rfl⟩ := within_eq_ok.1 done
  exact ⟨desk, edited, rfl, Store.get?_put_self present⟩

theorem filterName_eq_ok {node : Node} {w after : Workspace} {name : Option String}
    (done : node.filterName w = .ok name after) :
    after.tokens = w.tokens ∧ after.nodes = w.nodes := by
  cases own : node.ownName with
  | some name =>
    simp only [Node.filterName, own, pure_apply] at done
    cases done
    exact ⟨rfl, rfl⟩
  | none =>
    simp only [Node.filterName, own] at done
    obtain ⟨names, -, rfl⟩ := within_eq_ok.1 done
    exact ⟨rfl, rfl⟩

/-- Looking up the filter name leaves rendering a flush. -/
theorem render_eq_ok {w after : Workspace} {ref : Ref .node} {node : Node} {text : String}
    (present : w.nodes.get? ref = some node) (done : Node.render ref w = .ok text after) :
    ∃ desk, Node.flush ⟨w.tokens, node⟩ = .ok () desk ∧ after.tokens = desk.tokens ∧
      after.nodes.get? ref = some desk.node := by
  obtain ⟨_, mid, flushed, done⟩ := bind_eq_ok.1 done
  obtain ⟨desk, flushed, tokens, there⟩ := run_eq_ok present flushed
  obtain ⟨_, _, read, done⟩ := bind_eq_ok.1 ((bind_of_ok (read_apply there)).symm.trans done)
  cases done
  obtain ⟨sameTokens, sameNodes⟩ := filterName_eq_ok read
  exact ⟨desk, flushed, sameTokens.trans tokens, sameNodes ▸ there⟩

theorem perform_eq_ok {w after : Workspace} {ref : Ref .node} {node : Node}
    (present : w.nodes.get? ref = some node) {call : NodeCall}
    (done : call.perform ref w = .ok () after) :
    ∃ desk, call.edit ⟨w.tokens, node⟩ = .ok () desk ∧ after.tokens = desk.tokens ∧
      after.nodes.get? ref = some desk.node := by
  cases call with
  | render =>
    obtain ⟨text, mid, rendered, done⟩ := bind_eq_ok.1 done
    cases done
    exact render_eq_ok present rendered
  | _ => exact run_eq_ok present done

theorem performs_eq_ok {w after : Workspace} {ref : Ref .node} {node : Node}
    (present : w.nodes.get? ref = some node) {calls : List NodeCall}
    (done : calls.forM (perform ref) w = .ok () after) :
    ∃ desk, calls.forM edit ⟨w.tokens, node⟩ = .ok () desk ∧ after.tokens = desk.tokens ∧
      after.nodes.get? ref = some desk.node := by
  induction calls generalizing w node with
  | nil =>
    cases done
    exact ⟨_, rfl, rfl, present⟩
  | cons call rest ih =>
    obtain ⟨_, mid, first, done⟩ := bind_eq_ok.1 done
    obtain ⟨desk, edited, tokens, there⟩ := perform_eq_ok present first
    obtain ⟨last, later, same⟩ := ih there done
    rw [tokens] at later
    exact ⟨last, bind_eq_ok.2 ⟨_, desk, edited, later⟩, same⟩

/-- **The arguments of a node.** After calls on a fresh node that all succeed, the node has the
arguments of the reference, which looks up the same tokens. So no two named arguments have the same
name, and there is one positional argument for each base name that was held back and for each later
call that adds one. The node is flushed as soon as one call was not to register a base argument,
and stays so. -/
theorem arguments_of_calls {w after : Workspace} {ref : Ref .node} {start : Node}
    (present : w.nodes.get? ref = some start) (fresh : start.IsFresh) {calls : List NodeCall}
    (done : calls.forM (perform ref) w = .ok () after) :
    ∃ node, after.nodes.get? ref = some node ∧
      reference start.separator calls w.tokens = .ok node.arguments after.tokens ∧
      DistinctNames node.arguments ∧
      node.arguments.countP (·.isPositional) = positionals calls ∧
      (node.phase = .flushed ↔ effective calls ≠ []) ∧
      ∀ early mid before, early <+: calls → early.forM (perform ref) w = .ok () mid →
        mid.nodes.get? ref = some before → before.phase = .flushed → node.phase = .flushed := by
  obtain ⟨desk, edited, tokens, there⟩ := performs_eq_ok present done
  have outcome := outcome_of_run fresh edited
  refine ⟨desk.node, there, tokens ▸ outcome.arguments, outcome.distinct, outcome.positionals,
    outcome.phase, ?_⟩
  rintro early mid before ⟨late, rfl⟩ begun known flushed
  obtain ⟨halfway, edited, -, same⟩ := performs_eq_ok present begun
  cases known.symm.trans same
  have started := (outcome_of_run fresh edited).phase.1 flushed
  exact outcome.phase.2 (effective_append started late)

/-- A workspace with one node. -/
def workbench : Workspace := { Workspace.initial with nodes := ⟨[Node.fresh .filter ":"]⟩ }

/-- Calls in which a base name and another name come twice, with a base argument that is late. -/
def mixedCalls : List NodeCall :=
  [.base (some "w") (.int 1), .base (some "h") (.int 2), .base (some "w") (.int 3),
    .arg (some "flags") [.text "a"], .single (.text "p"), .arg (some "flags") [.text "b"],
    .base (some "w") (.int 4), .render]

theorem arguments_of_mixedCalls :
    ∃ node, ((mixedCalls.forM (perform ⟨0⟩)).after workbench).nodes.get? ⟨0⟩ = some node ∧
      node.arguments = [⟨none, some "3"⟩, ⟨none, some "2"⟩, ⟨some "flags", some "b"⟩,
        ⟨none, some "p"⟩, ⟨none, some "4"⟩] ∧ node.phase = .flushed := by
  have present : workbench.nodes.get? ⟨0⟩ = some (Node.fresh .filter ":") := rfl
  have done := @eq_ok_after _ (mixedCalls.forM (perform ⟨0⟩)) workbench (by decide +kernel)
  obtain ⟨node, there, stored, -, -, phase, -⟩ := arguments_of_calls present ⟨rfl, rfl, rfl⟩ done
  have computed : reference ":" mixedCalls workbench.tokens = .ok
    [⟨none, some "3"⟩, ⟨none, some "2"⟩, ⟨some "flags", some "b"⟩, ⟨none, some "p"⟩,
      ⟨none, some "4"⟩] workbench.tokens := rfl
  have same := stored.symm.trans computed
  injection same with arguments
  exact ⟨node, there, arguments, phase.2 (by decide)⟩

end NodeCall

end MediaCommand
