import MediaCommand.Proofs.Filter.Rendering

/-!
# What failed calls leave of a node

A flush gives up what was held back before it writes any of it. If one of the base arguments cannot
be written, those after it are gone, and a call that fails for a value of its own has flushed the
node before. So a failure leaves the node as it was only if nothing is held back any more
(`failed_keepsNode_iff`).
-/

namespace MediaCommand

open MediaCommand.Action

/-- A node whose base arguments are given up for the texts of the first ones. -/
def Node.cutShort (node : Node) (texts : List (Option String)) : Node :=
  { node with phase := .flushed, base := [], arguments := node.arguments ++ texts.map (⟨none, ·⟩) }

namespace NodeCall

variable {d after : Node.Desk} {failure : Failure}

/-! ## Failures on a desk -/

/-- Writing values stops at the first that cannot be written. -/
theorem storeAll_eq_error {values : List Value} (sound : d.tokens.Sound)
    (failed : Node.storeAll values d = .error failure after) :
    ∃ kept lost, values = kept ++ lost ∧ (∀ value ∈ kept, value.IsWritable) ∧
      (∃ value ∈ lost.head?, ¬value.IsWritable) ∧
      after.node = { d.node with
        arguments := d.node.arguments ++ (kept.map d.tokens.spell).map (⟨none, ·⟩) } := by
  induction values generalizing d with
  | nil => cases failed
  | cons value rest ih =>
    rcases bind_eq_error.1 failed with stopped | ⟨text, mid, looked, failed⟩
    · obtain ⟨tokens, unwritten, rfl⟩ := within_eq_error.1 stopped
      have unwritable := not_isWritable_of_error sound unwritten
      exact ⟨[], value :: rest, rfl, by simp, ⟨value, rfl, unwritable⟩, by simp⟩
    · obtain ⟨tokens, normal, rfl⟩ := within_eq_ok.1 looked
      have agree := (Tokens.looksUp_normalize value).agrees normal
      have later : Node.storeAll rest ⟨tokens, d.node.store none text⟩ = .error failure after :=
        failed
      obtain ⟨kept, lost, rfl, writable, stop, left⟩ := ih (by exact agree.sound sound) later
      refine ⟨value :: kept, lost, rfl, ?_, stop, ?_⟩
      · exact List.forall_mem_cons.2 ⟨(normalize_returns_iff sound value).1 ⟨_, _, normal⟩, writable⟩
      · have same : tokens.spell = d.tokens.spell := funext fun other => (agree.spell other).symm
        rw [left, same, List.map_cons, Tokens.spell_of_ok normal]
        simp [Node.store, written_positional]

/-- A flush that fails keeps the base arguments before the first that cannot be written. -/
theorem flush_eq_error (sound : d.tokens.Sound) (failed : Node.flush d = .error failure after) :
    ∃ kept lost, d.node.base.map (·.2) = kept ++ lost ∧ (∀ value ∈ kept, value.IsWritable) ∧
      (∃ value ∈ lost.head?, ¬value.IsWritable) ∧
      after.node = d.node.cutShort (kept.map d.tokens.spell) := by
  cases phase : d.node.phase with
  | flushed => cases (flush_flushed phase).symm.trans failed
  | buffering =>
    simp only [Node.flush, get_bind_apply, phase] at failed
    exact @storeAll_eq_error ⟨d.tokens, { d.node with phase := .flushed, base := [] }⟩ _ _ _
      sound failed

/-- A flush that returns writes all base arguments. -/
theorem flush_eq_ok (buffering : d.node.phase = .buffering)
    (done : Node.flush d = .ok () after) :
    after.node = d.node.cutShort ((d.node.base.map (·.2)).map d.tokens.spell) := by
  simp only [Node.flush, get_bind_apply, buffering] at done
  obtain ⟨texts, normals, node⟩ := storeAll_eq_ok done
  rw [node, Tokens.normalizeAll_spelled normals]
  rfl

/-- Where nothing is held back, a call only writes its own value. -/
theorem node_of_edit_error {call : NodeCall} (flushed : d.node.phase = .flushed)
    (failed : call.edit d = .error failure after) : after.node = d.node := by
  rw [edit_flushed flushed] at failed
  rcases bind_eq_error.1 failed with failed | ⟨added, mid, looked, failed⟩
  · obtain ⟨tokens, unwritten, rfl⟩ := within_eq_error.1 failed
    rfl
  · cases failed

/-- Base arguments that are held back are not written, so registering one does not fail. -/
theorem base_returns (buffering : d.node.phase = .buffering) (name : Option String)
    (value : Value) : ∃ after, (NodeCall.base name value).edit d = .ok () after := by
  simp only [edit, Node.addBase, get_bind_apply, buffering]
  exact ⟨_, rfl⟩

/-- Where base arguments are held back, a call that fails gives up some or writes all of them. -/
theorem edit_eq_error {call : NodeCall} (sound : d.tokens.Sound)
    (buffering : d.node.phase = .buffering) (failed : call.edit d = .error failure after) :
    ∃ kept lost, d.node.base.map (·.2) = kept ++ lost ∧ (∀ value ∈ kept, value.IsWritable) ∧
      (∀ value ∈ lost.head?, ¬value.IsWritable) ∧
      after.node = d.node.cutShort (kept.map d.tokens.spell) := by
  by_cases flushes : effective [call] = []
  · cases call with
    | base name value =>
      obtain ⟨rest, done⟩ := base_returns buffering name value
      cases done.symm.trans failed
    | _ => cases flushes
  · rw [edit_flushes flushes] at failed
    rcases bind_eq_error.1 failed with failed | ⟨_, mid, flushed, failed⟩
    · obtain ⟨kept, lost, cut, writable, ⟨value, first, unwritable⟩, left⟩ :=
        flush_eq_error sound failed
      refine ⟨kept, lost, cut, writable, ?_, left⟩
      intro other same
      cases first.symm.trans same
      exact unwritable
    · -- The flush wrote every base argument; only the value of the call itself is missing.
      refine ⟨d.node.base.map (·.2), [], (List.append_nil _).symm, ?_, by simp, ?_⟩
      · exact (flush_returns_iff sound buffering).1 ⟨mid, flushed⟩
      · rw [node_of_edit_error (flushedTo_of_ok flushed).phase failed]
        exact flush_eq_ok buffering flushed

/-! ## Failures in the workspace -/

variable {w rest : Workspace} {ref : Ref .node} {node : Node}

theorem run_eq_error (present : w.nodes.get? ref = some node) {edit : Node.Edit Unit}
    (failed : Node.run ref edit w = .error failure rest) :
    ∃ desk, edit ⟨w.tokens, node⟩ = .error failure desk ∧
      rest.nodes.get? ref = some desk.node := by
  rw [Node.run, bind_of_ok (read_apply present)] at failed
  obtain ⟨desk, edited, rfl⟩ := within_eq_error.1 failed
  exact ⟨desk, edited, Store.get?_put_self present⟩

/-- Only the flush of a node that is there can fail when it is rendered. -/
theorem render_eq_error (present : w.nodes.get? ref = some node)
    (failed : Node.render ref w = .error failure rest) :
    Node.run ref Node.flush w = .error failure rest := by
  rcases bind_eq_error.1 failed with failed | ⟨_, mid, flushed, failed⟩
  · exact failed
  · obtain ⟨desk, -, -, there⟩ := run_eq_ok present flushed
    obtain ⟨name, last, named⟩ := filterName_returns desk.node mid
    rw [bind_of_ok (read_apply there), bind_of_ok named] at failed
    cases failed

theorem perform_eq_error (present : w.nodes.get? ref = some node) {call : NodeCall}
    (failed : call.perform ref w = .error failure rest) :
    ∃ desk, call.edit ⟨w.tokens, node⟩ = .error failure desk ∧
      rest.nodes.get? ref = some desk.node := by
  cases call with
  | render =>
    rcases bind_eq_error.1 failed with failed | ⟨_, mid, -, failed⟩
    · exact run_eq_error present (render_eq_error present failed)
    · cases failed
  | _ => exact run_eq_error present failed

/-- **What a failed call leaves of its node.** Take any node, and any call on it that fails. The
node is as it was exactly if it was flushed before. Otherwise it counts as flushed afterwards, holds
nothing back and has got just those base arguments, as positional ones, that come before the first
that cannot be written; all of them, if each can. Either way it can be rendered from then on, as the
node that is left. -/
theorem failed_keepsNode_iff (sound : w.tokens.Sound) (present : w.nodes.get? ref = some node)
    {call : NodeCall} (failed : call.perform ref w = .error failure rest) :
    ∃ left, rest.nodes.get? ref = some left ∧
      (left = node ↔ node.phase = .flushed) ∧
      (node.phase = .buffering → ∃ kept lost, node.base.map (·.2) = kept ++ lost ∧
        (∀ value ∈ kept, value.IsWritable) ∧ (∀ value ∈ lost.head?, ¬value.IsWritable) ∧
        left = node.cutShort (kept.map w.tokens.spell)) ∧
      ∃ name last, left.filterName rest = .ok name last ∧
        Node.render ref rest = .ok (left.expression name) last := by
  obtain ⟨desk, edited, there⟩ := perform_eq_error present failed
  refine ⟨desk.node, there, ?_⟩
  cases phase : node.phase with
  | flushed =>
    have same : desk.node = node := node_of_edit_error (d := ⟨w.tokens, node⟩) phase edited
    refine ⟨iff_of_true same rfl, ?_, ?_⟩
    · intro buffering
      cases buffering
    · rw [same] at there ⊢
      exact render_flushed there phase
  | buffering =>
    obtain ⟨kept, lost, cut, writable, stop, left⟩ :=
      edit_eq_error (d := ⟨w.tokens, node⟩) sound phase edited
    have flushed : desk.node.phase = .flushed := by rw [left, Node.cutShort]
    refine ⟨iff_of_false ?_ ?_, ?_, render_flushed there flushed⟩
    · intro same
      rw [same, phase] at flushed
      cases flushed
    · intro other
      cases other
    · intro _
      exact ⟨kept, lost, cut, writable, stop, left⟩

/-- A workspace with a node that carries its own name and holds back some base arguments. -/
def holding (base : Keyed (Option String) Value) : Workspace :=
  let node := Node.freshNamed .custom (some "f") ":"
  { Workspace.initial with nodes := ⟨[{ node with base }]⟩ }

/-- Of an infinite value between two others only the first is kept. -/
theorem failed_keepsNode_first :
    let endless : Value := .decimal (.infinite false)
    let w := holding [(some "w", .int 1280), (some "k", endless), (some "h", .int 720)]
    ∃ failure rest left, NodeCall.render.perform ⟨0⟩ w = .error failure rest ∧
      rest.nodes.get? ⟨0⟩ = some left ∧ left.phase = .flushed ∧ left.base = [] ∧
      left.arguments = [⟨none, some "1280"⟩] := by
  intro endless w
  obtain ⟨failure, rest, failed⟩ :
      ∃ failure rest, NodeCall.render.perform ⟨0⟩ w = .error failure rest := ⟨_, _, rfl⟩
  obtain ⟨left, there, -, salvaged, -⟩ :=
    failed_keepsNode_iff Tokens.sound_initial (by exact rfl) failed
  obtain ⟨kept, lost, cut, writable, stop, rfl⟩ := salvaged rfl
  have first : kept = [.int 1280] := by
    rcases kept with _ | ⟨one, _ | ⟨two, others⟩⟩
    · rw [List.nil_append] at cut
      subst cut
      exact absurd (by decide : IsConvertible 1280) (stop _ rfl)
    · injection cut with same
      rw [← same]
    · injection cut with _ cut
      injection cut with same
      subst same
      exact absurd (writable endless (by simp)) id
  refine ⟨failure, rest, _, failed, there, rfl, rfl, ?_⟩
  rw [first]
  rfl

/-- A node that cannot be rendered is rendered at the second attempt, without its argument. -/
theorem failed_render_drops :
    let w := holding [(some "w", .decimal (.infinite false))]
    ∃ rest, Node.render ⟨0⟩ w = .error .decimalInvalid rest ∧
      (rest.nodes.get? ⟨0⟩).map (fun left => (left.phase, left.base.length)) = some (.flushed, 0) ∧
      ∃ last, Node.render ⟨0⟩ rest = .ok "f" last :=
  ⟨_, rfl, rfl, _, rfl⟩

end NodeCall

end MediaCommand
