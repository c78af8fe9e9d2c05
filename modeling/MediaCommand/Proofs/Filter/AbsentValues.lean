import MediaCommand.Proofs.Filter.Traces

/-!
# Absent values in arguments

Only three things can differ in the text of a node when the absent values are deleted from the
calls that made its arguments: a name that was given several absent values, a place that several
absent values leave empty, and a node of which nothing is left. `expression_eq_iff` weighs them by
the characters that they add; runs of calls are then followed to the two texts.
-/

namespace MediaCommand

open MediaCommand.Action

/-! ## Texts between separators -/

/-- The characters of texts, each behind a separator. -/
def spread (separator : String) (texts : List String) : List Char :=
  texts.flatMap fun text => separator.toList ++ text.toList

theorem spread_append (separator : String) (early late : List String) :
    spread separator (early ++ late) = spread separator early ++ spread separator late :=
  List.flatMap_append

theorem spread_eq (separator : String) {texts : List String} (some : texts ≠ []) :
    spread separator texts = separator.toList ++ (separator.intercalate texts).toList := by
  induction texts with
  | nil => exact absurd rfl some
  | cons first rest ih =>
    cases rest with
    | nil => simp [spread]
    | cons next rest =>
      have later := ih (List.cons_ne_nil next rest)
      unfold spread at later ⊢
      rw [List.flatMap_cons, later, String.intercalate_cons_cons, String.toList_append,
        String.toList_append, List.append_assoc, List.append_assoc]

/-- Empty texts have only their separators. -/
theorem intercalate_empties (separator : String) (others : Nat) :
    separator.intercalate (List.replicate (others + 1) "") = "" ↔ separator = "" ∨ others = 0 := by
  induction others with
  | zero => simp
  | succ others ih =>
    rw [List.replicate_succ] at ih
    rw [List.replicate_succ, List.replicate_succ, String.intercalate_cons_cons,
      String.append_eq_empty_iff, ih]
    simp +contextual

/-! ## What the texts differ in -/

namespace Trace

variable {traces : List Trace} {d e after : Node.Desk}

/-- The texts of the arguments in the run as it is. -/
def fullTexts (traces : List Trace) : List String :=
  (traces.map Trace.full).filterMap FilterArgument.render

/-- The texts of the arguments in the run without absent values. -/
def bareTexts (traces : List Trace) : List String :=
  (traces.filterMap Trace.bare).filterMap FilterArgument.render

theorem fullTexts_cons (trace : Trace) (traces : List Trace) :
    fullTexts (trace :: traces) = trace.full.render.toList ++ fullTexts traces := by
  rw [fullTexts, List.map_cons, filterMap_cons_eq]
  rfl

theorem bareTexts_cons (trace : Trace) (traces : List Trace) :
    bareTexts (trace :: traces) = (trace.bare.bind FilterArgument.render).toList ++ bareTexts traces := by
  rw [bareTexts, filterMap_cons_eq, List.filterMap_append]
  cases trace.bare with
  | none => rfl
  | some argument =>
    rw [Option.toList_some, filterMap_cons_eq]
    simp [bareTexts]

/-- A name with an empty text has an equals sign more, an empty place a separator. -/
theorem length_spread (separator : String) (traces : List Trace) :
    (spread separator (fullTexts traces)).length =
      (spread separator (bareTexts traces)).length + traces.countP isFlagged +
        separator.toList.length * traces.count .emptied := by
  induction traces with
  | nil => rfl
  | cons trace traces ih =>
    rw [fullTexts_cons, bareTexts_cons, spread_append, spread_append, List.length_append,
      List.length_append, ih]
    cases trace with
    | kept argument =>
      rw [List.countP_cons_of_neg (by simp [isFlagged]), List.count_cons_of_ne (by simp)]
      simp only [full, bare, Option.bind_some]
      omega
    | skipped =>
      rw [List.countP_cons_of_neg (by simp [isFlagged]), List.count_cons_of_ne (by simp)]
      simp only [full, bare, Option.bind_none, FilterArgument.render]
      omega
    | emptied =>
      rw [List.countP_cons_of_neg (by simp [isFlagged]), List.count_cons_self, Nat.mul_add]
      simp [full, bare, FilterArgument.render, spread]
      omega
    | flagged name =>
      rw [List.countP_cons_of_pos rfl, List.count_cons_of_ne (by simp)]
      simp [full, bare, FilterArgument.render, spread]
      omega

/-- Nothing is missing from the run as it is. -/
theorem sublist_spread (separator : String) (traces : List Trace) :
    (spread separator (bareTexts traces)).Sublist (spread separator (fullTexts traces)) := by
  induction traces with
  | nil => exact .slnil
  | cons trace traces ih =>
    rw [fullTexts_cons, bareTexts_cons, spread_append, spread_append]
    refine List.Sublist.append ?_ ih
    cases trace with
    | kept argument => exact .refl _
    | skipped => exact .refl _
    | emptied => exact List.nil_sublist _
    | flagged name =>
      simp [full, bare, FilterArgument.render, spread, String.toList_append]

theorem spread_eq_iff (separator : String) (traces : List Trace) :
    spread separator (fullTexts traces) = spread separator (bareTexts traces) ↔
      traces.countP isFlagged = 0 ∧ (separator = "" ∨ traces.count .emptied = 0) := by
  have lengths := length_spread separator traces
  have weigh : separator.toList.length * traces.count .emptied = 0 ↔
      separator = "" ∨ traces.count .emptied = 0 := by
    rw [Nat.mul_eq_zero, List.length_eq_zero_iff, String.toList_eq_nil_iff]
  rw [← weigh]
  constructor
  · intro same
    rw [same] at lengths
    omega
  · rintro ⟨none, weightless⟩
    symm
    apply (sublist_spread separator traces).eq_of_length
    omega

/-- Where nothing is left, the run as it is has only empty texts. -/
theorem fullTexts_of_bareTexts {traces : List Trace} (none : bareTexts traces = []) :
    traces.countP isFlagged = 0 ∧
      fullTexts traces = List.replicate (traces.count .emptied) "" := by
  induction traces with
  | nil => exact ⟨rfl, rfl⟩
  | cons trace traces ih =>
    rw [bareTexts_cons, List.append_eq_nil_iff] at none
    obtain ⟨here, later⟩ := none
    obtain ⟨plain, texts⟩ := ih later
    rw [fullTexts_cons, texts]
    cases trace with
    | kept argument =>
      rw [List.countP_cons_of_neg (by simp [isFlagged]), List.count_cons_of_ne (by simp)]
      have untold : argument.render.toList = [] := here
      exact ⟨plain, by rw [full, untold, List.nil_append]⟩
    | skipped =>
      rw [List.countP_cons_of_neg (by simp [isFlagged]), List.count_cons_of_ne (by simp)]
      exact ⟨plain, rfl⟩
    | emptied =>
      rw [List.countP_cons_of_neg (by simp [isFlagged]), List.count_cons_self]
      exact ⟨plain, rfl⟩
    | flagged name => cases here

theorem bareTexts_of_fullTexts {traces : List Trace} (none : fullTexts traces = []) :
    bareTexts traces = [] := by
  induction traces with
  | nil => rfl
  | cons trace traces ih =>
    rw [fullTexts_cons, List.append_eq_nil_iff] at none
    rw [bareTexts_cons, ih none.2, List.append_nil]
    cases trace with
    | kept argument => exact none.1
    | skipped => rfl
    | emptied => rfl
    | flagged name => cases none.1

/-- The arguments read the same just when no name has got an equals sign and no place has got a
separator. The only text of all, if it is empty, has none. -/
theorem intercalate_eq_iff (separator : String) (traces : List Trace) :
    separator.intercalate (fullTexts traces) = separator.intercalate (bareTexts traces) ↔
      traces.countP isFlagged = 0 ∧ (separator = "" ∨ traces.count .emptied = 0 ∨
        traces.count .emptied = 1 ∧ bareTexts traces = []) := by
  by_cases none : bareTexts traces = []
  · obtain ⟨plain, texts⟩ := fullTexts_of_bareTexts none
    rw [none, texts, String.intercalate_nil]
    cases traces.count .emptied with
    | zero => simp [plain]
    | succ others =>
      rw [intercalate_empties]
      simp [plain]
  · have some : fullTexts traces ≠ [] := mt bareTexts_of_fullTexts none
    rw [← String.toList_inj, ← List.append_cancel_left_eq separator.toList, ← spread_eq _ none,
      ← spread_eq _ some, spread_eq_iff]
    simp [none]

/-- Between the wrappers stand the texts of either side. -/
theorem bodies_of_beside {traces : List Trace} {d e : Node.Desk} (beside : Beside traces d e) :
    d.node.body = d.node.cls.wrapper.1 ++
        d.node.separator.intercalate (fullTexts traces) ++ d.node.cls.wrapper.2 ∧
      e.node.body = d.node.cls.wrapper.1 ++
        d.node.separator.intercalate (bareTexts traces) ++ d.node.cls.wrapper.2 := by
  constructor
  · rw [Node.body, beside.full]
    rfl
  · rw [Node.body, beside.bare]
    rfl

/-- The nodes read the same just when their arguments do and the one without absent values has not
become a mere name: the other still has an equals sign or a wrapper then. -/
theorem expression_eq_iff {traces : List Trace} {d e : Node.Desk} (beside : Beside traces d e)
    (name : Option String) :
    d.node.expression name = e.node.expression name ↔
      traces.countP isFlagged = 0 ∧
      (d.node.separator = "" ∨ traces.count .emptied = 0 ∨
        traces.count .emptied = 1 ∧ bareTexts traces = []) ∧
      (e.node.arguments ≠ [] ∨ traces = [] ∨ name = none ∧ d.node.cls.wrapper = ("", "")) := by
  obtain ⟨whole, part⟩ := bodies_of_beside beside
  have arguments : e.node.arguments = traces.filterMap Trace.bare := by rw [beside.bare]
  by_cases empty : traces = []
  · subst empty
    simp [Node.expression, beside.full, arguments]
  · have some : d.node.arguments ≠ [] := by
      rw [beside.full]
      exact mt List.map_eq_nil_iff.1 empty
    unfold Node.expression
    rw [← and_assoc, ← intercalate_eq_iff, if_neg (mt List.isEmpty_iff.1 some)]
    by_cases gone : e.node.arguments = []
    · -- A name that stays alone has lost the equals sign and what stands behind it.
      have none : bareTexts traces = [] := by rw [bareTexts, ← arguments, gone, List.filterMap_nil]
      rw [if_pos (List.isEmpty_iff.2 gone), none, String.intercalate_nil]
      cases name with
      | none =>
        simp only [whole, Option.getD_none, String.append_eq_empty_iff, gone, empty, Prod.ext_iff]
        tauto
      | some name =>
        have longer : name ++ "=" ++ d.node.body ≠ name := by
          intro same
          have lengths := congrArg String.length same
          simp only [String.length_append, whole] at lengths
          have : "=".length = 1 := rfl
          omega
        simp [gone, empty, longer]
    · rw [if_neg (mt List.isEmpty_iff.1 gone)]
      cases name with
      | none => simp [whole, part, gone]
      | some name => simp [whole, part, gone]

theorem countP_isFlagged (traces : List Trace) :
    traces.countP isFlagged = 0 ↔ ∀ name, .flagged name ∉ traces := by
  rw [List.countP_eq_zero]
  constructor
  · intro plain name mem
    exact plain _ mem rfl
  · intro plain trace mem flag
    cases trace with
    | flagged name => exact plain name mem
    | _ => cases flag

/-- What decides it, said of the additions that left the traces. -/
theorem expression_eq_iff_of_left {start : List FilterArgument} {additions : List Addition}
    {traces : List Trace} {d e : Node.Desk} (left : Left start additions traces)
    (beside : Beside traces d e) (name : Option String) :
    d.node.expression name = e.node.expression name ↔
      (∀ name addition, Addition.lastUnder name additions = some addition →
        addition.isBlank = false) ∧
      (d.node.separator = "" ∨ additions.countP Addition.emptiesPlace = 0 ∨
        additions.countP Addition.emptiesPlace = 1 ∧ e.node.shown = []) ∧
      (e.node.arguments ≠ [] ∨ additions = [] ∨ name = none ∧ d.node.cls.wrapper = ("", "")) := by
  have arguments : e.node.arguments = traces.filterMap Trace.bare := by rw [beside.bare]
  have shown : e.node.shown = bareTexts traces := by rw [Node.shown, arguments, bareTexts]
  have flags : traces.countP isFlagged = 0 ↔ ∀ name addition,
      Addition.lastUnder name additions = some addition → addition.isBlank = false := by
    rw [countP_isFlagged]
    simp only [left.flagged, not_exists, not_and, Bool.not_eq_true]
  have added : e.node.arguments ≠ [] ∨ traces = [] ↔ e.node.arguments ≠ [] ∨ additions = [] := by
    by_cases none : additions = []
    · obtain ⟨whole, bare⟩ := left.none none
      have same : traces = [] ↔ e.node.arguments = [] := by
        rw [arguments, bare, ← whole, List.map_eq_nil_iff]
      simp only [none, same, or_true, iff_true]
      exact (em _).symm
    · simp only [none, left.some none]
  rw [expression_eq_iff beside, flags, ← shown, left.emptied]
  simp only [← or_assoc, added]

end Trace

/-! ## Runs in the workspace -/

namespace Addition

variable {w whole : Workspace} {ref : Ref .node} {node : Node}

/-- Additions in turn are one operation on their node. -/
theorem performs_eq_run (present : w.nodes.get? ref = some node) (additions : List Addition) :
    (additions.map call).forM (NodeCall.perform ref) w =
      Node.run ref ((additions.map call).forM NodeCall.edit) w := by
  induction additions generalizing w node with
  | nil =>
    have idle : ([].map call).forM NodeCall.edit ⟨w.tokens, node⟩ = .ok () ⟨w.tokens, node⟩ := rfl
    rw [NodeCall.run_of_ok present idle, Store.put_self present]
    rfl
  | cons addition rest ih =>
    have once : NodeCall.perform ref addition.call = Node.run ref addition.call.edit := by
      cases addition <;> rfl
    show (do addition.call.perform ref; (rest.map call).forM (NodeCall.perform ref)) w =
      Node.run ref (do addition.call.edit; (rest.map call).forM NodeCall.edit) w
    rw [NodeCall.run_bind, once]
    cases run : addition.call.edit ⟨w.tokens, node⟩ with
    | error failure desk =>
      rw [bind_of_error (NodeCall.run_of_error present run),
        bind_of_error (NodeCall.run_of_error present run)]
    | ok _ desk =>
      rw [bind_of_ok (NodeCall.run_of_ok present run), bind_of_ok (NodeCall.run_of_ok present run)]
      exact ih (Store.get?_put_self present)

/-- **When absent values are inert.** Take calls that all succeed on a node that holds nothing back,
each adding an argument of any values under any name or none. Without the absent values, and without
the positional calls that then have no value, they succeed as well. The node reads the same after
both just when no name was last given several values of which none is there; no positional call had
several values of which none is there, unless separators have no text or it is the only text of the
arguments; and something is left of the arguments, unless nothing was added or the node has neither
a name nor a wrapper. -/
theorem rendered_alike_iff (present : w.nodes.get? ref = some node) (empty : node.base = [])
    (distinct : NodeCall.DistinctNames node.arguments) {additions : List Addition}
    (done : (additions.map call).forM (NodeCall.perform ref) w = .ok () whole) :
    ∃ without left text other last lastToo,
      ((additions.filterMap withoutAbsent).map call).forM (NodeCall.perform ref) w =
        .ok () without ∧
      without.nodes.get? ref = some left ∧
      Node.render ref whole = .ok text last ∧ Node.render ref without = .ok other lastToo ∧
      (text = other ↔
        (∀ name addition, lastUnder name additions = some addition → addition.isBlank = false) ∧
        (node.separator = "" ∨ additions.countP emptiesPlace = 0 ∨
          additions.countP emptiesPlace = 1 ∧ left.shown = []) ∧
        (left.arguments ≠ [] ∨ additions = [] ∨
          node.nameIn w.names = none ∧ node.cls.wrapper = ("", ""))) := by
  rw [performs_eq_run present, Node.run, bind_of_ok (NodeCall.read_apply present)] at done
  obtain ⟨desk, edited, rfl⟩ := within_eq_ok.1 done
  have start : Trace.Beside (node.arguments.map .kept) ⟨w.tokens, node⟩ ⟨w.tokens, node⟩ :=
    ⟨rfl, empty, by simp [Function.comp_def, Trace.full], by simp [Function.comp_def, Trace.bare]⟩
  obtain ⟨traces, rest, trimmed, left, beside, same⟩ :=
    Trace.beside_run (Trace.left_start distinct) start edited
  rw [List.nil_append] at left
  have ran : ((additions.filterMap withoutAbsent).map call).forM (NodeCall.perform ref) w =
      .ok () { w with tokens := rest.tokens, nodes := w.nodes.put ref rest.node } := by
    rw [performs_eq_run present]
    exact NodeCall.run_of_ok present trimmed
  have there : (w.nodes.put ref desk.node).get? ref = some desk.node := Store.get?_put_self present
  have thereToo : (w.nodes.put ref rest.node).get? ref = some rest.node :=
    Store.get?_put_self present
  have emptyToo : rest.node.base = [] := by rw [beside.bare, beside.empty]
  have flushed : Node.flush ⟨desk.tokens, desk.node⟩ = _ := NodeCall.flush_empty beside.empty
  have flushedToo : Node.flush ⟨rest.tokens, rest.node⟩ = _ := NodeCall.flush_empty emptyToo
  refine ⟨_, rest.node, _, _, _, _, ran, thereToo, Node.render_of_flush there flushed,
    Node.render_of_flush thereToo flushedToo, ?_⟩
  have name : desk.node.nameIn w.names = node.nameIn w.names := by rw [same]; rfl
  have nameToo : rest.node.nameIn w.names = node.nameIn w.names := by rw [beside.bare, same]; rfl
  have own : desk.node.separator = node.separator ∧ desk.node.cls = node.cls := by
    rw [same]
    exact ⟨rfl, rfl⟩
  have weighed := Trace.expression_eq_iff_of_left left beside (node.nameIn w.names)
  rw [own.1, own.2] at weighed
  rw [← weighed]
  simp only [name, nameToo]
  rfl

/-- Additions with absent values beside others. -/
def sparse : List Addition :=
  [.single (.int 1), .single .null, .joined (some "planes") "+" [.text "y", .null, .text "v"]]

theorem rendered_alike_sparse :
    let w := NodeCall.holding []
    ∃ whole without text last lastToo,
      (sparse.map call).forM (NodeCall.perform ⟨0⟩) w = .ok () whole ∧
      ((sparse.filterMap withoutAbsent).map call).forM (NodeCall.perform ⟨0⟩) w = .ok () without ∧
      Node.render ⟨0⟩ whole = .ok text last ∧ Node.render ⟨0⟩ without = .ok text lastToo := by
  intro w
  have done := @eq_ok_after _ ((sparse.map call).forM (NodeCall.perform ⟨0⟩)) w rfl
  obtain ⟨without, left, text, other, last, lastToo, ran, there, rendered, renderedToo, alike⟩ :=
    rendered_alike_iff (by exact rfl) (by exact rfl) (by exact List.nodup_nil) done
  have written : ∀ addition ∈ sparse, addition.isBlank = false := by decide
  have named : ∀ name addition, lastUnder name sparse = some addition →
      addition.isBlank = false := fun name addition found =>
    written addition (List.mem_reverse.1 (List.mem_of_find?_eq_some found))
  have some : left.arguments ≠ [] := by
    cases ran.symm.trans (@eq_ok_after _
      (((sparse.filterMap withoutAbsent).map call).forM (NodeCall.perform ⟨0⟩)) w rfl)
    cases there
    exact List.cons_ne_nil _ _
  have same : text = other := alike.2 ⟨named, .inr (.inl rfl), .inl some⟩
  exact ⟨_, without, text, last, lastToo, done, ran, rendered, same ▸ renderedToo⟩

/-- Nothing but an absent value leaves an equals sign, several under a name leave another, and
several without a name leave a separator. -/
theorem rendered_blank :
    let shown (additions : List Addition) : Except Failure String :=
      Action.outcome (do
        (additions.map call).forM (NodeCall.perform ⟨0⟩)
        Node.render ⟨0⟩) (NodeCall.holding [])
    let without (additions : List Addition) := shown (additions.filterMap withoutAbsent)
    (shown [.single .null] = .ok "f=" ∧ without [.single .null] = .ok "f") ∧
    (shown [.arg (some "k") [.null, .null]] = .ok "f=k=" ∧
      without [.arg (some "k") [.null, .null]] = .ok "f=k") ∧
    (shown [.single (.int 1), .several [.null, .null], .single (.int 2)] = .ok "f=1::2" ∧
      without [.single (.int 1), .several [.null, .null], .single (.int 2)] = .ok "f=1:2") :=
  ⟨⟨rfl, rfl⟩, ⟨rfl, rfl⟩, rfl, rfl⟩

end Addition

end MediaCommand
