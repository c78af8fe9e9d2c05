import MediaCommand.Proofs.Filter.NameLookups
import MediaCommand.Proofs.Filter.Traces

/-!
# Tuples that may not be empty

The labels of a split and the pixel formats of a node come as a tuple that may not be empty. The
tuple is checked as it is passed, while absent values have no text and are left out later. `Checks`
says what this comes to, `Promises` what the check is there for. A call keeps the promise for every
tuple but those that hold absent values and nothing else (`Hollow`).
-/

namespace MediaCommand

open MediaCommand.Action

/-! ## Texts of values -/

/-- Each value that is there has a text, and no other. -/
theorem length_of_labelTexts {values : List Value} {texts : List String} {tokens after : Tokens}
    (run : labelTexts values tokens = .ok texts after) :
    texts.length = values.countP Value.isPresent := by
  induction values generalizing texts tokens after with
  | nil =>
    cases run
    rfl
  | cons value rest ih =>
    rw [labelTexts_cons] at run
    obtain ⟨text, mid, first, run⟩ := bind_eq_ok.1 run
    obtain ⟨others, _, behind, done⟩ := bind_eq_ok.1 run
    cases done
    have there : text.toList.length = if value.isPresent then 1 else 0 := by
      cases text with
      | none =>
        rw [normalize_eq_none first]
        rfl
      | some text =>
        cases value with
        | null => cases first
        | _ => rfl
    rw [List.length_append, there, ih behind, List.countP_cons, Nat.add_comm]

theorem countP_isPresent_eq_zero {values : List Value} :
    values.countP Value.isPresent = 0 ↔ ∀ value ∈ values, value = .null := by
  have absent (value : Value) : ¬value.isPresent = true ↔ value = .null := by
    cases value <;> simp [Value.isPresent]
  simp only [List.countP_eq_zero, absent]

theorem outcome_labelTexts_absent {values : List Value} (absent : ∀ value ∈ values, value = .null)
    (tokens : Tokens) : (labelTexts values).outcome tokens = .ok [] := by
  have none : values.filter Value.isPresent = [] :=
    List.filter_eq_nil_iff.2 (List.countP_eq_zero.1 (countP_isPresent_eq_zero.2 absent))
  rw [← labelTexts_present, none]
  rfl

/-! ## The check and its promise -/

/-- A tuple that is not empty, though every value in it is absent. -/
def Hollow (values : List Value) : Prop := values ≠ [] ∧ ∀ value ∈ values, value = .null

section Checks

variable {α : Type}

/-- How a call deals with a tuple of values. An empty one is a violation, and a value that cannot be
written is a failure. Otherwise the result shows the texts of the values in a layout. -/
structure Checks (violation : Contract) (layout : List String → String)
    (shows : α → String → Prop) (values : List Value) (tokens : Tokens)
    (outcome : Except Failure α) : Prop where
  empty : values = [] → outcome = .error (.contract violation)
  failed : ∀ failure, values ≠ [] → (labelTexts values).outcome tokens = .error failure →
    outcome = .error failure
  passed : ∀ texts, values ≠ [] → (labelTexts values).outcome tokens = .ok texts →
    ∃ result, outcome = .ok result ∧ shows result (layout texts)

/-- What the check is to promise. A result shows a text for each value that is there, and there is
one; a tuple of absent values alone is a violation. -/
structure Promises (violation : Contract) (layout : List String → String)
    (shows : α → String → Prop) (values : List Value) (tokens : Tokens)
    (outcome : Except Failure α) : Prop where
  accepted : ∀ result, outcome = .ok result →
    ∃ texts, (labelTexts values).outcome tokens = .ok texts ∧
      texts.length = values.countP Value.isPresent ∧ texts ≠ [] ∧ shows result (layout texts)
  refused : (∀ value ∈ values, value = .null) → outcome = .error (.contract violation)

variable {violation : Contract} {layout : List String → String} {shows : α → String → Prop}
  {values : List Value} {tokens : Tokens} {outcome : Except Failure α}

/-- The promise is kept but for tuples of nothing but absent values. -/
theorem Checks.promises_iff (checks : Checks violation layout shows values tokens outcome) :
    Promises violation layout shows values tokens outcome ↔ ¬Hollow values := by
  constructor
  · rintro promises ⟨some, absent⟩
    obtain ⟨result, passed, -⟩ := checks.passed [] some (outcome_labelTexts_absent absent tokens)
    cases passed.symm.trans (promises.refused absent)
  · intro solid
    have refused (absent : ∀ value ∈ values, value = .null) :
        outcome = .error (.contract violation) :=
      checks.empty (by_contra fun some => solid ⟨some, absent⟩)
    refine ⟨fun result passed => ?_, refused⟩
    have some : values ≠ [] := fun none => by cases passed.symm.trans (checks.empty none)
    cases written : (labelTexts values).outcome tokens with
    | error failure => cases passed.symm.trans (checks.failed failure some written)
    | ok texts =>
      have counted := length_of_labelTexts (eq_ok_of_outcome written)
      obtain ⟨_, same, shown⟩ := checks.passed texts some written
      cases passed.symm.trans same
      refine ⟨texts, rfl, counted, ?_, shown⟩
      rintro rfl
      exact solid ⟨some, countP_isPresent_eq_zero.1 counted.symm⟩

end Checks

/-! ## Splits -/

/-- A split statement to labels, given their texts. -/
def Split.layout (texts : List String) : String := "split" ++ Statement.bracketed texts

namespace FilterSet

/-- A set whose split statement is a text. -/
def Splits (set : FilterSet) (text : String) : Prop :=
  ∃ split, set.split = some split ∧ split.render = text

/-- A set after it was split. -/
def splitTo (ref : Ref .filterSet) (labels : List Value) : Work FilterSet := do
  setSplit ref labels
  read ref

theorem checks_splitTo {w : Workspace} {ref : Ref .filterSet} {set : FilterSet}
    (present : w.sets.get? ref = some set) (labels : List Value) :
    Checks .emptySplit Split.layout Splits labels w.tokens ((splitTo ref labels).outcome w) where
  empty := by
    rintro rfl
    rfl
  failed := by
    intro failure filled looked
    have had := withTokens_of_error (eq_error_of_outcome looked)
    have split : setSplit ref labels w = .error failure _ :=
      (setSplit_apply ref filled w).trans (bind_of_error had)
    exact outcome_of_error (bind_of_error split)
  passed := by
    intro texts filled looked
    let v : Workspace := { w with tokens := (labelTexts labels).after w.tokens }
    let after : FilterSet := { set with split := some ⟨"", Statement.bracketed texts⟩ }
    have there : v.sets.get? ref = some set := present
    have had : Workspace.withTokens (labelTexts labels) w = .ok texts v :=
      withTokens_of_ok (eq_ok_of_outcome looked)
    have split : setSplit ref labels w = .ok () { v with sets := v.sets.put ref after } := by
      rw [setSplit_apply ref filled, bind_of_ok had, change_apply there,
        ← Store.modify_of_some there]
    have found : (v.sets.put ref after).get? ref = some after := Store.get?_put_self there
    exact ⟨after, outcome_of_ok ((bind_of_ok split).trans (require_of_some found)), _, rfl, rfl⟩

end FilterSet

/-! ## Pixel formats -/

namespace Node

/-- An expression that lists pixel formats. -/
def formatLayout (texts : List String) : String := "format=" ++ "|".intercalate texts

/-- A node that is rendered as a text wherever its class has its name. -/
def Renders (node : Node) (text : String) : Prop :=
  ∀ (w : Workspace) (ref : Ref .node), w.nodes.get? ref = some node →
    w.names.view .format = some "format" → (render ref).outcome w = .ok text

/-- A node for pixel formats, as it is built. -/
def ofFormats (formats : List Value) : Work Node := do
  read (← enter (pixelFormat .format formats))

/-- Values joined are their texts joined. -/
theorem joined_eq (separator : String) (values : List Value) :
    (do return (← joined separator values).getD "" : Action Tokens String) = (do
      return separator.intercalate (← labelTexts values)) := by
  match values with
  | [] => rfl
  | [value] =>
    rw [labelTexts_cons]
    simp only [joined, labelTexts, normalizeAll, bind_assoc, pure_bind]
    congr 1
    funext text
    cases text <;> simp
  | first :: second :: rest =>
    rw [← expandAll_eq]
    simp [joined]

/-- The node that lists pixel formats as one text. -/
def listing (text : Option String) : Node :=
  { fresh .format defaultSeparator with phase := .flushed, arguments := [⟨none, text⟩] }

theorem pixelFormat_apply {formats : List Value} (filled : formats ≠ []) (tokens : Tokens) :
    pixelFormat .format formats tokens =
      (do return listing (← joined "|" formats) : Action Tokens Node) tokens := by
  have listed : pixelFormat .format formats tokens =
      build (fresh .format defaultSeparator) (addJoined none "|" formats) tokens := by
    simp only [pixelFormat, List.isEmpty_iff, filled, if_false]
    rfl
  have added := Addition.edit_eq (.joined none "|" formats) (d := ⟨tokens, fresh .format ":"⟩) rfl
  rw [listed, build]
  cases run : joined "|" formats tokens with
  | error failure rest =>
    have failed : addJoined none "|" formats ⟨tokens, fresh .format ":"⟩ =
        .error failure ⟨rest, { fresh .format ":" with phase := .flushed }⟩ :=
      added.trans (bind_of_error (within_of_error run))
    rw [bind_of_error run, defaultSeparator, failed]
  | ok text rest =>
    have stored : addJoined none "|" formats ⟨tokens, fresh .format ":"⟩ =
        .ok () ⟨rest, listing text⟩ :=
      added.trans (bind_of_ok (within_of_ok run))
    rw [bind_of_ok run, defaultSeparator, stored]
    rfl

theorem body_listing (text : Option String) : (listing text).body = text.getD "" := by
  have plain : FilterClass.format.wrapper = ("", "") := rfl
  cases text with
  | none => rfl
  | some text => simp [listing, body, FilterArgument.render, fresh, plain]

theorem renders_listing (text : Option String) :
    (listing text).Renders ("format=" ++ text.getD "") := by
  intro w ref present named
  have still : flush ⟨w.tokens, listing text⟩ = .ok () ⟨w.tokens, listing text⟩ :=
    NodeCall.flush_flushed rfl
  have name : (listing text).nameIn w.names = some "format" := named
  rw [outcome_of_ok (render_of_flush present still), name, ← body_listing]
  rfl

theorem checks_ofFormats (w : Workspace) (formats : List Value) :
    Checks .noPixelFormat formatLayout Renders formats w.tokens ((ofFormats formats).outcome w) where
  empty := by
    rintro rfl
    rfl
  failed := by
    intro failure filled looked
    have shown := congrFun (joined_eq "|" formats) w.tokens
    rw [bind_of_error (eq_error_of_outcome looked)] at shown
    obtain run | ⟨_, _, _, done⟩ := bind_eq_error.1 shown
    · have built := (pixelFormat_apply filled w.tokens).trans (bind_of_error run)
      have entered : enter (pixelFormat .format formats) w = .error failure _ :=
        bind_of_error (withTokens_of_error built)
      exact outcome_of_error (bind_of_error entered)
    · cases done
  passed := by
    intro texts filled looked
    have shown := congrFun (joined_eq "|" formats) w.tokens
    rw [bind_of_ok (eq_ok_of_outcome looked)] at shown
    obtain ⟨text, rest, run, done⟩ := bind_eq_ok.1 shown
    have built : pixelFormat .format formats w.tokens = .ok (listing text) rest :=
      (pixelFormat_apply filled w.tokens).trans (bind_of_ok run)
    let v : Workspace := { w with tokens := rest, nodes := w.nodes.add (listing text) }
    have entered : enter (pixelFormat .format formats) w = .ok w.nodes.next v :=
      bind_of_ok (withTokens_of_ok built)
    have found : v.nodes.get? w.nodes.next = some (listing text) := Store.get?_add_next _ _
    have had := (bind_of_ok entered).trans (NodeCall.read_apply found)
    obtain ⟨same, -⟩ := EStateM.Result.ok.inj done
    refine ⟨listing text, outcome_of_ok had, ?_⟩
    rw [formatLayout, ← same]
    exact renders_listing text

end Node

/-! ## Both calls -/

/-- **Checks of tuples.** A set is split to a tuple of labels, and a node is built for a tuple of
pixel formats, whatever values those hold. Either call refuses the empty tuple by its violation,
fails as its values do, and otherwise comes to `split` and each label in brackets, or to `format=`
and the formats between bars, with one text for each value that is there. So both keep the promise
that a tuple without a text is refused and a text is shown otherwise, unless the tuple is hollow:
that one passes and shows none. -/
theorem checked_tuples_iff {w : Workspace} {ref : Ref .filterSet} {set : FilterSet}
    (present : w.sets.get? ref = some set) (values : List Value) :
    (Checks .emptySplit Split.layout FilterSet.Splits values w.tokens
        ((FilterSet.splitTo ref values).outcome w) ∧
      (Promises .emptySplit Split.layout FilterSet.Splits values w.tokens
        ((FilterSet.splitTo ref values).outcome w) ↔ ¬Hollow values)) ∧
    Checks .noPixelFormat Node.formatLayout Node.Renders values w.tokens
        ((Node.ofFormats values).outcome w) ∧
      (Promises .noPixelFormat Node.formatLayout Node.Renders values w.tokens
        ((Node.ofFormats values).outcome w) ↔ ¬Hollow values) := by
  have split := FilterSet.checks_splitTo present values
  have built := Node.checks_ofFormats w values
  exact ⟨⟨split, split.promises_iff⟩, built, built.promises_iff⟩

/-- One absent value does not show beside a text. -/
theorem checked_tuples_sparse :
    let w := (FilterSet.ofOption (.text "vf")).after .initial
    let values : List Value := [.null, .text "gray"]
    (∃ set, (FilterSet.splitTo ⟨0⟩ values).outcome w = .ok set ∧ set.Splits "split[gray]") ∧
      ∃ node, (Node.ofFormats values).outcome w = .ok node ∧ node.Renders "format=gray" := by
  intro w values
  have present : w.sets.get? ⟨0⟩ = some (.fresh "vf") := rfl
  obtain ⟨⟨split, -⟩, built, -⟩ := checked_tuples_iff present values
  exact ⟨split.passed ["gray"] (List.cons_ne_nil _ _) rfl,
    built.passed ["gray"] (List.cons_ne_nil _ _) rfl⟩

/-- A split without a label and a node without a format pass both checks: the tuples hold one absent
value. -/
theorem hollow_tuples_shown :
    (do let filters ← FilterSet.ofOption (.text "vf")
        let set ← FilterSet.splitTo filters [.null]
        let node ← Node.enter (Node.pixelFormat .format [.null])
        return (set.split.map Split.render, ← Node.render node) : Work _).outcome .initial =
      .ok (some "split", "format=") := by
  decide

end MediaCommand
