import MediaCommand.Proofs.Filter.Escapes
import MediaCommand.Proofs.Filter.Places

/-!
# Runs with and without absent values

Deleting the absent values from the calls of a run, and the positional calls that have no other,
leaves two runs that go side by side. `Trace` says of each argument what it is in either of them:
`Node.written` acts on both sides of a list of traces as on one (`map_full_put`,
`filterMap_bare_put`), and `beside_run` follows the calls. `Left` counts what the additions leave.
-/

namespace MediaCommand

open MediaCommand.Action

theorem filterMap_cons_eq {α β : Type} (f : α → Option β) (a : α) (rest : List α) :
    (a :: rest).filterMap f = (f a).toList ++ rest.filterMap f := by
  rw [List.filterMap_cons]
  cases f a <;> rfl

/-! ## Values that are not there -/

theorem labelTexts_cons (value : Value) (rest : List Value) :
    labelTexts (value :: rest) = (do
      let text ← normalize value
      let texts ← labelTexts rest
      return text.toList ++ texts) := by
  simp only [labelTexts, normalizeAll, bind_assoc, pure_bind]
  congr 1
  funext text
  congr 1
  funext texts
  cases text <;> rfl

/-- Absent values have no text, so they can be left out. -/
theorem labelTexts_present (values : List Value) :
    labelTexts (values.filter Value.isPresent) = labelTexts values := by
  induction values with
  | nil => rfl
  | cons value rest ih =>
    cases value with
    | null =>
      rw [labelTexts_cons, ← ih]
      simp [normalize, Value.isPresent]
    | _ => simp only [List.filter_cons, Value.isPresent, if_true, labelTexts_cons, ih]

theorem expandAll_eq (separator : String) (values : List Value) :
    expandAll separator values = (do return separator.intercalate (← labelTexts values)) := by
  simp [expandAll, labelTexts]

namespace Node

/-- Values without the absent ones have the same joined text, as long as one is left. -/
theorem joined_present {values : List Value} (some : values.filter Value.isPresent ≠ [])
    (separator : String) :
    joined separator (values.filter Value.isPresent) = joined separator values := by
  match values with
  | [] => rfl
  | [value] =>
    cases value with
    | null => exact absurd rfl some
    | _ => rfl
  | first :: second :: rest =>
    have whole : joined separator (first :: second :: rest) =
        Option.some <$> expandAll separator ((first :: second :: rest).filter Value.isPresent) := by
      rw [expandAll_eq, labelTexts_present, ← expandAll_eq]
      rfl
    rw [whole]
    have among : ∀ value ∈ (first :: second :: rest).filter Value.isPresent,
        value.isPresent = true := fun value mem => (List.mem_filter.1 mem).2
    generalize (first :: second :: rest).filter Value.isPresent = present at some among
    match present with
    | [] => exact absurd rfl some
    | [value] =>
      -- One value that is left is written by itself, which comes to the same.
      funext tokens
      rw [expandAll_eq, labelTexts_cons]
      simp only [joined, map_eq_pure_bind, bind_assoc, pure_bind, labelTexts, normalizeAll]
      cases run : normalize value tokens with
      | error failure last => rw [bind_of_error run]
      | ok text last =>
        rw [bind_of_ok run]
        cases text with
        | some text => simp
        | none =>
          have absent := normalize_eq_none run
          subst absent
          cases among .null List.mem_cons_self
    | _ :: _ :: _ => rfl

/-- Values that are all absent have no text, and several of them have an empty one. -/
theorem joined_absent {values : List Value} (none : values.filter Value.isPresent = [])
    (separator : String) :
    joined separator values = pure (if 2 ≤ values.length then some "" else Option.none) := by
  match values with
  | [] => rfl
  | [value] =>
    cases value with
    | null => rfl
    | _ => cases none
  | first :: second :: rest =>
    have whole : joined separator (first :: second :: rest) =
        Option.some <$> expandAll separator (first :: second :: rest) := rfl
    rw [whole, expandAll_eq, ← labelTexts_present, none]
    simp [labelTexts, normalizeAll]

end Node

/-! ## Additions -/

/-- A call that adds an argument made of values. -/
inductive Addition where
  | joined (name : Option String) (separator : String) (values : List Value)
  | arg (name : Option String) (values : List Value)
  | single (value : Value)
  | several (values : List Value)

namespace Addition

def call : Addition → NodeCall
  | .joined name separator values => .joined name separator values
  | .arg name values => .arg name values
  | .single value => .single value
  | .several values => .several values

def name : Addition → Option String
  | .joined name _ _ | .arg name _ => name
  | .single _ | .several _ => none

def values : Addition → List Value
  | .joined _ _ values | .arg _ values | .several values => values
  | .single value => [value]

/-- What its values are joined by, on a node with a separator of its own. -/
def between (own : String) : Addition → String
  | .joined _ separator _ => separator
  | .arg .. | .single _ | .several _ => own

/-- The values that are there. -/
def present (addition : Addition) : List Value := addition.values.filter Value.isPresent

/-- Whether it has several values and none of them is there. -/
def isBlank (addition : Addition) : Bool :=
  decide (2 ≤ addition.values.length) && addition.present.isEmpty

/-- Whether it leaves a place empty. -/
def emptiesPlace (addition : Addition) : Bool := addition.name.isNone && addition.isBlank

/-- The addition with the absent values deleted from its list. -/
def trimmed : Addition → Addition
  | .joined name separator values => .joined name separator (values.filter Value.isPresent)
  | .arg name values => .arg name (values.filter Value.isPresent)
  | .single value => .single value
  | .several values => .several (values.filter Value.isPresent)

/-- What is left of an addition without absent values. A positional one without any other is
deleted. -/
def withoutAbsent (addition : Addition) : Option Addition :=
  if addition.name.isNone && addition.present.isEmpty then none else some addition.trimmed

/-- The last addition under a name. -/
def lastUnder (name : String) (additions : List Addition) : Option Addition :=
  additions.reverse.find? (·.name = some name)

theorem name_trimmed (addition : Addition) : addition.trimmed.name = addition.name := by
  cases addition <;> rfl

theorem between_trimmed (own : String) (addition : Addition) :
    addition.trimmed.between own = addition.between own := by
  cases addition <;> rfl

theorem values_trimmed {addition : Addition}
    (stays : addition.name ≠ none ∨ addition.present ≠ []) :
    addition.trimmed.values = addition.present := by
  cases addition with
  | single value =>
    cases value with
    | null =>
      rcases stays with named | some
      · exact absurd rfl named
      · exact absurd rfl some
    | _ => rfl
  | _ => rfl

theorem lastUnder_concat (name : String) (additions : List Addition) (addition : Addition) :
    lastUnder name (additions ++ [addition]) =
      if addition.name = some name then some addition else lastUnder name additions := by
  rw [lastUnder, List.reverse_concat', List.find?_cons]
  by_cases same : addition.name = some name
  · simp [same]
  · simp [same, lastUnder]

/-- What an addition does to a node that holds nothing back. -/
theorem edit_eq (addition : Addition) {d : Node.Desk} (empty : d.node.base = []) :
    addition.call.edit d = (do
      let text ← Node.withTokens
        (Node.joined (addition.between d.node.separator) addition.values)
      Node.change (·.store addition.name text)) ⟨d.tokens, { d.node with phase := .flushed }⟩ := by
  cases addition with
  | joined name separator values => exact bind_of_ok (NodeCall.flush_empty empty)
  | _ => exact bind_of_ok (NodeCall.flush_empty empty)

theorem edit_eq_ok_iff (addition : Addition) {d after : Node.Desk} (empty : d.node.base = []) :
    addition.call.edit d = .ok () after ↔ ∃ text tokens,
      Node.joined (addition.between d.node.separator) addition.values d.tokens = .ok text tokens ∧
        after = ⟨tokens, { d.node with
          phase := .flushed
          arguments := Node.written d.node.arguments ⟨addition.name, text⟩ }⟩ := by
  rw [edit_eq addition empty, bind_eq_ok]
  constructor
  · rintro ⟨text, mid, looked, done⟩
    obtain ⟨tokens, joined, rfl⟩ := within_eq_ok.1 looked
    cases done
    exact ⟨text, tokens, joined, rfl⟩
  · rintro ⟨text, tokens, joined, rfl⟩
    exact ⟨text, _, within_of_ok joined, rfl⟩

end Addition

/-! ## Both sides of a run -/

/-- An argument of a run, and what it is in the run without absent values. -/
inductive Trace where
  /-- The same in both. -/
  | kept (argument : FilterArgument)
  /-- A positional argument without a value, which is not rendered: not there. -/
  | skipped
  /-- A positional argument with an empty text: not there. -/
  | emptied
  /-- A name with an empty text: the name alone. -/
  | flagged (name : String)
  deriving DecidableEq

namespace Trace

/-- The argument in the run as it is. -/
def full : Trace → FilterArgument
  | .kept argument => argument
  | .skipped => ⟨none, none⟩
  | .emptied => ⟨none, some ""⟩
  | .flagged name => ⟨some name, some ""⟩

/-- The argument in the run without absent values. -/
def bare : Trace → Option FilterArgument
  | .kept argument => some argument
  | .skipped | .emptied => none
  | .flagged name => some ⟨some name, none⟩

def isFlagged : Trace → Bool
  | .flagged _ => true
  | _ => false

/-- The trace that an addition leaves, with its joined text. -/
def ofAddition (addition : Addition) (text : Option String) : Trace :=
  if addition.present ≠ [] then .kept ⟨addition.name, text⟩
  else match addition.name with
    | none => if addition.isBlank then .emptied else .skipped
    | some name => if addition.isBlank then .flagged name else .kept ⟨some name, none⟩

/-- Traces after one more. A name that occurs gets the new trace in its place. -/
def put : List Trace → Trace → List Trace
  | [], trace => [trace]
  | first :: rest, trace =>
    if trace.full.name ≠ none ∧ first.full.name = trace.full.name then trace :: rest
    else first :: put rest trace

theorem map_full_put (traces : List Trace) (trace : Trace) :
    (put traces trace).map full = Node.written (traces.map full) trace.full := by
  induction traces with
  | nil => rfl
  | cons first rest ih =>
    by_cases here : trace.full.name ≠ none ∧ first.full.name = trace.full.name
    · rw [put, if_pos here, List.map_cons, List.map_cons, Node.written, if_pos here]
    · rw [put, if_neg here, List.map_cons, List.map_cons, Node.written, if_neg here, ih]

/-- What stays is named as before. -/
theorem name_of_bare {trace : Trace} {argument : FilterArgument}
    (stays : trace.bare = some argument) : argument.name = trace.full.name := by
  cases trace <;> cases stays <;> rfl

/-- What does not stay has no name. -/
theorem unnamed_of_bare {trace : Trace} (gone : trace.bare = none) : trace.full.name = none := by
  cases trace <;> first | rfl | cases gone

theorem filterMap_bare_put (traces : List Trace) (trace : Trace) :
    (put traces trace).filterMap bare =
      trace.bare.elim (traces.filterMap bare) (Node.written (traces.filterMap bare)) := by
  induction traces with
  | nil => cases stays : trace.bare <;> simp [put, stays, Node.written]
  | cons first rest ih =>
    by_cases here : trace.full.name ≠ none ∧ first.full.name = trace.full.name
    · obtain ⟨named, same⟩ := here
      obtain ⟨argument, stays⟩ := Option.ne_none_iff_exists'.1 (mt unnamed_of_bare named)
      obtain ⟨other, staysToo⟩ := Option.ne_none_iff_exists'.1
        (mt unnamed_of_bare (same ▸ named : first.full.name ≠ none))
      have alike : argument.name ≠ none ∧ other.name = argument.name := by
        rw [name_of_bare stays, name_of_bare staysToo]
        exact ⟨named, same⟩
      rw [put, if_pos ⟨named, same⟩, List.filterMap_cons_some stays,
        List.filterMap_cons_some staysToo, stays, Option.elim_some, Node.written, if_pos alike]
    · rw [put, if_neg here]
      cases staysToo : first.bare with
      | none => rw [List.filterMap_cons_none staysToo, List.filterMap_cons_none staysToo, ih]
      | some other =>
        rw [List.filterMap_cons_some staysToo, List.filterMap_cons_some staysToo, ih]
        cases stays : trace.bare with
        | none => rfl
        | some argument =>
          have apart : ¬(argument.name ≠ none ∧ other.name = argument.name) := by
            rw [name_of_bare stays, name_of_bare staysToo]
            exact here
          rw [Option.elim_some, Option.elim_some, Node.written, if_neg apart]

theorem name_ofAddition (addition : Addition) (text : Option String) :
    (ofAddition addition text).full.name = addition.name := by
  unfold ofAddition
  split
  · rfl
  · split
    · next unnamed => split <;> rw [unnamed] <;> rfl
    · next named => split <;> rw [named] <;> rfl

/-! ## Counting traces -/

/-- What additions on a node have left of traces: each that empties a place has left one for it, and
just the names whose last addition was blank stand with an empty text. -/
structure Left (start : List FilterArgument) (seen : List Addition) (traces : List Trace) :
    Prop where
  distinct : NodeCall.DistinctNames (traces.map full)
  emptied : traces.count .emptied = seen.countP Addition.emptiesPlace
  flagged : ∀ name, .flagged name ∈ traces ↔
    ∃ addition, Addition.lastUnder name seen = some addition ∧ addition.isBlank = true
  some : seen ≠ [] → traces ≠ []
  none : seen = [] → traces.map full = start ∧ traces.filterMap bare = start

theorem left_start {start : List FilterArgument} (distinct : NodeCall.DistinctNames start) :
    Left start [] (start.map .kept) where
  distinct := by
    have same : (start.map Trace.kept).map full = start := by simp [Function.comp_def, full]
    rwa [same]
  emptied := by simp [List.count_eq_zero]
  flagged name := by simp [Addition.lastUnder]
  some some := absurd rfl some
  none _ := ⟨by simp [Function.comp_def, full], by simp [Function.comp_def, bare]⟩

theorem put_ne_nil (traces : List Trace) (trace : Trace) : put traces trace ≠ [] := by
  cases traces with
  | nil => exact List.cons_ne_nil _ _
  | cons first rest =>
    unfold put
    split
    · exact List.cons_ne_nil _ _
    · exact List.cons_ne_nil _ _

/-- Only a trace with the name of the new one makes way for it. -/
theorem mem_put_iff {traces : List Trace} (distinct : NodeCall.DistinctNames (traces.map full))
    {trace other : Trace} (named : other.full.name ≠ none) :
    other ∈ put traces trace ↔
      other = trace ∨ other ∈ traces ∧ other.full.name ≠ trace.full.name := by
  induction traces with
  | nil => simp [put]
  | cons first rest ih =>
    have restDistinct : NodeCall.DistinctNames (rest.map full) :=
      List.Nodup.sublist ((List.sublist_cons_self first.full (rest.map full)).filterMap _) distinct
    by_cases here : trace.full.name ≠ none ∧ first.full.name = trace.full.name
    · -- The names are distinct, so none of the others has this one.
      have absent : ∀ later ∈ rest, later.full.name ≠ first.full.name := by
        intro later mem same
        obtain ⟨name, given⟩ := Option.ne_none_iff_exists'.1 (here.2 ▸ here.1)
        rw [NodeCall.DistinctNames, List.map_cons, List.filterMap_cons_some given] at distinct
        apply (List.nodup_cons.1 distinct).1
        refine List.mem_filterMap.2 ⟨later.full, List.mem_map_of_mem mem, ?_⟩
        rw [same, given]
      rw [put, if_pos here, List.mem_cons, List.mem_cons]
      constructor
      · rintro (same | mem)
        · exact .inl same
        · exact .inr ⟨.inr mem, here.2 ▸ absent other mem⟩
      · rintro (same | ⟨rfl | mem, differ⟩)
        · exact .inl same
        · exact absurd here.2 differ
        · exact .inr mem
    · rw [put, if_neg here, List.mem_cons, List.mem_cons, ih restDistinct]
      have unlike : other = first → other.full.name ≠ trace.full.name := by
        rintro rfl same
        exact here ⟨same ▸ named, same⟩
      constructor
      · rintro (same | same | ⟨mem, differ⟩)
        · exact .inr ⟨.inl same, unlike same⟩
        · exact .inl same
        · exact .inr ⟨.inr mem, differ⟩
      · rintro (same | ⟨same | mem, differ⟩)
        · exact .inr (.inl same)
        · exact .inl same
        · exact .inr (.inr ⟨mem, differ⟩)

/-- Traces without a name are never replaced. -/
theorem count_emptied_put (traces : List Trace) (trace : Trace) :
    (put traces trace).count .emptied =
      traces.count .emptied + if trace = .emptied then 1 else 0 := by
  induction traces with
  | nil => simp [put, List.count_singleton]
  | cons first rest ih =>
    by_cases here : trace.full.name ≠ none ∧ first.full.name = trace.full.name
    · have other : trace ≠ .emptied := by
        rintro rfl
        exact here.1 rfl
      have before : first ≠ .emptied := by
        rintro rfl
        exact here.1 here.2.symm
      rw [put, if_pos here, List.count_cons_of_ne other, List.count_cons_of_ne before, if_neg other,
        Nat.add_zero]
    · rw [put, if_neg here, List.count_cons, List.count_cons, ih]
      omega

theorem ofAddition_eq_emptied_iff (addition : Addition) (text : Option String) :
    ofAddition addition text = .emptied ↔ addition.emptiesPlace = true := by
  unfold ofAddition Addition.emptiesPlace Addition.isBlank
  by_cases some : addition.present ≠ []
  · simp [some]
  · rw [if_neg some]
    have none := not_not.1 some
    cases addition.name with
    | none =>
      by_cases several : 2 ≤ addition.values.length
      · simp [none, several]
      · simp [none, several]
    | some name =>
      by_cases several : 2 ≤ addition.values.length
      · simp [none, several]
      · simp [none, several]

theorem ofAddition_eq_flagged_iff (addition : Addition) (text : Option String) (name : String) :
    ofAddition addition text = .flagged name ↔
      addition.name = some name ∧ addition.isBlank = true := by
  unfold ofAddition Addition.isBlank
  by_cases some : addition.present ≠ []
  · simp [some]
  · rw [if_neg some]
    have none := not_not.1 some
    cases addition.name with
    | none =>
      by_cases several : 2 ≤ addition.values.length
      · simp [none, several]
      · simp [none, several]
    | some other =>
      by_cases several : 2 ≤ addition.values.length
      · simp [none, several]
      · simp [none, several]

/-- One addition more leaves its own trace. -/
theorem left_concat {start : List FilterArgument} {seen : List Addition} {traces : List Trace}
    (left : Left start seen traces) (addition : Addition) (text : Option String) :
    Left start (seen ++ [addition]) (put traces (ofAddition addition text)) where
  distinct := by
    rw [map_full_put, NodeCall.written_eq_placed left.distinct]
    exact NodeCall.distinctNames_placed left.distinct _
  emptied := by
    rw [count_emptied_put, left.emptied, List.countP_append, List.countP_singleton]
    simp only [ofAddition_eq_emptied_iff]
  flagged name := by
    have named : (Trace.flagged name).full.name ≠ Option.none := Option.some_ne_none name
    rw [mem_put_iff left.distinct named, left.flagged, Addition.lastUnder_concat, name_ofAddition,
      eq_comm, ofAddition_eq_flagged_iff]
    by_cases same : addition.name = Option.some name
    · simp [same, full]
    · simp [same, full, Ne.symm same]
  some _ := put_ne_nil _ _
  none empty := by simp at empty

/-! ## Two nodes side by side -/

section Sides

variable {addition : Addition} {separator : String} {tokens rest : Tokens} {text : Option String}

/-- The trace of an addition is the argument that it adds. -/
theorem full_ofAddition (joined : Node.joined separator addition.values tokens = .ok text rest) :
    (ofAddition addition text).full = ⟨addition.name, text⟩ := by
  unfold ofAddition Addition.isBlank
  by_cases some : addition.present ≠ []
  · rw [if_pos some]
    rfl
  · have none := not_not.1 some
    rw [Node.joined_absent none separator] at joined
    cases joined
    rw [if_neg some, none]
    by_cases several : 2 ≤ addition.values.length
    · cases addition.name <;> simp [several, full]
    · cases addition.name <;> simp [several, full]

/-- An addition that is deleted has looked nothing up. -/
theorem bare_of_deleted (joined : Node.joined separator addition.values tokens = .ok text rest)
    (gone : addition.withoutAbsent = Option.none) :
    (ofAddition addition text).bare = Option.none ∧ rest = tokens := by
  have both : addition.name = Option.none ∧ addition.present = [] := by
    simpa [Addition.withoutAbsent] using gone
  obtain ⟨unnamed, none⟩ := both
  rw [Node.joined_absent none separator] at joined
  cases joined
  constructor
  · unfold ofAddition
    rw [unnamed, if_neg (not_not.2 none)]
    dsimp only
    split <;> rfl
  · rfl

/-- What is left of an addition looks up the same and adds what its trace is in the other run. -/
theorem bare_of_left {trimmed : Addition}
    (joined : Node.joined separator addition.values tokens = .ok text rest)
    (left : addition.withoutAbsent = Option.some trimmed) :
    trimmed = addition.trimmed ∧ ∃ written,
      Node.joined separator trimmed.values tokens = .ok written rest ∧
        (ofAddition addition text).bare = Option.some ⟨addition.name, written⟩ := by
  have both : (addition.name ≠ Option.none ∨ addition.present ≠ []) ∧ addition.trimmed = trimmed := by
    rw [Addition.withoutAbsent] at left
    split at left
    · cases left
    · next stays =>
      refine ⟨?_, Option.some.inj left⟩
      rw [Bool.and_eq_true, not_and_or, Option.isNone_iff_eq_none, List.isEmpty_iff] at stays
      exact stays
  obtain ⟨stays, rfl⟩ := both
  refine ⟨rfl, ?_⟩
  rw [Addition.values_trimmed stays]
  unfold ofAddition
  by_cases some : addition.present ≠ []
  · rw [if_pos some]
    exact ⟨text, (congrFun (Node.joined_present some separator) tokens).trans joined, rfl⟩
  · have none := not_not.1 some
    rw [Node.joined_absent none separator] at joined
    cases joined
    rw [if_neg some, none]
    refine ⟨Option.none, rfl, ?_⟩
    cases named : addition.name with
    | none => exact absurd named (stays.resolve_right some)
    | some name =>
      dsimp only
      split <;> rfl

end Sides

/-- Two nodes at work whose arguments are the two sides of traces, and that differ in no more. -/
structure Beside (traces : List Trace) (d e : Node.Desk) : Prop where
  tokens : e.tokens = d.tokens
  empty : d.node.base = []
  full : d.node.arguments = traces.map full
  bare : e.node = { d.node with phase := e.node.phase, arguments := traces.filterMap bare }

variable {traces : List Trace} {d e after : Node.Desk}

theorem beside_edit (beside : Beside traces d e) {addition : Addition}
    (done : addition.call.edit d = .ok () after) :
    ∃ text last, (addition.withoutAbsent.toList.map Addition.call).forM NodeCall.edit e = .ok () last ∧
      Beside (put traces (ofAddition addition text)) after last ∧
      after.node = { d.node with
        phase := after.node.phase, arguments := after.node.arguments } := by
  obtain ⟨sameTokens, empty, whole, other⟩ := beside
  obtain ⟨text, tokens, joined, rfl⟩ := (addition.edit_eq_ok_iff empty).1 done
  have stored : Node.written d.node.arguments ⟨addition.name, text⟩ =
      (put traces (ofAddition addition text)).map Trace.full := by
    rw [map_full_put, full_ofAddition joined, whole]
  cases left : addition.withoutAbsent with
  | none =>
    obtain ⟨gone, rfl⟩ := bare_of_deleted joined left
    refine ⟨text, e, rfl, ⟨sameTokens, empty, stored, ?_⟩, rfl⟩
    rw [filterMap_bare_put, gone, Option.elim_none, other]
  | some trimmed =>
    obtain ⟨rfl, written, looked, stays⟩ := bare_of_left joined left
    have emptyToo : e.node.base = [] := by rw [other, empty]
    have separator : e.node.separator = d.node.separator := by rw [other]
    have arguments : e.node.arguments = traces.filterMap Trace.bare := by rw [other]
    have edited : addition.trimmed.call.edit e = .ok () ⟨tokens, { e.node with
        phase := .flushed
        arguments := Node.written e.node.arguments ⟨addition.name, written⟩ }⟩ := by
      refine (addition.trimmed.edit_eq_ok_iff emptyToo).2 ⟨written, tokens, ?_, ?_⟩
      · rw [Addition.between_trimmed, separator, sameTokens]
        exact looked
      · rw [Addition.name_trimmed]
    refine ⟨text, _, bind_eq_ok.2 ⟨(), _, edited, rfl⟩, ⟨rfl, empty, stored, ?_⟩, rfl⟩
    rw [filterMap_bare_put, stays, Option.elim_some, ← arguments, other]

/-- Additions and what is left of them go side by side to the end. -/
theorem beside_run {start : List FilterArgument} {seen additions : List Addition}
    (left : Left start seen traces) (beside : Beside traces d e)
    (done : (additions.map Addition.call).forM NodeCall.edit d = .ok () after) :
    ∃ others last,
      ((additions.filterMap Addition.withoutAbsent).map Addition.call).forM NodeCall.edit e =
        .ok () last ∧
      Left start (seen ++ additions) others ∧ Beside others after last ∧
      after.node = { d.node with
        phase := after.node.phase, arguments := after.node.arguments } := by
  induction additions generalizing seen traces d e with
  | nil =>
    cases done
    rw [List.append_nil]
    exact ⟨traces, e, rfl, left, beside, rfl⟩
  | cons addition additions ih =>
    obtain ⟨_, mid, first, done⟩ := bind_eq_ok.1 done
    obtain ⟨text, halfway, begun, beside, same⟩ := beside_edit beside first
    obtain ⟨others, last, later, left, beside, sameToo⟩ :=
      ih (left_concat left addition text) beside done
    rw [List.append_assoc, List.singleton_append] at left
    refine ⟨others, last, ?_, left, beside, ?_⟩
    · rw [filterMap_cons_eq, List.map_append]
      exact forM_append_eq_ok.2 ⟨halfway, begun, later⟩
    · rw [sameToo, same]

end Trace

end MediaCommand
