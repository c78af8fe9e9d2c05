import MediaCommand.Proofs.Filter.FailedCalls
import MediaCommand.Proofs.Filter.NameLookups
import Mathlib.Data.List.ReduceOption

/-!
# The places of base arguments

Scaling, cropping and overlaying take their sizes and positions as base arguments, which are
written without names: an argument is known by its place alone. One that is absent is skipped, so
those behind it move up by one. `getElem?_reduceOption` says for any list where an item comes to
stand and `inPlace_iff` when all items keep their places; `ordinals_of_places` says both of the
nodes that the factories make.
-/

namespace MediaCommand

open MediaCommand.Action

/-! ## Leaving out what is absent -/

/-- Items that all stand behind their places are all absent: the last one would have to stand behind
as many as there are. -/
theorem eq_none_of_shifted {α : Type} {items : List (Option α)}
    (shifted : ∀ (i : Nat) (a : α), items[i]? = some (some a) →
      items.reduceOption[i + 1]? = some a) :
    ∀ item ∈ items, item = none := by
  induction items using List.reverseRecOn with
  | nil =>
    intro item mem
    cases mem
  | append_singleton items last ih =>
    cases last with
    | none =>
      have before : ∀ item ∈ items, item = none := by
        apply ih
        intro i a here
        have lt : i < items.length := (List.getElem?_eq_some_iff.1 here).1
        have moved := shifted i a (by rw [List.getElem?_append_left lt, here])
        rwa [List.reduceOption_append, List.reduceOption_singleton, Option.toList_none,
          List.append_nil] at moved
      intro item mem
      rcases List.mem_append.1 mem with mem | mem
      · exact before item mem
      · exact List.mem_singleton.1 mem
    | some a =>
      have moved := shifted items.length a (by simp)
      have lt := (List.getElem?_eq_some_iff.1 moved).1
      have short := List.reduceOption_length_le items
      rw [List.reduceOption_append, List.length_append, List.reduceOption_singleton,
        Option.toList_some, List.length_singleton] at lt
      omega

/-- Leaving out what is absent keeps everything present at its place exactly when nothing is absent
in front of something present. -/
theorem inPlace_iff {α : Type} (items : List (Option α)) :
    (∀ (i : Nat) (a : α), items[i]? = some (some a) → items.reduceOption[i]? = some a) ↔
      items.Pairwise fun early late => early = none → late = none := by
  induction items with
  | nil => simp
  | cons first rest ih =>
    rw [List.pairwise_cons]
    cases first with
    | some a =>
      rw [List.reduceOption_cons_of_some]
      constructor
      · intro kept
        constructor
        · intro item _ absent
          cases absent
        · apply ih.1
          intro i b here
          exact kept (i + 1) b here
      · rintro ⟨-, ordered⟩ i b here
        cases i with
        | zero =>
          cases here
          rfl
        | succ i => exact ih.2 ordered i b here
    | none =>
      rw [List.reduceOption_cons_of_none]
      constructor
      · intro kept
        have absent : ∀ item ∈ rest, item = none := by
          apply eq_none_of_shifted
          intro i a here
          exact kept (i + 1) a here
        constructor
        · intro item mem _
          exact absent item mem
        · apply ih.1
          intro i a here
          cases absent (some a) (List.mem_of_getElem? here)
      · rintro ⟨absent, -⟩ i b here
        cases i with
        | zero => cases here
        | succ i => cases absent (some b) (List.mem_of_getElem? here) rfl

/-- An item that is present comes behind just the present ones in front of it. -/
theorem getElem?_reduceOption {α : Type} {items : List (Option α)} {i : Nat} {a : α}
    (here : items[i]? = some (some a)) :
    items.reduceOption[((items.take i).filter Option.isSome).length]? = some a := by
  obtain ⟨lt, found⟩ := List.getElem?_eq_some_iff.1 here
  have split : items = items.take i ++ some a :: items.drop (i + 1) := by
    rw [← found, List.getElem_cons_drop, List.take_append_drop]
  have parts := congrArg List.reduceOption split
  rw [List.reduceOption_append, List.reduceOption_cons_of_some] at parts
  rw [← List.reduceOption_length_eq, parts, List.getElem?_append_right (le_refl _), Nat.sub_self]
  rfl

/-! ## Factories with base arguments -/

/-- A value that can be written has no text just when it is absent. -/
theorem Tokens.spell_eq_none_iff {tokens : Tokens} (sound : tokens.Sound) {value : Value}
    (writable : value.IsWritable) : tokens.spell value = none ↔ value = .null := by
  obtain ⟨text, rest, written⟩ := (normalize_returns_iff sound value).2 writable
  rw [Tokens.spell_of_ok written]
  constructor
  · rintro rfl
    exact normalize_eq_none written
  · rintro rfl
    cases written
    rfl

theorem Tokens.isSome_spell {tokens : Tokens} (sound : tokens.Sound) {value : Value}
    (writable : value.IsWritable) : (tokens.spell value).isSome = value.isPresent := by
  by_cases absent : value = .null
  · subst absent
    rfl
  · have some : tokens.spell value ≠ none := mt (spell_eq_none_iff sound writable).1 absent
    rw [Option.isSome_iff_ne_none.2 some]
    unfold Value.isPresent
    split
    · exact absurd rfl absent
    · rfl

namespace Node

/-- The texts of the arguments, in order. -/
def shown (node : Node) : List String := node.arguments.filterMap FilterArgument.render

end Node

/-- Every argument that is present has a text, which stands at the argument's own place. -/
def InPlace (tokens : Tokens) (values : List Value) (shown : List String) : Prop :=
  ∀ (i : Nat) (value : Value), values[i]? = some value → value ≠ .null →
    ∃ text, tokens.spell value = some text ∧ shown[i]? = some text

/-- Every argument that is present has a text, which comes behind just the present ones in front
of the argument. -/
def InOrder (tokens : Tokens) (values : List Value) (shown : List String) : Prop :=
  ∀ (i : Nat) (value : Value), values[i]? = some value → value ≠ .null →
    ∃ text, tokens.spell value = some text ∧
      shown[(values.take i).countP Value.isPresent]? = some text

theorem filterMap_spell {tokens : Tokens} (values : List Value) :
    values.filterMap tokens.spell = (values.map tokens.spell).reduceOption := by
  rw [List.reduceOption, List.filterMap_map]
  rfl

theorem inOrder_spelled {tokens : Tokens} (sound : tokens.Sound) {values : List Value}
    (writable : ∀ value ∈ values, value.IsWritable) :
    InOrder tokens values (values.filterMap tokens.spell) := by
  intro i value found present
  have known {other : Value} (mem : other ∈ values) :
      (tokens.spell other).isSome = other.isPresent :=
    Tokens.isSome_spell sound (writable other mem)
  have written : tokens.spell value ≠ none :=
    mt (Tokens.spell_eq_none_iff sound (writable _ (List.mem_of_getElem? found))).1 present
  obtain ⟨text, text_eq⟩ := Option.ne_none_iff_exists'.1 written
  have stands : (values.map tokens.spell)[i]? = some (some text) := by
    rw [List.getElem?_map, found, Option.map_some, text_eq]
  have ordinal : (((values.map tokens.spell).take i).filter Option.isSome).length =
      (values.take i).countP Value.isPresent := by
    rw [← List.countP_eq_length_filter, ← List.map_take, List.countP_map]
    apply List.countP_congr
    intro other mem
    rw [Function.comp_apply, known (List.mem_of_mem_take mem)]
  refine ⟨text, text_eq, ?_⟩
  rw [filterMap_spell, ← ordinal]
  exact getElem?_reduceOption stands

/-- Leaving out absent values keeps the others at their places exactly when none is absent in front
of one that is present. -/
theorem inPlace_spelled_iff {tokens : Tokens} (sound : tokens.Sound) {values : List Value}
    (writable : ∀ value ∈ values, value.IsWritable) :
    InPlace tokens values (values.filterMap tokens.spell) ↔
      values.Pairwise fun early late => early = .null → late = .null := by
  have absent {value : Value} (mem : value ∈ values) :
      tokens.spell value = none ↔ value = .null := Tokens.spell_eq_none_iff sound (writable _ mem)
  have pairs : values.Pairwise (fun early late => early = .null → late = .null) ↔
      (values.map tokens.spell).Pairwise fun early late => early = none → late = none := by
    rw [List.pairwise_map]
    apply List.Pairwise.iff_of_mem
    intro early late first second
    rw [absent first, absent second]
  rw [pairs, ← inPlace_iff, filterMap_spell]
  constructor
  · intro kept i text here
    rw [List.getElem?_map, Option.map_eq_some_iff] at here
    obtain ⟨value, found, spelled⟩ := here
    have present : value ≠ .null := by
      rw [ne_eq, ← absent (List.mem_of_getElem? found), spelled]
      exact Option.some_ne_none text
    obtain ⟨other, same, stands⟩ := kept i value found present
    cases spelled.symm.trans same
    exact stands
  · intro kept i value found present
    have written : tokens.spell value ≠ none :=
      fun missing => present ((absent (List.mem_of_getElem? found)).1 missing)
    obtain ⟨text, spelled⟩ := Option.ne_none_iff_exists'.1 written
    refine ⟨text, spelled, kept i text ?_⟩
    rw [List.getElem?_map, found, Option.map_some, spelled]

namespace NodeMaker

open NodeCall

/-- The values of a factory's places, in order, where it has a place for each that it is given. A
crop from a row but no column has none for the column. -/
def places : NodeMaker → Option (List Value)
  | .scale _ width height => if width.isMemberOf .videoSize then none else some [width, height]
  | .crop _ width height x y =>
    if y.isPresent && !x.isPresent then none else some [width, height, x, y]
  | .overlay _ x y => if x.isMemberOf .overlays then none else some [x, y]
  | .bare .. | .named .. | .movie .. => none

theorem basePresent_of_ne {value : Value} (present : value ≠ .null) (name : String) :
    basePresent name value = [.base (some name) value] := by
  unfold basePresent
  split
  · exact absurd rfl present
  · rfl

/-- The factories only register base arguments: the values of their places, but for absent ones. -/
theorem base_of_places {maker : NodeMaker} {values : List Value}
    (placed : maker.places = some values) :
    effective maker.calls = [] ∧
      (∀ value ∈ Keyed.lastValues (held maker.calls), value ∈ values) ∧
      ∀ text : Value → Option String, text .null = none →
        (Keyed.lastValues (held maker.calls)).filterMap text = values.filterMap text := by
  cases maker with
  | bare cls separator | named cls name separator | movie cls path => cases placed
  | scale cls width height =>
    by_cases sized : width.isMemberOf .videoSize = true
    · rw [places, if_pos sized] at placed
      cases placed
    · rw [places, if_neg sized] at placed
      cases placed
      rw [calls, if_neg sized]
      exact ⟨rfl, fun value mem => mem, fun text _ => rfl⟩
  | overlay cls x y =>
    by_cases anchored : x.isMemberOf .overlays = true
    · rw [places, if_pos anchored] at placed
      cases placed
    · rw [places, if_neg anchored] at placed
      cases placed
      rw [calls, position?_of_other anchored]
      exact ⟨rfl, fun value mem => mem, fun text _ => rfl⟩
  | crop cls width height x y =>
    rw [places] at placed
    split at placed
    · cases placed
    · next whole =>
      cases placed
      by_cases across : x = .null
      · subst across
        have down : y = .null := by
          cases y with
          | null => rfl
          | _ => exact absurd rfl whole
        subst down
        refine ⟨rfl, ?_, ?_⟩
        · intro value mem
          exact List.mem_append_left [.null, .null] mem
        · intro text silent
          change [width, height].filterMap text = _
          simp [List.filterMap_cons, silent]
      · by_cases down : y = .null
        · subst down
          rw [calls, basePresent_of_ne across]
          refine ⟨rfl, ?_, ?_⟩
          · intro value mem
            exact List.mem_append_left [.null] mem
          · intro text silent
            change [width, height, x].filterMap text = _
            simp [List.filterMap_cons, silent]
        · rw [calls, basePresent_of_ne across, basePresent_of_ne down]
          exact ⟨rfl, fun value mem => mem, fun text _ => rfl⟩

variable {w made : Workspace} {ref : Ref .node} {maker : NodeMaker} {values : List Value}

/-- What a factory with places renders: the arguments that are present, without names and in
order. -/
theorem render_of_places (sound : w.tokens.Sound) (placed : maker.places = some values)
    (writable : ∀ value ∈ values, value.IsWritable)
    (entered : Node.enter maker.build w = .ok ref made) :
    ∃ rest node, Node.render ref made = .ok (node.expression (node.nameIn made.names)) rest ∧
      rest.nodes.get? ref = some node ∧ (∀ argument ∈ node.arguments, argument.name = none) ∧
      node.shown = values.filterMap w.tokens.spell := by
  obtain ⟨node, built, present⟩ := enter_eq_ok entered
  obtain ⟨only, among, texts⟩ := base_of_places placed
  obtain ⟨buffering, nothing, empty⟩ := maker.isFresh_start
  have registered := @hold_run ⟨w.tokens, maker.start⟩ maker.calls [] only buffering nothing
  have ended := registered.symm.trans (calls_of_build built)
  injection ended with _ desk
  injection desk with tokens same
  have base : node.base.map (·.2) = Keyed.lastValues (held maker.calls) := by
    rw [← same]
    exact Keyed.values_ofList _
  have holding : node.phase = .buffering := by rw [← same, buffering]
  have bare : node.arguments = [] := by rw [← same, empty]
  obtain ⟨desk, flushed⟩ : ∃ desk, Node.flush ⟨made.tokens, node⟩ = .ok () desk := by
    apply (flush_returns_iff (d := ⟨made.tokens, node⟩) (tokens ▸ sound) holding).2
    intro value mem
    rw [base] at mem
    exact writable value (among value mem)
  obtain ⟨own, cls⟩ := Node.named_of_flush flushed
  have written := flush_eq_ok (d := ⟨made.tokens, node⟩) holding flushed
  have rendered := Node.render_of_flush present flushed
  have named : node.nameIn made.names = desk.node.nameIn made.names := by
    rw [Node.nameIn, Node.nameIn, own, cls]
  rw [named] at rendered
  refine ⟨_, desk.node, rendered, Store.get?_put_self present, ?_, ?_⟩
  · intro argument mem
    rw [written, Node.cutShort, bare] at mem
    obtain ⟨text, -, rfl⟩ := List.mem_map.1 mem
    rfl
  · have spelled := texts w.tokens.spell rfl
    rw [Node.shown, written, Node.cutShort, bare, base, ← tokens, ← spelled, List.nil_append,
      List.filterMap_map, List.filterMap_map]
    rfl

/-- **Where base arguments stand.** Take a call of a factory that scales, crops or overlays, by
values that can be written, present or absent, but for a crop from a row and no column. Its node is
rendered, with the arguments that are present, in order and without names. Each comes behind just
the present ones in front of it. So all of them stand at the places of their parameters exactly when
none is absent in front of one that is present. -/
theorem ordinals_of_places (sound : w.tokens.Sound) (placed : maker.places = some values)
    (writable : ∀ value ∈ values, value.IsWritable)
    (entered : Node.enter maker.build w = .ok ref made) :
    ∃ rest node, Node.render ref made = .ok (node.expression (node.nameIn made.names)) rest ∧
      rest.nodes.get? ref = some node ∧ (∀ argument ∈ node.arguments, argument.name = none) ∧
      node.shown = values.filterMap w.tokens.spell ∧
      InOrder w.tokens values node.shown ∧
      (InPlace w.tokens values node.shown ↔
        values.Pairwise fun early late => early = .null → late = .null) := by
  obtain ⟨rest, node, rendered, there, unnamed, shown⟩ :=
    render_of_places sound placed writable entered
  refine ⟨rest, node, rendered, there, unnamed, shown, ?_, ?_⟩
  · rw [shown]
    exact inOrder_spelled sound writable
  · rw [shown]
    exact inPlace_spelled_iff sound writable

/-- A crop from a column, where the row is left out. -/
theorem ordinals_columnCrop :
    let maker := crop .crop (.int 640) (.int 360) (.int 10) .null
    let made := (Node.enter maker.build).after .initial
    ∃ rest node, Node.render ⟨0⟩ made = .ok "crop=640:360:10" rest ∧
      rest.nodes.get? ⟨0⟩ = some node ∧
      InPlace Workspace.initial.tokens [.int 640, .int 360, .int 10, .null] node.shown := by
  intro maker made
  have entered : Node.enter maker.build .initial = .ok ⟨0⟩ made := eq_ok_of_outcome rfl
  have placed : maker.places = some [.int 640, .int 360, .int 10, .null] := rfl
  obtain ⟨rest, node, rendered, there, -, -, -, exactly⟩ :=
    ordinals_of_places Tokens.sound_initial placed (by simp [Value.IsWritable]; decide) entered
  have last : [Value.int 640, .int 360, .int 10, .null].Pairwise
      fun early late => early = .null → late = .null := by simp
  have text : (Node.render ⟨0⟩).outcome made = .ok "crop=640:360:10" := rfl
  rw [outcome_of_ok rendered] at text
  injection text with text
  rw [text] at rendered
  exact ⟨rest, node, rendered, there, exactly.2 last⟩

/-- An overlay at a row, whose column is skipped: the row stands at the place of the column. -/
theorem rowOverlay_moves :
    ∃ made rest node,
      Node.enter (overlay .overlay .null (.int 10)).build Workspace.initial = .ok ⟨0⟩ made ∧
      Node.render ⟨0⟩ made = .ok "overlay=10" rest ∧ rest.nodes.get? ⟨0⟩ = some node ∧
      node.shown[0]? = some "10" ∧
      ¬InPlace Workspace.initial.tokens [.null, .int 10] node.shown := by
  refine ⟨_, _, _, rfl, rfl, rfl, rfl, ?_⟩
  intro inPlace
  obtain ⟨text, -, stands⟩ := inPlace 1 (.int 10) rfl (by simp)
  cases stands

end NodeMaker

end MediaCommand
