import MediaCommand.Filter.Overlay
import MediaCommand.Filter.Setting
import MediaCommand.Proofs.Command.Indices
import MediaCommand.Proofs.Filter.Looking
import MediaCommand.Proofs.Filter.Places
import MediaCommand.Proofs.Value.Spelling

/-!
# Texts put together from several values

Five calls compose one text from several values: metadata, a frame size, an aspect ratio, a colour
with its opacity, and the coordinate of a position with its margin. Some of them take a value as it
reads where it should be as it is written, and all of them have a word for a missing value.
`Composite.composed_as_due_iff` says when the text is the one that the values are due.
-/

namespace MediaCommand

open MediaCommand.Action

/-! ## A word in a joined text -/

theorem prefix_of_notMem {α : Type} {word front back : List α} {a : α} (without : a ∉ word)
    (starts : word <+: front ++ a :: back) : word <+: front := by
  rcases List.prefix_or_prefix_of_prefix starts (List.prefix_append front _) with short | long
  · exact short
  · obtain ⟨rest, rfl⟩ := long
    rw [List.prefix_append_right_inj, List.prefix_cons_iff] at starts
    rcases starts with rfl | ⟨rest, rfl, -⟩
    · rw [List.append_nil]
    · exact absurd (List.mem_append_right _ List.mem_cons_self) without

/-- A word without a character stands before or after it. -/
theorem infix_of_notMem {α : Type} {word front back : List α} {a : α} (without : a ∉ word)
    (inside : word <:+: front ++ a :: back) : word <:+: front ∨ word <:+: back := by
  induction front with
  | nil =>
    rcases List.infix_cons_iff.1 inside with starts | inside
    · exact .inl (prefix_of_notMem without starts).isInfix
    · exact .inr inside
  | cons b front ih =>
    rcases List.infix_cons_iff.1 inside with starts | inside
    · exact .inl (prefix_of_notMem without starts).isInfix
    · exact (ih inside).imp_left List.infix_cons

/-- A text joined by a character that is not in the word mentions it before or after that. -/
theorem mentionsNone_joined_iff {first second separator : String} {c : Char}
    (single : separator.toList = [c]) (without : c ∉ "None".toList) :
    MentionsNone (first ++ (separator ++ second)) ↔ MentionsNone first ∨ MentionsNone second := by
  unfold MentionsNone
  rw [String.toList_append, String.toList_append, single]
  constructor
  · exact infix_of_notMem without
  · rintro (inside | inside)
    · exact List.infix_append_of_infix_left inside
    · exact List.infix_append_of_infix_right (List.infix_append_of_infix_right inside)

/-! ## Parts -/

/-- A part of a text that a call puts together: a fixed one, a value as it reads, or a value as it
is written. -/
inductive Part where
  | fixed (text : String)
  | spelled (value : Value)
  | normal (value : Value)

namespace Part

variable {tokens : Tokens} {value : Value}

/-- The value that a part shows. -/
def value? : Part → Option Value
  | .fixed _ => none
  | .spelled value | .normal value => some value

/-- Whether a part can be shown: a value that is written needs a text, and one that reads as it
is no integer that is too long. -/
def CanShow : Part → Prop
  | .fixed _ => True
  | .spelled value => value.spellingFits
  | .normal value => value.IsWritable

/-- What a call shows for a part. A missing value is spelled out. -/
def shown (tokens : Tokens) : Part → String
  | .fixed text => text
  | .spelled value => value.spelling
  | .normal value => (tokens.spell value).getD "None"

/-- What a part should show: a value as it is written, and nothing for a missing one. -/
def due (tokens : Tokens) : Part → Option String
  | .fixed text => some text
  | .spelled value | .normal value =>
    match (normalize value).outcome tokens with
    | .ok text => some (text.getD "")
    | .error _ => none

/-- Whether a value reads as it is written, or is there where it is written. -/
def IsPlain (tokens : Tokens) : Part → Prop
  | .fixed _ => True
  | .spelled value => value.IsPlain tokens
  | .normal value => value ≠ .null

theorem due_spelled_iff (value : Value) :
    (Part.spelled value).due tokens = some ((Part.spelled value).shown tokens) ↔
      value.IsPlain tokens := by
  rw [← Value.normalize_eq_spelling_iff, due, shown]
  cases normal : (normalize value).outcome tokens with
  | error failure => simp
  | ok text =>
    cases text with
    | some text => simp
    | none =>
      obtain rfl : value = .null := normalize_eq_none (eq_ok_of_outcome normal)
      exact iff_of_false (by decide) (by simp)

theorem due_normal_iff (sound : tokens.Sound) (writable : value.IsWritable) :
    (Part.normal value).due tokens = some ((Part.normal value).shown tokens) ↔
      value ≠ .null := by
  obtain ⟨text, rest, normal⟩ := (normalize_returns_iff sound value).2 writable
  rw [due, shown, outcome_of_ok normal, Tokens.spell_of_ok normal]
  cases text with
  | some text =>
    refine iff_of_true rfl ?_
    rintro rfl
    cases normal
  | none =>
    obtain rfl : value = .null := normalize_eq_none normal
    exact iff_of_false (by decide) (by simp)

/-- Exactly the plain parts show what they should. -/
theorem due_iff (sound : tokens.Sound) {part : Part} (showing : part.CanShow) :
    part.due tokens = some (part.shown tokens) ↔ part.IsPlain tokens := by
  cases part with
  | fixed text => exact iff_of_true rfl trivial
  | spelled value => exact due_spelled_iff value
  | normal value => exact due_normal_iff sound showing

/-- A value without the word in what its caller chose shows it just when it is missing. -/
theorem mentionsNone_iff (sound : tokens.Sound) {part : Part} (showing : part.CanShow)
    (shows : part.value? = some value) (scalar : value.IsScalar)
    (chosen : ∀ text ∈ value.chosen tokens, ¬MentionsNone text) :
    MentionsNone (part.shown tokens) ↔ value = .null := by
  cases part with
  | fixed text => cases shows
  | spelled value =>
    cases shows
    by_cases missing : value = .null
    · subst missing
      exact iff_of_true (List.infix_refl _) rfl
    · exact iff_of_false (Value.not_mentionsNone_spelling scalar missing chosen) missing
  | normal value =>
    cases shows
    rw [← Tokens.spell_eq_none_iff sound showing, shown]
    cases spelled : tokens.spell value with
    | none => exact iff_of_true (List.infix_refl _) rfl
    | some text =>
      exact iff_of_false (Value.not_mentionsNone_spell scalar chosen text spelled) (by simp)

end Part

/-! ## Calls -/

/-- A call that puts several values together into one text. -/
inductive Composite where
  | metadata (key : String) (value : Value)
  | size (width height : Value)
  | aspect (width height : Value)
  | color (paint opacity : Value)
  /-- The expression of a named position across the picture or down it. -/
  | edge (across : Bool) (position margin : Value)

namespace Composite

/-- The coordinate of a named position. -/
def coordinate? (across : Bool) (position : Value) : Option Coordinate :=
  position.position?.map fun place => if across then place.1 else place.2

/-- Whether a call puts a text together: a named size stands alone, a colour is composed with an
opacity above zero, and an expression with a margin where it has a place for one. -/
def Composes : Composite → Prop
  | .size width _ => width.isMemberOf .videoSize = false
  | .color paint opacity => (∀ channels, paint ≠ .tuple channels) ∧
    opacity.isAbove (.int 0) = .ok true
  | .edge across position _ => ∃ coordinate, coordinate? across position = some coordinate ∧
    coordinate.takesMargin = true
  | _ => True

/-- The parts of the text. -/
def parts : Composite → List Part
  | .metadata key value => [.fixed (key ++ "="), .normal value]
  | .size width height => [.spelled width, .fixed "x", .spelled height]
  | .aspect width height => [.spelled width, .fixed "/", .spelled height]
  | .color paint opacity => [.normal paint, .fixed "@", .normal opacity]
  | .edge across position margin =>
    [.fixed ((coordinate? across position).elim "" (·.expression)), .normal margin]

/-- The values that the text is put together from. -/
def values (call : Composite) : List Value := call.parts.filterMap (·.value?)

/-- The texts that its caller has chosen. -/
def chosen (tokens : Tokens) (call : Composite) : List String :=
  (match call with
    | .metadata key _ => [key]
    | _ => []) ++ call.values.flatMap (·.chosen tokens)

/-- The text that a call puts together. -/
def text (tokens : Tokens) (call : Composite) : String :=
  String.join (call.parts.map (Part.shown tokens))

/-- What it is for a call to write a text, on any list, on any node whose base arguments can be
written, or as its result. -/
def Writes (tokens : Tokens) (text : String) : Composite → Prop
  | .metadata key value => ∀ list, ∃ rest,
    ArgumentList.addMetadata (.text key) value ⟨tokens, list⟩ =
      .ok () ⟨rest, list.entered "metadata" false (some text) false⟩
  | .size width height => ∀ list, ∃ rest,
    ArgumentList.setSize width height ⟨tokens, list⟩ =
      .ok () ⟨rest, list.entered "s" true (some text) false⟩
  | .aspect width height => ∀ node : Node,
    (node.phase = .buffering → ∀ value ∈ node.base.map (·.2), value.IsWritable) →
    ∃ after, Node.setPadAspect width height ⟨tokens, node⟩ = .ok () after ∧
      after.node = NodeCall.stored (node.writtenOut tokens) (some ⟨some "aspect", some text⟩)
  | .color paint opacity => ∀ node : Node,
    (node.phase = .buffering → ∀ value ∈ node.base.map (·.2), value.IsWritable) →
    ∃ after, Node.addColor paint opacity ⟨tokens, node⟩ = .ok () after ∧
      after.node = NodeCall.stored (node.writtenOut tokens) (some ⟨some "color", some text⟩)
  | .edge across position margin => ∃ rest,
    (if across then position.positionX margin else position.positionY margin) tokens =
      .ok text rest

variable {tokens : Tokens} {call : Composite}

theorem text_metadata (key : String) (value : Value) : (metadata key value).text tokens =
    key ++ ("=" ++ (tokens.spell value).getD "None") := by
  simp only [text, parts, List.map_cons, List.map_nil, String.join_cons, String.join_nil,
    String.append_empty, Part.shown, String.append_assoc]

/-- Two parts around a fixed one. -/
theorem join_around (first second : Part) (separator : String) :
    String.join ([first, .fixed separator, second].map (Part.shown tokens)) =
      first.shown tokens ++ (separator ++ second.shown tokens) := by
  simp only [List.map_cons, List.map_nil, String.join_cons, String.join_nil, String.append_empty,
    Part.shown]

theorem text_edge {across : Bool} {position : Value} {coordinate : Coordinate}
    (found : coordinate? across position = some coordinate) (margin : Value) :
    (edge across position margin).text tokens =
      coordinate.expression ++ (tokens.spell margin).getD "None" := by
  simp only [text, parts, found, List.map_cons, List.map_nil, String.join_cons, String.join_nil,
    String.append_empty, Part.shown, Option.elim_some]

theorem filled_of_found {across : Bool} {position : Value} {coordinate : Coordinate}
    (found : coordinate? across position = some coordinate) (margin : Value) :
    (if across then position.positionX margin else position.positionY margin) =
      coordinate.fill margin := by
  obtain ⟨place, known, rfl⟩ := Option.map_eq_some_iff.1 found
  cases across with
  | true => simp only [if_true, Value.positionX, known]
  | false => simp only [Value.positionY, known, Bool.false_eq_true, if_false]

theorem addNamed_text (sound : tokens.Sound) {node : Node}
    (held : node.phase = .buffering → ∀ value ∈ node.base.map (·.2), value.IsWritable)
    (key text : String) : ∃ after, Node.addNamed key (.text text) ⟨tokens, node⟩ = .ok () after ∧
      after.node = NodeCall.stored (node.writtenOut tokens) (some ⟨some key, some text⟩) :=
  @NodeCall.addNamed_returns ⟨tokens, node⟩ sound held key (.text text) trivial

theorem addColor_of_single {paint : Value} (single : ∀ channels, paint ≠ .tuple channels)
    (opacity : Value) : Node.addColor paint opacity = (do
      let text ← Node.withTokens (normalize paint)
      let text ← if ← Action.ofExcept (opacity.isAbove (.int 0)) then
          let shade ← Node.withTokens (normalize opacity)
          pure (some (text.getD "None" ++ "@" ++ shade.getD "None"))
        else pure text
      Node.addNamed "color" (match text with
        | some text => .text text
        | none => .null)) := by
  cases paint with
  | tuple channels => exact absurd rfl (single channels)
  | _ => rfl

/-- A call writes the text of its parts. -/
theorem writes_text (sound : tokens.Sound) (composes : call.Composes)
    (showing : ∀ part ∈ call.parts, part.CanShow) : call.Writes tokens (call.text tokens) := by
  cases call with
  | metadata key value =>
    obtain ⟨text, rest, normal⟩ := (normalize_returns_iff sound value).2
      (showing (.normal value) (by simp [parts]))
    rw [text_metadata, Tokens.spell_of_ok normal]
    intro list
    have looked : ArgumentList.withTokens (normalize value) ⟨tokens, list⟩ = .ok text ⟨rest, list⟩ :=
      within_of_ok normal
    refine ⟨rest, ?_⟩
    rw [ArgumentList.addMetadata, Value.spelled_bind rfl, bind_of_ok looked, ← String.append_assoc]
    exact bind_of_ok (ArgumentList.put_of_ok rfl)
  | size width height =>
    rw [Composite.text, parts, join_around]
    intro list
    refine ⟨tokens, ?_⟩
    have unnamed : ¬width.isMemberOf .videoSize = true := by
      rw [Bool.not_eq_true]
      exact composes
    rw [ArgumentList.setSize, if_neg unnamed,
      Value.spelled_bind (showing (.spelled width) (by simp [parts])),
      Value.spelled_bind (showing (.spelled height) (by simp [parts])), ← String.append_assoc]
    exact bind_of_ok (ArgumentList.put_of_ok rfl)
  | aspect width height =>
    rw [Composite.text, parts, join_around]
    intro node held
    rw [Node.setPadAspect, Value.spelled_bind (showing (.spelled width) (by simp [parts])),
      Value.spelled_bind (showing (.spelled height) (by simp [parts])), ← String.append_assoc]
    exact addNamed_text sound held "aspect" _
  | color paint opacity =>
    obtain ⟨single, above⟩ := composes
    obtain ⟨text, mid, first⟩ := (normalize_returns_iff sound paint).2
      (showing (.normal paint) (by simp [parts]))
    have agree := (Tokens.looksUp_normalize paint).agrees first
    obtain ⟨shade, rest, second⟩ := (normalize_returns_iff (agree.sound sound) opacity).2
      (showing (.normal opacity) (by simp [parts]))
    have further := (Tokens.looksUp_normalize opacity).agrees second
    rw [Composite.text, parts, join_around, Part.shown, Part.shown, Tokens.spell_of_ok first,
      agree.spell opacity, Tokens.spell_of_ok second]
    intro node held
    obtain ⟨after, done, last⟩ := addNamed_text (further.sound (agree.sound sound)) held "color"
      (text.getD "None" ++ "@" ++ shade.getD "None")
    refine ⟨after, ?_, ?_⟩
    · have looked : Node.withTokens (normalize paint) ⟨tokens, node⟩ = .ok text ⟨mid, node⟩ :=
        within_of_ok first
      have again : Node.withTokens (normalize opacity) ⟨mid, node⟩ = .ok shade ⟨rest, node⟩ :=
        within_of_ok second
      rw [addColor_of_single single, bind_of_ok looked, above]
      exact (bind_of_ok again).trans done
    · rw [last, Node.writtenOut_agrees agree, Node.writtenOut_agrees further, String.append_assoc]
  | edge across position margin =>
    obtain ⟨coordinate, found, takes⟩ := composes
    obtain ⟨text, rest, normal⟩ := (normalize_returns_iff sound margin).2
      (showing (.normal margin) (by simp [parts]))
    have filled : coordinate.fill margin tokens =
        .ok (coordinate.expression ++ text.getD "None") rest := by
      rw [Coordinate.fill, if_pos takes, bind_of_ok normal]
      rfl
    rw [text_edge found, Tokens.spell_of_ok normal]
    exact ⟨rest, by rw [filled_of_found found, filled]⟩

/-- It writes a text exactly if its parts can be shown. -/
theorem writes_iff (sound : tokens.Sound) (composes : call.Composes) :
    (∃ text, call.Writes tokens text) ↔ ∀ part ∈ call.parts, part.CanShow := by
  refine ⟨?_, fun showing => ⟨_, writes_text sound composes showing⟩⟩
  rintro ⟨text, writes⟩
  cases call with
  | metadata key data =>
    obtain ⟨rest, done⟩ := writes ⟨[], 0⟩
    rw [ArgumentList.addMetadata, Value.spelled_bind rfl] at done
    obtain ⟨text, _, looked, -⟩ := bind_eq_ok.1 done
    obtain ⟨mid, normal, -⟩ := within_eq_ok.1 looked
    have writable := (normalize_returns_iff sound data).1 ⟨text, mid, normal⟩
    simpa [parts, Part.CanShow] using writable
  | size width height =>
    obtain ⟨rest, done⟩ := writes ⟨[], 0⟩
    have unnamed : ¬width.isMemberOf .videoSize = true := by
      rw [Bool.not_eq_true]
      exact composes
    rw [ArgumentList.setSize, if_neg unnamed] at done
    obtain ⟨first, done⟩ := Value.spelled_bind_eq_ok.1 done
    obtain ⟨second, -⟩ := Value.spelled_bind_eq_ok.1 done
    simp [parts, Part.CanShow, first, second]
  | aspect width height =>
    obtain ⟨after, done, -⟩ := writes (.fresh .pad ":") (by simp [Node.fresh])
    obtain ⟨first, done⟩ := Value.spelled_bind_eq_ok.1 done
    obtain ⟨second, -⟩ := Value.spelled_bind_eq_ok.1 done
    simp [parts, Part.CanShow, first, second]
  | color paint opacity =>
    obtain ⟨single, above⟩ := composes
    obtain ⟨after, done, -⟩ := writes (.fresh .color ":") (by simp [Node.fresh])
    rw [addColor_of_single single, above] at done
    obtain ⟨text, _, looked, done⟩ := bind_eq_ok.1 done
    obtain ⟨mid, first, rfl⟩ := within_eq_ok.1 looked
    obtain ⟨_, _, compared, done⟩ := bind_eq_ok.1 done
    cases compared
    obtain ⟨shade, _, looked, -⟩ := bind_eq_ok.1 done
    obtain ⟨rest, second, -⟩ := within_eq_ok.1 looked
    -- The opacity is looked up with the tables that the paint's look-up has left.
    have agree := (Tokens.looksUp_normalize paint).agrees first
    have painted := (normalize_returns_iff sound paint).1 ⟨text, mid, first⟩
    have shaded := (normalize_returns_iff (agree.sound sound) opacity).1 ⟨shade, rest, second⟩
    simpa [parts, Part.CanShow] using ⟨painted, shaded⟩
  | edge across position margin =>
    obtain ⟨coordinate, found, takes⟩ := composes
    obtain ⟨rest, done⟩ := writes
    rw [filled_of_found found, Coordinate.fill, if_pos takes] at done
    obtain ⟨text, mid, normal, -⟩ := bind_eq_ok.1 done
    have writable := (normalize_returns_iff sound margin).1 ⟨text, mid, normal⟩
    simpa [parts, Part.CanShow] using writable

theorem exists_mem_positions {position : Value} {place : Coordinate × Coordinate}
    (known : position.position? = some place) : ∃ name, (name, place) ∈ positions := by
  cases position with
  | member m worth =>
    rw [Value.position?] at known
    by_cases mine : m.catalog = .overlays
    · rw [if_pos mine] at known
      obtain ⟨entry, found, rfl⟩ := Option.map_eq_some_iff.1 known
      exact ⟨entry.1, List.mem_of_find?_eq_some found⟩
    · rw [if_neg mine] at known
      cases known
  | _ => cases known

/-- An expression with a place for a margin does not end in a part of the word. -/
theorem mentionsNone_filled_iff {across : Bool} {position : Value} {coordinate : Coordinate}
    (found : coordinate? across position = some coordinate)
    (takes : coordinate.takesMargin = true) (text : String) :
    MentionsNone (coordinate.expression ++ text) ↔ MentionsNone text := by
  have dashed (word : String) (without : 'N' ∉ word.toList) :
      MentionsNone (word ++ ("-" ++ text)) ↔ MentionsNone text := by
    rw [mentionsNone_joined_iff rfl (by decide)]
    exact or_iff_right fun inside => without (inside.subset List.mem_cons_self)
  -- The table decides which expressions have a place: empty ones and those that end in a dash.
  have listed : coordinate = ⟨"", true⟩ ∨ coordinate = .right ∨ coordinate = .bottom := by
    obtain ⟨place, known, rfl⟩ := Option.map_eq_some_iff.1 found
    obtain ⟨name, mem⟩ := exists_mem_positions known
    have all : ∀ entry ∈ positions,
        (entry.2.1.takesMargin = true → entry.2.1 = ⟨"", true⟩ ∨ entry.2.1 = .right) ∧
        (entry.2.2.takesMargin = true → entry.2.2 = ⟨"", true⟩ ∨ entry.2.2 = .bottom) := by decide
    cases across with
    | true => exact ((all _ mem).1 takes).imp_right .inl
    | false => exact ((all _ mem).2 takes).imp_right .inr
  rcases listed with rfl | rfl | rfl
  · exact Iff.of_eq (congrArg MentionsNone (String.empty_append))
  · rw [← dashed "main_w-overlay_w" (by decide), ← String.append_assoc]
    rfl
  · rw [← dashed "main_h-overlay_h" (by decide), ← String.append_assoc]
    rfl

/-- The text mentions the word exactly if a value is missing, unless the caller did. -/
theorem mentionsNone_text_iff (sound : tokens.Sound) (composes : call.Composes)
    (showing : ∀ part ∈ call.parts, part.CanShow)
    (scalar : ∀ value ∈ call.values, value.IsScalar)
    (chosen : ∀ text ∈ call.chosen tokens, ¬MentionsNone text) :
    MentionsNone (call.text tokens) ↔ .null ∈ call.values := by
  have shows : ∀ part ∈ call.parts, ∀ value ∈ part.value?,
      (MentionsNone (part.shown tokens) ↔ value = .null) := by
    intro part mem value shown
    have here : value ∈ call.values := List.mem_filterMap.2 ⟨part, mem, shown⟩
    refine Part.mentionsNone_iff sound (showing part mem) shown (scalar value here) ?_
    exact fun text made => chosen text
      (List.mem_append_right _ (List.mem_flatMap.2 ⟨value, here, made⟩))
  have around (first second : Part) {separator : String} {c : Char}
      (single : separator.toList = [c]) (without : c ∉ "None".toList) {a b : Value}
      (left : MentionsNone (first.shown tokens) ↔ a = .null)
      (right : MentionsNone (second.shown tokens) ↔ b = .null) :
      MentionsNone (String.join ([first, .fixed separator, second].map (Part.shown tokens))) ↔
        .null ∈ [a, b] := by
    rw [join_around, mentionsNone_joined_iff single without, left, right]
    simp only [List.mem_cons, List.not_mem_nil, or_false, eq_comm]
  cases call with
  | metadata key value =>
    have known := shows (.normal value) (by simp [parts]) value rfl
    have unsaid := chosen key List.mem_cons_self
    rw [Part.shown] at known
    rw [text_metadata, mentionsNone_joined_iff rfl (by decide), known]
    exact (or_iff_right unsaid).trans (eq_comm.trans List.mem_singleton.symm)
  | size width height | aspect width height =>
    exact around (.spelled width) (.spelled height) rfl (by decide)
      (shows (.spelled width) (by simp [parts]) width rfl)
      (shows (.spelled height) (by simp [parts]) height rfl)
  | color paint opacity =>
    exact around (.normal paint) (.normal opacity) rfl (by decide)
      (shows (.normal paint) (by simp [parts]) paint rfl)
      (shows (.normal opacity) (by simp [parts]) opacity rfl)
  | edge across position margin =>
    obtain ⟨coordinate, found, takes⟩ := composes
    have known := shows (.normal margin) (by simp [parts]) margin rfl
    rw [Part.shown] at known
    rw [text_edge found, mentionsNone_filled_iff found takes, known]
    exact eq_comm.trans List.mem_singleton.symm

/-- The five calls that compose a text write it exactly if all that they look up can be written, and
no integer that they take as it reads is too long. Every value is then in the text as it is written,
and a missing one not at all, just when all parts are plain. The word for a missing value is in the
text if there is one, even though no caller chose it. -/
theorem composed_as_due_iff (sound : tokens.Sound) (composes : call.Composes) :
    ((∃ text, call.Writes tokens text) ↔ ∀ part ∈ call.parts, part.CanShow) ∧
    ((∀ part ∈ call.parts, part.CanShow) →
      call.Writes tokens (call.text tokens) ∧
      ((∀ part ∈ call.parts, part.due tokens = some (part.shown tokens)) ↔
        ∀ part ∈ call.parts, part.IsPlain tokens) ∧
      ((∀ value ∈ call.values, value.IsScalar) →
        (∀ text ∈ call.chosen tokens, ¬MentionsNone text) →
        (MentionsNone (call.text tokens) ↔ .null ∈ call.values))) := by
  refine ⟨writes_iff sound composes, fun showing =>
    ⟨writes_text sound composes showing, ?_, mentionsNone_text_iff sound composes showing⟩⟩
  exact forall₂_congr fun part mem => Part.due_iff sound (showing part mem)

/-- A decimal in metadata is written with its two places. -/
theorem composed_metadata :
    let call := metadata "gain" (.decimal (.finite ⟨false, 7, 0⟩))
    call.text .initial = "gain=7.00" ∧ call.Writes .initial (call.text .initial) ∧
      (∀ part ∈ call.parts, part.due .initial = some (part.shown .initial)) ∧
      ¬MentionsNone (call.text .initial) := by
  intro call
  obtain ⟨writes, rest⟩ := @composed_as_due_iff .initial call Tokens.sound_initial trivial
  have writable := (Decimal.cents?_isSome_iff (.finite ⟨false, 7, 0⟩)).1 (by decide +kernel)
  obtain ⟨written, due, unsaid⟩ :=
    rest (by simpa [call, parts, Part.CanShow, Value.IsWritable] using writable)
  refine ⟨by rfl, written, due.2 ?_, fun mentioned => ?_⟩
  · intro part mem
    rcases List.mem_cons.1 mem with rfl | mem
    · trivial
    · cases List.mem_singleton.1 mem
      simp [Part.IsPlain]
  · have missing := (unsaid ?_ ?_).1 mentioned
    · cases List.mem_singleton.1 missing
    · intro value mem
      cases List.mem_singleton.1 mem
      trivial
    · intro text mem
      cases List.mem_singleton.1 mem
      exact not_mentionsNone (by decide)

/-- A double in a frame size is shown with its full precision, and a missing value as a word. -/
theorem composed_slips :
    let wide : Value := .float (Double.ofParts false (5 * 2 ^ 50) (-42))
    (size wide (.int 720)).Writes .initial "1280.0x720" ∧
      normalize wide .initial = .ok (some "1280") .initial ∧
      (size (.int 1280) .null).Writes .initial "1280xNone" ∧
      (aspect wide (.int 720)).Writes .initial "1280.0/720" ∧
      (metadata "title" .null).Writes .initial "title=None" ∧
      (color .null (.decimal (.finite ⟨false, 5, -1⟩))).Writes .initial "None@0.50" ∧
      (edge true (.member ⟨.overlays, "LEFT_TOP"⟩ .null) .null).Writes .initial "None" := by
  intro wide
  have writes {call : Composite} {text : String} (composes : call.Composes)
      (showing : ∀ part ∈ call.parts, part.CanShow) (same : call.text .initial = text) :
      call.Writes .initial text := same ▸ writes_text Tokens.sound_initial composes showing
  have sides {width height : Value} {separator : String} (first : width.spellingFits)
      (second : height.spellingFits) :
      ∀ part ∈ [Part.spelled width, .fixed separator, .spelled height], part.CanShow := by
    simp [Part.CanShow, first, second]
  have missing (text : String) : ∀ part ∈ [Part.fixed text, .normal .null], part.CanShow := by
    simp [Part.CanShow, Value.IsWritable]
  have half := (Decimal.cents?_isSome_iff (.finite ⟨false, 5, -1⟩)).1 (by decide +kernel)
  have plain : ∀ items, Value.null ≠ .tuple items := fun _ same => by cases same
  refine ⟨writes rfl (sides rfl rfl) (by decide +kernel), ?_,
    writes rfl (sides rfl rfl) (by decide +kernel),
    writes trivial (sides rfl rfl) (by decide +kernel),
    writes trivial (missing _) (by decide +kernel),
    writes ⟨plain, by rfl⟩ ?_ (by decide +kernel),
    writes ⟨.left, by rfl, rfl⟩ (missing _) (by decide +kernel)⟩
  · have text : Double.normal (Double.ofParts false (5 * 2 ^ 50) (-42)) = "1280" := by
      decide +kernel
    rw [← text]
    rfl
  · simpa [parts, Part.CanShow, Value.IsWritable] using half

end Composite

end MediaCommand
