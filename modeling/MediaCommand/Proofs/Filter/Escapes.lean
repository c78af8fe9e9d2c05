import MediaCommand.Filter.Setting
import MediaCommand.Proofs.Filter.Rendering
import MediaCommand.Proofs.Graph.Grammar

/-!
# Reading escaped arguments back

A reader of the filter language takes a backslash and the character behind it as one letter without
a meaning (`Letter`). `readArguments` splits the letters at bare colons, and each part at its first
bare equals sign. An escaped text has no bare letter with a meaning, whatever stands in it, so
arguments that are escaped before they are added are read back from the rendered node
(`readArguments_escaped`).
-/

namespace MediaCommand

open MediaCommand.Action

/-! ## Letters -/

/-- A character as the filter language reads it. -/
inductive Letter where
  /-- By itself. -/
  | bare (c : Char)
  /-- Behind a backslash. -/
  | literal (c : Char)
  deriving DecidableEq, Repr

namespace Letter

def char : Letter → Char
  | .bare c => c
  | .literal c => c

/-- The characters that letters stand for. -/
def text (letters : List Letter) : String := String.ofList (letters.map char)

/-- Reads the letters of a text. A backslash at its end stands by itself. -/
def readAll : List Char → List Letter
  | '\\' :: c :: rest => .literal c :: readAll rest
  | c :: rest => .bare c :: readAll rest
  | [] => []

/-- The letter that a character becomes when it is escaped. -/
def ofChar (c : Char) : Letter := if isSpecial c then .literal c else .bare c

theorem text_ofChar (text : String) : Letter.text (text.toList.map ofChar) = text := by
  have same : char ∘ ofChar = id := by
    funext c
    by_cases special : isSpecial c = true
    · simp [ofChar, special, char]
    · simp [ofChar, special, char]
  rw [Letter.text, List.map_map, same, List.map_id, String.ofList_toList]

/-- Escaping leaves no bare letter with a meaning. -/
theorem bare_notMem {c : Char} (special : isSpecial c = true) (text : List Char) :
    .bare c ∉ text.map ofChar := by
  intro mem
  obtain ⟨other, -, same⟩ := List.mem_map.1 mem
  unfold ofChar at same
  split at same
  · cases same
  · next plain =>
    cases same
    exact plain special

theorem readAll_bare {c : Char} (plain : c ≠ '\\') (behind : List Char) :
    readAll (c :: behind) = .bare c :: readAll behind := by
  rw [readAll.eq_2]
  rintro _ _ same
  cases same
  exact absurd rfl plain

theorem readAll_escaped (text behind : List Char) :
    readAll (escaped text ++ behind) = text.map ofChar ++ readAll behind := by
  induction text with
  | nil => rfl
  | cons c rest ih =>
    rw [escaped, List.flatMap_cons, List.append_assoc, List.map_cons, List.cons_append]
    by_cases special : isSpecial c = true
    · rw [escapedChar, if_pos special, ofChar, if_pos special, ← ih]
      rfl
    · have plain : c ≠ '\\' := by
        rintro rfl
        exact special rfl
      rw [escapedChar, if_neg special, ofChar, if_neg special, ← ih]
      exact readAll_bare plain _

end Letter

/-- A text without special characters is its own escape. -/
theorem escaped_plain {text : List Char} (plain : ∀ c ∈ text, isSpecial c = false) :
    escaped text = text := by
  induction text with
  | nil => rfl
  | cons c rest ih =>
    obtain ⟨first, others⟩ := List.forall_mem_cons.1 plain
    have later := ih others
    unfold escaped at later ⊢
    rw [List.flatMap_cons, escapedChar, first, later]
    rfl

/-! ## Arguments -/

/-- Reads an argument: its name and what stands behind the first bare equals sign, if there is
one. -/
def readArgument (letters : List Letter) : String × Option String :=
  let behind := letters.dropWhile (· ≠ .bare '=')
  (Letter.text (letters.takeWhile (· ≠ .bare '=')),
    if behind.isEmpty then none else some (Letter.text behind.tail))

/-- Reads the arguments between bare colons. -/
def readArguments (body : String) : List (String × Option String) :=
  ((Letter.readAll body.toList).splitOn (.bare ':')).map readArgument

/-- The letters of an argument that is escaped. -/
def argumentLetters (pair : String × String) : List Letter :=
  pair.1.toList.map Letter.ofChar ++ .bare '=' :: pair.2.toList.map Letter.ofChar

theorem readArgument_letters (pair : String × String) :
    readArgument (argumentLetters pair) = (pair.1, some pair.2) := by
  have apart : ∀ letter ∈ pair.1.toList.map Letter.ofChar, decide (letter ≠ .bare '=') = true := by
    intro letter mem
    refine decide_eq_true ?_
    rintro rfl
    exact Letter.bare_notMem rfl _ mem
  have name : (argumentLetters pair).takeWhile (· ≠ .bare '=') =
      pair.1.toList.map Letter.ofChar := by
    rw [argumentLetters, List.takeWhile_append_of_pos apart]
    simp
  have behind : (argumentLetters pair).dropWhile (· ≠ .bare '=') =
      .bare '=' :: pair.2.toList.map Letter.ofChar := by
    rw [argumentLetters, List.dropWhile_append_of_pos apart]
    simp
  simp only [readArgument, name, behind, Letter.text_ofChar, List.isEmpty_cons, List.tail_cons]
  rfl

theorem bare_notMem_argumentLetters {c : Char} (special : isSpecial c = true) (differ : c ≠ '=')
    (pair : String × String) : .bare c ∉ argumentLetters pair := by
  rw [argumentLetters, List.mem_append, List.mem_cons]
  rintro (mem | same | mem)
  · exact Letter.bare_notMem special _ mem
  · cases same
    exact differ rfl
  · exact Letter.bare_notMem special _ mem

/-- The text of an argument that is escaped, as a node renders it. -/
def argumentText (pair : String × String) : String :=
  pair.1 ++ "=" ++ escapeText pair.2 false

/-- Whether a name has no character with a meaning. -/
def IsPlainName (name : String) : Prop := ∀ c ∈ name.toList, isSpecial c = false

instance (name : String) : Decidable (IsPlainName name) :=
  List.decidableBAll (fun c => isSpecial c = false) name.toList

theorem readAll_argumentText {pair : String × String} (plain : IsPlainName pair.1)
    (behind : List Char) :
    Letter.readAll ((argumentText pair).toList ++ behind) =
      argumentLetters pair ++ Letter.readAll behind := by
  have chars : (argumentText pair).toList ++ behind =
      escaped pair.1.toList ++ '=' :: (escaped pair.2.toList ++ behind) := by
    rw [escaped_plain plain]
    simp [argumentText, escapeText]
  rw [chars, Letter.readAll_escaped, Letter.readAll_bare (by decide), Letter.readAll_escaped,
    argumentLetters, List.append_assoc, List.cons_append]

/-- The letters of arguments between colons. -/
theorem readAll_argumentTexts {pairs : List (String × String)}
    (plain : ∀ pair ∈ pairs, IsPlainName pair.1) :
    Letter.readAll (":".intercalate (pairs.map argumentText)).toList =
      [Letter.bare ':'].intercalate (pairs.map argumentLetters) := by
  have colon : ":".toList = [':'] := rfl
  rw [String.toList_intercalate, colon, List.map_map]
  induction pairs with
  | nil => rfl
  | cons pair rest ih =>
    obtain ⟨first, others⟩ := List.forall_mem_cons.1 plain
    rw [List.map_cons, List.map_cons]
    by_cases last : rest = []
    · subst last
      simpa [Letter.readAll] using readAll_argumentText first []
    · rw [List.intercalate_cons_of_ne_nil (by simpa using last),
        List.intercalate_cons_of_ne_nil (by simpa using last), ← ih others, List.append_assoc,
        List.append_assoc]
      show Letter.readAll ((argumentText pair).toList ++ ':' :: _) =
        argumentLetters pair ++ .bare ':' :: _
      rw [readAll_argumentText first, Letter.readAll_bare (by decide)]
      rfl

/-- Arguments that are escaped are read back, and there is no bare bracket among them. -/
theorem readArguments_texts {pairs : List (String × String)} (some : pairs ≠ [])
    (plain : ∀ pair ∈ pairs, IsPlainName pair.1) :
    readArguments (":".intercalate (pairs.map argumentText)) =
        pairs.map (fun pair => (pair.1, Option.some pair.2)) ∧
      ∀ c ∈ ['[', ']'], Letter.bare c ∉
        Letter.readAll (":".intercalate (pairs.map argumentText)).toList := by
  rw [readArguments, readAll_argumentTexts plain]
  constructor
  · have apart : ∀ letters ∈ pairs.map argumentLetters, Letter.bare ':' ∉ letters := by
      intro letters mem
      obtain ⟨pair, -, rfl⟩ := List.mem_map.1 mem
      exact bare_notMem_argumentLetters rfl (by decide) pair
    rw [List.splitOn_intercalate _ apart (by simpa using some), List.map_map]
    exact List.map_congr_left fun pair _ => readArgument_letters pair
  · intro c bracket mem
    have special : isSpecial c = true ∧ c ≠ '=' ∧ c ≠ ':' := by
      rcases List.mem_pair.1 bracket with rfl | rfl <;> decide
    obtain ⟨special, equals, colon⟩ := special
    rcases mem_intercalate_lists mem with here | ⟨letters, given, here⟩
    · cases List.mem_singleton.1 here
      exact colon rfl
    · obtain ⟨pair, -, rfl⟩ := List.mem_map.1 given
      exact bare_notMem_argumentLetters special equals pair here

/-! ## Nodes -/

namespace NodeCall

variable {w : Workspace} {ref : Ref .node} {node : Node}

/-- The call that adds an argument with its text escaped. -/
def escapedCall (pair : String × String) : NodeCall :=
  .arg (some pair.1) [.text (escapeText pair.2 false)]

/-- The argument that is stored for a text that is escaped. -/
def escapedArgument (pair : String × String) : FilterArgument :=
  ⟨some pair.1, some (escapeText pair.2 false)⟩

theorem flush_empty {d : Node.Desk} (empty : d.node.base = []) :
    Node.flush d = .ok () ⟨d.tokens, { d.node with phase := .flushed }⟩ := by
  cases phase : d.node.phase with
  | flushed => rw [flush_flushed phase, ← phase]
  | buffering =>
    simp only [Node.flush, get_bind_apply, phase, empty]
    rfl

/-- A call with an escaped text under a new name adds an argument. -/
theorem escaped_step (present : w.nodes.get? ref = some node) (empty : node.base = [])
    {pair : String × String} (new : some pair.1 ∉ node.arguments.map (·.name)) :
    ∃ rest, (escapedCall pair).perform ref w = .ok () rest ∧
      rest.nodes.get? ref = some { node with
        phase := .flushed, arguments := node.arguments ++ [escapedArgument pair] } := by
  have edited : (escapedCall pair).edit ⟨w.tokens, node⟩ = .ok () ⟨w.tokens, { node with
      phase := .flushed,
      arguments := Node.written node.arguments (escapedArgument pair) }⟩ := by
    rw [escapedCall, edit, Node.add, get_bind_apply, Node.addJoined,
      bind_of_ok (flush_empty (d := ⟨w.tokens, node⟩) empty)]
    rfl
  have last : Node.written node.arguments (escapedArgument pair) =
      node.arguments ++ [escapedArgument pair] := written_new fun _ => new
  rw [last] at edited
  exact ⟨_, run_of_ok present edited, Store.get?_put_self present⟩

/-- Calls with escaped texts under new names add their arguments in order. -/
theorem escaped_run {pairs : List (String × String)} (distinct : (pairs.map (·.1)).Nodup)
    (present : w.nodes.get? ref = some node) (empty : node.base = [])
    (new : ∀ pair ∈ pairs, some pair.1 ∉ node.arguments.map (·.name)) :
    ∃ rest left, (pairs.map escapedCall).forM (perform ref) w = .ok () rest ∧
      rest.nodes.get? ref = some left ∧ (node.phase = .flushed ∨ pairs ≠ [] → left.phase = .flushed) ∧
      left = { node with
        phase := left.phase, arguments := node.arguments ++ pairs.map escapedArgument } := by
  induction pairs generalizing w node with
  | nil =>
    refine ⟨w, node, rfl, present, ?_, by simp⟩
    rintro (flushed | some)
    · exact flushed
    · exact absurd rfl some
  | cons pair others ih =>
    obtain ⟨once, distinct⟩ := List.nodup_cons.1 distinct
    obtain ⟨first, later⟩ := List.forall_mem_cons.1 new
    obtain ⟨mid, begun, there⟩ := escaped_step present empty first
    obtain ⟨rest, left, done, last, flushed, same⟩ := ih distinct there empty (by
      intro other mem known
      rw [List.map_append, List.mem_append] at known
      rcases known with known | known
      · exact later other mem known
      · have named : other.1 = pair.1 := Option.some.inj (List.mem_singleton.1 known)
        apply once
        show pair.1 ∈ _
        rw [← named]
        exact List.mem_map_of_mem mem)
    refine ⟨rest, left, bind_eq_ok.2 ⟨(), mid, begun, done⟩, last, fun _ => flushed (.inl rfl), ?_⟩
    rw [same]
    simp

/-- The text of a node whose arguments are all escaped ones. -/
theorem body_escaped {pairs : List (String × String)}
    (separator : node.separator = Node.defaultSeparator) (wrapper : node.cls.wrapper = ("", ""))
    (stored : node.arguments = pairs.map escapedArgument) :
    node.body = ":".intercalate (pairs.map argumentText) := by
  have texts : (pairs.map escapedArgument).filterMap FilterArgument.render =
      pairs.map argumentText := by
    rw [List.filterMap_map]
    exact List.filterMap_eq_map.symm ▸ rfl
  rw [Node.body, wrapper, stored, texts, separator]
  simp [Node.defaultSeparator]

/-- Operations on a node in turn are one operation. -/
theorem run_bind {α β : Type} (ref : Ref .node) (first : Node.Edit α) (next : α → Node.Edit β) :
    Node.run ref (first >>= next) = (Node.run ref first >>= fun a => Node.run ref (next a)) := by
  funext w
  cases present : w.nodes.get? ref with
  | none =>
    have absent : Node.read ref w = .error .noObject w := require_of_none present
    rw [Node.run, bind_of_error absent, Node.run, bind_of_error (bind_of_error absent)]
  | some node =>
    cases run : first ⟨w.tokens, node⟩ with
    | error failure desk =>
      rw [run_of_error present (bind_of_error run), bind_of_error (run_of_error present run)]
    | ok a desk =>
      rw [bind_of_ok (run_of_ok present run)]
      have there : (w.nodes.put ref desk.node).get? ref = some desk.node :=
        Store.get?_put_self present
      cases rest : next a desk with
      | error failure last =>
        rw [run_of_error present ((bind_of_ok run).trans rest), run_of_error there rest,
          Store.put_put]
      | ok b last =>
        rw [run_of_ok present ((bind_of_ok run).trans rest), run_of_ok there rest, Store.put_put]

/-- Two escaped texts in one operation are two calls. -/
theorem run_two_escaped (ref : Ref .node) (one two : String × String) :
    (Node.run ref do
      Node.addNamed one.1 (Node.expressionValue (.text one.2))
      Node.addNamed two.1 (Node.expressionValue (.text two.2))) =
      ([one, two].map escapedCall).forM (perform ref) := by
  rw [run_bind]
  show _ = (do
    Node.run ref (Node.addNamed one.1 (Node.expressionValue (.text one.2)))
    Node.run ref (Node.addNamed two.1 (Node.expressionValue (.text two.2)))
    pure ())
  simp

/-- **Escaped arguments survive rendering.** Add any texts, each escaped, under distinct names
without a special character to a node that has no arguments, nor base arguments to come, with the
default separator and no wrapper. Every call returns, and so does rendering the node; of what it
gives behind the filter name, the names and texts are read back as they were, in order, and no
bracket in it is bare. The size and the position of a padded picture are added in this way. -/
theorem readArguments_escaped (present : w.nodes.get? ref = some node) (empty : node.base = [])
    (bare : node.arguments = []) (separator : node.separator = Node.defaultSeparator)
    (wrapper : node.cls.wrapper = ("", "")) {pairs : List (String × String)} (some : pairs ≠ [])
    (distinct : (pairs.map (·.1)).Nodup) (plain : ∀ pair ∈ pairs, IsPlainName pair.1) :
    (∃ rest name body, (pairs.map escapedCall).forM (perform ref) w = .ok () rest ∧
      node.filterName.outcome rest = .ok name ∧
      (Node.render ref).outcome rest = .ok ((name.map (· ++ "=")).getD "" ++ body) ∧
      readArguments body = pairs.map (fun pair => (pair.1, Option.some pair.2)) ∧
      ∀ c ∈ ['[', ']'], Letter.bare c ∉ Letter.readAll body.toList) ∧
    (∀ width height, Node.run ref (Node.setPadSize (.text width) (.text height)) =
      ([("w", width), ("h", height)].map escapedCall).forM (perform ref)) ∧
    ∀ x y, Node.run ref (Node.setPadPosition (.text x) (.text y)) =
      ([("x", x), ("y", y)].map escapedCall).forM (perform ref) := by
  refine ⟨?_, fun width height => run_two_escaped ref ("w", width) ("h", height),
    fun x y => run_two_escaped ref ("x", x) ("y", y)⟩
  obtain ⟨rest, left, done, there, flushed, same⟩ :=
    escaped_run distinct present empty (by simp [bare])
  obtain ⟨name, last, named, rendered⟩ := render_flushed there (flushed (.inr some))
  have stored : left.arguments = pairs.map escapedArgument := by
    rw [same, bare, List.nil_append]
  have body : left.body = ":".intercalate (pairs.map argumentText) := by
    refine body_escaped ?_ ?_ stored
    · rw [same, separator]
    · rw [same, wrapper]
  have text : left.expression name = (name.map (· ++ "=")).getD "" ++ left.body := by
    have nonempty : left.arguments.isEmpty = false := by simpa [stored] using some
    cases name with
    | none => simp [Node.expression, nonempty]
    | some name => simp [Node.expression, nonempty]
  have readable := readArguments_texts some plain
  rw [← body] at readable
  refine ⟨rest, name, left.body, done, ?_, ?_, readable⟩
  · rw [same] at named
    exact outcome_of_ok named
  · rw [outcome_of_ok rendered, text]

/-- A workspace with a padding under construction. -/
def padding : Workspace := { Workspace.initial with nodes := ⟨[Node.fresh .pad ":"]⟩ }

/-- Texts with colons, brackets and backslashes are read back from a padding. -/
theorem readArguments_padding :
    let size := Node.setPadSize (.text "iw*2:x") (.text "[h]=\\")
    ∃ (rest : Workspace) (name : Option String) (body : String),
      Node.run ⟨0⟩ size padding = .ok () rest ∧
      (Node.render ⟨0⟩).outcome rest = .ok ((name.map (· ++ "=")).getD "" ++ body) ∧
      readArguments body = [("w", some "iw*2:x"), ("h", some "[h]=\\")] := by
  intro size
  have plain : ∀ pair ∈ [("w", "iw*2:x"), ("h", "[h]=\\")], IsPlainName pair.1 := by
    intro pair mem
    rcases List.mem_pair.1 mem with rfl | rfl
    · decide
    · decide
  obtain ⟨⟨rest, name, body, done, -, rendered, read, -⟩, sized, -⟩ :=
    @readArguments_escaped padding ⟨0⟩ (Node.fresh .pad ":") rfl rfl rfl rfl rfl
      [("w", "iw*2:x"), ("h", "[h]=\\")] (by simp) (by decide) plain
  exact ⟨rest, name, body, (congrFun (sized _ _) padding).trans done, rendered, read⟩

end NodeCall

end MediaCommand
