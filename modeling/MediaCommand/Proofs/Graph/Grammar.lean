import MediaCommand.Graph.Basic
import MediaCommand.Proofs.Text.Lines

/-!
# The language of filter statements

A text of the filter language is statements between semicolons; a statement is input labels in
brackets, node expressions between commas, and output labels in brackets. `Statement.readAll` reads
such a text by this grammar alone. `readAll_intercalate` shows that statements without any of the
four marks in their labels and expressions are read back as they were, in order.
-/

namespace MediaCommand

/-- A statement of the filter language. -/
structure Statement where
  inputs : List String
  nodes : List String
  outputs : List String
  deriving DecidableEq, Repr

namespace Statement

/-! ## Writing -/

/-- Labels in brackets, one after the other. -/
def bracketed : List String → String
  | [] => ""
  | label :: rest => "[" ++ label ++ "]" ++ bracketed rest

def render (statement : Statement) : String :=
  bracketed statement.inputs ++ ",".intercalate statement.nodes ++ bracketed statement.outputs

/-! ## Reading -/

/-- Reads the bracket groups that a text starts with, and gives them with the text behind them.
In a group, the first argument is what has been read of its label; a group that is never closed
is refused. -/
def readGroups : Option (List Char) → List Char → Option (List String × List Char)
  | none, '[' :: rest => readGroups (some []) rest
  | none, rest => some ([], rest)
  | some label, ']' :: rest =>
    (readGroups none rest).map fun (labels, behind) => (String.ofList label :: labels, behind)
  | some label, c :: rest => readGroups (some (label ++ [c])) rest
  | some _, [] => none

/-- Reads a statement: leading bracket groups, node expressions between commas up to the next
bracket, and trailing bracket groups up to the end. -/
def read (text : List Char) : Option Statement := do
  let (inputs, rest) ← readGroups none text
  let (outputs, behind) ← readGroups none (rest.dropWhile (· ≠ '['))
  if behind.isEmpty then
    some ⟨inputs, ((rest.takeWhile (· ≠ '[')).splitOn ',').map String.ofList, outputs⟩
  else none

/-- Reads the statements between semicolons. -/
def readAll (text : String) : Option (List Statement) := (text.toList.splitOn ';').mapM read

/-- None of the marks that separate the parts of statements. -/
def IsPlain (text : String) : Prop :=
  '[' ∉ text.toList ∧ ']' ∉ text.toList ∧ ',' ∉ text.toList ∧ ';' ∉ text.toList

instance (text : String) : Decidable (IsPlain text) := inferInstanceAs (Decidable (_ ∧ _))

/-- No label and no expression of the statement contains a mark. -/
def Plain (statement : Statement) : Prop :=
  (∀ label ∈ statement.inputs, IsPlain label) ∧ (∀ node ∈ statement.nodes, IsPlain node) ∧
    ∀ label ∈ statement.outputs, IsPlain label

instance (statement : Statement) : Decidable statement.Plain :=
  inferInstanceAs (Decidable (_ ∧ _))

/-! ## Reading what was written -/

theorem readGroups_closing {label : List Char} (plain : ']' ∉ label) (seen rest : List Char) :
    readGroups (some seen) (label ++ ']' :: rest) =
      (readGroups none rest).map fun (labels, behind) =>
        (String.ofList (seen ++ label) :: labels, behind) := by
  induction label generalizing seen with
  | nil => simp [readGroups]
  | cons c label ih =>
    obtain ⟨differ, plain⟩ := not_or.1 (mt List.mem_cons.2 plain)
    rw [List.cons_append, readGroups.eq_4 _ _ _ (Ne.symm differ), ih plain]
    simp

theorem readGroups_ends {rest : List Char} (ends : rest.head? ≠ some '[') :
    readGroups none rest = some ([], rest) := by
  cases rest with
  | nil => rfl
  | cons c rest =>
    refine readGroups.eq_2 _ fun rest same => ?_
    cases same
    exact ends rfl

/-- Bracket groups are read back up to the first text that does not start another. -/
theorem readGroups_bracketed {labels : List String} (plain : ∀ label ∈ labels, IsPlain label)
    {rest : List Char} (ends : rest.head? ≠ some '[') :
    readGroups none ((bracketed labels).toList ++ rest) = some (labels, rest) := by
  induction labels with
  | nil => exact readGroups_ends ends
  | cons label labels ih =>
    obtain ⟨first, others⟩ := List.forall_mem_cons.1 plain
    have text : (bracketed (label :: labels)).toList ++ rest =
        '[' :: (label.toList ++ ']' :: ((bracketed labels).toList ++ rest)) := by
      simp [bracketed]
    rw [text, readGroups, readGroups_closing first.2.1, ih others]
    simp

/-- The expressions between commas. -/
theorem splitOn_nodes {nodes : List String} (plain : ∀ node ∈ nodes, IsPlain node)
    (some : nodes ≠ []) :
    ((",".intercalate nodes).toList.splitOn ',').map String.ofList = nodes := by
  have apart : ∀ node ∈ nodes.map String.toList, ',' ∉ node := by
    simpa using fun node mem => (plain node mem).2.2.1
  have separator : ",".toList = [','] := rfl
  rw [String.toList_intercalate, separator,
    List.splitOn_intercalate ',' apart (by simpa using some)]
  simp

theorem head?_intercalate (separator : String) {text : String} (rest : List String)
    (nonempty : text ≠ "") :
    (separator.intercalate (text :: rest)).toList.head? = text.toList.head? := by
  obtain ⟨c, tail, chars⟩ := List.exists_cons_of_ne_nil (mt String.toList_eq_nil_iff.1 nonempty)
  cases rest with
  | nil => rw [String.intercalate_singleton]
  | cons next rest => simp [String.intercalate_cons_cons, chars]

theorem bracketed_starts (labels : List String) :
    (bracketed labels).toList = [] ∨ ∃ rest, (bracketed labels).toList = '[' :: rest := by
  cases labels with
  | nil => exact .inl rfl
  | cons label rest => exact .inr ⟨_, by simp [bracketed]; rfl⟩

/-- A statement with plain parts and expressions is read back as it was. -/
theorem read_render {statement : Statement} (plain : statement.Plain)
    (some : statement.nodes ≠ []) (texts : ∀ node ∈ statement.nodes, node ≠ "") :
    read statement.render.toList = .some statement := by
  obtain ⟨inputs, nodes, outputs⟩ := statement
  obtain ⟨inputsPlain, nodesPlain, outputsPlain⟩ := plain
  have chain : ∀ c ∈ (",".intercalate nodes).toList, c ≠ '[' := by
    rintro c mem rfl
    rcases mem_intercalate mem with here | ⟨node, mem, here⟩
    · exact absurd here (by decide)
    · exact (nodesPlain node mem).1 here
  have starts : ((",".intercalate nodes).toList ++ (bracketed outputs).toList).head? ≠
      Option.some '[' := by
    obtain ⟨node, rest, rfl⟩ := List.exists_cons_of_ne_nil some
    have nonempty := texts node List.mem_cons_self
    obtain ⟨c, tail, chars⟩ := List.exists_cons_of_ne_nil (mt String.toList_eq_nil_iff.1 nonempty)
    rw [List.head?_append, head?_intercalate _ rest nonempty, chars]
    rintro ⟨⟩
    exact (nodesPlain node List.mem_cons_self).1 (by simp [chars])
  have leading := readGroups_bracketed inputsPlain starts
  have trailing : readGroups none ((bracketed outputs).toList ++ []) = .some (outputs, []) :=
    readGroups_bracketed outputsPlain (by simp)
  rw [List.append_nil] at trailing
  have cut : ((",".intercalate nodes).toList ++ (bracketed outputs).toList).takeWhile (· ≠ '[') =
      (",".intercalate nodes).toList ∧
    ((",".intercalate nodes).toList ++ (bracketed outputs).toList).dropWhile (· ≠ '[') =
      (bracketed outputs).toList := by
    rw [List.takeWhile_append_of_pos (by simpa using chain),
      List.dropWhile_append_of_pos (by simpa using chain)]
    rcases bracketed_starts outputs with ends | ⟨rest, ends⟩
    · simp [ends]
    · simp [ends]
  have text : (Statement.mk inputs nodes outputs).render.toList = (bracketed inputs).toList ++
      ((",".intercalate nodes).toList ++ (bracketed outputs).toList) := by
    simp [render]
  rw [text, read, leading]
  simp only [Option.bind_eq_bind, Option.bind_some, cut.1, cut.2, trailing, List.isEmpty_nil,
    if_true, splitOn_nodes nodesPlain some]

theorem bracketed_plain {labels : List String} (plain : ∀ label ∈ labels, IsPlain label) :
    ';' ∉ (bracketed labels).toList := by
  induction labels with
  | nil => simp [bracketed]
  | cons label rest ih =>
    obtain ⟨first, others⟩ := List.forall_mem_cons.1 plain
    simp [bracketed, first.2.2.2, ih others]

theorem render_plain {statement : Statement} (plain : statement.Plain) :
    ';' ∉ statement.render.toList := by
  obtain ⟨inputs, nodes, outputs⟩ := plain
  have chain : ';' ∉ (",".intercalate statement.nodes).toList := by
    intro mem
    rcases mem_intercalate mem with here | ⟨node, mem, here⟩
    · exact absurd here (by decide)
    · exact (nodes node mem).2.2.2 here
  rw [render, String.toList_append, String.toList_append, List.mem_append, List.mem_append]
  rintro ((mem | mem) | mem)
  · exact bracketed_plain inputs mem
  · exact chain mem
  · exact bracketed_plain outputs mem

/-- **Statements are read back as they were.** -/
theorem readAll_intercalate {statements : List Statement} (some : statements ≠ [])
    (plain : ∀ statement ∈ statements, statement.Plain)
    (complete : ∀ statement ∈ statements, statement.nodes ≠ [] ∧
      ∀ node ∈ statement.nodes, node ≠ "") :
    readAll (";".intercalate (statements.map render)) = .some statements := by
  have apart : ∀ text ∈ (statements.map render).map String.toList, ';' ∉ text := by
    simpa using fun statement mem => render_plain (plain statement mem)
  have separator : ";".toList = [';'] := rfl
  rw [readAll, String.toList_intercalate, separator,
    List.splitOn_intercalate ';' apart (by simpa using some), List.map_map, List.mapM_map]
  clear some apart
  induction statements with
  | nil => rfl
  | cons first rest ih =>
    obtain ⟨firstPlain, restPlain⟩ := List.forall_mem_cons.1 plain
    obtain ⟨⟨nodes, texts⟩, restComplete⟩ := List.forall_mem_cons.1 complete
    have first := read_render firstPlain nodes texts
    simp only [List.mapM_cons, ih restPlain restComplete, Function.comp_apply, first,
      Option.bind_eq_bind, Option.bind_some, Option.pure_def]

end Statement

end MediaCommand
