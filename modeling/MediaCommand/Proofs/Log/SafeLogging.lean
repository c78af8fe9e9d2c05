import MediaCommand.Graph.Workspace
import MediaCommand.Log.Journal
import MediaCommand.Proofs.Log.Templates

/-!
# Messages under safe logging

Safe logging sanitizes text arguments, alone or in a mapping, before a template is filled with them.
`LogArguments.Harmless` says which arguments no template without line breaks turns into a message
with one (`messages_unbroken_iff`). Objects, alias tables and code points are not sanitized: a graph
is harmless just if its text has no line break (`Value.harmless_graph_iff`).
-/

namespace MediaCommand

namespace Value

theorem quiet_sanitizeValue (value : Value) :
    (LogArguments.sanitizeValue value).Quiet ↔ value.Quiet := by
  cases value <;> rfl

theorem quietEntries_sanitized (entries : List (Value × Value)) :
    QuietEntries (entries.map fun entry => (entry.1, LogArguments.sanitizeValue entry.2)) ↔
      QuietEntries entries := by
  induction entries with
  | nil => rfl
  | cons entry entries ih =>
    simp only [List.map_cons, QuietEntries, quiet_sanitizeValue, ih]

/-- A graph in quotes has no line break, so only its text decides. -/
theorem harmless_graph_iff (graph : Graph) :
    (shown "Graph" graph.render graph.literal).Harmless ↔ Unbroken graph.render.toList := by
  have quotes : Unbroken graph.literal.toList := by
    simp [Graph.literal, unbroken_quoted, IsBreak]
  exact and_iff_left quotes

end Value

namespace LogArguments

/-- By kind, which arguments cannot bring a line break into a message. The texts of a table are not
sanitized, so none that can be named has one. -/
def Harmless : LogArguments → Prop
  | .positional values => ∀ value ∈ values, value.Harmless
  | .named (.table entries) =>
    ∀ name text, Nameable name → Keyed.get? entries name = some text → Unbroken text.toList
  | .named mapping =>
    mapping.Quiet ∧
      ∀ name value, Nameable name → Directive.entry? mapping name = some value → value.Harmless

/-- Only mappings and tables are arguments with names. -/
theorem ofList_cases (values : List Value) :
    ofList values = .positional values ∨
      (∃ entries, ofList values = .named (.mapping entries)) ∨
        ∃ entries, ofList values = .named (.table entries) := by
  unfold ofList
  split
  · next entries =>
    split
    · exact .inl rfl
    · exact .inr (.inl ⟨entries, rfl⟩)
  · next entries =>
    split
    · exact .inl rfl
    · exact .inr (.inr ⟨entries, rfl⟩)
  · exact .inl rfl

/-- An entry of a sanitized mapping is the sanitized entry. -/
theorem entry?_sanitized (entries : List (Value × Value)) (name : String) :
    Directive.entry? (.mapping (entries.map fun entry => (entry.1, sanitizeValue entry.2))) name =
      (Directive.entry? (.mapping entries) name).map sanitizeValue := by
  simp only [Directive.entry?, List.findSome?_map, List.map_findSome?]
  congr 1
  funext ⟨key, value⟩
  cases key with
  | text key => simp [apply_ite]
  | _ => rfl

/-- Harmless arguments are those that are inline once they are sanitized. -/
theorem isInline_sanitized_iff (values : List Value) :
    (ofList values).sanitized.IsInline ↔ (ofList values).Harmless := by
  rcases ofList_cases values with shown | ⟨entries, shown⟩ | ⟨entries, shown⟩
  · rw [shown]
    simp only [sanitized, IsInline, Harmless, List.forall_mem_map, Value.isInline_sanitized_iff]
  · rw [shown]
    have code : Value.mapping (entries.map fun entry => (entry.1, sanitizeValue entry.2)) ≠ .int 10 ∧
        Value.mapping (entries.map fun entry => (entry.1, sanitizeValue entry.2)) ≠ .int 13 := by
      simp
    refine and_congr ?_ ?_
    · rw [Value.isInline_iff_quiet code (Value.unbroken_literal_iff _).2]
      exact Value.quietEntries_sanitized entries
    · simp only [Value.EntriesInline, entry?_sanitized, Option.map_eq_some_iff]
      constructor
      · intro all name value nameable entry
        exact (Value.isInline_sanitized_iff value).1 (all name _ nameable ⟨value, entry, rfl⟩)
      · rintro all name _ nameable ⟨value, entry, rfl⟩
        exact (Value.isInline_sanitized_iff value).2 (all name value nameable entry)
  · rw [shown]
    have whole : (Value.table entries).IsInline :=
      (Value.isInline_iff_quiet (by simp) fun _ => (Value.unbroken_table entries).2).2 trivial
    refine (and_iff_right whole).trans ?_
    simp only [Value.EntriesInline, Directive.entry?, Option.map_eq_some_iff]
    constructor
    · intro all name text nameable found
      exact (Value.isInline_text_iff text).1 (all name _ nameable ⟨text, found, rfl⟩)
    · rintro all name _ nameable ⟨text, found, rfl⟩
      exact (Value.isInline_text_iff text).2 (all name text nameable found)

end LogArguments

/-- **Safe logging keeps to one line exactly for harmless arguments.** -/
theorem messages_unbroken_iff (arguments : List Value) :
    (∀ template message, Unbroken template.toList →
      Journal.safeMessage template arguments = .ok message → Unbroken message.toList) ↔
    (LogArguments.ofList arguments).Harmless :=
  LogArguments.unbroken_fill_iff.trans (LogArguments.isInline_sanitized_iff arguments)

/-- A graph is shown as it is, so a node with a line feed begins a line of the log. -/
theorem graph_forges_line :
    let graph : Graph := { Graph.fresh none with nodes := ["drawtext=text=a\nINFO forged"] }
    let message := "graph: drawtext=text=a\nINFO forged"
    Unbroken "graph: %s".toList ∧
      Journal.safeMessage "graph: %s" [.shown "Graph" graph.render graph.literal] = .ok message ∧
      ¬Unbroken message.toList := by
  refine ⟨by simp [IsBreak], ?_, by simp [IsBreak]⟩
  decide +kernel

example : Journal.safeMessage "path=%(path)s" [.mapping [(.text "path", .text "a\nb")]] =
    .ok "path=a\\nb" := by
  decide +kernel

/-- The texts of a table are not sanitized. -/
example : Journal.safeMessage "preset=%(FAST)s" [.table [("FAST", "a\nb")]] =
    .ok "preset=a\nb" := by
  decide +kernel

end MediaCommand
