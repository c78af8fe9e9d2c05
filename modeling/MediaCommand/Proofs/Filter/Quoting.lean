import MediaCommand.Proofs.Filter.Escapes
import MediaCommand.Proofs.Filter.NameLookups

/-!
# Quoted arguments

A quoted argument reaches up to the first quote that no backslash protects (`Letter.readQuoted`).
The escapes of the filter language protect colons, brackets and the like, but not the quote itself.
So a text that is escaped and put in quotes is read back as a whole exactly when it contains no
quote (`readQuoted_eq_iff`); of any other the reader sees what stands in front of its first quote
(`readQuoted_cut`). The path of a movie is such an argument.
-/

namespace MediaCommand

open MediaCommand.Action

namespace Letter

/-- Reads a quoted argument: the letters from the quote that a text starts with up to the next bare
one, and the letters behind that. -/
def readQuoted (quote : Char) : List Char → Option (List Letter × List Letter)
  | [] => none
  | c :: rest =>
    if c = quote then
      match (readAll rest).dropWhile (· ≠ .bare quote) with
      | [] => none
      | _ :: behind => some ((readAll rest).takeWhile (· ≠ .bare quote), behind)
    else none

theorem readQuoted_of_split {quote : Char} {rest : List Char} {inside behind : List Letter}
    (letters : readAll rest = inside ++ .bare quote :: behind) (apart : .bare quote ∉ inside) :
    readQuoted quote (quote :: rest) = some (inside, behind) := by
  have others : ∀ letter ∈ inside, decide (letter ≠ .bare quote) = true := by
    intro letter mem
    refine decide_eq_true ?_
    rintro rfl
    exact apart mem
  have taken : (readAll rest).takeWhile (· ≠ .bare quote) = inside := by
    rw [letters, List.takeWhile_append_of_pos others]
    simp
  have dropped : (readAll rest).dropWhile (· ≠ .bare quote) = .bare quote :: behind := by
    rw [letters, List.dropWhile_append_of_pos others]
    simp
  rw [readQuoted, if_pos rfl, taken, dropped]

/-- A character without a meaning stays bare, so it is found among the letters just where it
stands. -/
theorem bare_mem_iff {c : Char} (plain : isSpecial c = false) (text : List Char) :
    .bare c ∈ text.map ofChar ↔ c ∈ text := by
  constructor
  · intro mem
    obtain ⟨other, here, same⟩ := List.mem_map.1 mem
    unfold ofChar at same
    split at same
    · cases same
    · cases same
      exact here
  · intro mem
    refine List.mem_map.2 ⟨c, mem, ?_⟩
    rw [ofChar, plain]
    rfl

variable {quote : Char} (plain : isSpecial quote = false)

include plain

theorem ne_backslash : quote ≠ '\\' := by
  rintro rfl
  cases plain

/-- What is enclosed in quotes is read as its letters if it contains no quote. -/
theorem readQuoted_whole {text : List Char} (apart : quote ∉ text) (behind : List Char) :
    readQuoted quote (enclosed quote (escaped text) ++ behind) =
      some (text.map ofChar, readAll behind) := by
  have letters : readAll (escaped text ++ quote :: behind) =
      text.map ofChar ++ .bare quote :: readAll behind := by
    rw [readAll_escaped, readAll_bare (ne_backslash plain)]
  have chars : enclosed quote (escaped text) ++ behind =
      quote :: (escaped text ++ quote :: behind) := by simp [enclosed]
  rw [chars]
  exact readQuoted_of_split letters (mt (bare_mem_iff plain text).1 apart)

/-- A quote inside ends the reading early: the rest of the text stands behind the argument. -/
theorem readQuoted_cut {front : List Char} (apart : quote ∉ front) (back behind : List Char) :
    readQuoted quote (enclosed quote (escaped (front ++ quote :: back)) ++ behind) =
      some (front.map ofChar, back.map ofChar ++ .bare quote :: readAll behind) := by
  have first : ofChar quote = .bare quote := by
    rw [ofChar, plain]
    rfl
  have letters : readAll (escaped (front ++ quote :: back) ++ quote :: behind) =
      front.map ofChar ++ .bare quote :: (back.map ofChar ++ .bare quote :: readAll behind) := by
    rw [readAll_escaped, readAll_bare (ne_backslash plain), List.map_append, List.map_cons, first,
      List.append_assoc, List.cons_append]
  have chars : enclosed quote (escaped (front ++ quote :: back)) ++ behind =
      quote :: (escaped (front ++ quote :: back) ++ quote :: behind) := by simp [enclosed]
  rw [chars]
  exact readQuoted_of_split letters (mt (bare_mem_iff plain front).1 apart)

/-- What is enclosed in quotes is one argument, with nothing of it behind, exactly when it contains
no quote. -/
theorem readQuoted_eq_iff (text behind : List Char) :
    (∃ inside, readQuoted quote (enclosed quote (escaped text) ++ behind) =
      some (inside, readAll behind)) ↔ quote ∉ text := by
  constructor
  · rintro ⟨inside, read⟩ mem
    obtain ⟨front, back, rfl, apart⟩ := List.eq_append_cons_of_mem mem
    rw [readQuoted_cut plain apart] at read
    injection read with read
    have longer := congrArg (fun pair => pair.2.length) read
    simp only [List.length_append, List.length_cons] at longer
    omega
  · intro apart
    exact ⟨_, readQuoted_whole plain apart behind⟩

end Letter

/-! ## Values and movies -/

theorem escapeText_quoted (text : String) :
    (escapeText text true).toList = enclosed '\'' (escaped text.toList) := by
  simp [escapeText]

namespace Node

/-- The name of a filter with its equals sign, if it has a name. -/
def opening (name : Option String) : String := (name.map (· ++ "=")).getD ""

/-- A movie is made from any path that can be spelled, and rendered with the path in quotes as its
only argument. -/
theorem movie_rendered (cls : FilterClass) {path : Value} {text : String}
    (escape : escapeValue path true = .ok text) (w : Workspace) :
    ∃ made rest, enter (movie cls path) w = .ok w.nodes.next made ∧
      render w.nodes.next made = .ok
        (opening (w.names.view cls) ++ cls.wrapper.1 ++ text ++ cls.wrapper.2) rest := by
  let held : Node := { fresh cls defaultSeparator with base := [(some "filename", .text text)] }
  let made : Workspace := { w with nodes := w.nodes.add held }
  have entered : enter (movie cls path) w = .ok w.nodes.next made := by
    rw [movie, escape]
    rfl
  have present : made.nodes.get? w.nodes.next = some held := Store.get?_add_next w.nodes held
  let written : Node := { fresh cls defaultSeparator with
    phase := .flushed, arguments := [⟨none, some text⟩] }
  have flushed : flush ⟨made.tokens, held⟩ = .ok () ⟨made.tokens, written⟩ := rfl
  have rendered := render_of_flush present flushed
  have name : held.nameIn made.names = w.names.view cls := rfl
  have shown : written.expression (w.names.view cls) =
      opening (w.names.view cls) ++ cls.wrapper.1 ++ text ++ cls.wrapper.2 := by
    cases w.names.view cls with
    | none => simp [expression, body, opening, written, FilterArgument.render, fresh]
    | some name =>
      simp [expression, body, opening, written, FilterArgument.render, fresh, String.append_assoc]
  rw [name, shown] at rendered
  exact ⟨made, _, entered, rendered⟩

/-- From a path with an integer that is too long no movie is made. -/
theorem movie_fails (cls : FilterClass) {path : Value} {failure : Failure}
    (escape : escapeValue path true = .error failure) (w : Workspace) :
    enter (movie cls path) w = .error failure w := by
  have throws : movie cls path = throw failure := by
    rw [movie, escape]
    rfl
  rw [throws]
  rfl

end Node

/-- **When a quoted argument ends at its own quote.** Every value that can be spelled, as every text
can, is escaped and put in quotes: the result starts with a quote, and without the quotes and the
escapes it is the value's text again. The first bare quote behind the first is the last character
exactly when the text contains no quote. The same decides whether the path of a movie, of any class
and in any workspace, is read as the whole of its argument, with nothing behind but what closes the
node. -/
theorem quoted_closes_iff (value : Value) :
    let text := escapeText value.spelling true
    (∀ s, (Value.text s).spellingFits ∧ (Value.text s).spelling = s) ∧
    escapeValue value true = (if value.spellingFits then .ok text else .error .integerTooLong) ∧
    text.toList.head? = some '\'' ∧
    (∃ inside, text.toList = enclosed '\'' inside ∧
      unescaped inside = value.spelling.toList) ∧
    ((∃ inside, Letter.readQuoted '\'' text.toList = some (inside, [])) ↔
      '\'' ∉ value.spelling.toList) ∧
    ∀ (cls : FilterClass) (w : Workspace),
      if value.spellingFits then ∃ made rest before,
        Node.enter (Node.movie cls value) w = .ok w.nodes.next made ∧
        Node.render w.nodes.next made = .ok (before ++ text ++ cls.wrapper.2) rest ∧
        before = Node.opening (w.names.view cls) ++ cls.wrapper.1 ∧
        (Letter.readQuoted '\'' (text.toList ++ cls.wrapper.2.toList) =
            some (value.spelling.toList.map Letter.ofChar, Letter.readAll cls.wrapper.2.toList) ↔
          '\'' ∉ value.spelling.toList)
      else Node.enter (Node.movie cls value) w = .error .integerTooLong w := by
  intro text
  have plain : isSpecial '\'' = false := rfl
  have quotes : text.toList = enclosed '\'' (escaped value.spelling.toList) :=
    escapeText_quoted value.spelling
  have escape : escapeValue value true =
      if value.spellingFits then .ok text else .error .integerTooLong := by
    split
    · next fits => exact escapeValue_eq_ok.2 ⟨fits, rfl⟩
    · next long => rw [escapeValue, Value.spelled_of_long long]; rfl
  rw [quotes]
  refine ⟨fun s => ⟨rfl, rfl⟩, escape, rfl, ⟨_, rfl, unescaped_escaped _⟩, ?_, ?_⟩
  · have closes := Letter.readQuoted_eq_iff plain value.spelling.toList []
    rwa [List.append_nil] at closes
  · intro cls w
    split
    · next fits =>
      rw [if_pos fits] at escape
      obtain ⟨made, rest, entered, rendered⟩ := Node.movie_rendered cls escape w
      refine ⟨made, rest, _, entered, rendered, rfl, ?_⟩
      constructor
      · intro read
        exact (Letter.readQuoted_eq_iff plain _ _).1 ⟨_, read⟩
      · intro apart
        exact Letter.readQuoted_whole plain apart _
    · next long =>
      rw [if_neg long] at escape
      exact Node.movie_fails cls escape w

/-- A path with an apostrophe ends its own argument: the rest of it stands behind. -/
theorem quoted_apostrophe :
    let made := (Node.enter (Node.movie .movie (.text "it's.png"))).after .initial
    (Node.render ⟨0⟩).outcome made = .ok "movie='it's.png'" ∧
      escapeValue (.text "it's.png") true = .ok (escapeText "it's.png" true) ∧
      Letter.readQuoted '\'' (escapeText "it's.png" true).toList =
        some ([.bare 'i', .bare 't'], "s.png'".toList.map .bare) := by
  refine ⟨rfl, rfl, ?_⟩
  rw [escapeText_quoted]
  have apart : '\'' ∉ ['i', 't'] := by decide
  exact Letter.readQuoted_cut rfl apart "s.png".toList []

end MediaCommand
