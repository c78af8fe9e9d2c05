import Mathlib.Data.List.Basic
import MediaCommand.Text.Blank
import MediaCommand.Text.Lines

/-!
# Texts and their parts

Runs of characters, texts between blanks, lines between line breaks and parts between separators,
each with what puts it together again.
-/

namespace MediaCommand

/-! ## Runs and blanks -/

section Runs

variable {p : Char → Bool}

/-- A run of a class is taken up to what is of another. -/
theorem takeWhile_run {α : Type} {p : α → Bool} {run rest : List α}
    (all : ∀ c ∈ run, p c = true) (ends : ∀ c ∈ rest.head?, p c = false) :
    (run ++ rest).takeWhile p = run ∧ (run ++ rest).dropWhile p = rest := by
  rw [List.takeWhile_append_of_pos all, List.dropWhile_append_of_pos all]
  cases rest with
  | nil => simp
  | cons c rest => simp [ends c rfl]

/-- What stands between dropped characters is left if it has none at its ends. -/
theorem trimBy_between {front text back : List Char} (before : ∀ c ∈ front, p c = true)
    (behind : ∀ c ∈ back, p c = true) (first : ∀ c ∈ text.head?, p c = false)
    (last : ∀ c ∈ text.getLast?, p c = false) : trimBy p (front ++ (text ++ back)) = text := by
  cases text with
  | nil =>
    have all : ∀ c ∈ front ++ back, p c = true := fun c mem =>
      (List.mem_append.1 mem).elim (before c) (behind c)
    obtain ⟨-, none⟩ := @takeWhile_run _ p (front ++ back) [] all (by simp)
    rw [List.append_nil] at none
    rw [List.nil_append, trimBy, none]
    rfl
  | cons c text =>
    have left : (front ++ (c :: text ++ back)).dropWhile p = c :: text ++ back :=
      (@takeWhile_run _ p front (c :: text ++ back) before first).2
    have right : (back.reverse ++ (c :: text).reverse).dropWhile p = (c :: text).reverse := by
      rw [← List.head?_reverse] at last
      exact (takeWhile_run (by simpa using behind) last).2
    rw [trimBy, left, List.reverse_append, right, List.reverse_reverse]

theorem trimBy_of_none {text : List Char} (kept : ∀ c ∈ text, p c = false) :
    trimBy p text = text := by
  have between := @trimBy_between p [] text [] (by simp) (by simp)
    (fun c mem => kept c (List.mem_of_mem_head? mem)) fun c mem => kept c (List.mem_of_getLast? mem)
  rwa [List.nil_append, List.append_nil] at between

theorem mem_dropWhile {text : List Char} {c : Char} (mem : c ∈ text) (kept : p c = false) :
    c ∈ text.dropWhile p := by
  rw [← @List.takeWhile_append_dropWhile _ p text, List.mem_append] at mem
  refine mem.resolve_left fun taken => ?_
  rw [List.all_eq_true.1 List.all_takeWhile c taken] at kept
  cases kept

/-- A character that is not dropped is left. -/
theorem trimBy_ne_nil {text : List Char} {c : Char} (mem : c ∈ text) (kept : p c = false) :
    trimBy p text ≠ [] := by
  have left := mem_dropWhile (List.mem_reverse.2 (mem_dropWhile mem kept)) kept
  exact List.ne_nil_of_mem (List.mem_reverse.2 left)

/-- A word and what stands behind its blanks. -/
theorem firstWord_append {word blank text : List Char} (some : word ≠ [])
    (solid : ∀ c ∈ word, isBlank c = false) (blanks : ∀ c ∈ blank, isBlank c = true)
    (apart : blank = [] → text = []) (first : ∀ c ∈ text.head?, isBlank c = false) :
    firstWord (word ++ (blank ++ text)) = (word, text) := by
  obtain ⟨c, word, rfl⟩ := List.exists_cons_of_ne_nil some
  have start : (c :: word ++ (blank ++ text)).dropWhile isBlank = c :: word ++ (blank ++ text) := by
    simp [solid c List.mem_cons_self]
  have ends : ∀ d ∈ (blank ++ text).head?, (!isBlank d) = false := by
    intro d mem
    cases blank with
    | nil =>
      rw [apart rfl] at mem
      cases mem
    | cons b blank =>
      have same : b = d := Option.some_inj.1 mem
      simp [← same, blanks b List.mem_cons_self]
  have letters : ∀ d ∈ c :: word, (!isBlank d) = true := fun d mem => by simp [solid d mem]
  obtain ⟨taken, dropped⟩ := takeWhile_run letters ends
  rw [firstWord, start, taken, dropped, (takeWhile_run blanks first).2]

end Runs

/-! ## Lines -/

section Lines

variable {line rest : List Char} {current : Option (List Char)}

/-- A line break is a blank. -/
theorem isBlank_of_isLineBreak {c : Char} (break_ : isLineBreak c = true) : isBlank c = true := by
  have within : ∀ range ∈ lineBreaks, ∃ blank ∈ blanks, blank.1 ≤ range.1 ∧ range.2 ≤ blank.2 := by
    decide
  obtain ⟨range, listed, lower, upper⟩ := CharacterSet.has_iff.1 break_
  obtain ⟨blank, known, least, most⟩ := within range listed
  exact CharacterSet.has_iff.2 ⟨blank, known, by omega, by omega⟩

theorem linesFrom_cons {c : Char} (unbroken : isLineBreak c = false) :
    linesFrom current (c :: rest) = linesFrom (some (c :: current.getD [])) rest := by
  rw [linesFrom, if_neg (by simp [unbroken])]
  rintro - rfl -
  exact absurd unbroken (by decide)

theorem linesFrom_feed :
    linesFrom current ('\n' :: rest) = (current.getD []).reverse :: linesFrom none rest := rfl

/-- A line without breaks and its line feed are one line. -/
theorem linesFrom_line (unbroken : ∀ c ∈ line, isLineBreak c = false) :
    linesFrom current (line ++ '\n' :: rest) =
      ((current.getD []).reverse ++ line) :: linesFrom none rest := by
  induction line generalizing current with
  | nil => rw [List.nil_append, linesFrom_feed, List.append_nil]
  | cons c line ih =>
    rw [List.cons_append, linesFrom_cons (unbroken c List.mem_cons_self),
      ih fun d mem => unbroken d (List.mem_cons_of_mem c mem)]
    simp

/-- A line at the end needs no line feed. -/
theorem linesFrom_last {begun : List Char} (unbroken : ∀ c ∈ line, isLineBreak c = false) :
    linesFrom (some begun) line = [begun.reverse ++ line] := by
  induction line generalizing begun with
  | nil => rw [linesFrom, List.append_nil]
  | cons c line ih =>
    rw [linesFrom_cons (unbroken c List.mem_cons_self),
      ih fun d mem => unbroken d (List.mem_cons_of_mem c mem)]
    simp

variable {parts : List (List Char)}

/-- Lines that are each closed by a line feed. -/
theorem lines_flatMap (unbroken : ∀ line ∈ parts, ∀ c ∈ line, isLineBreak c = false) :
    lines (parts.flatMap (· ++ ['\n'])) = parts := by
  induction parts with
  | nil => rfl
  | cons line parts ih =>
    rw [List.flatMap_cons, ← List.append_cons, lines,
      linesFrom_line (unbroken line List.mem_cons_self)]
    exact congrArg (line :: ·) (ih fun other mem => unbroken other (List.mem_cons_of_mem line mem))

/-- Lines with line feeds between them, if the last one is there at all. -/
theorem lines_intercalate (unbroken : ∀ line ∈ parts, ∀ c ∈ line, isLineBreak c = false)
    (last : ∀ line ∈ parts.getLast?, line ≠ []) : lines (['\n'].intercalate parts) = parts := by
  induction parts with
  | nil => rfl
  | cons line parts ih =>
    have first := unbroken line List.mem_cons_self
    cases parts with
    | nil =>
      obtain ⟨c, rest, rfl⟩ := List.exists_cons_of_ne_nil (last line rfl)
      rw [show ['\n'].intercalate [c :: rest] = c :: rest by simp [List.intercalate], lines,
        linesFrom_cons (first c List.mem_cons_self),
        linesFrom_last fun d mem => first d (List.mem_cons_of_mem c mem)]
      rfl
    | cons next parts =>
      have later := ih (fun other mem => unbroken other (List.mem_cons_of_mem line mem))
        (by simpa using last)
      rw [List.intercalate_cons_cons, List.append_assoc, List.singleton_append, lines,
        linesFrom_line first]
      exact congrArg (line :: ·) later

end Lines

/-! ## Joined texts -/

theorem mem_intercalate_lists {α : Type} {x : α} {separator : List α} {parts : List (List α)}
    (mem : x ∈ separator.intercalate parts) : x ∈ separator ∨ ∃ part ∈ parts, x ∈ part := by
  induction parts with
  | nil => simp at mem
  | cons part rest ih =>
    cases rest with
    | nil => exact .inr ⟨part, by simp, by simpa using mem⟩
    | cons next rest =>
      rw [List.intercalate_cons_cons, List.append_assoc, List.mem_append, List.mem_append] at mem
      rcases mem with here | here | later
      · exact .inr ⟨part, by simp, here⟩
      · exact .inl here
      · rcases ih later with here | ⟨other, mem, here⟩
        · exact .inl here
        · exact .inr ⟨other, List.mem_cons_of_mem _ mem, here⟩

theorem mem_intercalate {c : Char} {separator : String} {texts : List String}
    (mem : c ∈ (separator.intercalate texts).toList) :
    c ∈ separator.toList ∨ ∃ text ∈ texts, c ∈ text.toList := by
  rw [String.toList_intercalate] at mem
  rcases mem_intercalate_lists mem with here | ⟨_, mem, here⟩
  · exact .inl here
  · obtain ⟨text, given, rfl⟩ := List.mem_map.1 mem
    exact .inr ⟨text, given, here⟩

theorem subset_intercalate {separator text : String} {texts : List String} (mem : text ∈ texts) :
    text.toList ⊆ (separator.intercalate texts).toList := by
  rw [String.toList_intercalate]
  induction texts with
  | nil => cases mem
  | cons first rest ih =>
    cases rest with
    | nil =>
      rw [List.mem_singleton.1 mem]
      simp
    | cons next rest =>
      rw [List.map_cons, List.map_cons, List.intercalate_cons_cons]
      rcases List.mem_cons.1 mem with rfl | mem
      · exact fun c here => List.mem_append_left _ (List.mem_append_left _ here)
      · exact fun c here => List.mem_append_right _ (ih mem here)

/-! ## Parts -/

section Parts

variable {separator : Char} {text : List Char}

theorem splitAt_eq_splitOn (separator : Char) (text : List Char) :
    splitAt separator text = text.splitOn separator := by
  induction text with
  | nil => rfl
  | cons c rest ih =>
    rw [splitAt, ih, List.splitOn_cons_eq_if_modifyHead]
    by_cases cut : c = separator
    · simp [cut]
    · obtain ⟨part, parts, found⟩ := List.exists_cons_of_ne_nil (List.splitOn_ne_nil separator rest)
      simp [cut, found]

theorem splitAt_append (without : ∀ c ∈ text, c ≠ separator) (rest : List Char) :
    splitAt separator (text ++ separator :: rest) = text :: splitAt separator rest := by
  simp only [splitAt_eq_splitOn]
  exact List.splitOn_append_cons_self_of_not_mem (fun mem => without separator mem rfl) rest

theorem splitAt_of_notMem (without : ∀ c ∈ text, c ≠ separator) :
    splitAt separator text = [text] := by
  rw [splitAt_eq_splitOn]
  exact List.splitOn_eq_singleton fun mem => without separator mem rfl

theorem length_splitAt (separator : Char) (text : List Char) :
    (splitAt separator text).length = text.count separator + 1 := by
  induction text with
  | nil => rfl
  | cons c rest ih =>
    rw [splitAt]
    by_cases cut : c = separator
    · rw [if_pos cut, List.length_cons, ih, cut, List.count_cons_self]
    · rw [if_neg cut, List.count_cons_of_ne cut]
      cases found : splitAt separator rest with
      | nil =>
        rw [found, List.length_nil] at ih
        omega
      | cons part parts => rwa [found] at ih

/-- The parts have no separator of their own, and with one between them they are the text. -/
theorem splitAt_parts {parts : List (List Char)} (cut : splitAt separator text = parts) :
    [separator].intercalate parts = text ∧ ∀ part ∈ parts, separator ∉ part := by
  subst cut
  constructor
  · rw [splitAt_eq_splitOn]
    exact List.intercalate_splitOn separator
  · induction text with
    | nil => simp [splitAt]
    | cons c rest ih =>
      rw [splitAt]
      by_cases cut : c = separator
      · simpa [cut] using ih
      · rw [if_neg cut]
        cases found : splitAt separator rest with
        | nil => simpa using Ne.symm cut
        | cons part parts =>
          rw [found] at ih
          simpa [Ne.symm cut] using ih

end Parts

end MediaCommand
