import MediaCommand.Text.Lines

/-!
# Lines of a pipe

A pipe yields a text line by line, each line with the line feed that ends it; the last may have
none. A run keeps the lines without their feeds and joins them with feeds again. What results is the
text without its last feed (`intercalate_pipeLines`): feeds inside the text and empty lines at its
end stay.
-/

namespace MediaCommand

/-- A text cut behind each line feed. -/
def cutBehindFeeds : List Char → List (List Char)
  | [] => []
  | c :: rest =>
    if c = '\n' then [c] :: cutBehindFeeds rest
    else match cutBehindFeeds rest with
      | [] => [[c]]
      | line :: lines => (c :: line) :: lines

/-- The lines that a pipe yields for a text. -/
def pipeLines (text : String) : List String := (cutBehindFeeds text.toList).map String.ofList

/-- A text without the line feed at its end, if it has one. -/
def withoutLastFeed (text : List Char) : List Char :=
  if text.getLast? = some '\n' then text.dropLast else text

def dropFinalFeed (text : String) : String := String.ofList (withoutLastFeed text.toList)

/-- A text without the line feeds at its end. -/
def withoutLastFeeds (text : List Char) : List Char := (text.reverse.dropWhile (· == '\n')).reverse

theorem withoutLastFeeds_cons {c : Char} (solid : c ≠ '\n') (rest : List Char) :
    withoutLastFeeds (c :: rest) = c :: withoutLastFeeds rest := by
  rw [withoutLastFeeds, withoutLastFeeds, List.reverse_cons, List.dropWhile_append]
  split
  next nothing =>
    have gone : rest.reverse.dropWhile (· == '\n') = [] := by simpa using nothing
    simp [gone, solid]
  next => simp

theorem withoutLastFeed_cons {c : Char} {rest : List Char} (inside : c ≠ '\n' ∨ rest ≠ []) :
    withoutLastFeed (c :: rest) = c :: withoutLastFeed rest := by
  cases rest with
  | nil =>
    have solid : c ≠ '\n' := inside.resolve_right fun some => some rfl
    simp [withoutLastFeed, solid]
  | cons next others =>
    unfold withoutLastFeed
    rw [List.getLast?_cons_cons, List.dropLast_cons_cons]
    split <;> rfl

theorem cutBehindFeeds_eq_nil_iff {text : List Char} : cutBehindFeeds text = [] ↔ text = [] := by
  cases text with
  | nil => simp [cutBehindFeeds]
  | cons c rest =>
    rw [cutBehindFeeds]
    split
    · simp
    · split <;> simp

/-- A line has at most one feed at its end. -/
theorem withoutLastFeeds_of_mem {text line : List Char} (mem : line ∈ cutBehindFeeds text) :
    withoutLastFeeds line = withoutLastFeed line := by
  induction text generalizing line with
  | nil => cases mem
  | cons c rest ih =>
    rw [cutBehindFeeds] at mem
    split at mem
    next feed =>
      rcases List.mem_cons.1 mem with rfl | mem
      · subst feed
        decide
      · exact ih mem
    next solid =>
      split at mem
      next =>
        cases List.mem_singleton.1 mem
        rw [withoutLastFeeds_cons solid, withoutLastFeed_cons (.inl solid)]
        rfl
      next first lines cut =>
        rw [cut] at ih
        rcases List.mem_cons.1 mem with rfl | mem
        · rw [withoutLastFeeds_cons solid, withoutLastFeed_cons (.inl solid),
            ih List.mem_cons_self]
        · exact ih (List.mem_cons_of_mem first mem)

/-- Lines without their feeds, joined with feeds again, are the text without its last feed. -/
theorem intercalate_cutBehindFeeds (text : List Char) :
    ['\n'].intercalate ((cutBehindFeeds text).map withoutLastFeeds) = withoutLastFeed text := by
  induction text with
  | nil => rfl
  | cons c rest ih =>
    rw [cutBehindFeeds]
    split
    next feed =>
      subst feed
      cases cut : cutBehindFeeds rest with
      | nil =>
        rw [cutBehindFeeds_eq_nil_iff.1 cut]
        decide
      | cons line lines =>
        have some : rest ≠ [] := by
          rintro rfl
          cases cut
        rw [cut] at ih
        have empty : withoutLastFeeds ['\n'] = [] := by decide
        rw [withoutLastFeed_cons (.inr some), ← ih, List.map_cons, List.map_cons, empty,
          List.intercalate_cons_cons]
        rfl
    next solid =>
      split
      next none =>
        rw [cutBehindFeeds_eq_nil_iff.1 none, withoutLastFeed_cons (.inl solid), List.map_singleton,
          List.intercalate_singleton, withoutLastFeeds_cons solid]
        rfl
      next line lines cut =>
        rw [cut] at ih
        rw [withoutLastFeed_cons (.inl solid), ← ih, List.map_cons, List.map_cons,
          withoutLastFeeds_cons solid]
        cases lines with
        | nil => rw [List.map_nil, List.intercalate_singleton, List.intercalate_singleton]
        | cons next others =>
          rw [List.map_cons, List.intercalate_cons_cons, List.intercalate_cons_cons]
          rfl

theorem dropLineFeeds_ofList (line : List Char) :
    dropLineFeeds (String.ofList line) = String.ofList (withoutLastFeeds line) := by
  rw [dropLineFeeds, String.toList_ofList, withoutLastFeeds]

/-- The lines of a pipe without their feeds. -/
theorem map_pipeLines (text : String) :
    (pipeLines text).map dropLineFeeds = (pipeLines text).map dropFinalFeed := by
  refine List.map_congr_left fun line mem => ?_
  obtain ⟨chars, cut, rfl⟩ := List.mem_map.1 mem
  rw [dropLineFeeds_ofList, withoutLastFeeds_of_mem cut, dropFinalFeed, String.toList_ofList]

/-- What a run keeps of a text that comes through a pipe: all of it but its last feed. -/
theorem intercalate_pipeLines (text : String) :
    "\n".intercalate ((pipeLines text).map dropLineFeeds) = dropFinalFeed text := by
  have feed : "\n".toList = ['\n'] := rfl
  have lines : ((pipeLines text).map dropLineFeeds).map String.toList =
      (cutBehindFeeds text.toList).map withoutLastFeeds := by
    simp [pipeLines, Function.comp_def, dropLineFeeds_ofList]
  apply String.toList_injective
  rw [String.toList_intercalate, feed, lines, intercalate_cutBehindFeeds, dropFinalFeed,
    String.toList_ofList]

example : "\n".intercalate ((pipeLines "a\n\n").map dropLineFeeds) = "a\n" := by decide

end MediaCommand
