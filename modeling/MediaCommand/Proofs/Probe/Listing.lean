import MediaCommand.Probe.FormatList
import MediaCommand.Proofs.Text.Lines

/-!
# Listings that are read back

A `Listing` is header lines, the divider, and a line for each entry: its two flags, its name padded
to a column, and its description. A line is read as the format of its entry
(`ListingEntry.ofLine?_line`), and a listing as the formats of its entries (`listing_read_back`).
-/

namespace MediaCommand

open ContainerFormat

/-- The width of the column of names. -/
def nameWidth : Nat := 24

/-- A format as a listing has it. The name is one word that fits into its column; the description is
on one line and has no blanks around it. -/
structure ListingEntry where
  demuxing : Bool
  muxing : Bool
  name : List Char
  description : List Char
  name_ne_nil : name ≠ []
  name_length : name.length < nameWidth
  name_solid : ∀ c ∈ name, isBlank c = false
  unbroken : ∀ c ∈ description, isLineBreak c = false
  description_starts : ∀ c ∈ description.head?, isBlank c = false
  description_ends : ∀ c ∈ description.getLast?, isBlank c = false

namespace ListingEntry

def flag (shown : Bool) (mark : Char) : Char := if shown then mark else ' '

def padding (entry : ListingEntry) : List Char :=
  List.replicate (nameWidth - entry.name.length) ' '

def line (entry : ListingEntry) : List Char :=
  [' ', flag entry.demuxing 'D', flag entry.muxing 'E', ' '] ++
    (entry.name ++ (entry.padding ++ entry.description))

def format (entry : ListingEntry) : ContainerFormat where
  name := String.ofList entry.name
  description := String.ofList entry.description
  demuxing := entry.demuxing
  muxing := entry.muxing

variable (entry : ListingEntry)

theorem isBlank_padding : ∀ c ∈ entry.padding, isBlank c = true := by
  intro c mem
  rw [List.eq_of_mem_replicate mem]
  decide

theorem padding_ne_nil : entry.padding ≠ [] := by
  have fits := entry.name_length
  intro none
  have length := congrArg List.length none
  rw [padding, List.length_replicate, List.length_nil] at length
  omega

/-- The flag columns hold the marks of the flags that are set. -/
theorem contains_flags (demuxing muxing : Bool) :
    [' ', flag demuxing 'D', flag muxing 'E', ' '].contains 'D' = demuxing ∧
      [' ', flag demuxing 'D', flag muxing 'E', ' '].contains 'E' = muxing := by
  revert demuxing muxing
  decide

theorem first_solid (behind : List Char) :
    ∀ c ∈ (entry.name ++ behind).head?, isBlank c = false := by
  intro c mem
  rw [List.head?_append_of_ne_nil _ entry.name_ne_nil] at mem
  exact entry.name_solid c (List.mem_of_mem_head? mem)

/-- The padding of an empty description is blank, and all other text behind the flags stays. -/
theorem firstWord_line :
    firstWord (trim (entry.name ++ (entry.padding ++ entry.description))) =
      (entry.name, entry.description) := by
  by_cases empty : entry.description = []
  · have trimmed : trim ([] ++ (entry.name ++ entry.padding)) = entry.name :=
      trimBy_between (by simp) entry.isBlank_padding
        (by simpa using entry.first_solid [])
        fun c mem => entry.name_solid c (List.mem_of_getLast? mem)
    have word := @firstWord_append entry.name [] [] entry.name_ne_nil entry.name_solid
      (by simp) (fun _ => rfl) (by simp)
    rw [List.nil_append] at trimmed
    rw [List.append_nil, List.append_nil] at word
    rw [empty, List.append_nil, trimmed, word]
  · have trimmed : trim ([] ++ ((entry.name ++ (entry.padding ++ entry.description)) ++ [])) =
        entry.name ++ (entry.padding ++ entry.description) := by
      refine trimBy_between (by simp) (by simp) (entry.first_solid _) fun c mem => ?_
      rw [List.getLast?_append_of_ne_nil _ (by simp [empty]),
        List.getLast?_append_of_ne_nil _ empty] at mem
      exact entry.description_ends c mem
    rw [List.nil_append, List.append_nil] at trimmed
    rw [trimmed]
    exact firstWord_append entry.name_ne_nil entry.name_solid entry.isBlank_padding
      (fun none => absurd none entry.padding_ne_nil) entry.description_starts

theorem trim_description : trim entry.description = entry.description := by
  have trimmed := @trimBy_between isBlank [] entry.description [] (by simp) (by simp)
    entry.description_starts entry.description_ends
  rwa [List.nil_append, List.append_nil] at trimmed

/-- A line is read as its entry. -/
theorem ofLine?_line : ofLine? entry.line = some entry.format := by
  obtain ⟨c, rest, name⟩ := List.exists_cons_of_ne_nil entry.name_ne_nil
  have filled : trim entry.line ≠ [] := by
    refine @trimBy_ne_nil _ _ c (by simp [line, name]) (entry.name_solid c ?_)
    rw [name]
    exact List.mem_cons_self
  have long : ¬entry.line.length < flagWidth := by simp [line, flagWidth]
  have flags : entry.line.take flagWidth =
    [' ', flag entry.demuxing 'D', flag entry.muxing 'E', ' '] := rfl
  have behind : entry.line.drop flagWidth =
    entry.name ++ (entry.padding ++ entry.description) := rfl
  obtain ⟨demuxing, muxing⟩ := contains_flags entry.demuxing entry.muxing
  rw [ofLine?, if_neg (by simp [long, filled])]
  simp only [flags, behind, firstWord_line, trim_description, demuxing, muxing]
  rw [if_neg (by simp [entry.name_ne_nil])]
  rfl

/-- An entry is on one line. -/
theorem line_unbroken : ∀ c ∈ entry.line, isLineBreak c = false := by
  have solid (c : Char) (letter : isBlank c = false) : isLineBreak c = false := by
    rw [Bool.eq_false_iff]
    intro break_
    rw [isBlank_of_isLineBreak break_] at letter
    cases letter
  have mark (shown : Bool) : isLineBreak (flag shown 'D') = false ∧
      isLineBreak (flag shown 'E') = false := by
    cases shown <;> decide
  intro c mem
  simp only [line, List.mem_append, List.mem_cons, List.not_mem_nil, or_false] at mem
  rcases mem with (rfl | rfl | rfl | rfl) | mem | mem | mem
  · decide
  · exact (mark _).1
  · exact (mark _).2
  · decide
  · exact solid c (entry.name_solid c mem)
  · rw [List.eq_of_mem_replicate mem]
    decide
  · exact entry.unbroken c mem

end ListingEntry

/-- A listing: header lines that are no divider, and entries. -/
structure Listing where
  header : List (List Char)
  entries : List ListingEntry
  unbroken : ∀ line ∈ header, ∀ c ∈ line, isLineBreak c = false
  other : ∀ line ∈ header, trim line ≠ divider

namespace Listing

/-- The divider as a listing has it. -/
def dividerLine : List Char := ' ' :: divider

def rows (listing : Listing) : List (List Char) :=
  listing.header ++ dividerLine :: listing.entries.map ListingEntry.line

/-- The lines with line feeds between them, and one at the end if it is closed. -/
def text (listing : Listing) (closed : Bool) : String :=
  String.ofList (if closed then listing.rows.flatMap (· ++ ['\n'])
    else ['\n'].intercalate listing.rows)

variable (listing : Listing)

theorem rows_unbroken : ∀ line ∈ listing.rows, ∀ c ∈ line, isLineBreak c = false := by
  intro line mem
  simp only [rows, List.mem_append, List.mem_cons, List.mem_map] at mem
  rcases mem with mem | rfl | ⟨entry, -, rfl⟩
  · exact listing.unbroken line mem
  · simp only [dividerLine, divider, List.forall_mem_cons, List.not_mem_nil, false_imp_iff,
      implies_true, and_true]
    decide
  · exact entry.line_unbroken

/-- The last line is the divider or that of an entry, so it is not empty. -/
theorem last_ne_nil : ∀ line ∈ listing.rows.getLast?, line ≠ [] := by
  intro line mem
  rw [rows, List.getLast?_append_of_ne_nil _ (by simp)] at mem
  have inside := List.mem_of_getLast? mem
  simp only [List.mem_cons, List.mem_map] at inside
  rcases inside with rfl | ⟨entry, -, rfl⟩
  · decide
  · simp [ListingEntry.line]

theorem lines_text (closed : Bool) : lines (listing.text closed).toList = listing.rows := by
  rw [text, String.toList_ofList]
  cases closed with
  | true => exact lines_flatMap listing.rows_unbroken
  | false => exact lines_intercalate listing.rows_unbroken listing.last_ne_nil

/-- The lines below the divider are those of the entries. -/
theorem belowDivider_rows : belowDivider listing.rows = listing.entries.map ListingEntry.line := by
  have header : ∀ line ∈ listing.header, (trim line != divider) = true := by
    simpa using listing.other
  have found : ∀ line ∈ (dividerLine :: listing.entries.map ListingEntry.line).head?,
      (trim line != divider) = false := by
    rintro _ ⟨⟩
    decide
  rw [belowDivider, rows, (takeWhile_run header found).2]
  rfl

end Listing

/-- **A listing is read back.** The formats are those of its entries, in their order; a line feed at
the end makes no difference. -/
theorem listing_read_back (listing : Listing) (closed : Bool) :
    ofListing (listing.text closed) = listing.entries.map ListingEntry.format := by
  rw [ofListing, listing.lines_text, listing.belowDivider_rows, List.filterMap_map]
  simp [ListingEntry.ofLine?_line]

/-- A listing of a format that is read and written and of one without a description. -/
def usualListing : Listing where
  header := ["File formats:".toList, " D. = Demuxing supported".toList]
  entries := [{
    demuxing := true
    muxing := true
    name := "mp4".toList
    description := "MP4 (MPEG-4 Part 14)".toList
    name_ne_nil := by decide
    name_length := by decide
    name_solid := by simp; decide
    unbroken := by simp; decide
    description_starts := by simp; decide
    description_ends := by simp; decide }, {
    demuxing := true
    muxing := false
    name := "DEE".toList
    description := []
    name_ne_nil := by decide
    name_length := by decide
    name_solid := by simp; decide
    unbroken := by simp
    description_starts := by simp
    description_ends := by simp }]
  unbroken := by simp; decide
  other := by decide

theorem listing_read_usual :
    usualListing.text true = "File formats:\n D. = Demuxing supported\n --\n" ++
      " DE mp4                     MP4 (MPEG-4 Part 14)\n D  DEE                     \n" ∧
    ofListing (usualListing.text true) =
      [⟨"mp4", "MP4 (MPEG-4 Part 14)", true, true⟩, ⟨"DEE", "", true, false⟩] := by
  refine ⟨by decide +kernel, ?_⟩
  rw [listing_read_back usualListing true]
  decide

end MediaCommand
