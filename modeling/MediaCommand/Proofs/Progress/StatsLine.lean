import MediaCommand.Proofs.Number.Numeral

/-!
# Stats lines

A `StatsLine` lists some of the fields `frame`, `fps`, `q`, `size`, `time`, `bitrate` and `speed`,
each once and in any order. Each pattern is searched over the whole line, but an equals sign stands
behind keys only and no key ends in another one, so a pattern completes at its own field and nowhere
else (`StatsKey.find?_spaced`). The line is read as the values of its fields, whatever their order,
unless the frame has too many digits for an integer (`stats_read_iff`).
-/

namespace MediaCommand

/-! ## Searching -/

namespace FieldPattern

variable {pattern : FieldPattern} {name text front rest : List Char}

theorem afterKey?_eq_some_iff {key : List Char} :
    afterKey? key text = some rest ↔ text = key ++ rest := by
  induction key generalizing text with
  | nil => exact Option.some_inj
  | cons k key ih =>
    cases text with
    | nil => simp [afterKey?]
    | cons c text =>
      rw [afterKey?]
      by_cases same : k = c
      · simp [same, ih]
      · simp [same, Ne.symm same]

theorem here?_of_not_prefix (other : ¬pattern.key.toList <+: text) : pattern.here? text = none := by
  have missing : afterKey? pattern.key.toList text = none := by
    rw [Option.eq_none_iff_forall_ne_some]
    intro rest found
    exact other ⟨rest, (afterKey?_eq_some_iff.1 found).symm⟩
  rw [here?, missing]

/-- Characters at which no key starts are passed over. -/
theorem find?_append
    (passed : ∀ s, s ≠ [] → s <:+ front → ¬pattern.key.toList <+: s ++ rest) :
    pattern.find? (front ++ rest) = pattern.find? rest := by
  induction front with
  | nil => rfl
  | cons c front ih =>
    have here : pattern.here? (c :: (front ++ rest)) = none :=
      here?_of_not_prefix (passed (c :: front) (by simp) (List.suffix_refl _))
    have later := ih fun s some inside => passed s some (inside.trans (List.suffix_cons c front))
    rw [List.cons_append, find?, here, Option.none_or, later]

theorem find?_of_here? {value : List Char} (here : pattern.here? text = some value) :
    pattern.find? text = some value := by
  cases text with
  | nil => exact here
  | cons c rest => rw [find?, here, Option.some_or]

/-- The characters are a value that the pattern takes as a whole. -/
def Takes (pattern : FieldPattern) (characters : List Char) : Prop :=
  ∃ run, run ++ pattern.closing.toList = characters ∧ run ≠ [] ∧ ∀ c ∈ run, pattern.accepts c = true

/-- A key, spaces and a value are the field if the value's class ends there. -/
theorem here?_key {value : List Char} (pad : Nat) (taken : pattern.Takes value)
    (solid : ∀ c, pattern.accepts c = true → isBlank c = false)
    (ends : ∀ c ∈ (pattern.closing.toList ++ rest).head?, pattern.accepts c = false) :
    pattern.here? (pattern.key.toList ++ (List.replicate pad ' ' ++ (value ++ rest))) =
      some value := by
  obtain ⟨run, rfl, some, accepted⟩ := taken
  have after : afterKey? pattern.key.toList (pattern.key.toList ++
      (List.replicate pad ' ' ++ (run ++ pattern.closing.toList ++ rest))) =
        Option.some (List.replicate pad ' ' ++ (run ++ (pattern.closing.toList ++ rest))) := by
    rw [List.append_assoc run]
    exact afterKey?_eq_some_iff.2 rfl
  have spaces : ∀ c ∈ List.replicate pad ' ', isBlank c = true := by
    intro c mem
    rw [List.eq_of_mem_replicate mem]
    decide
  have letter : ∀ c ∈ (run ++ (pattern.closing.toList ++ rest)).head?, isBlank c = false := by
    intro c mem
    rw [List.head?_append_of_ne_nil _ some] at mem
    exact solid c (accepted c (List.mem_of_mem_head? mem))
  obtain ⟨-, skipped⟩ := takeWhile_run spaces letter
  obtain ⟨taken, dropped⟩ := takeWhile_run accepted ends
  simp only [here?, after, skipped, taken, dropped, List.isEmpty_eq_false_iff.2 some]
  cases pattern.closing with
  | none => simp
  | some mark => simp

section Named

variable (named : pattern.key.toList = name ++ ['=']) (bare : '=' ∉ name)
include named bare

/-- Up to the next equals sign a key stands only right in front of it. -/
theorem prefix_iff (without : '=' ∉ front) :
    pattern.key.toList <+: front ++ '=' :: rest ↔ name = front := by
  rw [named]
  constructor
  · rintro ⟨after, same⟩
    rw [List.append_assoc, List.singleton_append] at same
    have cut := congrArg (List.takeWhile (· ≠ '=')) same
    have known (part : List Char) (without : '=' ∉ part) (rest : List Char) :
        (part ++ '=' :: rest).takeWhile (· ≠ '=') = part := by
      refine (takeWhile_run (fun c mem => ?_) (by simp)).1
      exact decide_eq_true (ne_of_mem_of_not_mem mem without)
    rwa [known name bare, known front without] at cut
  · rintro rfl
    exact ⟨rest, by simp⟩

/-- The field of another key is passed over. -/
theorem find?_other (without : '=' ∉ front) (other : ¬name <:+ front) :
    pattern.find? (front ++ '=' :: rest) = pattern.find? rest := by
  rw [List.append_cons]
  refine find?_append fun s some inside key => ?_
  obtain ⟨s, last, rfl⟩ : ∃ t c, s = t ++ [c] :=
    ⟨_, _, (List.dropLast_append_getLast some).symm⟩
  obtain ⟨before, same⟩ := inside
  rw [← List.append_assoc] at same
  obtain ⟨rfl, mark⟩ := List.append_inj' same rfl
  cases mark
  rw [← List.append_cons] at key
  have bounded : '=' ∉ s := fun mem => without (List.mem_append_right _ mem)
  exact other ((prefix_iff named bare bounded).1 key ▸ List.suffix_append before s)

/-- A complete field behind no other equals sign is the one that is found. -/
theorem find?_own {value : List Char} (without : '=' ∉ front)
    (here : pattern.here? (name ++ '=' :: rest) = some value) :
    pattern.find? (front ++ (name ++ '=' :: rest)) = some value := by
  rw [find?_append, find?_of_here? here]
  intro s some inside key
  have bounded : '=' ∉ s ++ name := by
    rw [List.mem_append, not_or]
    exact ⟨fun mem => without (inside.subset mem), bare⟩
  rw [← List.append_assoc, prefix_iff named bare bounded] at key
  exact some (List.append_left_eq_self.1 key.symm)

omit bare in
theorem find?_none (without : '=' ∉ text) : pattern.find? text = none := by
  have key (text : List Char) (without : '=' ∉ text) : pattern.here? text = none := by
    refine here?_of_not_prefix fun key => without (key.subset ?_)
    rw [named]
    simp
  induction text with
  | nil => exact key [] without
  | cons c rest ih =>
    rw [find?, key _ without, Option.none_or]
    exact ih fun mem => without (List.mem_cons_of_mem c mem)

end Named

end FieldPattern

/-! ## Keys -/

/-- The fields that a stats line may have. -/
inductive StatsKey where
  | frame | fps | quality | size | time | bitrate | speed
  deriving DecidableEq

namespace StatsKey

def name : StatsKey → List Char
  | frame => "frame".toList
  | fps => "fps".toList
  | quality => "q".toList
  | size => "size".toList
  | time => "time".toList
  | bitrate => "bitrate".toList
  | speed => "speed".toList

/-- How a field is searched; the quality is not. -/
def pattern? : StatsKey → Option FieldPattern
  | frame => some .frame
  | fps => some .fps
  | quality => none
  | size => some .size
  | time => some .time
  | bitrate => some .bitrate
  | speed => some .speed

theorem equals_notMem_name (key : StatsKey) : '=' ∉ key.name := by
  cases key <;> decide

/-- No key ends in another one. -/
theorem eq_of_suffix {key other : StatsKey} (ends : key.name <:+ other.name) : key = other := by
  revert ends
  cases key <;> cases other <;> decide

variable {key : StatsKey} {pattern : FieldPattern} (searched : key.pattern? = some pattern)
include searched

theorem key_pattern : pattern.key.toList = key.name ++ ['='] := by
  cases key <;> cases searched <;> decide

/-- A value ends at a blank. -/
theorem accepts_of_isBlank {c : Char} (blank : isBlank c = true) : pattern.accepts c = false := by
  have digit : isDigit c = false := by
    rw [Bool.eq_false_iff]
    intro digit
    rw [isBlank_of_isDigit digit] at blank
    cases blank
  have other (mark : Char) (solid : isBlank mark = false) : (c == mark) = false := by
    rw [beq_eq_false_iff_ne]
    rintro rfl
    rw [blank] at solid
    cases solid
  have real : (isDigit c || c == '.') = false := by rw [digit, other '.' (by decide), Bool.or_self]
  have clock : (isDigit c || c == '.' || c == ':') = false := by
    rw [real, other ':' (by decide), Bool.or_self]
  have word : (!isBlank c) = false := by rw [blank, Bool.not_true]
  cases key <;> cases searched
  · exact digit
  · exact real
  · exact word
  · exact clock
  · exact word
  · exact real

theorem accepts_mark {mark : Char} (closing : pattern.closing = some mark) :
    pattern.accepts mark = false := by
  cases key <;> cases searched <;> cases closing
  decide

/-- A value and its mark end at a blank or at the end of the line. -/
theorem ends_of_blank {rest : List Char} (blank : ∀ c ∈ rest.head?, isBlank c = true) :
    ∀ c ∈ (pattern.closing.toList ++ rest).head?, pattern.accepts c = false := by
  intro c mem
  cases closing : pattern.closing with
  | none =>
    rw [closing] at mem
    exact accepts_of_isBlank searched (blank c mem)
  | some mark =>
    rw [closing] at mem
    cases mem
    exact accepts_mark searched closing

end StatsKey

/-! ## Fields -/

/-- A field as it stands on a line, with the number of spaces in front of it and behind its equals
sign. -/
structure StatsField where
  gap : Nat
  pad : Nat
  key : StatsKey
  characters : List Char

namespace StatsField

/-- A field with its spaces. -/
def spaced (field : StatsField) : List Char :=
  List.replicate field.gap ' ' ++ (field.key.name ++
    '=' :: (List.replicate field.pad ' ' ++ field.characters))

def entry (field : StatsField) : StatsKey × List Char := (field.key, field.characters)

end StatsField

namespace StatsKey

variable {key : StatsKey} {pattern : FieldPattern} {fields : List StatsField} {closing : List Char}

/-- A value is followed by a blank or by nothing. -/
theorem head?_spaced (blank : ∀ c ∈ closing, isBlank c = true)
    (apart : ∀ field ∈ fields, 0 < field.gap) :
    ∀ c ∈ (fields.flatMap StatsField.spaced ++ closing).head?, isBlank c = true := by
  intro c mem
  cases fields with
  | nil => exact blank c (List.mem_of_mem_head? mem)
  | cons field fields =>
    obtain ⟨gap, some⟩ := Nat.exists_eq_succ_of_ne_zero (apart field List.mem_cons_self).ne'
    rw [List.flatMap_cons, StatsField.spaced, some, List.replicate_succ] at mem
    cases mem
    decide

/-- A pattern completes at its own field and nowhere else. -/
theorem find?_spaced (searched : key.pattern? = some pattern)
    (blank : ∀ c ∈ closing, isBlank c = true)
    (plain : ∀ field ∈ fields, '=' ∉ field.characters)
    (taken : ∀ field ∈ fields, field.key = key → pattern.Takes field.characters)
    (apart : ∀ field ∈ fields.tail, 0 < field.gap) {carry : List Char} (without : '=' ∉ carry) :
    pattern.find? (carry ++ (fields.flatMap StatsField.spaced ++ closing)) =
      (fields.find? (·.key = key)).map StatsField.characters := by
  have named := key_pattern searched
  have spaces (n : Nat) : '=' ∉ List.replicate n ' ' := by simp [List.mem_replicate]
  induction fields generalizing carry with
  | nil =>
    have unmarked : '=' ∉ closing := fun mem => absurd (blank '=' mem) (by decide)
    exact FieldPattern.find?_none named (by simp [without, unmarked])
  | cons field fields ih =>
    let behind := fields.flatMap StatsField.spaced ++ closing
    have shown : carry ++ ((field :: fields).flatMap StatsField.spaced ++ closing) =
        carry ++ List.replicate field.gap ' ' ++ (field.key.name ++
          '=' :: (List.replicate field.pad ' ' ++ (field.characters ++ behind))) := by
      simp [behind, StatsField.spaced]
    have front : '=' ∉ carry ++ List.replicate field.gap ' ' := by simp [without, spaces]
    rw [shown]
    by_cases own : field.key = key
    · have whole := taken field List.mem_cons_self own
      have here := FieldPattern.here?_key field.pad whole
        (fun c accepted => Bool.eq_false_iff.2 fun blank => by
          rw [accepts_of_isBlank searched blank] at accepted
          cases accepted)
        (ends_of_blank searched (head?_spaced blank apart))
      rw [named, ← own, List.append_assoc] at here
      rw [List.find?_cons_of_pos (by simpa using own)]
      rw [← own] at named
      exact FieldPattern.find?_own named field.key.equals_notMem_name front here
    · -- The value of this field is carried along in front of the next key.
      have value : '=' ∉ List.replicate field.pad ' ' ++ field.characters := by
        simp [spaces, plain field List.mem_cons_self]
      have later := ih (fun other mem => plain other (List.mem_cons_of_mem field mem))
        (fun other mem => taken other (List.mem_cons_of_mem field mem))
        (fun other mem => apart other (List.mem_of_mem_tail mem)) value
      rw [List.append_assoc] at later
      rw [List.find?_cons_of_neg (by simpa using own), ← later, ← List.append_assoc]
      refine FieldPattern.find?_other named key.equals_notMem_name ?_ fun ends => own ?_
      · rw [List.mem_append, not_or]
        exact ⟨front, field.key.equals_notMem_name⟩
      · rcases List.suffix_or_suffix_of_suffix ends (List.suffix_append _ _) with inside | inside
        · exact (eq_of_suffix inside).symm
        · exact eq_of_suffix inside

end StatsKey

/-! ## Values -/

/-- Characters of a class, and at least one. -/
structure Run (accepts : Char → Bool) where
  characters : List Char
  accepted : ∀ c ∈ characters, accepts c = true
  ne_nil : characters ≠ []

/-- Neither a blank nor an equals sign. -/
def isPlain (c : Char) : Bool := !isBlank c && c != '='

/-- The values of the fields that a line has. -/
structure Stats where
  frame : Option (Run isDigit)
  fps : Option WrittenNumber
  quality : Option (Run isPlain)
  size : Option (Run isPlain)
  time : Option (Run FieldPattern.time.accepts)
  bitrate : Option (Run isPlain)
  speed : Option WrittenNumber

namespace Stats

/-- A value as it is written. -/
def value? (stats : Stats) : StatsKey → Option (List Char)
  | .frame => stats.frame.map Run.characters
  | .fps => stats.fps.map WrittenNumber.characters
  | .quality => stats.quality.map Run.characters
  | .size => stats.size.map Run.characters
  | .time => stats.time.map Run.characters
  | .bitrate => stats.bitrate.map Run.characters
  | .speed => stats.speed.map fun number => number.characters ++ ['x']

/-- The fields in some order. -/
def entries (stats : Stats) : List (StatsKey × List Char) :=
  [.frame, .fps, .quality, .size, .time, .bitrate, .speed].filterMap fun key =>
    (stats.value? key).map (key, ·)

/-- What the values tell without a duration. -/
def progress (stats : Stats) : Progress where
  frame := stats.frame.map fun run => (digitsValue (run.characters.map latinDigit) : Int)
  fps := stats.fps.map fun number => .ofScaled number.value
  speed := stats.speed.map fun number => String.ofList (number.characters ++ ['x'])
  time := stats.time.map fun run => String.ofList run.characters
  size := stats.size.map fun run => String.ofList run.characters
  bitrate := stats.bitrate.map fun run => String.ofList run.characters
  percent := none
  eta := none

/-- The frame, if there is one, has no more digits than can be read. -/
def IsReadable (stats : Stats) : Prop :=
  ∀ frame, stats.frame = some frame → frame.characters.length ≤ digitLimit

variable {stats : Stats} {key : StatsKey} {characters : List Char}

theorem mem_entries_iff :
    (key, characters) ∈ stats.entries ↔ stats.value? key = some characters := by
  have listed : key ∈ [StatsKey.frame, .fps, .quality, .size, .time, .bitrate, .speed] := by
    cases key <;> decide
  simp only [entries, List.mem_filterMap, Option.map_eq_some_iff, Prod.mk.injEq]
  constructor
  · rintro ⟨_, -, _, value, rfl, rfl⟩
    exact value
  · exact fun value => ⟨key, listed, characters, value, rfl, rfl⟩

theorem takes_run {accepts : Char → Bool} {pattern : FieldPattern} (run : Run accepts)
    (unmarked : pattern.closing = none) (among : ∀ c, accepts c = true → pattern.accepts c = true) :
    pattern.Takes run.characters := by
  refine ⟨run.characters, ?_, run.ne_nil, fun c mem => among c (run.accepted c mem)⟩
  rw [unmarked]
  exact List.append_nil _

/-- A value is what its pattern takes. -/
theorem takes_of_value {pattern : FieldPattern} (searched : key.pattern? = some pattern)
    (value : stats.value? key = some characters) : pattern.Takes characters := by
  have real (number : WrittenNumber) :
      ∀ c ∈ number.characters, FieldPattern.fps.accepts c = true := by
    intro c mem
    show (isDigit c || c == '.') = true
    simpa [IsNumeral] using number.numeral c mem
  have word (c : Char) (plain : isPlain c = true) : FieldPattern.size.accepts c = true := by
    show (!isBlank c) = true
    exact (Bool.and_eq_true_iff.1 plain).1
  cases key <;> cases searched <;> obtain ⟨run, -, rfl⟩ := Option.map_eq_some_iff.1 value
  · exact takes_run run rfl fun c digit => digit
  · exact ⟨run.characters, List.append_nil _, run.characters_ne_nil, real run⟩
  · exact takes_run run rfl word
  · exact takes_run run rfl fun c clock => clock
  · exact takes_run run rfl word
  · exact ⟨run.characters, rfl, run.characters_ne_nil, real run⟩

/-- No value has an equals sign. -/
theorem equals_notMem_value (value : stats.value? key = some characters) : '=' ∉ characters := by
  have run {accepts : Char → Bool} (run : Run accepts) (other : accepts '=' = false) :
      '=' ∉ run.characters := by
    intro mem
    rw [run.accepted '=' mem] at other
    cases other
  have number (number : WrittenNumber) : '=' ∉ number.characters := fun mem =>
    absurd (number.numeral '=' mem) (by decide)
  cases key <;> obtain ⟨_, -, rfl⟩ := Option.map_eq_some_iff.1 value
  · exact run _ (by decide)
  · exact number _
  · exact run _ (by decide)
  · exact run _ (by decide)
  · exact run _ (by decide)
  · exact run _ (by decide)
  · simp [number]

end Stats

/-! ## Lines -/

/-- A line of fields in some order, each with spaces in front of it and behind its equals sign, and
blanks at the end. Between two fields there is a space. -/
structure StatsLine where
  stats : Stats
  fields : List StatsField
  closing : List Char
  order : (fields.map StatsField.entry).Perm stats.entries
  apart : ∀ field ∈ fields.tail, 0 < field.gap
  blank : ∀ c ∈ closing, isBlank c = true

namespace StatsLine

def text (line : StatsLine) : String :=
  String.ofList (line.fields.flatMap StatsField.spaced ++ line.closing)

variable (line : StatsLine)

/-- A field is on the line just if it has a value. -/
theorem value?_eq_some_iff {key : StatsKey} {characters : List Char} :
    line.stats.value? key = some characters ↔
      ∃ field ∈ line.fields, field.key = key ∧ field.characters = characters := by
  rw [← Stats.mem_entries_iff, ← line.order.mem_iff, List.mem_map]
  simp [StatsField.entry]

/-- Each pattern finds the value of its field. -/
theorem find?_text {key : StatsKey} {pattern : FieldPattern}
    (searched : key.pattern? = some pattern) :
    pattern.find? line.text.toList = line.stats.value? key := by
  have valued (field : StatsField) (mem : field ∈ line.fields) :
      line.stats.value? field.key = some field.characters :=
    line.value?_eq_some_iff.2 ⟨field, mem, rfl, rfl⟩
  have found := StatsKey.find?_spaced searched line.blank
    (fun field mem => Stats.equals_notMem_value (valued field mem))
    (fun field mem own => Stats.takes_of_value searched (own ▸ valued field mem)) line.apart
    (List.not_mem_nil)
  rw [List.nil_append] at found
  rw [text, String.toList_ofList, found]
  cases there : line.fields.find? (·.key = key) with
  | none =>
    rw [Option.map_none, eq_comm, Option.eq_none_iff_forall_ne_some]
    intro characters value
    obtain ⟨field, mem, own, -⟩ := line.value?_eq_some_iff.1 value
    simpa [own] using List.find?_eq_none.1 there field mem
  | some field =>
    have own : field.key = key := by simpa using List.find?_some there
    rw [Option.map_some, ← own, valued field (List.mem_of_find?_eq_some there)]

theorem readReal_fps (number : WrittenNumber) :
    readReal number.characters = .ok (.ofScaled number.value) :=
  readReal_eq_ok.2 number.real?_characters

/-- A line tells the values of its fields once its frame is read. -/
theorem ofLine_text : Progress.ofLine line.text none =
    match line.stats.frame with
    | none => .ok line.stats.progress
    | some run => do
      let frame ← readInteger run.characters
      return { line.stats.progress with frame := some frame } := by
  have frame : FieldPattern.frame.find? line.text.toList = line.stats.value? .frame :=
    line.find?_text rfl
  have fps : FieldPattern.fps.find? line.text.toList = line.stats.value? .fps :=
    line.find?_text rfl
  have size : FieldPattern.size.find? line.text.toList = line.stats.value? .size :=
    line.find?_text rfl
  have time : FieldPattern.time.find? line.text.toList = line.stats.value? .time :=
    line.find?_text rfl
  have bitrate : FieldPattern.bitrate.find? line.text.toList = line.stats.value? .bitrate :=
    line.find?_text rfl
  have speed : FieldPattern.speed.find? line.text.toList = line.stats.value? .speed :=
    line.find?_text rfl
  rw [Progress.ofLine_none, Progress.fields, Stats.progress]
  simp only [frame, fps, size, time, bitrate, speed, Stats.value?, Option.map_map]
  cases line.stats.frame with
  | none =>
    cases line.stats.fps <;> simp only [Option.map_none, Option.map_some, readReal_fps] <;> rfl
  | some run =>
    cases line.stats.fps <;> cases read : readInteger run.characters <;>
      simp only [Option.map_none, Option.map_some, readReal_fps, read] <;> rfl

theorem readInteger_frame (run : Run isDigit) : readInteger run.characters =
    if run.characters.length ≤ digitLimit then
      .ok (digitsValue (run.characters.map latinDigit) : Int)
    else .error (.numeralTooLong run.characters.length) :=
  readInteger_ofDigits run.accepted run.ne_nil

theorem ofLine_of_readable (readable : line.stats.IsReadable) :
    Progress.ofLine line.text none = .ok line.stats.progress := by
  rw [ofLine_text]
  cases framed : line.stats.frame with
  | none => rfl
  | some run =>
    dsimp only
    rw [readInteger_frame, if_pos (readable run framed)]
    simp only [Stats.progress, framed]
    rfl

theorem ofLine_of_overlong {run : Run isDigit} (framed : line.stats.frame = some run)
    (long : digitLimit < run.characters.length) :
    Progress.ofLine line.text none = .error (.numeralTooLong run.characters.length) := by
  rw [ofLine_text, framed]
  dsimp only
  rw [readInteger_frame, if_neg (Nat.not_le.2 long)]
  rfl

/-- An encoder's usual line. -/
def usual : StatsLine where
  stats := {
    frame := some ⟨"500".toList, by simp; decide, by decide⟩
    fps := some ⟨"30".toList, some "0".toList, by simp; decide, by decide⟩
    quality := some ⟨"28.0".toList, by simp; decide, by decide⟩
    size := some ⟨"10240kB".toList, by simp; decide, by decide⟩
    time := some ⟨"00:00:16.67".toList, by simp; decide, by decide⟩
    bitrate := some ⟨"5027.0kbits/s".toList, by simp; decide, by decide⟩
    speed := some ⟨"2".toList, some "5".toList, by simp; decide, by decide⟩ }
  fields := [
    ⟨0, 2, .frame, "500".toList⟩, ⟨1, 0, .fps, "30.0".toList⟩, ⟨1, 0, .quality, "28.0".toList⟩,
    ⟨1, 3, .size, "10240kB".toList⟩, ⟨1, 0, .time, "00:00:16.67".toList⟩,
    ⟨1, 0, .bitrate, "5027.0kbits/s".toList⟩, ⟨1, 0, .speed, "2.5x".toList⟩]
  closing := []
  order := List.Perm.of_eq (by decide)
  apart := by decide
  blank := by simp

/-- The usual fields, from the last to the first. -/
def backward : StatsLine where
  stats := usual.stats
  fields := usual.fields.reverse.map fun field => { field with gap := 1 }
  closing := []
  order := by
    refine List.Perm.trans ?_ usual.order
    rw [List.map_map, List.map_reverse]
    exact List.reverse_perm _
  apart := by decide
  blank := by simp

end StatsLine

/-- **Fields are read by their own keys.** A line of some of the fields, each once, tells their
values and nothing else, exactly if its frame is not too long to be read; otherwise reading fails
for the frame's length. A line of the same fields in another order or with other spaces has the same
outcome. -/
theorem stats_read_iff (line : StatsLine) :
    (Progress.ofLine line.text none = .ok line.stats.progress ↔ line.stats.IsReadable) ∧
      (∀ frame, line.stats.frame = some frame → digitLimit < frame.characters.length →
        Progress.ofLine line.text none = .error (.numeralTooLong frame.characters.length)) ∧
      ∀ other : StatsLine,
        (other.fields.map StatsField.entry).Perm (line.fields.map StatsField.entry) →
          Progress.ofLine other.text none = Progress.ofLine line.text none := by
  refine ⟨⟨fun read frame framed => ?_, line.ofLine_of_readable⟩,
    fun frame framed long => line.ofLine_of_overlong framed long, fun other same => ?_⟩
  · by_contra long
    cases read.symm.trans (line.ofLine_of_overlong framed (Nat.not_le.1 long))
  · let reordered : StatsLine := { other with stats := line.stats, order := same.trans line.order }
    exact reordered.ofLine_text.trans line.ofLine_text.symm

/-- The usual line, forward and backward. -/
theorem stats_read_usual :
    StatsLine.usual.text = "frame=  500 fps=30.0 q=28.0 size=   10240kB time=00:00:16.67 " ++
        "bitrate=5027.0kbits/s speed=2.5x" ∧
      Progress.ofLine StatsLine.usual.text none = .ok StatsLine.usual.stats.progress ∧
      Progress.ofLine StatsLine.backward.text none = .ok StatsLine.usual.stats.progress ∧
      StatsLine.usual.stats.progress.frame = some 500 := by
  obtain ⟨readable, -, reordered⟩ := stats_read_iff StatsLine.usual
  have read := readable.2 fun frame framed => by
    cases framed
    decide
  refine ⟨by decide, read, (reordered StatsLine.backward ?_).trans read, by decide⟩
  exact StatsLine.backward.order.trans StatsLine.usual.order.symm

/-- A line of a frame alone. -/
def StatsLine.ofFrame (frame : Run isDigit) : StatsLine where
  stats := ⟨some frame, none, none, none, none, none, none⟩
  fields := [⟨0, 0, .frame, frame.characters⟩]
  closing := []
  order := List.Perm.refl _
  apart := by simp
  blank := by simp

theorem StatsLine.text_ofFrame (frame : Run isDigit) :
    (ofFrame frame).text = String.ofList ("frame=".toList ++ frame.characters) := by
  have key : StatsKey.frame.name ++ ['='] = "frame=".toList := by decide
  rw [← key]
  simp [text, ofFrame, StatsField.spaced]

/-- A frame with one digit too many. -/
def overlongFrame : Run isDigit where
  characters := List.replicate (digitLimit + 1) '1'
  accepted c mem := List.eq_of_mem_replicate mem ▸ by decide
  ne_nil := List.cons_ne_nil _ _

/-- Nothing is read from a line with it. -/
theorem stats_read_overlong :
    (StatsLine.ofFrame overlongFrame).text =
        String.ofList ("frame=".toList ++ List.replicate 4301 '1') ∧
      Progress.ofLine (StatsLine.ofFrame overlongFrame).text none = .error (.numeralTooLong 4301) ∧
      Progress.ofLine (StatsLine.ofFrame overlongFrame).text none ≠
        .ok (StatsLine.ofFrame overlongFrame).stats.progress := by
  have length : overlongFrame.characters.length = 4301 := List.length_replicate
  have failed := (StatsLine.ofFrame overlongFrame).ofLine_of_overlong rfl (by rw [length]; decide)
  rw [length] at failed
  refine ⟨StatsLine.text_ofFrame overlongFrame, failed, fun read => ?_⟩
  cases failed.symm.trans read

end MediaCommand
