import MediaCommand.Progress.Clock

/-!
# Progress lines

A stats line of an encoder holds `key=value` fields. Each known field is found by its own key,
wherever it stands, and read in its own notation; position and speed against a known duration
give the percentage and the time left.
-/

namespace MediaCommand

/-- What a progress line tells; a field that is not on the line is `none`. -/
structure Progress where
  frame : Option Int
  fps : Option Double
  speed : Option String
  time : Option String
  size : Option String
  bitrate : Option String
  percent : Option Double
  eta : Option String
  deriving DecidableEq

/-- How a field is written: a key, blanks, characters of a class, and a mark at the end if there
is one. -/
structure FieldPattern where
  key : String
  accepts : Char → Bool
  closing : Option Char

namespace FieldPattern

/-- What follows a key at the start of a text. -/
def afterKey? : List Char → List Char → Option (List Char)
  | [], rest => some rest
  | k :: key, c :: rest => if k = c then afterKey? key rest else none
  | _ :: _, [] => none

/-- The field's value when the key stands at the start of the text. -/
def here? (pattern : FieldPattern) (text : List Char) : Option (List Char) :=
  match afterKey? pattern.key.toList text with
  | none => none
  | some rest =>
    let rest := rest.dropWhile isBlank
    let value := rest.takeWhile pattern.accepts
    if value.isEmpty then none
    else match pattern.closing with
      | none => some value
      | some mark =>
        if (rest.dropWhile pattern.accepts).head? = some mark then some (value ++ [mark]) else none

/-- The value of the first place where the field is complete. -/
def find? (pattern : FieldPattern) : List Char → Option (List Char)
  | [] => pattern.here? []
  | c :: rest => (pattern.here? (c :: rest)).or (pattern.find? rest)

end FieldPattern

private def isWord (c : Char) : Bool := !isBlank c

private def isReal (c : Char) : Bool := isDigit c || c == '.'

private def isClock (c : Char) : Bool := isReal c || c == ':'

namespace FieldPattern

def frame : FieldPattern := ⟨"frame=", isDigit, none⟩

def fps : FieldPattern := ⟨"fps=", isReal, none⟩

def speed : FieldPattern := ⟨"speed=", isReal, some 'x'⟩

def time : FieldPattern := ⟨"time=", isClock, none⟩

def size : FieldPattern := ⟨"size=", isWord, none⟩

def bitrate : FieldPattern := ⟨"bitrate=", isWord, none⟩

end FieldPattern

namespace Progress

/-- The fields of a line, without percentage and time left. -/
def fields (line : String) : Except Failure Progress := do
  let text := line.toList
  let frame ← match FieldPattern.frame.find? text with
    | none => pure none
    | some digits => some <$> readInteger digits
  let fps ← match FieldPattern.fps.find? text with
    | none => pure none
    | some digits => some <$> readReal digits
  let word (pattern : FieldPattern) := (pattern.find? text).map String.ofList
  return {
    frame, fps, speed := word .speed, time := word .time, size := word .size,
    bitrate := word .bitrate, percent := none, eta := none }

/-- The time left at a speed, when there is some left and the speed is positive. -/
def timeLeft (remaining : Double) (speed : Option String) : Except Failure (Option String) := do
  let speed ← match speed with
    | some text => readReal text.toList.dropLast
    | none => pure (.zero false)
  if remaining.isPositive && speed.isPositive then
    return some (← Clock.ofDouble (remaining.div speed))
  else return none

/-- Percentage and time left against the total duration. -/
def against (total : Double) (progress : Progress) (time : String) : Except Failure Progress := do
  let elapsed ← clockSeconds time
  let percent := (elapsed.div total).mul (.ofInt 100)
  let eta ← timeLeft (total.sub elapsed) progress.speed
  return { progress with percent := some percent, eta }

/-- Reads a line. A duration that is zero or less is as good as none. -/
def ofLine (line : String) (duration : Option String) : Except Failure Progress := do
  let progress ← fields line
  match duration, progress.time with
  | some duration, some time =>
    if duration = "" then return progress
    let total ← clockSeconds duration
    match total.compare? (.zero false) with
    | some .lt | some .eq => return progress
    | _ => progress.against total time
  | _, _ => return progress

end Progress

end MediaCommand
