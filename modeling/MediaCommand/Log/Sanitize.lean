/-!
# Line breaks in log arguments

A carriage return and a line feed in an argument are written as two visible characters each, so
that an argument cannot begin a line of its own. `truncated` shortens a line of process output.
-/

namespace MediaCommand

/-- Return and feed together, written out. -/
def writeOutPairs : List Char → List Char
  | '\r' :: '\n' :: rest => '\\' :: 'r' :: '\\' :: 'n' :: writeOutPairs rest
  | c :: rest => c :: writeOutPairs rest
  | [] => []

/-- One character written out as a backslash and a letter. -/
def writeOut (target letter : Char) (text : List Char) : List Char :=
  text.flatMap fun c => if c = target then ['\\', letter] else [c]

/-- The text with its line breaks written out: the pairs first, then what is left of each. -/
def sanitize (text : List Char) : List Char :=
  writeOut '\n' 'n' (writeOut '\r' 'r' (writeOutPairs text))

/-- The first `limit` characters and three dots, when there are more. A negative limit drops that
many characters from the end. -/
def truncated (limit : Int) (text : List Char) : List Char :=
  if limit < text.length then
    let kept := if limit < 0 then text.length - limit.natAbs else limit.toNat
    text.take kept ++ ['.', '.', '.']
  else text

end MediaCommand
