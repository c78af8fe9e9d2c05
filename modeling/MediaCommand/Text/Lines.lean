import MediaCommand.Text.CharacterSet

/-!
# Lines of a text

`lines` cuts a text at every line break, a carriage return with its line feed being one break.
A break at the end opens no further line. `splitAt` cuts at one character and keeps empty parts.
-/

namespace MediaCommand

/-- The characters that end a line. -/
def lineBreaks : CharacterSet := [(10, 13), (28, 30), (133, 133), (8232, 8233)]

def isLineBreak (c : Char) : Bool := lineBreaks.has c

/-- The lines of `current.reverse` followed by the text; `none` is a line not yet begun. -/
def linesFrom (current : Option (List Char)) : List Char → List (List Char)
  | [] => match current with
    | none => []
    | some line => [line.reverse]
  | '\r' :: '\n' :: rest => (current.getD []).reverse :: linesFrom none rest
  | c :: rest =>
    if isLineBreak c then (current.getD []).reverse :: linesFrom none rest
    else linesFrom (some (c :: current.getD [])) rest

/-- The lines of a text, without their breaks. -/
def lines (text : List Char) : List (List Char) := linesFrom none text

/-- The parts of a text between the occurrences of one character. -/
def splitAt (separator : Char) : List Char → List (List Char)
  | [] => [[]]
  | c :: rest =>
    if c = separator then [] :: splitAt separator rest
    else match splitAt separator rest with
      | [] => [[c]]
      | part :: parts => (c :: part) :: parts

/-- The text without the line feeds at its end. -/
def dropLineFeeds (text : String) : String :=
  String.ofList ((text.toList.reverse.dropWhile (· == '\n')).reverse)

end MediaCommand
