import MediaCommand.Text.CharacterSet

/-!
# Blanks

The characters that separate words, and the functions that cut a text at them.
-/

namespace MediaCommand

/-- The blanks of all scripts, with the four separators of control code. -/
def blanks : CharacterSet := [
  (9, 13), (28, 32), (133, 133), (160, 160), (5760, 5760), (8192, 8202), (8232, 8233),
  (8239, 8239), (8287, 8287), (12288, 12288)]

def isBlank (c : Char) : Bool := blanks.has c

/-- The text without the leading and trailing characters of a class. -/
def trimBy (drop : Char → Bool) (text : List Char) : List Char :=
  (((text.dropWhile drop).reverse).dropWhile drop).reverse

/-- The text without leading and trailing blanks. -/
def trim (text : List Char) : List Char := trimBy isBlank text

/-- The first word and the text from the second word on. -/
def firstWord (text : List Char) : List Char × List Char :=
  let text := text.dropWhile isBlank
  (text.takeWhile (!isBlank ·), (text.dropWhile (!isBlank ·)).dropWhile isBlank)

end MediaCommand
