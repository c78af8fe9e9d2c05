/-!
# Escapes of the filter language

A backslash takes the meaning from the character after it. `escaped` puts one before every
character that would separate options or open a label, `unescaped` takes them away again.
-/

namespace MediaCommand

/-- The characters with a meaning inside a filter argument. -/
def isSpecial (c : Char) : Bool :=
  c == ':' || c == '=' || c == '[' || c == ']' || c == '\\'

/-- One character, behind a backslash when it has a meaning. -/
def escapedChar (c : Char) : List Char := if isSpecial c then ['\\', c] else [c]

/-- The text with a backslash before every special character. -/
def escaped (text : List Char) : List Char := text.flatMap escapedChar

/-- The text without the backslashes that protect the character after them. -/
def unescaped : List Char → List Char
  | '\\' :: c :: rest => c :: unescaped rest
  | c :: rest => c :: unescaped rest
  | [] => []

theorem unescaped_escaped (text : List Char) : unescaped (escaped text) = text := by
  induction text with
  | nil => rfl
  | cons c rest ih =>
    simp only [escaped, List.flatMap_cons] at ih ⊢
    by_cases special : isSpecial c = true
    · simp [escapedChar, special, unescaped, ih]
    · have plain : c ≠ '\\' := by rintro rfl; exact special rfl
      simp [escapedChar, special, unescaped, plain, ih]

/-- The text between two quotes. -/
def enclosed (quote : Char) (text : List Char) : List Char := quote :: (text ++ [quote])

/-- The text in double quotes; one that stands between them already stays as it is. -/
def doubleQuoted (text : String) : String :=
  let chars := text.toList
  if 2 ≤ chars.length ∧ chars.head? = some '"' ∧ chars.getLast? = some '"' then text
  else String.ofList (enclosed '"' chars)

end MediaCommand
