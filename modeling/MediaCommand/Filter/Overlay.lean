import MediaCommand.Catalog.Fixed
import MediaCommand.Filter.Node

/-!
# Overlay positions

A named position is a pair of expressions over the sizes of the two inputs. Where an expression
leaves room for a margin, the caller's value follows it.
-/

namespace MediaCommand

namespace Coordinate

/-- The expression with the margin filled in. A missing margin is spelled out. -/
def fill (coordinate : Coordinate) (margin : Value) : Action Tokens String := do
  if coordinate.takesMargin then
    return coordinate.expression ++ (← normalize margin).getD "None"
  else return coordinate.expression

end Coordinate

namespace Value

/-- The coordinates of a member of the overlay positions. -/
def position? : Value → Option (Coordinate × Coordinate)
  | .member m _ =>
    if m.catalog = .overlays then
      (positions.find? fun entry => decide (entry.1 = m.name)).map (·.2)
    else none
  | _ => none

/-- The horizontal expression of a named position. -/
def positionX (position margin : Value) : Action Tokens String :=
  match position.position? with
  | some (x, _) => x.fill margin
  | none => throw (.noAttribute position.kind "get_x")

/-- The vertical expression of a named position. -/
def positionY (position margin : Value) : Action Tokens String :=
  match position.position? with
  | some (_, y) => y.fill margin
  | none => throw (.noAttribute position.kind "get_y")

/-- Both expressions of a named position. -/
def positionXY (position x y : Value) : Action Tokens String := do
  let x ← position.positionX x
  let y ← position.positionY y
  return x ++ ":" ++ y

end Value

end MediaCommand
