/-!
# Sets of characters

A set is a list of closed ranges of code points. Membership is one pass over the ranges.
-/

namespace MediaCommand

/-- Closed ranges of code points. -/
abbrev CharacterSet := List (Nat × Nat)

/-- Whether a character lies in one of the ranges. -/
def CharacterSet.has (set : CharacterSet) (c : Char) : Bool :=
  set.any fun range => decide (range.1 ≤ c.toNat) && decide (c.toNat ≤ range.2)

theorem CharacterSet.has_iff {set : CharacterSet} {c : Char} :
    set.has c = true ↔ ∃ range ∈ set, range.1 ≤ c.toNat ∧ c.toNat ≤ range.2 := by
  simp [CharacterSet.has]

end MediaCommand
