/-! # Ranges of code points

A class of characters is given by a list of closed ranges of code points. -/

namespace TableModels.Unicode

/-- A closed range of code points. -/
structure CodeRange where
  first : Nat
  last : Nat

namespace CodeRange

/-- A range contains the code points from its first to its last. -/
def contains (range : CodeRange) (code : Nat) : Bool :=
  range.first ≤ code && code ≤ range.last

/-- Some range of the list contains the code point. -/
def anyContains (ranges : List CodeRange) (code : Nat) : Bool :=
  ranges.any (·.contains code)

theorem anyContains_iff {ranges : List CodeRange} {code : Nat} :
    anyContains ranges code = true ↔ ∃ r ∈ ranges, r.first ≤ code ∧ code ≤ r.last := by
  simp [anyContains, contains]

end CodeRange

end TableModels.Unicode
