/-!
# Ranges of code points

A class of characters is given as a list of ranges of code points. The main definition is
`CodeRange.anyContains`, membership of a character in such a list.
-/

namespace Sketchbook

/-- The code points from `first` to `last`, both included. -/
structure CodeRange where
  first : Nat
  last : Nat
  deriving DecidableEq, Repr

namespace CodeRange

/-- Whether the character lies in the range. -/
def contains (r : CodeRange) (c : Char) : Bool :=
  r.first ≤ c.toNat && c.toNat ≤ r.last

/-- Whether the character lies in one of the ranges. -/
def anyContains (rs : List CodeRange) (c : Char) : Bool :=
  rs.any (·.contains c)

theorem contains_iff {r : CodeRange} {c : Char} :
    r.contains c = true ↔ r.first ≤ c.toNat ∧ c.toNat ≤ r.last := by
  simp [contains]

theorem anyContains_iff {rs : List CodeRange} {c : Char} :
    anyContains rs c = true ↔ ∃ r ∈ rs, r.first ≤ c.toNat ∧ c.toNat ≤ r.last := by
  simp [anyContains, contains_iff]

end CodeRange

end Sketchbook
