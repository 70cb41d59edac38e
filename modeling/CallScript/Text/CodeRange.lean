/-! # Ranges of code points

A character property is given as a list of inclusive ranges of code points.

* **`CodeRange`** is one such range, written as its two ends.
* **`CodeRange.holds`** tests a character against a list of ranges. -/

namespace CallScript.Text

/-- An inclusive **range of code points**: its first and its last member. -/
abbrev CodeRange := Nat × Nat

namespace CodeRange

/-- A character belongs to a range when its code point lies between the two ends. -/
def contains (range : CodeRange) (c : Char) : Bool :=
  range.1 ≤ c.toNat && c.toNat ≤ range.2

/-- A character has the property described by a list of ranges when some range contains it. -/
def holds (ranges : List CodeRange) (c : Char) : Bool :=
  ranges.any fun range => range.contains c

/-- Having the property means lying between the ends of one of the ranges. -/
theorem holds_iff {ranges : List CodeRange} {c : Char} :
    holds ranges c = true ↔ ∃ range ∈ ranges, range.1 ≤ c.toNat ∧ c.toNat ≤ range.2 := by
  simp [holds, contains]

end CodeRange

end CallScript.Text
