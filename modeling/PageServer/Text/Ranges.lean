/-
# Ranges of characters

A class of characters as a list of ranges of code points.
-/
import PageServer.Text.Basic

namespace PageServer.Text

/-- A class of characters: inclusive ranges of code points in ascending order. -/
abbrev Ranges := List (Nat × Nat)

/-- Whether a character lies in one of the ranges. -/
def Ranges.holds (ranges : Ranges) (c : Char) : Bool :=
  ranges.any fun range => decide (range.1 ≤ c.toNat ∧ c.toNat ≤ range.2)

end PageServer.Text
