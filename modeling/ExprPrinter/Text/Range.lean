/-!
# Ranges of code points

A property of characters is given by the ranges of code points that have it.
-/

namespace ExprPrinter.Text

/-- Code points from the first bound to the second, both included. -/
abbrev Range := Nat × Nat

/-- Whether a code point lies in the range. -/
def Range.contains (r : Range) (n : Nat) : Bool :=
  decide (r.1 ≤ n) && decide (n ≤ r.2)

/-- Whether a code point is one of every second code point of the range, its first included. -/
def Range.alternates (r : Range) (n : Nat) : Bool :=
  r.contains n && (n - r.1) % 2 == 0

end ExprPrinter.Text
