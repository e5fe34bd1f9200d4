/-!
# Indentation

A nesting level is written as a number of spaces, the level times the width of
one step.  A product that is not positive gives no spaces; two negative factors
give a positive product.
-/

namespace ExprPrinter

/-- The spaces at the start of a line. -/
def indentation (width level : Int) : String :=
  String.ofList (List.replicate (level * width).toNat ' ')

/-- A text with indentation before it. -/
def indentedLine (width level : Int) (text : String) : String :=
  indentation width level ++ text

end ExprPrinter
