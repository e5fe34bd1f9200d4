/-!
# Accumulated text

The texts that come about when pieces are appended one after the other.
-/

namespace ExprPrinter.Text

/-- The text after each of the pieces has been appended to what was there before. -/
def accumulateFrom (start : String) : List String → List String
  | [] => []
  | s :: rest => (start ++ s) :: accumulateFrom (start ++ s) rest

/-- The text after each piece. -/
def accumulate (pieces : List String) : List String :=
  accumulateFrom "" pieces

end ExprPrinter.Text
