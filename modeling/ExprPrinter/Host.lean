import ExprPrinter.Expr.Components
import ExprPrinter.Expr.Inspect

/-!
# Hosts

What is printed is printed on a host, and a host has limits.  It writes no
integer in decimal that has too many digits, it counts characters in numbers of
a fixed size, and it does not make too many calls inside each other.  Printing
needs no calls inside each other, but inspecting a value does, and so does
lifting one.  Besides, values of foreign types are inspected by code of their
own, which can fail in any way.

A host that comes to a limit gives up.  `Host.inspectionFailure?` finds out
whether it does so while a value is inspected, and why, by going through the
value in the same order.
-/

namespace ExprPrinter

/-- Why a host gave up. -/
inductive Breakdown where
  /-- An integer has more digits than the limit allows. -/
  | tooManyDigits (limit : Nat)
  /-- A number of characters does not fit into the numbers that characters are counted in. -/
  | countOverflow
  /-- A value is nested too deep to be inspected. -/
  | tooDeepToInspect
  /-- A value is nested too deep to be lifted. -/
  | tooDeepToLift
  /-- A value of a foreign type raised an error while it was inspected. -/
  | raised (error message : String)
  deriving DecidableEq, Repr

/-- The wording of a breakdown. -/
def Breakdown.message : Breakdown → String
  | tooManyDigits limit =>
    "Exceeds the limit (" ++ toString limit ++ " digits) for integer string conversion; " ++
      "use sys.set_int_max_str_digits() to increase the limit"
  | countOverflow => "cannot fit 'int' into an index-sized integer"
  | tooDeepToInspect => "maximum recursion depth exceeded while getting the repr of an object"
  | tooDeepToLift => "maximum recursion depth exceeded in comparison"
  | raised _ message => message

/-- The limits of a host. -/
structure Host where
  /-- The most digits of an integer that is written in decimal. -/
  digits : Nat := 4300
  /-- The most calls inside each other. -/
  calls : Nat := 1000
  /-- Characters are counted in numbers below this one, and not below its negative. -/
  counts : Nat := Nat.pow 2 63
  deriving DecidableEq, Repr

namespace Expr

/-- The calls inside each other that it takes to inspect a value, up to the values in it: three for
an expression, and one more for a field that is no expression; one for plain data. -/
def inspectionCalls : Expr → Nat
  | plain _ => 1
  | nil | quoted _ | pair _ _ => 3
  | _ => 4

/-- The integers that are written in decimal when a value is inspected, apart from those of the
values in it. -/
def inspectedIntegers : Expr → List Int
  | int n | uint n | plain (.int n) => [n]
  | ratio n d => [n, d]
  | plain (.fraction q) => [q.num, q.den]
  | _ => []

/-- The values that are inspected with a value, in their order.  A value of a foreign type is
inspected by code of its own. -/
def inspectedParts : Expr → List Expr
  | plain (.table _ _) => []
  | x => x.components

/-- How a value fails to be inspected by itself, if it does. -/
def inspectionError? : Expr → Option Breakdown
  | plain (.oddity o) | plain (.table o _) =>
    match o.inspection with
    | .shown _ => none
    | .raised error message => some (.raised error message)
  | _ => none

/-- Nothing is inspected without a call. -/
theorem inspectionCalls_pos (x : Expr) : 0 < x.inspectionCalls := by
  unfold inspectionCalls
  split <;> omega

end Expr

namespace Host

/-- Why a host does not write an integer in decimal, if it does not. -/
def decimalFailure? (h : Host) (n : Int) : Option Breakdown :=
  if n.natAbs < Nat.pow 10 h.digits then none else some (.tooManyDigits h.digits)

/-- Why a host does not count so many characters, if it does not. -/
def countFailure? (h : Host) (n : Int) : Option Breakdown :=
  if -(h.counts : Int) ≤ n ∧ n < h.counts then none else some .countOverflow

/-- Why a host does not inspect a value with so many calls left, if it does not. -/
def inspectionFailure? (h : Host) (calls : Nat) (x : Expr) : Option Breakdown :=
  if calls < x.inspectionCalls then some .tooDeepToInspect
  else
    x.inspectionError? <|> x.inspectedIntegers.findSome? h.decimalFailure? <|>
      x.inspectedParts.findSome? fun y => h.inspectionFailure? (calls - x.inspectionCalls) y
termination_by calls
decreasing_by
  have hpos := x.inspectionCalls_pos
  omega

end Host

end ExprPrinter
