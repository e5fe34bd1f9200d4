import ExprPrinter.Fault

/-!
# Lifting plain data

`Expr.lift` turns plain data into an expression.  A value that already is an
expression is left as it is, with whatever plain data it holds.  Lifting
fails at the first value of a foreign type that is no mapping, reading from
left to right and a key before its value.

On a host, every value takes two calls inside those for the container that
holds it.  `Host.lift` gives up where there are not enough of them.
-/

namespace ExprPrinter.Expr

mutual

/-- The expression for a value, or the first part that no expression stands for. -/
def lift : Expr → Except Oddity Expr
  | plain d => liftDatum d
  | x => .ok x

/-- The expression for a plain datum. -/
def liftDatum : Datum Expr → Except Oddity Expr
  | .absent => .ok nil
  | .bool b => .ok (bool b)
  | .int n => .ok (int n)
  | .float x => .ok (float x)
  | .fraction q => .ok (ratio q.num q.den)
  | .text s => .ok (str s)
  | .tuple items => (liftAll items).map tuple
  | .list items => (liftAll items).map list
  | .dict entries => (liftEntries entries).map mapping
  | .table _ entries => (liftEntries entries).map mapping
  | .oddity o => .error o

/-- The expressions for several values. -/
def liftAll : List Expr → Except Oddity (List Expr)
  | [] => .ok []
  | x :: xs => do
    let y ← lift x
    let ys ← liftAll xs
    return y :: ys

/-- The pairs for the entries of a mapping. -/
def liftEntries : List (Expr × Expr) → Except Oddity (List Expr)
  | [] => .ok []
  | (k, v) :: rest => do
    let key ← lift k
    let value ← lift v
    let pairs ← liftEntries rest
    return pair key value :: pairs

end

/-- The expression for a value, with so many calls inside each other left. -/
def liftOn : Nat → Expr → Except Fault Expr
  | calls + 2, plain d =>
    match d with
    | .absent => .ok nil
    | .bool b => .ok (bool b)
    | .int n => .ok (int n)
    | .float x => .ok (float x)
    | .fraction q => .ok (ratio q.num q.den)
    | .text s => .ok (str s)
    | .tuple items => (items.mapM (liftOn calls)).map tuple
    | .list items => (items.mapM (liftOn calls)).map list
    | .dict entries | .table _ entries =>
      (entries.mapM fun (e : Expr × Expr) => do
        let key ← liftOn calls e.1
        let value ← liftOn calls e.2
        return pair key value).map mapping
    | .oddity o => .error (.unliftable o)
  | _ + 2, x => .ok x
  | _, _ => .error (.breakdown .tooDeepToLift)

end ExprPrinter.Expr

namespace ExprPrinter

/-- The expression for a value, as far as the host can lift it. -/
def Host.lift (h : Host) (x : Expr) : Except Fault Expr :=
  x.liftOn h.calls

end ExprPrinter
