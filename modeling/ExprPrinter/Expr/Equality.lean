import ExprPrinter.Expr.Basic

/-!
# Equality of values

Two values are the same when they are built alike from the same parts.  How a
head was given does not matter, only its word.  Numbers compare by value, so
the two zeros are the same and not-a-number differs from itself.  Plain
numbers of different types, and mappings with their entries in a different
order, can be the same.
-/

namespace ExprPrinter

/-- What a number is worth. -/
inductive Worth where
  | nan
  | infinite (negative : Bool)
  | exact (q : Rat)

/-- Whether two numbers are worth the same.  Nothing is worth the same as not-a-number. -/
def Worth.same : Worth → Worth → Bool
  | infinite a, infinite b => a == b
  | exact p, exact q => p == q
  | _, _ => false

/-- The worth of a floating-point number. -/
def Binary64.worth (x : Binary64) : Worth :=
  match x.decode with
  | .nan => .nan
  | .infinite negative => .infinite negative
  | .finite negative significand exponent =>
    let size : Int := (significand * Nat.pow 2 exponent.toNat : Nat)
    .exact (mkRat (if negative then -size else size) (Nat.pow 2 (-exponent).toNat))

/-- The worth of a plain datum that is a number.  Truth values count as zero and one. -/
def Datum.worth? {α : Type} : Datum α → Option Worth
  | .bool b => some (.exact (if b then 1 else 0))
  | .int n => some (.exact n)
  | .float x => some x.worth
  | .fraction q => some (.exact q)
  | .oddity o => o.worth?.map .exact
  | _ => none

namespace Expr

mutual

/-- Whether two values are the same. -/
def same : Expr → Expr → Bool
  | nil, nil => true
  | bool a, bool b => a == b
  | int a, int b => a == b
  | uint a, uint b => a == b
  | float a, float b => a.worth.same b.worth
  | ratio a b, ratio c d => a == c && b == d
  | char a, char b => a == b
  | str a, str b => a == b
  | sym a, sym b => a == b
  | quoted x, quoted y => same x y
  | pair a b, pair c d => same a c && same b d
  | tuple xs, tuple ys => sameAll xs ys
  | list xs, list ys => sameAll xs ys
  | mapping xs, mapping ys => sameAll xs ys
  | node g xs, node h ys => g.name == h.name && sameAll xs ys
  | plain d, plain e => sameDatum d e
  | _, _ => false

/-- Whether two lists have the same values in the same order. -/
def sameAll : List Expr → List Expr → Bool
  | [], [] => true
  | x :: xs, y :: ys => same x y && sameAll xs ys
  | _, _ => false

/-- Whether two plain data are the same. -/
def sameDatum : Datum Expr → Datum Expr → Bool
  | .absent, .absent => true
  | .text s, .text t => s == t
  | .tuple xs, .tuple ys => sameAll xs ys
  | .list xs, .list ys => sameAll xs ys
  | .dict es, .dict fs | .dict es, .table _ fs | .table _ es, .dict fs | .table _ es, .table _ fs =>
    es.length == fs.length && allAmong es fs
  | d, e =>
    match d.worth?, e.worth?, d, e with
    | some a, some b, _, _ => a.same b
    | none, none, .oddity o, .oddity p => o.likeness == p.likeness
    | _, _, _, _ => false

/-- Whether each entry of the first mapping is also an entry of the second. -/
def allAmong : List (Expr × Expr) → List (Expr × Expr) → Bool
  | [], _ => true
  | (k, v) :: rest, fs => fs.any (fun f => same k f.1 && same v f.2) && allAmong rest fs

end

end Expr

end ExprPrinter
