import ExprPrinter.Number.Binary64

/-!
# The shortest decimal of a binary number

Among the decimals that round to a given binary number, the shortest is the
one with the fewest digits, and of several such the nearest to the number.
Everything is decided in exact integer arithmetic.  A positive binary number
`m * 2 ^ e` owns an interval of reals that round to it; its ends belong to it
when `m` is even.  For one digit, two digits and so on, the decimal grid with
that many digits has one point on each side of the number, and the first grid
with a point inside the interval gives the answer.
-/

namespace ExprPrinter.Shortest

/-- The decimal `digits * 10 ^ exponent`. -/
structure Decimal where
  digits : Nat
  exponent : Int
  deriving DecidableEq, Repr

/-- A positive number with the interval of reals that round to it, in units of `1 / unit`. -/
structure Target where
  low : Nat
  value : Nat
  high : Nat
  unit : Nat
  closed : Bool
  deriving Repr

/-- The interval around `m * 2 ^ e`.  It reaches half way to both neighbours; below a power of
two the neighbour is half as far, unless the exponent is already the lowest. -/
def target (m : Nat) (e : Int) : Target :=
  let scale := Nat.pow 2 (e - 2).toNat
  { low := (4 * m - if m = Nat.pow 2 52 ∧ -1074 < e then 1 else 2) * scale
    value := 4 * m * scale
    high := (4 * m + 2) * scale
    unit := Nat.pow 2 (2 - e).toNat
    closed := m % 2 == 0 }

/-- Whether the decimal `d * 10 ^ k` rounds to the target. -/
def Target.owns (t : Target) (d : Nat) (k : Int) : Bool :=
  let point := d * Nat.pow 10 k.toNat * t.unit
  let scale := Nat.pow 10 (-k).toNat
  if t.closed then t.low * scale ≤ point && point ≤ t.high * scale
  else t.low * scale < point && point < t.high * scale

/-- The decimal exponent of the leading digit: the value is at least `10 ^ magnitude`, and less
than ten times that. -/
def Target.magnitude (t : Target) : Int :=
  if t.unit ≤ t.value then
    ((Nat.toDigits 10 (t.value / t.unit)).length : Int) - 1
  else
    -((Nat.toDigits 10 ((t.unit - 1) / t.value)).length : Int)

/-- The nearer of the two grid points around the target on the grid `10 ^ k`, among those that
round to it.  A tie goes to the even one. -/
def Target.onGrid? (t : Target) (k : Int) : Option Nat :=
  let num := t.value * Nat.pow 10 (-k).toNat
  let den := t.unit * Nat.pow 10 k.toNat
  let below := num / den
  let twice := 2 * (num % den)
  let above := below + 1
  match t.owns below k, t.owns above k with
  | true, true =>
    if twice < den then some below
    else if den < twice then some above
    else if below % 2 = 0 then some below else some above
  | true, false => some below
  | false, true => some above
  | false, false => none

/-- The shortest decimal of the target.  Seventeen digits tell any two binary numbers apart, so
the search ends by then. -/
def Target.shortest (t : Target) : Decimal :=
  let grid (count : Nat) : Int := t.magnitude - count
  let hit := (List.range 17).findSome? fun count =>
    (t.onGrid? (grid count)).map fun d => (⟨d, grid count⟩ : Decimal)
  hit.getD ⟨0, 0⟩

/-- The shortest decimal that rounds to the positive number `m * 2 ^ e`. -/
def shortest (m : Nat) (e : Int) : Decimal :=
  (target m e).shortest

end ExprPrinter.Shortest
