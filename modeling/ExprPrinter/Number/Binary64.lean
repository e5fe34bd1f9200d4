/-!
# Binary floating-point numbers

A number in the 64-bit binary interchange format, kept as its bits, so that
the sign of zero and the payload of a not-a-number survive.  `decode` says
what the bits stand for: an integer times a power of two, an infinity, or no
number at all.
-/

namespace ExprPrinter

/-- A floating-point number by its 64 bits. -/
structure Binary64 where
  bits : UInt64
  deriving DecidableEq, Repr

namespace Binary64

/-- What the bits of a number stand for. -/
inductive Value where
  /-- Not a number. -/
  | nan
  /-- One of the two infinities. -/
  | infinite (negative : Bool)
  /-- The number `significand * 2 ^ exponent`, with a sign. -/
  | finite (negative : Bool) (significand : Nat) (exponent : Int)
  deriving DecidableEq, Repr

/-- The sign bit. -/
def isNegative (x : Binary64) : Bool :=
  Nat.pow 2 63 ≤ x.bits.toNat

/-- The eleven bits of the biased exponent. -/
def exponentField (x : Binary64) : Nat :=
  x.bits.toNat / Nat.pow 2 52 % Nat.pow 2 11

/-- The fifty-two stored bits of the significand. -/
def fraction (x : Binary64) : Nat :=
  x.bits.toNat % Nat.pow 2 52

/-- The value of a number.  The lowest exponent belongs to zero and the subnormal numbers, which
have no hidden leading bit; the highest to the infinities and to not-a-number. -/
def decode (x : Binary64) : Value :=
  if x.exponentField = 2047 then
    if x.fraction = 0 then .infinite x.isNegative else .nan
  else if x.exponentField = 0 then
    .finite x.isNegative x.fraction (-1074)
  else
    .finite x.isNegative (Nat.pow 2 52 + x.fraction) (x.exponentField - 1075)

end Binary64

end ExprPrinter
