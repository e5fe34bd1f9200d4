import ExprPrinter.Number.Shortest

/-!
# Decimal text of floating-point numbers

A finite number is written with the digits of its shortest decimal: a number
of middling size positionally and with at least one digit after the point,
any other with an exponent of at least two digits.  `NumberWords` has the
words for what is not finite.
-/

namespace ExprPrinter

/-- The words for not-a-number and infinity. -/
structure NumberWords where
  nan : String
  infinity : String

namespace Shortest.Decimal

/-- The digits of a positive decimal without zeros at their end, and the exponent of the first of
them. -/
def normalized (d : Decimal) : List Char × Int :=
  let digits := Nat.toDigits 10 d.digits
  let kept := (digits.reverse.dropWhile (· == '0')).reverse
  (kept, d.exponent + digits.length - 1)

/-- Digits with the point inside or around them, where the first has weight `10 ^ e`. -/
def positional (digits : List Char) (e : Int) : List Char :=
  if e < 0 then
    '0' :: '.' :: List.replicate (-e - 1).toNat '0' ++ digits
  else
    let whole := e.toNat + 1
    let rest := digits.drop whole
    digits.take whole ++ List.replicate (whole - digits.length) '0' ++
      '.' :: (if rest.isEmpty then ['0'] else rest)

/-- The digits of an exponent, at least two of them, after its sign. -/
def exponentText (e : Int) : List Char :=
  let digits := Nat.toDigits 10 e.natAbs
  (if e < 0 then '-' else '+') :: List.replicate (2 - digits.length) '0' ++ digits

/-- Digits with the point after the first of them, if there are more, and an exponent. -/
def scientific (digits : List Char) (e : Int) : List Char :=
  let rest := digits.drop 1
  digits.take 1 ++ (if rest.isEmpty then [] else '.' :: rest) ++ 'e' :: exponentText e

/-- The text of a positive decimal: positional from `10 ^ -4` up to `10 ^ 16`, and with an
exponent outside. -/
def text (d : Decimal) : List Char :=
  let (digits, e) := d.normalized
  if -4 ≤ e ∧ e < 16 then positional digits e else scientific digits e

end Shortest.Decimal

/-- The text of a floating-point number. -/
def Binary64.text (words : NumberWords) (x : Binary64) : String :=
  match x.decode with
  | .nan => words.nan
  | .infinite negative => (if negative then "-" else "") ++ words.infinity
  | .finite negative significand exponent =>
    let size :=
      if significand = 0 then ['0', '.', '0'] else (Shortest.shortest significand exponent).text
    (if negative then "-" else "") ++ String.ofList size

end ExprPrinter
