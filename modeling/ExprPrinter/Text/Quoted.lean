import ExprPrinter.Text.Printable

/-!
# Quoted text

The unambiguous spelling of a text between quotes.  Single quotes are used
unless the text has a single quote and no double quote.  The backslash, the
quote in use and all unprintable characters are escaped, by a letter where
there is one and by the shortest hexadecimal form otherwise.
-/

namespace ExprPrinter.Text

/-- The hexadecimal digits of a number, in lower case, filled up with zeros to a least width. -/
def hexPadded (width n : Nat) : List Char :=
  let digits := Nat.toDigits 16 n
  List.replicate (width - digits.length) '0' ++ digits

/-- An unprintable character by its code point. -/
def escapedCodePoint (n : Nat) : List Char :=
  if n < 0x100 then '\\' :: 'x' :: hexPadded 2 n
  else if n < 0x10000 then '\\' :: 'u' :: hexPadded 4 n
  else '\\' :: 'U' :: hexPadded 8 n

/-- The quote that a text is put in. -/
def quoteFor (s : List Char) : Char :=
  if s.contains '\'' && !s.contains '"' then '"' else '\''

/-- One character between two quotes. -/
def quotedChar (quote c : Char) : List Char :=
  if c = quote || c = '\\' then ['\\', c]
  else if c = '\n' then ['\\', 'n']
  else if c = '\r' then ['\\', 'r']
  else if c = '\t' then ['\\', 't']
  else if isPrintable c then [c]
  else escapedCodePoint c.toNat

/-- A text in quotes. -/
def quoted (s : String) : String :=
  let quote := quoteFor s.toList
  String.ofList (quote :: s.toList.flatMap (quotedChar quote) ++ [quote])

end ExprPrinter.Text
