import ExprPrinter.Expr.Basic
import ExprPrinter.Number.Decimal
import ExprPrinter.Text.Quoted

/-!
# Inspecting values

The inspected form of a value shows its structure in full: every constructor
by name and every field with its label.  It is what a value without a layout
is shown as, if it is no node.
-/

namespace ExprPrinter

/-- Inspected numbers that are not finite are spelled in lower case. -/
def inspectedWords : NumberWords := ⟨"nan", "inf"⟩

/-- Items in parentheses, with a comma after a lone one. -/
def inspectedTuple : List String → String
  | [] => "()"
  | [item] => "(" ++ item ++ ",)"
  | items => "(" ++ ", ".intercalate items ++ ")"

/-- A truth value as inspected. -/
def inspectedBool (b : Bool) : String :=
  if b then "True" else "False"

namespace Head

/-- A head given as a constant shows the constant and its word, any other just the word. -/
def inspect : Head → String
  | constant k => "<NodeKind." ++ k.constant ++ ": " ++ Text.quoted k.name ++ ">"
  | spelled word => Text.quoted word

end Head

/-- The inspected form of a value of a foreign type.  There is none if inspecting it is an error. -/
def Oddity.inspect (o : Oddity) : String :=
  match o.inspection with
  | .shown text => text
  | .raised _ _ => ""

/-- The name of the type of a plain datum. -/
def Datum.typeName {α : Type} : Datum α → String
  | .absent => "NoneType"
  | .bool _ => "bool"
  | .int _ => "int"
  | .float _ => "float"
  | .fraction _ => "Fraction"
  | .text _ => "str"
  | .tuple _ => "tuple"
  | .list _ => "list"
  | .dict _ => "dict"
  | .table o _ => o.typeName
  | .oddity o => o.typeName

namespace Expr

mutual

/-- The inspected form of a value. -/
def inspect : Expr → String
  | nil => "Nil()"
  | bool b => "Boolean(value=" ++ inspectedBool b ++ ")"
  | int n => "SignedInteger(value=" ++ toString n ++ ")"
  | uint n => "UnsignedInteger(value=" ++ toString n ++ ")"
  | float x => "Float(value=" ++ x.text inspectedWords ++ ")"
  | ratio n d => "Rational(numerator=" ++ toString n ++ ", denominator=" ++ toString d ++ ")"
  | char s => "Character(value=" ++ Text.quoted s ++ ")"
  | str s => "String(value=" ++ Text.quoted s ++ ")"
  | sym name => "Symbol(name=" ++ Text.quoted name ++ ")"
  | quoted x => "QuotedReference(inner=" ++ x.inspect ++ ")"
  | pair a b => "Pair(first=" ++ a.inspect ++ ", second=" ++ b.inspect ++ ")"
  | tuple items => "Tuple(items=" ++ inspectedTuple (inspectAll items) ++ ")"
  | list items => "List(items=" ++ inspectedTuple (inspectAll items) ++ ")"
  | mapping entries => "Mapping(pairs=" ++ inspectedTuple (inspectAll entries) ++ ")"
  | node h children =>
    "Node(kind=" ++ h.inspect ++ ", children=" ++ inspectedTuple (inspectAll children) ++ ")"
  | plain d => inspectDatum d

/-- The inspected forms of several values. -/
def inspectAll : List Expr → List String
  | [] => []
  | x :: xs => x.inspect :: inspectAll xs

/-- The inspected form of a plain datum. -/
def inspectDatum : Datum Expr → String
  | .absent => "None"
  | .bool b => inspectedBool b
  | .int n => toString n
  | .float x => x.text inspectedWords
  | .fraction q => "Fraction(" ++ toString q.num ++ ", " ++ toString q.den ++ ")"
  | .text s => Text.quoted s
  | .tuple items => inspectedTuple (inspectAll items)
  | .list items => "[" ++ ", ".intercalate (inspectAll items) ++ "]"
  | .dict entries => "\x7b" ++ ", ".intercalate (inspectEntries entries) ++ "\x7d"
  | .table o _ => o.inspect
  | .oddity o => o.inspect

/-- The inspected forms of the entries of a mapping. -/
def inspectEntries : List (Expr × Expr) → List String
  | [] => []
  | (k, v) :: rest => (k.inspect ++ ": " ++ v.inspect) :: inspectEntries rest

end

end Expr

end ExprPrinter
