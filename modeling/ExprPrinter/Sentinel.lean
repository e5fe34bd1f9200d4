import ExprPrinter.Expr.Inspect
import ExprPrinter.Script.Weight

/-!
# Sentinels

A value without a form does not stop the printer.  It is spelled in a
makeshift way, a node by its head word and its children, anything else as
inspected, and a sentinel around the spelling makes the gap visible.  The
children of such a node are laid out as usual, and may hold sentinels of
their own.
-/

namespace ExprPrinter

/-- The words before a makeshift spelling. -/
def sentinelOpening : String := "ERROR: could not print "

/-- The words after a makeshift spelling. -/
def sentinelClosing : String := " :ERROR"

/-- A makeshift spelling made visible. -/
def sentinelText (fallback : String) : String :=
  sentinelOpening ++ fallback ++ sentinelClosing

namespace Expr

/-- What sort of value an expression is: the head word of a node, otherwise the name of its
type. -/
def sort : Expr → String
  | nil => "Nil"
  | bool _ => "Boolean"
  | int _ => "SignedInteger"
  | uint _ => "UnsignedInteger"
  | float _ => "Float"
  | ratio _ _ => "Rational"
  | char _ => "Character"
  | str _ => "String"
  | sym _ => "Symbol"
  | quoted _ => "QuotedReference"
  | pair _ _ => "Pair"
  | tuple _ => "Tuple"
  | list _ => "List"
  | mapping _ => "Mapping"
  | node h _ => h.name
  | plain d => d.typeName

/-- The makeshift spelling of a value. -/
def fallback : Expr → Script
  | node h xs =>
    .text ("(" ++ h.name) :: xs.flatMap (fun x => [.text " ", Script.phrase x]) ++ [.text ")"]
  | x => [.text x.inspect]

/-- The makeshift spelling of a value, made visible. -/
def sentinel (x : Expr) : Script :=
  .text sentinelOpening :: x.fallback ++ [.text sentinelClosing]

/-- The makeshift spelling of a value is lighter than the value. -/
theorem weigh_fallback_lt (x : Expr) : Script.weigh x.fallback < sizeOf x := by
  cases x with
  | node h xs =>
    have hxs := weights_lt xs
    have hflat := Script.weigh_flatMap
      (g := fun x => [.text " ", Script.phrase x]) (by simp) xs
    simp only [fallback, List.cons_append, Script.weigh_text, Script.weigh_append, hflat,
      Script.weigh_nil, node.sizeOf_spec]
    omega
  | _ => exact Nat.lt_of_le_of_lt (Nat.le_of_eq (by simp [fallback])) (sizeOf_pos _)

/-- So is its sentinel, at any level. -/
theorem weigh_sentinel_lt (x : Expr) (level : Int) :
    Script.weigh (x.sentinel.place level) < sizeOf x := by
  rw [Script.weigh_place]
  simpa [sentinel] using x.weigh_fallback_lt

end Expr

end ExprPrinter
