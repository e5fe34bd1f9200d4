import ExprPrinter.Form

/-!
# Slots

What is written for a form has slots for the indentation of its lines and for
its subexpressions.  A slot has a margin, which is given relative to the form:
the form's own, one step deeper, or the left edge.  So what is written for a
form depends on the form alone, and neither on the nesting level at which it
is used nor on the width of a step.
-/

namespace ExprPrinter

/-- Where a line or a subexpression starts, seen from the form that it belongs to. -/
inductive Margin where
  /-- Where the form itself starts. -/
  | here
  /-- One step to the right of the form. -/
  | deeper
  /-- The left edge. -/
  | edge
  deriving DecidableEq, Repr

/-- The nesting level of a margin, for a form at the given level. -/
def Margin.level (base : Int) : Margin → Int
  | here => base
  | deeper => base + 1
  | edge => 0

/-- A place in a layout: the indentation of a line, or a subexpression. -/
inductive Slot (μ : Type) where
  | indent (margin : μ)
  | sub (x : Expr) (margin : μ)

namespace Slot

variable {μ ν : Type}

/-- A slot with another margin. -/
def move (f : μ → ν) : Slot μ → Slot ν
  | indent m => indent (f m)
  | sub x m => sub x (f m)

/-- The weight of a slot is the size of the expression that it holds. -/
noncomputable def weight : Slot μ → Nat
  | indent _ => 0
  | sub x _ => sizeOf x

/-- Moving a slot does not change its weight. -/
theorem weight_move (f : μ → ν) (s : Slot μ) : (s.move f).weight = s.weight := by
  cases s <;> rfl

end Slot

end ExprPrinter
