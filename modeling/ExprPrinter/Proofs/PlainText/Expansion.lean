import ExprPrinter.Proofs.PlainText.Outcome

/-!
# Expansions

The expansion of an expression is what the plain-text printer puts in its
place: the script of its form, or its sentinel if it has none.  Its slots hold
less than the expression, and what is written for the expression is what is
written for its expansion.
-/

namespace ExprPrinter

/-- What is written in the place of an expression: the script of its form, or its sentinel. -/
def Expr.expansion (x : Expr) : Script :=
  match x.form? with
  | some f => f.script
  | none => x.sentinel

namespace Expr

open Script

/-- The expansion of an expression with a form is the script of the form. -/
theorem expansion_of_form {x : Expr} {f : Form} (h : x.form? = some f) :
    x.expansion = f.script := by
  rw [expansion, h]

/-- The expansion of a value without a form is its sentinel. -/
theorem expansion_of_gap {x : Expr} (h : x.form? = none) : x.expansion = x.sentinel := by
  rw [expansion, h]

/-- The slots of an expansion hold less than the expression, whatever becomes of their margins. -/
theorem weigh_expansion_lt {ν : Type} (f : Margin → ν) (x : Expr) :
    weigh (x.expansion.map (Piece.move f)) < sizeOf x := by
  have hmove : ∀ s : Script, weigh (s.map (Piece.move f)) = weigh (s.place 0) := by
    intro s
    rw [weigh_place]
    induction s with
    | nil => rfl
    | cons p rest ih => rw [List.map_cons, weigh, weigh, ih, Piece.weight_move]
  rw [hmove]
  unfold expansion
  split
  · next form hform => exact weigh_script_lt hform 0
  · exact x.weigh_sentinel_lt 0

end Expr

/-- What is written for an expression is written for its expansion. -/
theorem PlainText.written_expansion (width : Int) (x : Expr) (level : Int) :
    written width [.slot (.sub x level)] = written width (x.expansion.place level) := by
  unfold Expr.expansion
  split
  · next f hf => exact written_form width hf level
  · next hnone => exact written_sentinel width hnone level

end ExprPrinter
