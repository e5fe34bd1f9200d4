import ExprPrinter.Host
import ExprPrinter.Sentinel
import ExprPrinter.Warning

/-!
# Demands

Three things a printer cannot do without its host: begin a line with so many
spaces, write an integer in decimal, and inspect a value.  When it comes to a
value, it asks for all that it needs to lay out this value, before anything of
the layout is written.  The values inside make their own demands when it comes
to them.
-/

namespace ExprPrinter

/-- What a printer asks of its host. -/
inductive Demand where
  | spaces (count : Int)
  | decimal (n : Int)
  | inspection (x : Expr)

/-- Why a host does not do what it is asked for, if it does not. -/
def Host.refusal? (h : Host) : Demand → Option Breakdown
  | .spaces count => h.countFailure? count
  | .decimal n => h.decimalFailure? n
  | .inspection x => h.inspectionFailure? h.calls x

/-- The margin of the line that a piece begins, if it begins one. -/
def Piece.margin? {μ : Type} : Piece μ → Option μ
  | text _ => none
  | slot (.indent m) => some m
  | slot (.sub _ _) => none

/-- The margins of the lines that a printer begins for a form.  The markup printer has the beginning
of a line ready for toplevel forms, also if there are not two of them to put it between. -/
def Form.margins : Reporter → Form → List Margin
  | .markup, toplevel _ => [.here]
  | _, f => f.script.filterMap Piece.margin?

namespace Expr

/-- The integers that are written in decimal in the text of an atom. -/
def decimals : Expr → List Int
  | int n => [n]
  | ratio n d => [n, d]
  | _ => []

/-- What a printer asks for when it comes to a value at a level. -/
def demands (printer : Reporter) (width level : Int) (x : Expr) : List Demand :=
  match x.form? with
  | some f =>
    x.decimals.map .decimal ++ (f.margins printer).map fun m => .spaces (m.level level * width)
  | none => if x.isPlain then [.inspection x] else []

end Expr

end ExprPrinter
