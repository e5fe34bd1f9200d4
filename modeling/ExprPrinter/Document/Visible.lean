import ExprPrinter.Document.Basic

/-!
# The visible text of a document

What remains of a document when its labels are dropped.  The walk keeps a list
of the documents still to be read, so that deep documents need no deep stack.
-/

namespace ExprPrinter.Document

variable {α : Type}

/-- The visible text of a list of documents, after what is already there. -/
def appendVisible : List (Document α) → String → String
  | [], out => out
  | text s :: rest, out => appendVisible rest (out ++ s)
  | tagged _ ds :: rest, out => appendVisible (ds ++ rest) out
  | run ds :: rest, out => appendVisible (ds ++ rest) out
  | slot _ :: rest, out => appendVisible rest out
termination_by ds => sizeAll ds
decreasing_by all_goals simp only [sizeAll, size, sizeAll_append]; omega

/-- The visible text of a document. -/
def visible (d : Document α) : String :=
  appendVisible [d] ""

end ExprPrinter.Document
