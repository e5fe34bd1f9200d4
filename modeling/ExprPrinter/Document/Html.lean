import ExprPrinter.Document.Basic
import ExprPrinter.Document.TagPath
import ExprPrinter.Text.Entity

/-!
# Markup for a document

A unit becomes the element that its tag path names, around the markup of its
children.  A unit with nothing but empty texts leaves no element.  Text is
written as it is, or escaped on request.

The walk keeps a list of what is still to be written: documents, and the tags
that close the elements already opened.
-/

namespace ExprPrinter.Document

variable {α : Type}

/-- What is still to be written. -/
inductive Pending (α : Type) where
  | doc (d : Document α)
  | close (name : String)

/-- Several documents still to be written. -/
def pendingDocs (ds : List (Document α)) : List (Pending α) :=
  ds.map .doc

/-- The size of what is still to be written, one for each closing tag. -/
def pendingSize : List (Pending α) → Nat
  | [] => 0
  | .doc d :: rest => d.size + pendingSize rest
  | .close _ :: rest => 1 + pendingSize rest

/-- Documents put in front of what is pending count with their sizes. -/
theorem pendingSize_docs (ds : List (Document α)) (rest : List (Pending α)) :
    pendingSize (pendingDocs ds ++ rest) = sizeAll ds + pendingSize rest := by
  induction ds with
  | nil => simp [pendingDocs, sizeAll]
  | cons d ds ih => simp_all [pendingDocs, pendingSize, sizeAll, Nat.add_assoc]

/-- The markup of what is still to be written, after what is already there. -/
def appendHtml (escaped : Bool) : List (Pending α) → String → String
  | [], out => out
  | .close name :: rest, out => appendHtml escaped rest (out ++ TagPath.closing name)
  | .doc (text s) :: rest, out =>
    appendHtml escaped rest (out ++ if escaped then Text.escape s else s)
  | .doc (slot _) :: rest, out => appendHtml escaped rest out
  | .doc (run ds) :: rest, out => appendHtml escaped (pendingDocs ds ++ rest) out
  | .doc (tagged path ds) :: rest, out =>
    if blank ds then appendHtml escaped rest out
    else
      let tag := TagPath.parse path
      appendHtml escaped (pendingDocs ds ++ .close tag.name :: rest) (out ++ tag.opening)
termination_by pending => pendingSize pending
decreasing_by all_goals simp only [pendingSize, size, pendingSize_docs]; omega

/-- The markup of a document. -/
def html (escaped : Bool) (d : Document α) : String :=
  appendHtml escaped [.doc d] ""

end ExprPrinter.Document
