import ExprPrinter.Category
import ExprPrinter.Host
import ExprPrinter.Warning

/-!
# Faults

What can go wrong, each cause with its wording.
-/

namespace ExprPrinter

/-- A reason for which an operation has no result. -/
inductive Fault where
  /-- A strict printer met a value without a form. -/
  | unsupported (f : Failure)
  /-- The same for one expression of a batch, of which no warnings are kept. -/
  | unsupportedInBatch (f : Failure)
  /-- A word was given as a constant and names no kind. -/
  | unknownKind (word : String)
  /-- There is no output mode of that name. -/
  | unknownMode (name : String)
  /-- A batch was to be rendered by no workers. -/
  | noWorkers
  /-- No expression stands for a plain datum. -/
  | unliftable (o : Oddity)
  /-- Nothing is known under a key. -/
  | missing (key : String)
  /-- The host gave up. -/
  | breakdown (b : Breakdown)
  deriving DecidableEq, Repr

/-- The wording of a fault. -/
def Fault.message : Fault → String
  | unsupported f | unsupportedInBatch f => f.message
  | unknownKind word => Text.quoted word ++ " is not a valid NodeKind"
  | unknownMode name => "Unknown render mode: " ++ Text.quoted name
  | noWorkers => "max_workers must be greater than 0"
  | unliftable o => "cannot lift " ++ o.typeName ++ " into an expression"
  | missing key => Text.quoted key
  | breakdown b => b.message

/-- The kind that a word has to name. -/
def Kind.named (word : String) : Except Fault Kind :=
  match Kind.ofName? word with
  | some k => .ok k
  | none => .error (.unknownKind word)

/-- The tag path of the category with the given key. -/
def Category.pathOf (key : String) : Except Fault String :=
  match Category.ofKey? key with
  | some c => .ok c.path
  | none => .error (.missing key)

end ExprPrinter
