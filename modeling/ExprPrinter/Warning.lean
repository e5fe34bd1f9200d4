import ExprPrinter.Expr.Basic
import ExprPrinter.Text.Quoted

/-!
# Warnings and failures

A printer that meets a value without a form either warns and goes on, or, if
it is strict, gives up.  A warning says which of the two printers met what sort
of value.  A failure has the sort of the value, its makeshift spelling, and
the warnings that came up while it was spelled.
-/

namespace ExprPrinter

/-- The namespace of all loggers. -/
def loggerRoot : String := "exprfmt"

/-- The full name of a logger: every name is put into the namespace, unless it is there. -/
def loggerName (name : String) : String :=
  if name == loggerRoot || (loggerRoot ++ ".").isPrefixOf name then name
  else loggerRoot ++ "." ++ name

/-- Who gives a warning. -/
inductive Reporter where
  | plainText | markup
  deriving DecidableEq, Repr

namespace Reporter

/-- The logger of a reporter. -/
def logger : Reporter → String
  | plainText => loggerName "renderers.text"
  | markup => loggerName "renderers.markup"

/-- What a reporter has no rule for. -/
def subject : Reporter → String
  | plainText => "rendering"
  | markup => "markup"

end Reporter

/-- A warning that a sort of value has no rule. -/
structure Warning where
  reporter : Reporter
  sort : String
  deriving DecidableEq, Repr

/-- The wording of a warning. -/
def Warning.message (w : Warning) : String :=
  "No " ++ w.reporter.subject ++ " rule for " ++ Text.quoted w.sort ++ "; emitting error sentinel"

/-- Why a strict printer gave up. -/
structure Failure where
  sort : String
  fallback : String
  log : List Warning
  deriving DecidableEq, Repr

/-- The wording of a failure. -/
def Failure.message (f : Failure) : String :=
  "Unsupported node kind '" ++ f.sort ++ "': " ++ f.fallback

end ExprPrinter
