import ExprPrinter.Document.Html
import ExprPrinter.Indent

/-!
# Configuration

Three settings that hold wherever no explicit one is given: the width of an
indentation step, whether text in markup is escaped, and whether printers are
strict.
-/

namespace ExprPrinter

/-- The settings that hold by default. -/
structure Config where
  indentWidth : Int := 2
  escapeText : Bool := false
  strict : Bool := false
  deriving DecidableEq, Repr

/-- The value of a setting as it is given by name. -/
inductive Setting where
  | integer (n : Int)
  | flag (b : Bool)
  | other
  deriving DecidableEq, Repr

namespace Config

/-- The configuration with one setting changed.  A name that is no setting changes nothing. -/
def put (c : Config) : String × Setting → Config
  | ("indent_width", .integer n) => { c with indentWidth := n }
  | ("escape_text", .flag b) => { c with escapeText := b }
  | ("strict", .flag b) => { c with strict := b }
  | _ => c

/-- The configuration with the given settings, and defaults for the rest. -/
def ofSettings (settings : List (String × Setting)) : Config :=
  settings.foldl put {}

/-- The width of an indentation step, as configured unless one is given. -/
def stepWidth (c : Config) (width : Option Int) : Int :=
  width.getD c.indentWidth

/-- The indentation of a level, with the configured width unless one is given. -/
def indentation (c : Config) (width : Option Int) (level : Int) : String :=
  ExprPrinter.indentation (c.stepWidth width) level

/-- The markup of a document, escaped as configured unless it is said. -/
def html {α : Type} (c : Config) (escaped : Option Bool) (d : Document α) : String :=
  d.html (escaped.getD c.escapeText)

end Config

end ExprPrinter
