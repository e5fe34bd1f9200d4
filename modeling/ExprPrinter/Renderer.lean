import ExprPrinter.Config
import ExprPrinter.Document.Visible
import ExprPrinter.Markup

/-!
# Renderers

A renderer prints expressions in one of three modes: plain text, markup, or
markup written out as HTML.  It has all its settings, and what it puts out
depends on nothing else.  The configuration under which it is built fills in
whatever setting is not given explicitly.
-/

namespace ExprPrinter

/-- The kinds of output. -/
inductive Mode where
  | text | markup | html
  deriving DecidableEq, Repr

namespace Mode

/-- The name of a mode. -/
def name : Mode → String
  | text => "text"
  | markup => "markup"
  | html => "html"

/-- The mode of the given name. -/
def ofName? (s : String) : Option Mode :=
  [text, markup, html].find? fun m => m.name == s

end Mode

/-- Settings given explicitly. -/
structure Choices where
  width : Option Int := none
  strict : Option Bool := none
  escape : Option Bool := none
  deriving DecidableEq, Repr

/-- A mode with all its settings. -/
structure Renderer where
  mode : Mode
  width : Int
  strict : Bool
  escape : Bool
  deriving DecidableEq, Repr

/-- What a renderer puts out. -/
inductive Output where
  | text (s : String)
  | document (d : Markup)

/-- The renderer with the given settings, and those of a configuration for the rest. -/
def Config.renderer (c : Config) (mode : Mode) (choices : Choices) : Renderer where
  mode := mode
  width := choices.width.getD c.indentWidth
  strict := choices.strict.getD c.strict
  escape := choices.escape.getD c.escapeText

namespace Renderer

/-- What a renderer puts out for an expression at a nesting level, with its warnings, or why it
puts out nothing. -/
def render (r : Renderer) (x : Expr) (level : Int) : Except Failure (Output × List Warning) :=
  match r.mode with
  | .text => (PlainText.render r.strict r.width x level).map fun (s, log) => (.text s, log)
  | .markup => (Markup.render r.strict r.width x level).map fun (d, log) => (.document d, log)
  | .html =>
    (Markup.render r.strict r.width x level).map fun (d, log) => (.text (d.html r.escape), log)

/-- The makeshift spelling of a value, with the warnings that come up in it. -/
def fallback (r : Renderer) (x : Expr) : String × List Warning :=
  let t := PlainText.fallback r.width x
  (t.text, t.log.toList)

end Renderer

end ExprPrinter
