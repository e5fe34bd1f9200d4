import ExprPrinter.Indent
import ExprPrinter.Sentinel
import ExprPrinter.Warning

/-!
# Plain text

The plain-text printer keeps a list of what is still to be written, and writes
it from left to right.  A subexpression is replaced by its script, which comes
to stand before the rest, so that no tree is too deep.  A value without a form
is replaced by its sentinel, with a warning; a strict printer stops there
instead.
-/

namespace ExprPrinter

/-- What a printer has written and warned of so far, and the value that it stopped at, if it has
stopped. -/
structure Transcript where
  text : String := ""
  log : Array Warning := #[]
  stop : Option Expr := none

namespace Transcript

/-- A transcript with a text added. -/
def write (t : Transcript) (s : String) : Transcript :=
  { t with text := t.text ++ s }

/-- A transcript with a warning added. -/
def warn (t : Transcript) (w : Warning) : Transcript :=
  { t with log := t.log.push w }

end Transcript

namespace PlainText

/-- Writes out what is still to be written, after what is already there. -/
def run (strict : Bool) (width : Int) : Agenda → Transcript → Transcript
  | [], t => t
  | .text s :: rest, t => run strict width rest (t.write s)
  | .slot (.indent level) :: rest, t => run strict width rest (t.write (indentation width level))
  | .slot (.sub x level) :: rest, t =>
    match _h : x.form? with
    | some f => run strict width (f.script.place level ++ rest) t
    | none =>
      if strict then { t with stop := some x }
      else run strict width (x.sentinel.place level ++ rest) (t.warn ⟨.plainText, x.sort⟩)
termination_by agenda => (Script.weigh agenda, agenda.length)
decreasing_by
  · apply Prod.Lex.right' <;> simp
  · apply Prod.Lex.right' <;> simp
  · apply Prod.Lex.left
    simpa using Expr.weigh_script_lt _h level
  · apply Prod.Lex.left
    simpa using x.weigh_sentinel_lt level

/-- What a printer writes for an expression at a nesting level. -/
def transcript (strict : Bool) (width : Int) (x : Expr) (level : Int) : Transcript :=
  run strict width [.slot (.indent level), .slot (.sub x level)] {}

/-- The makeshift spelling of a value, written out.  It is never strict. -/
def fallback (width : Int) (x : Expr) : Transcript :=
  run false width (x.fallback.place 0) {}

/-- The failure of a strict printer that meets the value, after the given warnings. -/
def failure (width : Int) (log : Array Warning) (x : Expr) : Failure :=
  let spelled := fallback width x
  ⟨x.sort, spelled.text, (log ++ spelled.log).toList⟩

/-- The text of an expression at a nesting level, with the warnings, or why there is none. -/
def render (strict : Bool) (width : Int) (x : Expr) (level : Int) :
    Except Failure (String × List Warning) :=
  let t := transcript strict width x level
  match t.stop with
  | none => .ok (t.text, t.log.toList)
  | some y => .error (failure width t.log y)

end PlainText

end ExprPrinter
