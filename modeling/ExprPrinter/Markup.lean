import ExprPrinter.Layout.Weight
import ExprPrinter.PlainText

/-!
# Markup

The markup printer turns the layouts of an expression and its subexpressions
into one finished document.  It keeps a stack of frames, one for each unit
that it has begun: what is finished of the unit, and what is still to come.
It either works on a part of a layout, or hands a finished document to the
innermost frame.  When a document is finished and no frame is left, that
document is the result.

A value without a form becomes an error unit, whose text is the sentinel as
the plain-text printer writes it.
-/

namespace ExprPrinter

/-- A finished document, without slots. -/
abbrev Markup := Document Empty

namespace Markup

/-- A unit that has been begun: its path, if it has one, its finished children, the last one
first, and the parts still to come. -/
structure Frame where
  path : Option String
  done : List Markup
  rest : List Placed

/-- A unit with a path, or a run without one. -/
def close (path : Option String) (children : List Markup) : Markup :=
  match path with
  | some p => .tagged p children
  | none => .run children

/-- What the printer is at: a part of a layout, or a finished document. -/
inductive Control where
  | part (d : Placed)
  | made (d : Markup)

/-- The result of a run: a document, or the value that a strict printer stopped at, and the
warnings up to there. -/
structure Outcome where
  document : Except Expr Markup
  log : Array Warning

/-- The unit that stands for a value without a form, given the spelling of the value. -/
def errorUnit (fallback : String) : Markup :=
  .tagged Category.error.path [.text (sentinelText fallback)]

/-- The weight of the parts to come in all frames. -/
noncomputable def framesWeight : List Frame → Nat
  | [] => 0
  | f :: fs => Document.weighAll Slot.weight f.rest + framesWeight fs

/-- The size of the parts to come in all frames, and one for each frame. -/
def framesSize : List Frame → Nat
  | [] => 0
  | f :: fs => 1 + Document.sizeAll f.rest + framesSize fs

/-- The weight of what the printer is at. -/
noncomputable def Control.weight : Control → Nat
  | part d => d.weigh Slot.weight
  | made _ => 0

/-- Twice the size of what the printer is at; a finished document counts one. -/
def Control.size : Control → Nat
  | part d => 2 * d.size
  | made _ => 1

/-- Goes on from a part or a finished document, with the frames around it. -/
def build (strict : Bool) (width : Int) : Control → List Frame → Array Warning → Outcome
  | .made d, [], log => ⟨.ok d, log⟩
  | .made d, ⟨path, done, []⟩ :: fs, log =>
    build strict width (.made (close path (d :: done).reverse)) fs log
  | .made d, ⟨path, done, p :: rest⟩ :: fs, log =>
    build strict width (.part p) (⟨path, d :: done, rest⟩ :: fs) log
  | .part (.text s), fs, log => build strict width (.made (.text s)) fs log
  | .part (.tagged path []), fs, log => build strict width (.made (.tagged path [])) fs log
  | .part (.tagged path (d :: ds)), fs, log =>
    build strict width (.part d) (⟨some path, [], ds⟩ :: fs) log
  | .part (.run []), fs, log => build strict width (.made (.run [])) fs log
  | .part (.run (d :: ds)), fs, log => build strict width (.part d) (⟨none, [], ds⟩ :: fs) log
  | .part (.slot (.indent level)), fs, log =>
    build strict width (.made (.text (indentation width level))) fs log
  | .part (.slot (.sub x level)), fs, log =>
    match _h : x.form? with
    | some f => build strict width (.part (f.layout.place level)) fs log
    | none =>
      if strict then ⟨.error x, log⟩
      else
        let spelled := PlainText.fallback width x
        build strict width (.made (errorUnit spelled.text)) fs
          ((log ++ spelled.log).push ⟨.markup, x.sort⟩)
termination_by c fs => (c.weight + framesWeight fs, c.size + 2 * framesSize fs)
decreasing_by
  all_goals try
    (apply Prod.Lex.right' <;>
      simp only [Control.weight, Control.size, framesWeight, framesSize, Document.weigh,
        Document.weighAll, Document.size, Document.sizeAll, Slot.weight] <;>
      omega)
  · apply Prod.Lex.left
    have hlayout := Expr.weigh_layout_lt _h level
    simp only [Control.weight, Document.weigh, Slot.weight]
    omega

/-- A document behind the indentation of its level, if that is not empty. -/
def indented (width level : Int) (d : Markup) : Markup :=
  let spaces := indentation width level
  if spaces.isEmpty then d else .run [.text spaces, d]

/-- The document of an expression at a nesting level, with the warnings, or why there is none. -/
def render (strict : Bool) (width : Int) (x : Expr) (level : Int) :
    Except Failure (Markup × List Warning) :=
  let outcome := build strict width (.part (.slot (.sub x level))) [] #[]
  match outcome.document with
  | .ok d => .ok (indented width level d, outcome.log.toList)
  | .error y => .error (PlainText.failure width outcome.log y)

end Markup

end ExprPrinter
