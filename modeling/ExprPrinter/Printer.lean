import ExprPrinter.Demand
import ExprPrinter.Fault
import ExprPrinter.Renderer

/-!
# Printers at work

A printer is built once and used anywhere.  Where it is used, there is a host
with its limits, and a configuration is active, not always the one under which
the printer was built.  What begins lines and writes out markup falls back on
the active configuration for whatever it is not told, so a printer tells it its
own settings each time.

The markup printer has a plain-text printer of its own, which spells values
without a form, and the printer of HTML has a markup printer.  Each is built
with the settings of the one that it belongs to.

What a printer needs of its host it asks for as soon as it comes to a value.  If
the host gives up, then so does the printer, strict or not.
-/

namespace ExprPrinter

/-- Where a printer is used: on a host, under a configuration. -/
structure Site where
  host : Host := {}
  active : Config := {}

namespace Site

/-- The first reason for which the host does not do all that is asked for, if there is one. -/
def refusal? (site : Site) (demands : List Demand) : Option Breakdown :=
  demands.findSome? site.host.refusal?

/-- The indentation of a level, with the configured width unless one is given. -/
def indentation (site : Site) (width : Option Int) (level : Int) : Except Fault String :=
  match site.refusal? [.spaces (level * site.active.stepWidth width)] with
  | some b => .error (.breakdown b)
  | none => .ok (site.active.indentation width level)

/-- A text behind the indentation of a level. -/
def indentedLine (site : Site) (width : Option Int) (level : Int) (text : String) :
    Except Fault String := do
  return (← site.indentation width level) ++ text

end Site

/-! ## The loops -/

/-- Writes out what is still to be written, after what is already there. -/
def PlainText.runAt (site : Site) (strict : Bool) (width : Option Int) :
    Agenda → Transcript → Except Fault Transcript
  | [], t => .ok t
  | .text s :: rest, t => runAt site strict width rest (t.write s)
  | .slot (.indent level) :: rest, t =>
    runAt site strict width rest (t.write (site.active.indentation width level))
  | .slot (.sub x level) :: rest, t =>
    match site.refusal? (x.demands .plainText (site.active.stepWidth width) level) with
    | some b => .error (.breakdown b)
    | none =>
      match _h : x.form? with
      | some f => runAt site strict width (f.script.place level ++ rest) t
      | none =>
        if strict then
          match runAt site false width (x.fallback.place 0) {} with
          | .ok spelled =>
            .error (.unsupported ⟨x.sort, spelled.text, (t.log ++ spelled.log).toList⟩)
          | .error e => .error e
        else
          runAt site strict width (x.sentinel.place level ++ rest) (t.warn ⟨.plainText, x.sort⟩)
termination_by agenda => (Script.weigh agenda, agenda.length)
decreasing_by
  · apply Prod.Lex.right' <;> simp
  · apply Prod.Lex.right' <;> simp
  · apply Prod.Lex.left
    simpa using Expr.weigh_script_lt _h level
  · apply Prod.Lex.left
    have hfallback := x.weigh_fallback_lt
    simp only [Script.weigh_place, Script.weigh_sub]
    omega
  · apply Prod.Lex.left
    simpa using x.weigh_sentinel_lt level

/-- A printer of plain text, with its settings. -/
structure TextPrinter where
  width : Int
  strict : Bool
  deriving DecidableEq, Repr

/-- The makeshift spelling of a value, written out.  It is never strict. -/
def TextPrinter.spellAt (p : TextPrinter) (site : Site) (x : Expr) : Except Fault Transcript :=
  PlainText.runAt site false (some p.width) (x.fallback.place 0) {}

/-- Goes on from a part or a finished document, with the frames around it.  The plain-text printer
spells values without a form. -/
def Markup.buildAt (site : Site) (strict : Bool) (width : Option Int) (text : TextPrinter) :
    Control → List Frame → Array Warning → Except Fault (Markup × Array Warning)
  | .made d, [], log => .ok (d, log)
  | .made d, ⟨path, done, []⟩ :: fs, log =>
    buildAt site strict width text (.made (close path (d :: done).reverse)) fs log
  | .made d, ⟨path, done, p :: rest⟩ :: fs, log =>
    buildAt site strict width text (.part p) (⟨path, d :: done, rest⟩ :: fs) log
  | .part (.text s), fs, log => buildAt site strict width text (.made (.text s)) fs log
  | .part (.tagged path []), fs, log =>
    buildAt site strict width text (.made (.tagged path [])) fs log
  | .part (.tagged path (d :: ds)), fs, log =>
    buildAt site strict width text (.part d) (⟨some path, [], ds⟩ :: fs) log
  | .part (.run []), fs, log => buildAt site strict width text (.made (.run [])) fs log
  | .part (.run (d :: ds)), fs, log =>
    buildAt site strict width text (.part d) (⟨none, [], ds⟩ :: fs) log
  | .part (.slot (.indent level)), fs, log =>
    buildAt site strict width text (.made (.text (site.active.indentation width level))) fs log
  | .part (.slot (.sub x level)), fs, log =>
    match site.refusal? (x.demands .markup (site.active.stepWidth width) level) with
    | some b => .error (.breakdown b)
    | none =>
      match _h : x.form? with
      | some f => buildAt site strict width text (.part (f.layout.place level)) fs log
      | none =>
        match text.spellAt site x with
        | .error e => .error e
        | .ok spelled =>
          if strict then
            .error (.unsupported ⟨x.sort, spelled.text, (log ++ spelled.log).toList⟩)
          else
            buildAt site strict width text (.made (errorUnit spelled.text)) fs
              ((log ++ spelled.log).push ⟨.markup, x.sort⟩)
termination_by c fs => (c.weight + framesWeight fs, c.size + 2 * framesSize fs)
decreasing_by
  all_goals try
    (apply Prod.Lex.right' <;>
      simp only [Control.weight, Control.size, framesWeight, framesSize, Document.weigh,
        Document.weighAll, Document.size, Document.sizeAll, Slot.weight] <;>
      omega)
  · apply Prod.Lex.left
    have hlayout := Expr.weigh_layout_lt _h level
    simp only [Control.weight, Document.weigh, Slot.weight]
    omega

/-! ## Plain text -/

/-- The plain-text printer built under a configuration. -/
def Config.textPrinter (c : Config) (width : Option Int) (strict : Option Bool) : TextPrinter where
  width := width.getD c.indentWidth
  strict := strict.getD c.strict

namespace TextPrinter

/-- The text of an expression at a nesting level, with the warnings.  The indentation of the first
line is asked for before anything else. -/
def renderAt (p : TextPrinter) (site : Site) (x : Expr) (level : Int) :
    Except Fault (String × List Warning) := do
  let spaces ← site.indentation (some p.width) level
  let t ← PlainText.runAt site p.strict (some p.width) [.text spaces, .slot (.sub x level)] {}
  return (t.text, t.log.toList)

/-- The makeshift spelling of a value, with the warnings that come up in it. -/
def fallbackAt (p : TextPrinter) (site : Site) (x : Expr) : Except Fault (String × List Warning) := do
  let t ← p.spellAt site x
  return (t.text, t.log.toList)

end TextPrinter

/-! ## Markup -/

/-- A printer of markup, with its settings, and the plain-text printer that it has for values
without a form, which has the same width. -/
structure MarkupPrinter where
  width : Int
  strict : Bool
  text : TextPrinter
  width_text : text.width = width

/-- The markup printer built under a configuration. -/
def Config.markupPrinter (c : Config) (width : Option Int) (strict : Option Bool) :
    MarkupPrinter where
  width := width.getD c.indentWidth
  strict := strict.getD c.strict
  text := c.textPrinter (some (width.getD c.indentWidth)) (some (strict.getD c.strict))
  width_text := rfl

/-- The document of an expression at a nesting level, with the warnings.  The indentation of the
first line is asked for when the document is finished. -/
def MarkupPrinter.renderAt (p : MarkupPrinter) (site : Site) (x : Expr) (level : Int) :
    Except Fault (Markup × List Warning) := do
  let (d, log) ← Markup.buildAt site p.strict (some p.width) p.text (.part (.slot (.sub x level))) [] #[]
  let spaces ← site.indentation (some p.width) level
  return (if spaces.isEmpty then d else .run [.text spaces, d], log.toList)

/-! ## HTML -/

/-- A printer of HTML: a markup printer, and whether the text in its documents is escaped. -/
structure HtmlPrinter where
  markup : MarkupPrinter
  escape : Bool

/-- The printer of HTML built under a configuration. -/
def Config.htmlPrinter (c : Config) (width : Option Int) (strict escape : Option Bool) :
    HtmlPrinter where
  markup := c.markupPrinter width strict
  escape := escape.getD c.escapeText

/-- The HTML of an expression at a nesting level, with the warnings. -/
def HtmlPrinter.renderAt (p : HtmlPrinter) (site : Site) (x : Expr) (level : Int) :
    Except Fault (String × List Warning) := do
  let (d, log) ← p.markup.renderAt site x level
  return (site.active.html (some p.escape) d, log)

/-! ## All modes -/

/-- A printer of one of the modes. -/
inductive Printer where
  | text (p : TextPrinter)
  | markup (p : MarkupPrinter)
  | html (p : HtmlPrinter)

/-- What a printer puts out for an expression at a nesting level, with its warnings, or why it puts
out nothing, where it is used. -/
def Printer.renderAt (site : Site) (x : Expr) (level : Int) :
    Printer → Except Fault (Output × List Warning)
  | text p => (p.renderAt site x level).map fun (s, log) => (.text s, log)
  | markup p => (p.renderAt site x level).map fun (d, log) => (.document d, log)
  | html p => (p.renderAt site x level).map fun (s, log) => (.text s, log)

/-- The fault of one expression as the fault of its batch. -/
def Fault.inBatch : Fault → Fault
  | unsupported f => unsupportedInBatch f
  | e => e

namespace Config

/-- The printer built under a configuration. -/
def printer (c : Config) (mode : Mode) (choices : Choices) : Printer :=
  match mode with
  | .text => .text (c.textPrinter choices.width choices.strict)
  | .markup => .markup (c.markupPrinter choices.width choices.strict)
  | .html => .html (c.htmlPrinter choices.width choices.strict choices.escape)

/-- Renders an expression with a printer built on the spot, all settings being as configured. -/
def render (c : Config) (host : Host) (mode : Mode) (x : Expr) (level : Int) :
    Except Fault (Output × List Warning) :=
  (c.printer mode {}).renderAt ⟨host, c⟩ x level

/-- What is kept of one expression of a batch: its output without the warnings, or its fault. -/
def batched (result : Except Fault (Output × List Warning)) : Except Fault Output :=
  (result.map Prod.fst).mapError Fault.inBatch

/-- Renders a batch of expressions at level zero and in order, with a printer built under the
configuration.  The workers that use it are threads in which nothing has been configured.  The mode
is checked first, then the number of workers, if one is given.  The first expression that fails
decides the fault. -/
def renderMany (c : Config) (host : Host) (modeName : String) (workers : Option Int)
    (xs : List Expr) : Except Fault (List Output) :=
  match Mode.ofName? modeName with
  | none => .error (.unknownMode modeName)
  | some mode =>
    if workers.any (· ≤ 0) then .error .noWorkers
    else
      let p := c.printer mode {}
      xs.mapM fun x => batched (p.renderAt ⟨host, {}⟩ x 0)

end Config

end ExprPrinter
