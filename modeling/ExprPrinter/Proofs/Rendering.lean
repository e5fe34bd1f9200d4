import ExprPrinter.Proofs.Markup.Assembly
import ExprPrinter.Renderer

/-!
# What the printers give

The results of the two printers for an expression at a level, in terms of what
is written for it, the document that is assembled for it, and its gaps.  A
printer that is not strict always has a result.  A strict one has the same
result if the expression has no gap, and otherwise fails with its first gap.
The renderers of all modes take this over from the printers.
-/

namespace ExprPrinter

variable (width level : Int) (x : Expr)

/-- The gaps of an expression, in the order in which they are laid out. -/
def Expr.gaps : List Expr :=
  PlainText.gaps [.slot (.sub x level)]

namespace PlainText

open Transcript

/-- The transcript of an expression is its indentation, and the outcome for it. -/
theorem transcript_eq (strict : Bool) :
    transcript strict width x level =
      saying (indentation width level) ++ outcome strict width [.slot (.sub x level)] :=
  outcome_indent strict width level _

/-- The plain-text printer that is not strict always has a result. -/
theorem render_lenient :
    render false width x level =
      .ok (indentation width level ++ written width [.slot (.sub x level)],
        warned width [.slot (.sub x level)]) := by
  have hstop := outcome_lenient_stop width [.slot (.sub x level)]
  have htranscript := transcript_eq width level x false
  rw [append_of_running rfl] at htranscript
  simp only [render, htranscript, hstop]
  simp [saying, written, warned]

/-- Without a gap, the strict one has the same. -/
theorem render_strict_of_no_gap (h : x.gaps level = []) :
    render true width x level = render false width x level := by
  rw [render, render, transcript_eq, transcript_eq, outcome_strict_of_no_gap width h]

/-- With a gap, it fails with the first one, and no warning was given before. -/
theorem render_strict_of_gap {y : Expr} {more : List Expr} (h : x.gaps level = y :: more) :
    render true width x level = .error (failure width #[] y) := by
  obtain ⟨before, after, hstrict, _⟩ := outcome_strict_of_gap width h
  have htranscript := transcript_eq width level x true
  rw [hstrict, append_of_running rfl] at htranscript
  simp only [render, htranscript]
  simp [saying]

end PlainText

namespace Markup

open PlainText

/-- The finished document of an expression at a level. -/
def finished : Markup :=
  finish width (.slot (.sub x level))

/-- The machine finishes an expression, with its gaps settled. -/
theorem build_expr (strict : Bool) :
    build strict width (.part (.slot (.sub x level))) [] #[] =
      settle strict width #[] (fun log => ⟨.ok (finished width level x), log⟩)
        (x.gaps level) := by
  have hmade : build strict width (.made (finished width level x)) [] =
      fun log => ⟨.ok (finished width level x), log⟩ := by
    funext log
    rw [build]
  rw [build_part, ← hmade]
  rfl

/-- The markup printer that is not strict always has a result. -/
theorem render_lenient :
    render false width x level =
      .ok (indented width level (finished width level x),
        (x.gaps level).flatMap (gapWarnings width)) := by
  rw [render, build_expr]
  cases x.gaps level with
  | nil => rfl
  | cons y more => simp [settle]

/-- Without a gap, the strict one has the same. -/
theorem render_strict_of_no_gap (h : x.gaps level = []) :
    render true width x level = render false width x level := by
  rw [render, render, build_expr, build_expr, h, settle_nil, settle_nil]

/-- With a gap, it fails with the first one. -/
theorem render_strict_of_gap {y : Expr} {more : List Expr} (h : x.gaps level = y :: more) :
    render true width x level = .error (failure width #[] y) := by
  rw [render, build_expr, h]
  rfl

end Markup

namespace Renderer

variable (mode : Mode) (escape : Bool)

/-- The HTML of an expression is that of its document. -/
theorem render_html_lenient :
    render ⟨.html, width, false, escape⟩ x level =
      .ok (.text ((Markup.indented width level (Markup.finished width level x)).html escape),
        (x.gaps level).flatMap (Markup.gapWarnings width)) := by
  rw [render, Markup.render_lenient]
  rfl

/-- A renderer that is not strict always puts something out. -/
theorem exists_render_lenient :
    ∃ (output : Output) (log : List Warning),
      render ⟨mode, width, false, escape⟩ x level = .ok (output, log) := by
  cases mode with
  | text =>
    rw [render, PlainText.render_lenient]
    exact ⟨_, _, rfl⟩
  | markup =>
    rw [render, Markup.render_lenient]
    exact ⟨_, _, rfl⟩
  | html => exact ⟨_, _, render_html_lenient width level x escape⟩

/-- Without a gap there is nothing to warn of. -/
theorem render_lenient_of_no_gap (h : x.gaps level = []) :
    ∃ output : Output, render ⟨mode, width, false, escape⟩ x level = .ok (output, []) := by
  have hwarned : PlainText.warned width [.slot (.sub x level)] = [] :=
    (PlainText.warned_eq_nil_iff width _).mpr h
  have htext := PlainText.render_lenient width level x
  have hmarkup := Markup.render_lenient width level x
  rw [hwarned] at htext
  rw [h, List.flatMap_nil] at hmarkup
  cases mode with
  | text =>
    rw [render, htext]
    exact ⟨_, rfl⟩
  | markup =>
    rw [render, hmarkup]
    exact ⟨_, rfl⟩
  | html =>
    rw [render, hmarkup]
    exact ⟨_, rfl⟩

/-- In every mode, strictness makes no difference to an expression without a gap. -/
theorem render_strict_of_no_gap (h : x.gaps level = []) :
    render ⟨mode, width, true, escape⟩ x level = render ⟨mode, width, false, escape⟩ x level := by
  rw [render, render, PlainText.render_strict_of_no_gap width level x h,
    Markup.render_strict_of_no_gap width level x h]

/-- A renderer, strict or not, renders what has no gap, and warns of nothing. -/
theorem exists_render_of_no_gap (r : Renderer) (h : x.gaps level = []) :
    ∃ output : Output, r.render x level = .ok (output, []) := by
  obtain ⟨mode, width, strict, escape⟩ := r
  cases strict with
  | false => exact render_lenient_of_no_gap width level x mode escape h
  | true =>
    rw [render_strict_of_no_gap width level x mode escape h]
    exact render_lenient_of_no_gap width level x mode escape h

/-- In every mode, a strict renderer fails with the first gap. -/
theorem render_strict_of_gap {y : Expr} {more : List Expr} (h : x.gaps level = y :: more) :
    render ⟨mode, width, true, escape⟩ x level = .error (PlainText.failure width #[] y) := by
  rw [render, PlainText.render_strict_of_gap width level x h,
    Markup.render_strict_of_gap width level x h]
  cases mode <;> rfl

end Renderer

end ExprPrinter
