import ExprPrinter.Proofs.Form.Replacement
import ExprPrinter.Proofs.Rendering

/-!
# Respellings

A respelling replaces values by others of the same form, whose subexpressions
are the respelled ones.  Values without a form keep their sort and their
makeshift spelling, up to the respelling of what is in it.

No printer can tell a value from its respelling.  The plain-text printer works
through the respelled pieces of the same list, `outcome_replace`, the markup
printer assembles the same document, `finish_replace`, and a strict printer
stops at the respelled first gap, which gives the same failure.
-/

namespace ExprPrinter

variable {g : Expr → Expr}

/-- A replacement of values by others of the same form, with the subexpressions replaced in turn. -/
structure Respelling (g : Expr → Expr) : Prop extends KeepsLooks g where
  form? (x : Expr) : (g x).form? = x.form?.map (Form.replace g)
  fallback {x : Expr} (h : x.form? = none) : (g x).fallback = Script.replace g x.fallback
  sort {x : Expr} (h : x.form? = none) : (g x).sort = x.sort

namespace Respelling

variable {x : Expr} {f : Form}

/-- What has a form keeps it, with its parts respelled. -/
theorem form?_of_some (hg : Respelling g) (h : x.form? = some f) :
    (g x).form? = some (f.replace g) := by
  rw [hg.form?, h, Option.map_some]

/-- What has no form has none after. -/
theorem form?_of_none (hg : Respelling g) (h : x.form? = none) : (g x).form? = none := by
  rw [hg.form?, h, Option.map_none]

/-- A sentinel is respelled part by part. -/
theorem sentinel (hg : Respelling g) (h : x.form? = none) :
    (g x).sentinel = Script.replace g x.sentinel := by
  simp [Expr.sentinel, hg.fallback h]

end Respelling

namespace PlainText

variable (width : Int)

/-- A printer that is not strict writes and warns of the same. -/
theorem outcome_replace (hg : Respelling g) (agenda : Agenda) :
    outcome false width (Script.replace g agenda) = outcome false width agenda := by
  induction agenda using agenda_induction with
  | nil => rfl
  | text s rest ih => rw [Script.replace_text, outcome_text, outcome_text, ih]
  | indent level rest ih =>
    rw [Script.replace_slot, Slot.replace, outcome_indent, outcome_indent, ih]
  | form x level rest f hf ih =>
    rw [Script.replace_append, Script.replace_place, ← Form.script_replace hg.toKeepsLooks] at ih
    rw [Script.replace_slot, Slot.replace, outcome_form_cons false width hf,
      outcome_form_cons false width (hg.form?_of_some hf), ih]
  | gap x level rest hf _ ih =>
    rw [Script.replace_append, Script.replace_place, ← hg.sentinel hf] at ih
    rw [Script.replace_slot, Slot.replace, outcome_gap_lenient_cons width hf,
      outcome_gap_lenient_cons width (hg.form?_of_none hf), ih, hg.sort hf]

/-- The gaps of a respelled list are the respelled gaps. -/
theorem gaps_replace (hg : Respelling g) (agenda : Agenda) :
    gaps (Script.replace g agenda) = (gaps agenda).map g := by
  induction agenda using agenda_induction with
  | nil => simp
  | text s rest ih => rw [Script.replace_text, gaps_text, gaps_text, ih]
  | indent level rest ih => rw [Script.replace_slot, Slot.replace, gaps_indent, gaps_indent, ih]
  | form x level rest f hf ih =>
    rw [Script.replace_append, Script.replace_place, ← Form.script_replace hg.toKeepsLooks] at ih
    rw [Script.replace_slot, Slot.replace, gaps_form_cons hf,
      gaps_form_cons (hg.form?_of_some hf), ih]
  | gap x level rest hf ih _ =>
    rw [Script.replace_slot, Slot.replace, gaps_gap_cons hf,
      gaps_gap_cons (hg.form?_of_none hf), ih, List.map_cons]

/-- The makeshift spelling does not change. -/
theorem fallback_replace (hg : Respelling g) {x : Expr} (h : x.form? = none) :
    fallback width (g x) = fallback width x := by
  have hagenda : (g x).fallback.place 0 = Script.replace g (x.fallback.place 0) := by
    rw [hg.fallback h, Script.replace_place]
  rw [fallback, hagenda]
  exact outcome_replace width hg _

/-- So a failure does not change. -/
theorem failure_replace (hg : Respelling g) {x : Expr} (h : x.form? = none)
    (log : Array Warning) : failure width log (g x) = failure width log x := by
  rw [failure, failure, fallback_replace width hg h, hg.sort h]

end PlainText

namespace Markup

open PlainText

variable (width : Int)

/-- The markup printer assembles the same document. -/
theorem finish_replace (hg : Respelling g) (d : Placed) :
    finish width (Layout.replace g d) = finish width d := by
  refine finish.induct (fun d => finish width (Layout.replace g d) = finish width d)
    (fun ds => finishAll width (ds.map (Layout.replace g)) = finishAll width ds)
    ?text ?tagged ?run ?indent ?form ?gap ?nil ?cons d
  case text =>
    intro s
    rw [Layout.replace, Document.map, finish]
  case tagged =>
    intro path ds ih
    rw [Layout.replace, Document.map, Document.mapAll_eq_map, finish, finish]
    exact congrArg _ ih
  case run =>
    intro ds ih
    rw [Layout.replace, Document.map, Document.mapAll_eq_map, finish, finish]
    exact congrArg _ ih
  case indent =>
    intro level
    rw [Layout.replace, Document.map, Slot.replace]
  case form =>
    intro x level f hf ih
    rw [Layout.replace_place, ← Form.layout_replace hg.toKeepsLooks] at ih
    rw [Layout.replace, Document.map, Slot.replace, finish_form width hf,
      finish_form width (hg.form?_of_some hf), ih]
  case gap =>
    intro x level hf
    rw [Layout.replace, Document.map, Slot.replace, finish_gap width hf,
      finish_gap width (hg.form?_of_none hf), fallback_replace width hg hf]
  case nil => rfl
  case cons =>
    intro d ds hd hds
    rw [List.map_cons, finishAll, finishAll, hd, hds]

end Markup

section Rendering

variable (width level : Int) (x : Expr)

/-- The gaps of a respelled expression are the respelled gaps. -/
theorem Respelling.gaps_eq (hg : Respelling g) : (g x).gaps level = (x.gaps level).map g :=
  PlainText.gaps_replace hg [.slot (.sub x level)]

/-- Plain text does not change. -/
theorem PlainText.render_lenient_replace (hg : Respelling g) :
    render false width (g x) level = render false width x level := by
  have houtcome : outcome false width [.slot (.sub (g x) level)] =
      outcome false width [.slot (.sub x level)] := outcome_replace width hg [.slot (.sub x level)]
  rw [render_lenient, render_lenient, written, warned, houtcome, written, warned]

/-- Markup does not change. -/
theorem Markup.render_lenient_replace (hg : Respelling g) :
    render false width (g x) level = render false width x level := by
  have hfinished : finished width level (g x) = finished width level x := by
    have hfinish := finish_replace width hg (.slot (.sub x level))
    rwa [Layout.replace, Document.map, Slot.replace] at hfinish
  have hwarnings : ((g x).gaps level).flatMap (gapWarnings width) =
      (x.gaps level).flatMap (gapWarnings width) := by
    rw [hg.gaps_eq, List.flatMap_map]
    refine congrArg List.flatten (List.map_congr_left fun y hy => ?_)
    have hgap : y.form? = none := PlainText.form?_of_mem_gaps hy
    rw [gapWarnings, gapWarnings, PlainText.fallback_replace width hg hgap, hg.sort hgap]
  rw [render_lenient, render_lenient, hfinished, hwarnings]

/-- **Respelling.**  No renderer tells a value from its respelling, whether it is strict or not. -/
theorem Renderer.render_replace (hg : Respelling g) (r : Renderer) :
    r.render (g x) level = r.render x level := by
  obtain ⟨mode, width, strict, escape⟩ := r
  have hlenient : render ⟨mode, width, false, escape⟩ (g x) level =
      render ⟨mode, width, false, escape⟩ x level := by
    rw [render, render, PlainText.render_lenient_replace width level x hg,
      Markup.render_lenient_replace width level x hg]
  cases strict with
  | false => exact hlenient
  | true =>
    have hgaps := hg.gaps_eq level x
    cases hx : x.gaps level with
    | nil =>
      rw [hx, List.map_nil] at hgaps
      rw [render_strict_of_no_gap width level x mode escape hx,
        render_strict_of_no_gap width level _ mode escape hgaps, hlenient]
    | cons y more =>
      rw [hx, List.map_cons] at hgaps
      have hy : y.form? = none := PlainText.form?_of_mem_gaps (hx ▸ List.mem_cons_self)
      rw [render_strict_of_gap width level x mode escape hx,
        render_strict_of_gap width level _ mode escape hgaps,
        PlainText.failure_replace width hg hy]

end Rendering

end ExprPrinter
