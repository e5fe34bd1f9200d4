import ExprPrinter.Proofs.Document.Paths
import ExprPrinter.Proofs.Form.Support
import ExprPrinter.Proofs.Script.Parts

/-!
# Warnings, sentinels and error units

What a printer has no rule for shows in three ways: as a sentinel in the text,
as a warning in the log, and as an error unit in the document.  All three come
from the same values, the outermost ones without a form, in the order in which
they are laid out.  `Outermost` says which these are, without a word about
printers, and `outermost_iff_eq_gaps` that they are the gaps the printers meet.

For each of them the plain-text printer warns first of the value itself and
then of what is inside it, and the markup printer the other way round.  The
markup printer makes one error unit of it, and it makes no others, because no
layout has one: `unitsAt_finish`.
-/

namespace ExprPrinter

/-! ## Outermost values without a form -/

mutual

/-- The outermost values without a form in an expression, in the order in which they are laid out:
the expression itself, or those in the parts of its layout. -/
inductive Expr.Outermost : Expr → List Expr → Prop
  | itself {x : Expr} (h : x.isSupported = false) : Outermost x [x]
  | inside {x : Expr} {f : Form} {us : List Expr} (hf : x.form? = some f)
      (h : OutermostAll f.script.parts us) : Outermost x us

/-- The outermost values without a form in several expressions, one expression after the other. -/
inductive Expr.OutermostAll : List Expr → List Expr → Prop
  | nil : OutermostAll [] []
  | cons {y : Expr} {ys us vs : List Expr} (h : Outermost y us) (hs : OutermostAll ys vs) :
      OutermostAll (y :: ys) (us ++ vs)

end

namespace Expr

open PlainText

/-- A value without a form is its own gap, and the only one. -/
theorem gaps_of_form? {x : Expr} (h : x.form? = none) (level : Int) : x.gaps level = [x] := by
  rw [gaps, gaps_gap_cons h, gaps_nil]

/-- The gaps in a script are those of its parts, if the gaps of these do not depend on the level. -/
theorem gaps_place (s : Script) (level : Int)
    (h : ∀ y ∈ s.parts, ∀ l, y.gaps l = y.gaps 0) :
    PlainText.gaps (s.place level) = s.parts.flatMap fun y => y.gaps 0 := by
  induction s with
  | nil => exact gaps_nil
  | cons p s ih =>
    have hplace : Script.place level (p :: s) =
        p.move (Margin.level level) :: Script.place level s := rfl
    rw [hplace]
    cases p with
    | text t => exact (gaps_text t _).trans (ih h)
    | slot t =>
      cases t with
      | indent m => exact (gaps_indent _ _).trans (ih h)
      | sub x m =>
        have hparts : Script.parts (.slot (.sub x m) :: s) = x :: Script.parts s := rfl
        rw [hparts] at h
        have hx := h x List.mem_cons_self (m.level level)
        have hs := ih fun y hy => h y (List.mem_cons_of_mem _ hy)
        have happend := gaps_append [.slot (.sub x (m.level level))] (Script.place level s)
        rw [hparts, List.flatMap_cons, ← hx, ← hs]
        exact happend

/-- Without gaps in the parts of its script an expression has none. -/
theorem gaps_of_parts {x : Expr} {f : Form} (hf : x.form? = some f)
    (h : ∀ y ∈ f.script.parts, ∀ l, y.gaps l = []) (level : Int) : x.gaps level = [] := by
  have hsame : ∀ y ∈ f.script.parts, ∀ l, y.gaps l = y.gaps 0 := by
    intro y hy l
    rw [h y hy, h y hy]
  rw [gaps, gaps_form hf, gaps_place _ _ hsame, List.flatMap_eq_nil_iff]
  exact fun y hy => h y hy 0

/-- Several expressions have the outermost values without a form that each of them has. -/
theorem outermostAll_iff {ys : List Expr}
    (h : ∀ y ∈ ys, ∀ us, Outermost y us ↔ us = y.gaps 0) (us : List Expr) :
    OutermostAll ys us ↔ us = ys.flatMap fun y => y.gaps 0 := by
  induction ys generalizing us with
  | nil =>
    constructor
    · intro hall
      cases hall
      rfl
    · rintro rfl
      exact .nil
  | cons y ys ih =>
    have hy := h y List.mem_cons_self
    have hys := ih fun z hz => h z (List.mem_cons_of_mem _ hz)
    rw [List.flatMap_cons]
    constructor
    · intro hall
      cases hall with
      | cons hfirst hrest => rw [(hy _).mp hfirst, (hys _).mp hrest]
    · rintro rfl
      exact .cons ((hy _).mpr rfl) ((hys _).mpr rfl)

/-- **Outermost values and gaps.**  The outermost values without a form in an expression are the gaps
that the printers meet, at every level. -/
theorem outermost_iff_eq_gaps (x : Expr) (us : List Expr) (level : Int) :
    Outermost x us ↔ us = x.gaps level := by
  induction hn : sizeOf x using Nat.strongRecOn generalizing x us level with
  | ind n ih =>
    cases hx : x.form? with
    | none =>
      have hsupported : x.isSupported = false := by
        rw [← isSome_form?, hx]
        rfl
      rw [gaps_of_form? hx]
      constructor
      · intro h
        cases h with
        | itself _ => rfl
        | inside hf _ => cases hx.symm.trans hf
      · rintro rfl
        exact .itself hsupported
    | some f =>
      have hpart : ∀ y ∈ f.script.parts, ∀ vs l, Outermost y vs ↔ vs = y.gaps l := by
        intro y hy vs l
        have hlt := sizeOf_lt_of_mem_parts hx hy
        exact ih (sizeOf y) (by omega) y vs l rfl
      have hlevel : ∀ y ∈ f.script.parts, ∀ l, y.gaps l = y.gaps 0 := by
        intro y hy l
        exact ((hpart y hy _ l).mp ((hpart y hy _ 0).mpr rfl)).symm
      have hall := outermostAll_iff fun y hy vs => hpart y hy vs 0
      rw [gaps, gaps_form hx, gaps_place f.script level hlevel, ← hall]
      constructor
      · intro h
        cases h with
        | itself hsupported =>
          rw [← isSome_form?, hx] at hsupported
          cases hsupported
        | inside hf hinside =>
          cases hx.symm.trans hf
          exact hinside
      · intro hinside
        exact .inside hx hinside

end Expr

/-! ## Error units -/

namespace Document

variable {α : Type}

mutual

/-- The units of a document with the given path, in document order, and of each its children. -/
def unitsAt (path : String) : Document α → List (List (Document α))
  | text _ => []
  | tagged p ds => if p = path then ds :: unitsAtAll path ds else unitsAtAll path ds
  | run ds => unitsAtAll path ds
  | slot _ => []

/-- The units of several documents with the given path. -/
def unitsAtAll (path : String) : List (Document α) → List (List (Document α))
  | [] => []
  | d :: ds => unitsAt path d ++ unitsAtAll path ds

end

end Document

namespace Markup

open Document PlainText

variable (width : Int)

/-- What an error unit has in it, given the value that it stands for. -/
def errorContent (x : Expr) : List Markup :=
  [.text (sentinelText (fallback width x).text)]

/-- An error unit is the only one in itself. -/
theorem unitsAt_errorUnit (x : Expr) :
    (errorUnit (fallback width x).text).unitsAt Category.error.path = [errorContent width x] := by
  simp [errorUnit, errorContent, unitsAt, unitsAtAll]

/-- **Error units.**  The error units in the finished document of a layout are those of its gaps, if
the layout has none. -/
theorem unitsAt_finish (d : Placed) (hd : EveryPath Category.IsLabel d) :
    (finish width d).unitsAt Category.error.path = (gaps d.letters).map (errorContent width) := by
  refine finish.induct
    (fun d => EveryPath Category.IsLabel d →
      (finish width d).unitsAt Category.error.path = (gaps d.letters).map (errorContent width))
    (fun ds => EveryPathAll Category.IsLabel ds →
      unitsAtAll Category.error.path (finishAll width ds) =
        (gaps (lettersAll ds)).map (errorContent width))
    ?text ?tagged ?run ?indent ?form ?gap ?nil ?cons d hd
  case text =>
    intro s _
    rw [finish, unitsAt, letters, gaps_letters_text, List.map_nil]
  case tagged =>
    intro path ds ih h
    rw [EveryPath] at h
    rw [finish, unitsAt, if_neg h.1.ne_error, letters]
    exact ih h.2
  case run =>
    intro ds ih h
    rw [EveryPath] at h
    rw [finish, unitsAt, letters]
    exact ih h
  case indent =>
    intro level _
    rw [finish, unitsAt, letters, gaps_indent, gaps_nil, List.map_nil]
  case form =>
    intro x level f hf ih _
    have hlayout : EveryPath Category.IsLabel (f.layout.place level) :=
      (everyPath_map _ _).mpr (Layout.proper_layout hf)
    rw [finish_form width hf, ih hlayout, gaps_layout, letters, gaps_form hf]
  case gap =>
    intro x level hf _
    rw [finish_gap width hf, unitsAt_errorUnit, letters, gaps_gap_cons hf, gaps_nil, List.map_cons,
      List.map_nil]
  case nil =>
    intro _
    rw [finishAll, unitsAtAll, lettersAll, gaps_nil, List.map_nil]
  case cons =>
    intro d ds hd hds h
    rw [EveryPathAll] at h
    rw [finishAll, unitsAtAll, hd h.1, hds h.2, lettersAll, gaps_append, List.map_append]

/-- Indentation adds no units. -/
theorem unitsAt_indented (path : String) (level : Int) (d : Markup) :
    (indented width level d).unitsAt path = d.unitsAt path := by
  rw [indented]
  by_cases hempty : (indentation width level).isEmpty = true
  · rw [if_pos hempty]
  · rw [if_neg hempty]
    simp [unitsAt, unitsAtAll]

/-- The error units in what the markup printer puts out are those of the gaps. -/
theorem unitsAt_rendered (level : Int) (x : Expr) :
    (indented width level (finished width level x)).unitsAt Category.error.path =
      (x.gaps level).map (errorContent width) := by
  have hslot : EveryPath Category.IsLabel (.slot (.sub x level) : Placed) := by
    rw [EveryPath]
    trivial
  rw [unitsAt_indented, finished, unitsAt_finish width _ hslot, letters, Expr.gaps]

end Markup

/-! ## The logs -/

/-- Both printers give the same number of warnings for the same gaps. -/
theorem length_gapWarnings (width : Int) (us : List Expr) :
    (us.flatMap (PlainText.gapWarnings width)).length =
      (us.flatMap (Markup.gapWarnings width)).length := by
  induction us with
  | nil => rfl
  | cons u us ih =>
    rw [List.flatMap_cons, List.flatMap_cons, List.length_append, List.length_append, ih]
    simp [PlainText.gapWarnings, Markup.gapWarnings]

/-- **Warnings, sentinels and error units agree.**  For every expression there is one list of
outermost values without a form.  At every level and with every width, the plain-text printer logs
for each of them a warning and then those of its makeshift spelling, the markup printer, and so the
one for HTML, logs those of the spelling and then a warning, and the document has for each of them
an error unit whose only child is the sentinel with that spelling.  So the logs are equally long,
and there is no error unit exactly if nothing is logged. -/
theorem warnings_and_error_units_agree (x : Expr) :
    ∃ us : List Expr, x.Outermost us ∧
      ∀ width level : Int, ∃ (s : String) (d : Markup) (textLog markupLog : List Warning),
        PlainText.render false width x level = .ok (s, textLog) ∧
        Markup.render false width x level = .ok (d, markupLog) ∧
        (∀ escape, Renderer.render ⟨.html, width, false, escape⟩ x level =
          .ok (.text (d.html escape), markupLog)) ∧
        textLog = us.flatMap (fun u =>
          ⟨.plainText, u.sort⟩ :: (PlainText.fallback width u).log.toList) ∧
        markupLog = us.flatMap (fun u =>
          (PlainText.fallback width u).log.toList ++ [⟨.markup, u.sort⟩]) ∧
        d.unitsAt Category.error.path = us.map (fun u =>
          [.text (sentinelText (PlainText.fallback width u).text)]) ∧
        textLog.length = markupLog.length ∧
        (d.unitsAt Category.error.path = [] ↔ textLog = []) := by
  refine ⟨x.gaps 0, (x.outermost_iff_eq_gaps _ 0).mpr rfl, fun width level => ?_⟩
  -- The gaps are the same at every level.
  have hgaps : x.gaps 0 = x.gaps level :=
    (x.outermost_iff_eq_gaps _ level).mp ((x.outermost_iff_eq_gaps _ 0).mpr rfl)
  have hlog : PlainText.warned width [.slot (.sub x level)] =
      (x.gaps level).flatMap (PlainText.gapWarnings width) :=
    PlainText.warned_eq_gaps width _
  rw [hgaps]
  refine ⟨_, _, _, _, PlainText.render_lenient width level x, Markup.render_lenient width level x,
    Renderer.render_html_lenient width level x, hlog, rfl, Markup.unitsAt_rendered width level x,
    ?_, ?_⟩
  · rw [hlog, length_gapWarnings]
  · rw [Markup.unitsAt_rendered, List.map_eq_nil_iff, PlainText.warned_eq_nil_iff, Expr.gaps]

end ExprPrinter
