import ExprPrinter.Proofs.Document.Composition
import ExprPrinter.Proofs.Rendering

/-!
# The modes show the same text

A document shows what the plain-text printer writes.  The two printers have
tables of their own and work in different ways, one writing piece after piece,
the other closing unit after unit.  A gap is met by both at the same place;
the one writes its sentinel while it goes on, the other has it spelled first
and puts the whole of it into one unit.
-/

namespace ExprPrinter

namespace Markup

open Document PlainText

variable (width : Int)

/-- An error unit shows the sentinel. -/
theorem visible_errorUnit (s : String) : (errorUnit s).visible = sentinelText s := by
  simp [errorUnit]

/-- A finished document shows what is written for the letters of its layout. -/
theorem visible_finish (d : Placed) : (finish width d).visible = written width d.letters := by
  refine finish.induct
    (fun d => (finish width d).visible = written width d.letters)
    (fun ds => String.join ((finishAll width ds).map visible) = written width (lettersAll ds))
    ?text ?tagged ?run ?indent ?form ?gap ?nil ?cons d
  case text =>
    intro s
    have hs := written_letters width [.text s]
    rw [Script.letters_cons, Script.letters_nil, List.append_nil] at hs
    rw [finish, visible_text, letters, hs, written_text, written_nil, String.append_empty]
  case tagged =>
    intro path ds ih
    rw [finish, visible_tagged, ih, letters]
  case run =>
    intro ds ih
    rw [finish, visible_run, ih, letters]
  case indent =>
    intro level
    rw [finish, visible_text, letters, written_indent, written_nil, String.append_empty]
  case form =>
    intro x level f hf ih
    rw [finish_form width hf, ih, written_layout, letters, written_form width hf]
  case gap =>
    intro x level hf
    rw [finish_gap width hf, visible_errorUnit, letters, written_gap width hf]
  case nil =>
    rw [finishAll, List.map_nil, String.join_nil, lettersAll, written_nil]
  case cons =>
    intro d ds hd hds
    rw [finishAll, List.map_cons, String.join_cons, hd, hds, lettersAll, written_append]

/-- Indentation before a document shows as indentation before its text. -/
theorem visible_indented (level : Int) (d : Markup) :
    (indented width level d).visible = indentation width level ++ d.visible := by
  rw [indented]
  by_cases hempty : (indentation width level).isEmpty = true
  · rw [if_pos hempty, String.isEmpty_iff.mp hempty, String.empty_append]
  · rw [if_neg hempty]
    simp

/-- What the markup printer puts out shows what the plain-text printer writes. -/
theorem visible_rendered (level : Int) (x : Expr) :
    (indented width level (finished width level x)).visible =
      indentation width level ++ written width [.slot (.sub x level)] := by
  rw [visible_indented, finished, visible_finish, letters]

end Markup

/-- **Mode consistency.**  For every expression, at every level and with every width, both printers
have a result, and the document shows the text. -/
theorem visible_markup_eq_text (width level : Int) (x : Expr) :
    ∃ (d : Markup) (s : String) (markupLog textLog : List Warning),
      Markup.render false width x level = .ok (d, markupLog) ∧
      PlainText.render false width x level = .ok (s, textLog) ∧
      d.visible = s := by
  exact ⟨_, _, _, _, Markup.render_lenient width level x, PlainText.render_lenient width level x,
    Markup.visible_rendered width level x⟩

end ExprPrinter
