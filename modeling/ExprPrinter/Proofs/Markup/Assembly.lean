import ExprPrinter.Markup
import ExprPrinter.Proofs.Layout.Spelling
import ExprPrinter.Proofs.PlainText.Gaps

/-!
# What the markup printer assembles

The markup printer keeps a stack of frames.  `finish` says by recursion what
document comes out of it: a unit of finished parts for a unit of parts, the
document of its layout for a subexpression, and an error unit for a gap.
`build_part` is the statement about the machine.  Whatever frames are around a
part, the machine arrives at them with the finished part, after the warnings
of the gaps in it; only a strict printer, if there is a gap, ends at the first
one.

The gaps of a part are those that the plain-text printer meets, because the
layout of a form spells its script.
-/

namespace ExprPrinter

namespace PlainText

open Transcript

variable (strict : Bool) (width : Int)

/-- Letters one by one are written as the text that they make. -/
theorem outcome_letters_text (cs : List Char) :
    outcome strict width (cs.map fun c => .text (String.singleton c)) =
      saying (String.ofList cs) := by
  induction cs with
  | nil =>
    rw [List.map_nil, outcome_nil]
    rfl
  | cons c cs ih =>
    rw [List.map_cons, outcome_text, ih, append_of_running rfl]
    simp [saying]

/-- The printer does not see where a text is cut. -/
theorem outcome_letters (agenda : Agenda) :
    outcome strict width (Script.letters agenda) = outcome strict width agenda := by
  induction agenda with
  | nil => rfl
  | cons p rest ih =>
    have hp : outcome strict width p.letters = outcome strict width [p] := by
      cases p with
      | text s =>
        rw [Piece.letters, outcome_letters_text, String.ofList_toList, outcome_text, outcome_nil,
          append_empty]
      | slot s => rfl
    rw [Script.letters_cons, outcome_append, hp, ih, ← outcome_append]
    rfl

/-- There are no gaps among the letters of a text. -/
theorem gaps_letters_text (s : String) : gaps (Piece.text s).letters = [] := by
  rw [Piece.letters]
  induction s.toList with
  | nil => rw [List.map_nil, gaps_nil]
  | cons c cs ih => rw [List.map_cons, gaps_text, ih]

/-- The gaps are the same wherever texts are cut. -/
theorem gaps_letters (agenda : Agenda) : gaps (Script.letters agenda) = gaps agenda := by
  induction agenda with
  | nil => rfl
  | cons p rest ih =>
    have hp : gaps p.letters = gaps [p] := by
      cases p with
      | text s => rw [gaps_letters_text, gaps_text, gaps_nil]
      | slot s => rfl
    rw [Script.letters_cons, gaps_append, hp, ih, ← gaps_append]
    rfl

/-- So is what is written. -/
theorem written_letters (agenda : Agenda) :
    written width (Script.letters agenda) = written width agenda := by
  rw [written, outcome_letters, written]

/-- **A layout spells its script**, at every level. -/
theorem letters_placed_layout (f : Form) (level : Int) :
    (f.layout.place level).letters = Script.letters (f.script.place level) := by
  rw [Layout.letters_place, Layout.letters_layout, Script.letters_place]

/-- A layout has the gaps of the script. -/
theorem gaps_layout (f : Form) (level : Int) :
    gaps (f.layout.place level).letters = gaps (f.script.place level) := by
  rw [letters_placed_layout, gaps_letters]

/-- What is written for a layout is what is written for the script. -/
theorem written_layout (f : Form) (level : Int) :
    written width (f.layout.place level).letters = written width (f.script.place level) := by
  rw [letters_placed_layout, written_letters]

end PlainText

namespace Markup

open Document PlainText

variable (strict : Bool) (width : Int)

mutual

/-- The finished document of a part of a layout. -/
def finish (width : Int) : Placed → Markup
  | .text s => .text s
  | .tagged path ds => .tagged path (finishAll width ds)
  | .run ds => .run (finishAll width ds)
  | .slot (.indent level) => .text (indentation width level)
  | .slot (.sub x level) =>
    match _h : x.form? with
    | some f => finish width (f.layout.place level)
    | none => errorUnit (PlainText.fallback width x).text
termination_by d => (d.weigh Slot.weight, d.size)
decreasing_by
  · apply Prod.Lex.right' <;> simp only [weigh, size] <;> omega
  · apply Prod.Lex.right' <;> simp only [weigh, size] <;> omega
  · apply Prod.Lex.left
    simpa [weigh, Slot.weight] using Expr.weigh_layout_lt _h level

/-- The finished documents of several parts. -/
def finishAll (width : Int) : List Placed → List Markup
  | [] => []
  | d :: ds => finish width d :: finishAll width ds
termination_by ds => (weighAll Slot.weight ds, sizeAll ds + 1)
decreasing_by
  · apply Prod.Lex.right' <;> simp only [weighAll, sizeAll] <;> omega
  · have hsize := d.size_pos
    apply Prod.Lex.right' <;> simp only [weighAll, sizeAll] <;> omega

end

/-- Several parts are finished one by one. -/
theorem finishAll_eq_map (ds : List Placed) : finishAll width ds = ds.map (finish width) := by
  induction ds with
  | nil => rw [finishAll, List.map_nil]
  | cons d ds ih => rw [finishAll, ih, List.map_cons]

/-- An expression with a form is finished as its layout. -/
theorem finish_form {x : Expr} {f : Form} (h : x.form? = some f) (level : Int) :
    finish width (.slot (.sub x level)) = finish width (f.layout.place level) := by
  rw [finish]
  split
  · next g hg => rw [Option.some.inj (hg.symm.trans h)]
  · next hnone => cases hnone.symm.trans h

/-- A value without a form is finished as an error unit. -/
theorem finish_gap {x : Expr} (h : x.form? = none) (level : Int) :
    finish width (.slot (.sub x level)) = errorUnit (fallback width x).text := by
  rw [finish]
  split
  · next g hg => cases h.symm.trans hg
  · rfl

/-- The warnings of the markup printer for one gap: those of its spelling, and then its own. -/
def gapWarnings (x : Expr) : List Warning :=
  (fallback width x).log.toList ++ [⟨.markup, x.sort⟩]

/-- What comes of a run that meets the given gaps and then goes on.  A strict printer ends at the
first of them, any other logs the warnings of all. -/
def settle (log : Array Warning) (goOn : Array Warning → Outcome) : List Expr → Outcome
  | [] => goOn log
  | x :: more =>
    if strict then ⟨.error x, log⟩
    else goOn (log ++ ((x :: more).flatMap (gapWarnings width)).toArray)

/-- Without gaps, the run goes on. -/
theorem settle_nil (log : Array Warning) (goOn : Array Warning → Outcome) :
    settle strict width log goOn [] = goOn log := rfl

/-- The gaps of one part are settled before those of the next. -/
theorem settle_append (log : Array Warning) (goOn : Array Warning → Outcome)
    (first second : List Expr) :
    settle strict width log goOn (first ++ second) =
      settle strict width log (fun log' => settle strict width log' goOn second) first := by
  cases first with
  | nil => rfl
  | cons x more =>
    cases strict with
    | true => rfl
    | false =>
      cases second with
      | nil => simp [settle]
      | cons y rest => simp [settle, Array.append_assoc]

/-- An expression with a form is built as its layout. -/
theorem build_form {x : Expr} {f : Form} (h : x.form? = some f) (level : Int) (fs : List Frame)
    (log : Array Warning) :
    build strict width (.part (.slot (.sub x level))) fs log =
      build strict width (.part (f.layout.place level)) fs log := by
  rw [build]
  split
  · next g hg => rw [Option.some.inj (hg.symm.trans h)]
  · next hnone => cases hnone.symm.trans h

/-- At a value without a form, its gap is settled, and then its error unit is handed on. -/
theorem build_gap {x : Expr} (h : x.form? = none) (level : Int) (fs : List Frame)
    (log : Array Warning) :
    build strict width (.part (.slot (.sub x level))) fs log =
      settle strict width log
        (build strict width (.made (finish width (.slot (.sub x level)))) fs) [x] := by
  rw [build, finish_gap width h]
  split
  · next g hg => cases h.symm.trans hg
  · cases strict with
    | true => rfl
    | false =>
      simp only [settle, gapWarnings, Bool.false_eq_true, if_false, List.flatMap_cons,
        List.flatMap_nil, List.append_nil]
      congr 1
      rw [← Array.toList_inj]
      simp

/-- Where the machine is with parts still to come in a unit: at the first of them, or, if there is
none, at the closed unit. -/
def onward (path : Option String) (done : List Markup) (fs : List Frame) :
    List Placed → Control × List Frame
  | [] => (.made (close path done.reverse), fs)
  | d :: ds => (.part d, ⟨path, done, ds⟩ :: fs)

/-- A finished document goes to the innermost frame. -/
theorem build_made (d : Markup) (path : Option String) (done : List Markup) (rest : List Placed)
    (fs : List Frame) (log : Array Warning) :
    build strict width (.made d) (⟨path, done, rest⟩ :: fs) log =
      build strict width (onward path (d :: done) fs rest).1 (onward path (d :: done) fs rest).2
        log := by
  cases rest with
  | nil => rw [build]; rfl
  | cons p rest => rw [build]; rfl

/-- A unit begins a frame. -/
theorem build_tagged (path : String) (ds : List Placed) (fs : List Frame) (log : Array Warning) :
    build strict width (.part (.tagged path ds)) fs log =
      build strict width (onward (some path) [] fs ds).1 (onward (some path) [] fs ds).2 log := by
  cases ds with
  | nil => rw [build]; rfl
  | cons d ds => rw [build]; rfl

/-- So does a run. -/
theorem build_run (ds : List Placed) (fs : List Frame) (log : Array Warning) :
    build strict width (.part (.run ds)) fs log =
      build strict width (onward none [] fs ds).1 (onward none [] fs ds).2 log := by
  cases ds with
  | nil => rw [build]; rfl
  | cons d ds => rw [build]; rfl

/-- **The machine.**  From a part of a layout the machine goes on with the finished part, whatever
the frames around it are. -/
theorem build_part (d : Placed) (fs : List Frame) (log : Array Warning) :
    build strict width (.part d) fs log =
      settle strict width log (build strict width (.made (finish width d)) fs)
        (gaps d.letters) := by
  -- The second statement is the one about the parts still to come in a unit.
  refine finish.induct
    (fun d => ∀ fs log, build strict width (.part d) fs log =
      settle strict width log (build strict width (.made (finish width d)) fs) (gaps d.letters))
    (fun ds => ∀ path done fs log,
      build strict width (onward path done fs ds).1 (onward path done fs ds).2 log =
        settle strict width log
          (build strict width (.made (close path (done.reverse ++ finishAll width ds))) fs)
          (gaps (lettersAll ds)))
    ?text ?tagged ?run ?indent ?form ?gap ?nil ?cons d fs log
  case text =>
    intro s fs log
    rw [build, finish, letters, gaps_letters_text, settle_nil]
  case tagged =>
    intro path ds ih fs log
    rw [build_tagged, ih, finish, letters]
    rfl
  case run =>
    intro ds ih fs log
    rw [build_run, ih, finish, letters]
    rfl
  case indent =>
    intro level fs log
    rw [build, finish, letters, gaps_indent, gaps_nil, settle_nil]
  case form =>
    intro x level f hf ih fs log
    rw [build_form strict width hf, ih, finish_form width hf, letters, gaps_form hf, gaps_layout]
  case gap =>
    intro x level hf fs log
    rw [build_gap strict width hf, letters, gaps_gap_cons hf, gaps_nil]
  case nil =>
    intro path done fs log
    rw [finishAll, lettersAll, gaps_nil, settle_nil, List.append_nil]
    rfl
  case cons =>
    intro d ds hd hds path done fs log
    have hrest : build strict width (.made (finish width d)) (⟨path, done, ds⟩ :: fs) =
        fun log' => settle strict width log'
          (build strict width (.made (close path (done.reverse ++ finishAll width (d :: ds)))) fs)
          (gaps (lettersAll ds)) := by
      funext log'
      rw [build_made, hds, finishAll, List.reverse_cons, List.append_assoc, List.singleton_append]
    rw [lettersAll, gaps_append, settle_append, ← hrest]
    exact hd _ log

end Markup

end ExprPrinter
