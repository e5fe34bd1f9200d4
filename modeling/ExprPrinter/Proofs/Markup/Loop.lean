import ExprPrinter.Proofs.Rendering
import Mathlib.Computability.StateTransition

/-!
# The loop of the markup printer

The markup printer can be seen as a loop over frames.  A frame is a unit that has been
begun, with the documents finished for it and the parts still to come.  In each turn the
next part of the innermost frame is taken up.  A text is finished at once, an expression
is laid out first, and a unit or run begins a frame of its own.  A frame without parts is
closed, and what it has made goes to the frame around it.  The outermost frame belongs to
no unit: what is finished in it is the result.

Whatever frames are around a part, the loop comes back to them with one document more,
and it is the one that recursion gives for the part: `reaches_finish`.  So the loop ends
with exactly one document, and it agrees with the machine that the printer is.
-/

namespace ExprPrinter.Markup

open Document PlainText StateTransition

variable (width : Int)

/-! ## By recursion on parts -/

/-- A way to finish parts that goes by recursion: a text stands for itself, a unit or run is made of
its finished parts, one document for each of them in their order, and an expression is finished as
its layout. -/
structure ByRecursion (F : Placed → Markup) : Prop where
  text (s : String) : F (.text s) = .text s
  indent (level : Int) : F (.slot (.indent level)) = .text (indentation width level)
  tagged (path : String) (ds : List Placed) : F (.tagged path ds) = close (some path) (ds.map F)
  run (ds : List Placed) : F (.run ds) = close none (ds.map F)
  form {x : Expr} {f : Form} (h : x.form? = some f) (level : Int) :
    F (.slot (.sub x level)) = F (f.layout.place level)
  gap {x : Expr} (h : x.form? = none) (level : Int) :
    F (.slot (.sub x level)) = errorUnit (fallback width x).text

/-- Finishing goes by recursion. -/
theorem byRecursion_finish : ByRecursion width (finish width) where
  text s := by rw [finish]
  indent level := by rw [finish]
  tagged path ds := by rw [finish, finishAll_eq_map, close]
  run ds := by rw [finish, finishAll_eq_map, close]
  form h level := finish_form width h level
  gap h level := finish_gap width h level

/-- There is only one way to finish parts by recursion. -/
theorem ByRecursion.eq_finish {F : Placed → Markup} (hF : ByRecursion width F) :
    F = finish width := by
  funext d
  refine finish.induct (fun d => F d = finish width d)
    (fun ds => ds.map F = finishAll width ds)
    ?text ?tagged ?run ?indent ?form ?gap ?nil ?cons d
  case text =>
    intro s
    rw [hF.text, finish]
  case tagged =>
    intro path ds ih
    rw [hF.tagged, ih, finish, close]
  case run =>
    intro ds ih
    rw [hF.run, ih, finish, close]
  case indent =>
    intro level
    rw [hF.indent, finish]
  case form =>
    intro x level f hf ih
    rw [hF.form hf, ih, finish_form width hf]
  case gap =>
    intro x level hf
    rw [hF.gap hf, finish_gap width hf]
  case nil => rw [List.map_nil, finishAll]
  case cons =>
    intro d ds hd hds
    rw [List.map_cons, hd, hds, finishAll]

/-! ## One turn of the loop -/

/-- Where the loop is: busy with the innermost of the frames, or through, with what it has made. -/
inductive Stage where
  | busy (frame : Frame) (around : List Frame)
  | through (result : List Markup)

/-- One turn.  The next part of the innermost frame is taken up; if there is none, then the frame is
closed, and the outermost frame gives the result. -/
def turn : Stage × Array Warning → Option (Stage × Array Warning)
  | (.through _, _) => none
  | (.busy ⟨_, done, []⟩ [], log) => some (.through done.reverse, log)
  | (.busy ⟨path, done, []⟩ (⟨path', done', rest⟩ :: fs), log) =>
    some (.busy ⟨path', close path done.reverse :: done', rest⟩ fs, log)
  | (.busy ⟨path, done, .text s :: rest⟩ fs, log) =>
    some (.busy ⟨path, .text s :: done, rest⟩ fs, log)
  | (.busy ⟨path, done, .tagged path' ds :: rest⟩ fs, log) =>
    some (.busy ⟨some path', [], ds⟩ (⟨path, done, rest⟩ :: fs), log)
  | (.busy ⟨path, done, .run ds :: rest⟩ fs, log) =>
    some (.busy ⟨none, [], ds⟩ (⟨path, done, rest⟩ :: fs), log)
  | (.busy ⟨path, done, .slot (.indent level) :: rest⟩ fs, log) =>
    some (.busy ⟨path, .text (indentation width level) :: done, rest⟩ fs, log)
  | (.busy ⟨path, done, .slot (.sub x level) :: rest⟩ fs, log) =>
    match x.form? with
    | some f => some (.busy ⟨path, done, f.layout.place level :: rest⟩ fs, log)
    | none =>
      let spelled := fallback width x
      some (.busy ⟨path, errorUnit spelled.text :: done, rest⟩ fs,
        (log ++ spelled.log).push ⟨.markup, x.sort⟩)

/-- The warnings of the gaps in a list of pieces, after those that are there. -/
def logged (log : Array Warning) (agenda : Agenda) : Array Warning :=
  log ++ ((gaps agenda).flatMap (gapWarnings width)).toArray

/-- Warnings are logged in the order of the pieces. -/
theorem logged_append (log : Array Warning) (first second : Agenda) :
    logged width log (first ++ second) = logged width (logged width log first) second := by
  rw [logged, logged, logged, gaps_append, List.flatMap_append]
  simp [Array.append_assoc]

/-- Without gaps nothing is logged. -/
theorem logged_of_no_gap {agenda : Agenda} (h : gaps agenda = []) (log : Array Warning) :
    logged width log agenda = log := by
  rw [logged, h]
  simp

/-- An expression with a form is replaced by its layout in one turn. -/
theorem turn_form {x : Expr} {f : Form} (h : x.form? = some f) (level : Int)
    (path : Option String) (done : List Markup) (rest : List Placed) (fs : List Frame)
    (log : Array Warning) :
    turn width (.busy ⟨path, done, .slot (.sub x level) :: rest⟩ fs, log) =
      some (.busy ⟨path, done, f.layout.place level :: rest⟩ fs, log) := by
  simp only [turn, h]

/-- A value without a form is finished in one turn, with its warnings. -/
theorem turn_gap {x : Expr} (h : x.form? = none) (level : Int) (path : Option String)
    (done : List Markup) (rest : List Placed) (fs : List Frame) (log : Array Warning) :
    turn width (.busy ⟨path, done, .slot (.sub x level) :: rest⟩ fs, log) =
      some (.busy ⟨path, errorUnit (fallback width x).text :: done, rest⟩ fs,
        logged width log [.slot (.sub x level)]) := by
  have hlog : logged width log [.slot (.sub x level)] =
      (log ++ (fallback width x).log).push ⟨.markup, x.sort⟩ := by
    rw [logged, gaps_gap_cons h, gaps_nil, ← Array.toList_inj]
    simp [gapWarnings]
  rw [hlog]
  simp only [turn, h]

/-! ## What the loop comes to -/

/-- From a part the loop comes to the parts after it, with the finished part in the frame. -/
def Finishes (d : Placed) : Prop :=
  ∀ path done rest fs log,
    Reaches (turn width) (.busy ⟨path, done, d :: rest⟩ fs, log)
      (.busy ⟨path, finish width d :: done, rest⟩ fs, logged width log d.letters)

/-- The same for all the parts of a frame. -/
def FinishesAll (ds : List Placed) : Prop :=
  ∀ path done fs log,
    Reaches (turn width) (.busy ⟨path, done, ds⟩ fs, log)
      (.busy ⟨path, (finishAll width ds).reverse ++ done, []⟩ fs,
        logged width log (lettersAll ds))

/-- A frame that is begun for a unit is closed into the finished unit. -/
theorem FinishesAll.reaches_close {ds : List Placed} (h : FinishesAll width ds)
    (path path' : Option String) (done : List Markup) (rest : List Placed) (fs : List Frame)
    (log : Array Warning) :
    Reaches (turn width) (.busy ⟨path', [], ds⟩ (⟨path, done, rest⟩ :: fs), log)
      (.busy ⟨path, close path' (finishAll width ds) :: done, rest⟩ fs,
        logged width log (lettersAll ds)) := by
  have hall := h path' [] (⟨path, done, rest⟩ :: fs) log
  rw [List.append_nil] at hall
  refine hall.tail ?_
  show turn width _ = some _
  rw [turn, List.reverse_reverse]

/-- **One document for each part.**  Whatever frames are around a part, the loop comes back to them
with the finished part. -/
theorem reaches_finish (d : Placed) : Finishes width d := by
  refine finish.induct (Finishes width) (FinishesAll width)
    ?text ?tagged ?run ?indent ?form ?gap ?nil ?cons d
  case text =>
    intro s path done rest fs log
    rw [finish, letters, logged_of_no_gap width (gaps_letters_text s)]
    exact .single rfl
  case tagged =>
    intro path' ds ih path done rest fs log
    rw [finish, letters]
    exact .head rfl (ih.reaches_close width path (some path') done rest fs log)
  case run =>
    intro ds ih path done rest fs log
    rw [finish, letters]
    exact .head rfl (ih.reaches_close width path none done rest fs log)
  case indent =>
    intro level path done rest fs log
    have hgaps : gaps [.slot (.indent level)] = [] := by rw [gaps_indent, gaps_nil]
    rw [finish, letters, logged_of_no_gap width hgaps]
    exact .single rfl
  case form =>
    intro x level f hf ih path done rest fs log
    have hgaps : gaps [.slot (.sub x level)] = gaps (f.layout.place level).letters := by
      rw [gaps_form hf, gaps_layout]
    have hlog : logged width log [.slot (.sub x level)] =
        logged width log (f.layout.place level).letters := by
      rw [logged, hgaps, logged]
    rw [finish_form width hf, letters, hlog]
    exact .head (turn_form width hf level path done rest fs log) (ih path done rest fs log)
  case gap =>
    intro x level hf path done rest fs log
    rw [finish_gap width hf, letters]
    exact .single (turn_gap width hf level path done rest fs log)
  case nil =>
    intro path done fs log
    rw [finishAll, lettersAll, logged_of_no_gap width gaps_nil]
    exact .refl
  case cons =>
    intro d ds hd hds path done fs log
    have hfirst := hd path done ds fs log
    have hrest := hds path (finish width d :: done) fs (logged width log d.letters)
    rw [finishAll, lettersAll, logged_append, List.reverse_cons, List.append_assoc,
      List.singleton_append]
    exact hfirst.trans hrest

/-- What the printer makes of an expression, if it is not strict. -/
theorem build_lenient (level : Int) (x : Expr) :
    build false width (.part (.slot (.sub x level))) [] #[] =
      ⟨.ok (finish width (.slot (.sub x level))), logged width #[] [.slot (.sub x level)]⟩ := by
  rw [build_expr, logged, finished]
  show settle false width #[] _ (x.gaps level) = ⟨_, #[] ++ ((x.gaps level).flatMap _).toArray⟩
  cases x.gaps level with
  | nil => rfl
  | cons y more => rfl

/-- **The frames build the recursive document.**  There is one way to finish parts by recursion.
From an expression alone in the outermost frame, the loop ends with a list of exactly one document,
which is the expression finished in this way.  The printer comes to the same document, with the same
warnings. -/
theorem frames_build_one_document (level : Int) (x : Expr) :
    ByRecursion width (finish width) ∧
    (∀ F, ByRecursion width F → F = finish width) ∧
    eval (turn width) (.busy ⟨none, [], [.slot (.sub x level)]⟩ [], #[]) =
      Part.some (.through [finish width (.slot (.sub x level))],
        (build false width (.part (.slot (.sub x level))) [] #[]).log) ∧
    (build false width (.part (.slot (.sub x level))) [] #[]).document =
      .ok (finish width (.slot (.sub x level))) := by
  have hbuild := build_lenient width level x
  refine ⟨byRecursion_finish width, fun F hF => hF.eq_finish, ?_, ?_⟩
  · have hpart := reaches_finish width (.slot (.sub x level)) none [] [] [] #[]
    rw [letters] at hpart
    rw [hbuild, Part.eq_some_iff, mem_eval]
    exact ⟨hpart.tail rfl, rfl⟩
  · rw [hbuild]

end ExprPrinter.Markup
