import ExprPrinter.Proofs.Form.Containment
import ExprPrinter.Proofs.PlainText.Gaps
import Mathlib.Computability.StateTransition

/-!
# The loop of the plain-text printer is a recursion

The printer goes round a loop.  In each turn it takes the first piece off the list of
what is still to be written, and if that is a subexpression, then what stands for it is
put before the rest of the list.  Nothing in a turn shows why this ends, or how much of
what is written belongs to which piece.

The same can be said by recursion on expressions, since everything that comes up in the
place of an expression is inside it.  The recital of an expression is its text, and its
strangers are the values without a form in it, each of them before the ones inside it.
From every list the loop comes to an end, and it writes the recitals of the pieces one
after the other.  It warns of the strangers in their order, or, if it is strict, stops
at the first one.
-/

namespace ExprPrinter

/-- An expression that a script has at a level is a part of the script. -/
theorem Script.mem_parts_of_mem_place {s : Script} {x : Expr} {level l : Int}
    (h : Piece.slot (.sub x l) ∈ s.place level) : x ∈ s.parts := by
  obtain ⟨p, hp, hmove⟩ := List.mem_map.mp h
  refine List.mem_filterMap.mpr ⟨p, hp, ?_⟩
  cases p with
  | text t => cases hmove
  | slot t =>
    cases t with
    | indent m => cases hmove
    | sub y m =>
      cases hmove
      rfl

/-- The parts of a script are the same at every level. -/
theorem Script.filterMap_part?_place (s : Script) (level : Int) :
    (s.place level).filterMap Piece.part? = s.parts := by
  have hmove : ∀ p : Piece Margin, (p.move (Margin.level level)).part? = p.part? := by
    intro p
    cases p with
    | text t => rfl
    | slot t => cases t <;> rfl
  rw [place, List.filterMap_map, parts]
  exact congrArg (List.filterMap · s) (funext hmove)

/-! ## By recursion on expressions -/

/-- The text of an expression at a level: that of the pieces in its place, one after the other. -/
def Expr.recital (width : Int) (x : Expr) (level : Int) : String :=
  String.join ((x.expansion.place level).attach.map fun
    | ⟨.text s, _⟩ => s
    | ⟨.slot (.indent l), _⟩ => indentation width l
    | ⟨.slot (.sub y l), _⟩ => y.recital width l)
termination_by sizeOf x
decreasing_by
  next hy => exact (Expr.isInside_of_mem_expansion (Script.mem_parts_of_mem_place hy)).sizeOf_lt

/-- The values without a form that come up in an expression, from left to right, and each of them
before those inside it. -/
def Expr.strangers (x : Expr) : List Expr :=
  (if x.form?.isNone then [x] else []) ++
    x.expansion.parts.attach.flatMap fun ⟨y, _⟩ => y.strangers
termination_by sizeOf x
decreasing_by
  next hy => exact (Expr.isInside_of_mem_expansion hy).sizeOf_lt

/-- The text of a piece. -/
def Piece.recital (width : Int) : Piece Int → String
  | text s => s
  | slot (.indent level) => indentation width level
  | slot (.sub x level) => x.recital width level

namespace PlainText

/-- The text of a list of pieces. -/
def recital (width : Int) (agenda : Agenda) : String :=
  String.join (agenda.map (Piece.recital width))

/-- The values without a form that come up in a list of pieces. -/
def strangers (agenda : Agenda) : List Expr :=
  (agenda.filterMap Piece.part?).flatMap Expr.strangers

end PlainText

namespace Expr

/-- The text of an expression is that of what takes its place. -/
theorem recital_eq (width : Int) (x : Expr) (level : Int) :
    x.recital width level = PlainText.recital width (x.expansion.place level) := by
  rw [recital, PlainText.recital, List.map_subtype (g := Piece.recital width),
    List.unattach_attach]
  intro p hp
  cases p with
  | text s => rfl
  | slot s => cases s <;> rfl

/-- The strangers of an expression: itself, if it has no form, and those of what takes its place. -/
theorem strangers_eq (x : Expr) :
    x.strangers =
      (if x.form?.isNone then [x] else []) ++ x.expansion.parts.flatMap strangers := by
  rw [strangers, List.flatMap_subtype (g := strangers), List.unattach_attach]
  exact fun _ _ => rfl

/-- The strangers of an expression with a form are those of its script. -/
theorem strangers_form {x : Expr} {f : Form} (h : x.form? = some f) (level : Int) :
    x.strangers = PlainText.strangers (f.script.place level) := by
  rw [strangers_eq, expansion_of_form h, h, PlainText.strangers, Script.filterMap_part?_place]
  rfl

/-- A value without a form is its first stranger. -/
theorem strangers_gap {x : Expr} (h : x.form? = none) (level : Int) :
    x.strangers = x :: PlainText.strangers (x.sentinel.place level) := by
  rw [strangers_eq, expansion_of_gap h, h, PlainText.strangers, Script.filterMap_part?_place]
  rfl

end Expr

namespace PlainText

open Transcript

variable (strict : Bool) (width : Int)

/-! ## One turn of the loop -/

/-- One turn: the first piece is taken off the list and written, or what stands in the place of a
subexpression is put before the rest.  A strict printer leaves the loop at a value without a form.
With nothing on the list there is no turn. -/
def turn : Agenda × Transcript → Option (Agenda × Transcript)
  | ([], _) => none
  | (.text s :: rest, t) => some (rest, t.write s)
  | (.slot (.indent level) :: rest, t) => some (rest, t.write (indentation width level))
  | (.slot (.sub x level) :: rest, t) =>
    match x.form? with
    | some f => some (f.script.place level ++ rest, t)
    | none =>
      if strict then some ([], { t with stop := some x })
      else some (x.sentinel.place level ++ rest, t.warn ⟨.plainText, x.sort⟩)

/-- The loop ends when nothing is left. -/
theorem eval_nil (t : Transcript) :
    StateTransition.eval (turn strict width) ([], t) = Part.some ([], t) :=
  Part.eq_some_iff.mpr (StateTransition.mem_eval.mpr ⟨.refl, rfl⟩)

/-- A turn leads to where the loop leads to. -/
theorem eval_of_turn {s s' : Agenda × Transcript} (h : turn strict width s = some s') :
    StateTransition.eval (turn strict width) s = StateTransition.eval (turn strict width) s' :=
  StateTransition.reaches_eval (.single h)

/-- **The loop ends** from every list and every transcript, and the printer's run is what comes of
it. -/
theorem eval_turn (agenda : Agenda) (t : Transcript) :
    StateTransition.eval (turn strict width) (agenda, t) =
      Part.some ([], run strict width agenda t) := by
  induction agenda using agenda_induction generalizing t with
  | nil => rw [eval_nil, run]
  | text s rest ih =>
    have hturn : turn strict width (.text s :: rest, t) = some (rest, t.write s) := rfl
    rw [eval_of_turn strict width hturn, ih, run]
  | indent level rest ih =>
    have hturn : turn strict width (.slot (.indent level) :: rest, t) =
        some (rest, t.write (indentation width level)) := rfl
    rw [eval_of_turn strict width hturn, ih, run]
  | form x level rest f hf ih =>
    have hturn : turn strict width (.slot (.sub x level) :: rest, t) =
        some (f.script.place level ++ rest, t) := by
      simp [turn, hf]
    rw [eval_of_turn strict width hturn, ih, run_form strict width hf]
  | gap x level rest hf _ ih =>
    cases strict with
    | true =>
      have hturn : turn true width (.slot (.sub x level) :: rest, t) =
          some ([], { t with stop := some x }) := by
        simp [turn, hf]
      rw [eval_of_turn true width hturn, eval_nil, run_gap_strict width hf]
    | false =>
      have hturn : turn false width (.slot (.sub x level) :: rest, t) =
          some (x.sentinel.place level ++ rest, t.warn ⟨.plainText, x.sort⟩) := by
        simp [turn, hf]
      rw [eval_of_turn false width hturn, ih, run_gap_lenient width hf]

/-! ## What the loop writes -/

/-- Texts are recited part by part. -/
theorem recital_append (first second : Agenda) :
    recital width (first ++ second) = recital width first ++ recital width second := by
  rw [recital, List.map_append, String.join_append]
  rfl

/-- In particular, piece by piece. -/
theorem recital_cons (p : Piece Int) (rest : Agenda) :
    recital width (p :: rest) = p.recital width ++ recital width rest := by
  rw [recital, List.map_cons, String.join_cons]
  rfl

/-- An expression is recited as what takes its place. -/
theorem recital_sub (x : Expr) (level : Int) (rest : Agenda) :
    recital width (.slot (.sub x level) :: rest) =
      recital width (x.expansion.place level ++ rest) := by
  rw [recital_cons, recital_append, ← x.recital_eq width level]
  rfl

/-- What is written for a list of pieces is their recital. -/
theorem written_eq_recital (agenda : Agenda) : written width agenda = recital width agenda := by
  induction agenda using agenda_induction with
  | nil => exact written_nil width
  | text s rest ih => rw [written_text, recital_cons, ih, Piece.recital]
  | indent level rest ih => rw [written_indent, recital_cons, ih, Piece.recital]
  | form x level rest f hf ih =>
    rw [recital_sub, Expr.expansion_of_form hf, ← ih, written, outcome_form_cons false width hf,
      written]
  | gap x level rest hf _ ih =>
    rw [recital_sub, Expr.expansion_of_gap hf, ← ih, written_cons, written_sentinel width hf,
      ← written_append]

/-! ## What the loop warns of -/

/-- Strangers are met part by part. -/
theorem strangers_append (first second : Agenda) :
    strangers (first ++ second) = strangers first ++ strangers second := by
  rw [strangers, List.filterMap_append, List.flatMap_append]
  rfl

/-- Those of an expression come first. -/
theorem strangers_sub (x : Expr) (level : Int) (rest : Agenda) :
    strangers (.slot (.sub x level) :: rest) = x.strangers ++ strangers rest := rfl

/-- An expression with a form is no stranger. -/
theorem strangers_form_cons {x : Expr} {f : Form} (h : x.form? = some f) (level : Int)
    (rest : Agenda) :
    strangers (.slot (.sub x level) :: rest) = strangers (f.script.place level ++ rest) := by
  rw [strangers_sub, Expr.strangers_form h level, strangers_append]

/-- A value without a form is one, and others may be inside it. -/
theorem strangers_gap_cons {x : Expr} (h : x.form? = none) (level : Int) (rest : Agenda) :
    strangers (.slot (.sub x level) :: rest) =
      x :: strangers (x.sentinel.place level ++ rest) := by
  rw [strangers_sub, Expr.strangers_gap h level, strangers_append, List.cons_append]

/-- The plain-text printer's warning about a value. -/
def warningOf (x : Expr) : Warning :=
  ⟨.plainText, x.sort⟩

/-- The warnings of a printer are about the strangers, in their order. -/
theorem warned_eq_strangers (agenda : Agenda) :
    warned width agenda = (strangers agenda).map warningOf := by
  induction agenda using agenda_induction with
  | nil => exact warned_nil width
  | text s rest ih =>
    rw [warned_text, ih]
    rfl
  | indent level rest ih =>
    rw [warned_indent, ih]
    rfl
  | form x level rest f hf ih =>
    rw [strangers_form_cons hf, ← ih, warned, outcome_form_cons false width hf, warned]
  | gap x level rest hf _ ih =>
    rw [strangers_gap_cons hf, List.map_cons, ← ih, warned, outcome_gap_lenient_cons width hf,
      append_of_running rfl, Array.toList_append]
    rfl

/-- The first stranger is the first gap. -/
theorem head?_strangers (agenda : Agenda) : (strangers agenda).head? = (gaps agenda).head? := by
  induction agenda using agenda_induction with
  | nil => rw [gaps_nil]; rfl
  | text s rest ih => rw [gaps_text, ← ih]; rfl
  | indent level rest ih => rw [gaps_indent, ← ih]; rfl
  | form x level rest f hf ih => rw [strangers_form_cons hf, gaps_form_cons hf, ih]
  | gap x level rest hf _ _ =>
    rw [strangers_gap_cons hf, gaps_gap_cons hf, List.head?_cons, List.head?_cons]

/-! ## The loop and the recursion -/

/-- **A run that is not strict** writes what is recited and warns of all strangers. -/
theorem run_lenient (agenda : Agenda) (old : String) (log : Array Warning) :
    run false width agenda ⟨old, log, none⟩ =
      ⟨old ++ recital width agenda, log ++ ((strangers agenda).map warningOf).toArray, none⟩ := by
  rw [run_eq_append false width agenda rfl, append_of_running rfl, ← written_eq_recital,
    ← warned_eq_strangers width, outcome_lenient_stop]
  simp [written, warned]

/-- **A strict run without strangers** writes the same. -/
theorem run_strict_of_no_stranger {agenda : Agenda} (h : strangers agenda = []) (old : String)
    (log : Array Warning) :
    run true width agenda ⟨old, log, none⟩ = ⟨old ++ recital width agenda, log, none⟩ := by
  have hgaps : gaps agenda = [] := by
    rw [← List.head?_eq_none_iff, ← head?_strangers, h]
    rfl
  have hlenient := run_lenient width agenda old log
  rw [run_eq_append false width agenda rfl, h] at hlenient
  rw [run_eq_append true width agenda rfl, outcome_strict_of_no_gap width hgaps, hlenient]
  simp

/-- **A strict run with a stranger** stops there, with what was recited before it. -/
theorem run_strict_of_stranger {agenda : Agenda} {x : Expr} {more : List Expr}
    (h : strangers agenda = x :: more) (old : String) (log : Array Warning) :
    ∃ before after : String,
      recital width agenda = before ++ sentinelText (recital width (x.fallback.place 0)) ++ after ∧
      run true width agenda ⟨old, log, none⟩ = ⟨old ++ before, log, some x⟩ := by
  have hspelled : recital width (x.fallback.place 0) = (fallback width x).text :=
    (written_eq_recital width _).symm
  have hhead : (gaps agenda).head? = some x := by
    rw [← head?_strangers, h]
    rfl
  obtain ⟨others, hgaps⟩ := List.head?_eq_some_iff.mp hhead
  obtain ⟨before, after, hstrict, hwritten⟩ := outcome_strict_of_gap width hgaps
  refine ⟨before, after, ?_, ?_⟩
  · rw [← written_eq_recital, hwritten, hspelled]
  · rw [run_eq_append true width agenda rfl, hstrict, append_of_running rfl]
    simp

/-- The failure at a value has the recital of its makeshift spelling. -/
theorem failure_eq (log : Array Warning) (x : Expr) :
    failure width log x =
      ⟨x.sort, recital width (x.fallback.place 0),
        log.toList ++ (strangers (x.fallback.place 0)).map warningOf⟩ := by
  have hspelled := run_lenient width (x.fallback.place 0) "" #[]
  rw [failure, fallback, hspelled]
  simp

/-- **The loop is a recursion.**  From every list of pieces, after every text and log, and strict or
not, the loop ends, and a run of the printer is what comes of it.  Whatever takes the place of an
expression, all that is still to be printed in it is inside the expression.  A printer that is not
strict adds the recitals of the pieces to the text, one after the other, and a warning for each
stranger to the log.  A strict one does the same if there is no stranger.  Otherwise it stops at the
first one, with nothing logged and after the text before it, and fails with the recital of its
spelling. -/
theorem loop_is_recursion (agenda : Agenda) (old : String) (log : Array Warning) :
    (∀ strict, StateTransition.eval (turn strict width) (agenda, ⟨old, log, none⟩) =
      Part.some ([], run strict width agenda ⟨old, log, none⟩)) ∧
    (∀ x : Expr, ∀ y ∈ x.expansion.parts, y.IsInside x) ∧
    run false width agenda ⟨old, log, none⟩ =
      ⟨old ++ recital width agenda, log ++ ((strangers agenda).map warningOf).toArray, none⟩ ∧
    match strangers agenda with
    | [] => run true width agenda ⟨old, log, none⟩ = ⟨old ++ recital width agenda, log, none⟩
    | x :: _ =>
      (∃ before after : String,
        recital width agenda = before ++ sentinelText (recital width (x.fallback.place 0)) ++ after ∧
        run true width agenda ⟨old, log, none⟩ = ⟨old ++ before, log, some x⟩) ∧
      failure width log x =
        ⟨x.sort, recital width (x.fallback.place 0),
          log.toList ++ (strangers (x.fallback.place 0)).map warningOf⟩ := by
  refine ⟨fun strict => eval_turn strict width agenda _,
    fun x y hy => Expr.isInside_of_mem_expansion hy, run_lenient width agenda old log, ?_⟩
  cases h : strangers agenda with
  | nil => exact run_strict_of_no_stranger width h old log
  | cons x more => exact ⟨run_strict_of_stranger width h old log, failure_eq width log x⟩

end PlainText

end ExprPrinter
