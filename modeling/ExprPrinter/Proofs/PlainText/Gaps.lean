import ExprPrinter.Proofs.PlainText.Outcome

/-!
# Gaps

A gap is a value without a form that the printer meets while it lays out
values that have one.  The values inside of the makeshift spelling of a gap
belong to that gap, and are no gaps by themselves.

The gaps of a list decide everything about warnings and stops.  Each gap gives
its own warning and then those of its makeshift spelling: `warned_eq_gaps`.  A
strict printer does what any printer does as long as there is no gap, and
stops at the first one, with nothing logged: `outcome_strict_of_no_gap` and
`outcome_strict_of_gap`.
-/

namespace ExprPrinter.PlainText

open Transcript

/-- The gaps of a list of pieces, from left to right. -/
def gaps : Agenda → List Expr
  | [] => []
  | .text _ :: rest => gaps rest
  | .slot (.indent _) :: rest => gaps rest
  | .slot (.sub x level) :: rest =>
    match _h : x.form? with
    | some f => gaps (f.script.place level ++ rest)
    | none => x :: gaps rest
termination_by agenda => (Script.weigh agenda, agenda.length)
decreasing_by
  · apply Prod.Lex.right' <;> simp
  · apply Prod.Lex.right' <;> simp
  · apply Prod.Lex.left
    simpa using Expr.weigh_script_lt _h level
  · apply Prod.Lex.left
    simpa using x.sizeOf_pos

@[simp] theorem gaps_nil : gaps [] = [] := by
  rw [gaps]

@[simp] theorem gaps_text (s : String) (rest : Agenda) : gaps (.text s :: rest) = gaps rest := by
  rw [gaps]

@[simp] theorem gaps_indent (level : Int) (rest : Agenda) :
    gaps (.slot (.indent level) :: rest) = gaps rest := by
  rw [gaps]

/-- The gaps of an expression with a form are those of its script. -/
theorem gaps_form_cons {x : Expr} {f : Form} (h : x.form? = some f) (level : Int)
    (rest : Agenda) :
    gaps (.slot (.sub x level) :: rest) = gaps (f.script.place level ++ rest) := by
  rw [gaps]
  split
  · next g hg => rw [Option.some.inj (hg.symm.trans h)]
  · next hnone => cases hnone.symm.trans h

/-- A value without a form is a gap, and what is inside it is not looked at. -/
theorem gaps_gap_cons {x : Expr} (h : x.form? = none) (level : Int) (rest : Agenda) :
    gaps (.slot (.sub x level) :: rest) = x :: gaps rest := by
  rw [gaps]
  split
  · next g hg => cases h.symm.trans hg
  · rfl

/-- The gaps of two lists come one after the other. -/
theorem gaps_append (first second : Agenda) :
    gaps (first ++ second) = gaps first ++ gaps second := by
  induction first using agenda_induction with
  | nil => rw [List.nil_append, gaps_nil, List.nil_append]
  | text s rest ih => rw [List.cons_append, gaps_text, gaps_text, ih]
  | indent level rest ih => rw [List.cons_append, gaps_indent, gaps_indent, ih]
  | form x level rest f hf ih =>
    rw [List.append_assoc] at ih
    rw [List.cons_append, gaps_form_cons hf, gaps_form_cons hf, ih]
  | gap x level rest hf ih _ =>
    rw [List.cons_append, gaps_gap_cons hf, gaps_gap_cons hf, ih, List.cons_append]

/-- The same for an expression alone. -/
theorem gaps_form {x : Expr} {f : Form} (h : x.form? = some f) (level : Int) :
    gaps [.slot (.sub x level)] = gaps (f.script.place level) := by
  rw [gaps_form_cons h, List.append_nil]

/-- A gap has no form. -/
theorem form?_of_mem_gaps {agenda : Agenda} {x : Expr} (hx : x ∈ gaps agenda) :
    x.form? = none := by
  induction agenda using agenda_induction with
  | nil =>
    rw [gaps_nil] at hx
    cases hx
  | text s rest ih => exact ih (by rwa [gaps_text] at hx)
  | indent level rest ih => exact ih (by rwa [gaps_indent] at hx)
  | form y level rest f hf ih => exact ih (by rwa [gaps_form_cons hf] at hx)
  | gap y level rest hf ih _ =>
    rw [gaps_gap_cons hf] at hx
    rcases List.mem_cons.mp hx with rfl | hrest
    · exact hf
    · exact ih hrest

variable (width : Int)

/-- The warnings of the plain-text printer for one gap: its own, and those of its spelling. -/
def gapWarnings (x : Expr) : List Warning :=
  ⟨.plainText, x.sort⟩ :: (fallback width x).log.toList

/-- The warnings of a printer are those of its gaps. -/
theorem warned_eq_gaps (agenda : Agenda) :
    warned width agenda = (gaps agenda).flatMap (gapWarnings width) := by
  induction agenda using agenda_induction with
  | nil => rw [warned_nil, gaps_nil, List.flatMap_nil]
  | text s rest ih => rw [warned_text, gaps_text, ih]
  | indent level rest ih => rw [warned_indent, gaps_indent, ih]
  | form x level rest f hf ih =>
    rw [gaps_form_cons hf, ← ih, warned, outcome_form_cons false width hf, warned]
  | gap x level rest hf ih _ =>
    rw [gaps_gap_cons hf, List.flatMap_cons, ← ih, warned_cons, warned_gap width hf, gapWarnings]

/-- Nothing is logged exactly if there is no gap. -/
theorem warned_eq_nil_iff (agenda : Agenda) : warned width agenda = [] ↔ gaps agenda = [] := by
  rw [warned_eq_gaps]
  cases gaps agenda with
  | nil => simp
  | cons x more => simp [gapWarnings]

/-- Where there is no gap, a strict printer does what any printer does. -/
theorem outcome_strict_of_no_gap {agenda : Agenda} (h : gaps agenda = []) :
    outcome true width agenda = outcome false width agenda := by
  induction agenda using agenda_induction with
  | nil => rw [outcome_nil, outcome_nil]
  | text s rest ih =>
    rw [gaps_text] at h
    rw [outcome_text, outcome_text, ih h]
  | indent level rest ih =>
    rw [gaps_indent] at h
    rw [outcome_indent, outcome_indent, ih h]
  | form x level rest f hf ih =>
    rw [gaps_form_cons hf] at h
    rw [outcome_form_cons true width hf, outcome_form_cons false width hf, ih h]
  | gap x level rest hf ih _ =>
    rw [gaps_gap_cons hf] at h
    cases h

/-- **The cut.**  A strict printer stops at the first gap with nothing logged.  What it has written
by then is what any printer writes before the sentinel of that gap. -/
theorem outcome_strict_of_gap {agenda : Agenda} {x : Expr} {more : List Expr}
    (h : gaps agenda = x :: more) :
    ∃ before after : String,
      outcome true width agenda = ⟨before, #[], some x⟩ ∧
      written width agenda = before ++ sentinelText (fallback width x).text ++ after := by
  induction agenda using agenda_induction with
  | nil =>
    rw [gaps_nil] at h
    cases h
  | text s rest ih =>
    rw [gaps_text] at h
    obtain ⟨before, after, hstrict, hwritten⟩ := ih h
    refine ⟨s ++ before, after, ?_, ?_⟩
    · rw [outcome_text, hstrict]
      exact append_of_running rfl _
    · rw [written_text, hwritten]
      simp only [String.append_assoc]
  | indent level rest ih =>
    rw [gaps_indent] at h
    obtain ⟨before, after, hstrict, hwritten⟩ := ih h
    refine ⟨indentation width level ++ before, after, ?_, ?_⟩
    · rw [outcome_indent, hstrict]
      exact append_of_running rfl _
    · rw [written_indent, hwritten]
      simp only [String.append_assoc]
  | form y level rest f hf ih =>
    rw [gaps_form_cons hf] at h
    rw [outcome_form_cons true width hf, written, outcome_form_cons false width hf]
    exact ih h
  | gap y level rest hf _ _ =>
    rw [gaps_gap_cons hf] at h
    obtain ⟨rfl, _⟩ := List.cons.inj h
    refine ⟨"", written width rest, outcome_gap_strict width hf level rest, ?_⟩
    rw [written_cons, written_gap width hf, String.empty_append]

end ExprPrinter.PlainText
