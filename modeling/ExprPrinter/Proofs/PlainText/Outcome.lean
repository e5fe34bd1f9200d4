import ExprPrinter.PlainText

/-!
# The plain-text printer, piece by piece

The printer works through one list, and puts the script of a subexpression
before what is left of it.  Seen from outside, none of this shows.  Transcripts
can be put one after the other, where nothing is added to one that has
stopped, and what the printer makes of two lists together is what it makes of
the first followed by what it makes of the second: `outcome_append`.  A list
is therefore known by what is made of each of its pieces, and what is made of
a subexpression is what is made of its script: `outcome_form`.

A printer that is not strict never stops, and `written` and `warned` are its
text and its warnings.
-/

namespace ExprPrinter

namespace Transcript

/-- One transcript after another.  Nothing is added to one that has stopped. -/
def append (t u : Transcript) : Transcript :=
  match t.stop with
  | none => ⟨t.text ++ u.text, t.log ++ u.log, u.stop⟩
  | some _ => t

instance : Append Transcript := ⟨append⟩

/-- The transcript of a text. -/
def saying (s : String) : Transcript := { text := s }

/-- The transcript of a warning. -/
def warning (w : Warning) : Transcript := { log := #[w] }

/-- The transcript of a stop. -/
def stopping (x : Expr) : Transcript := { stop := some x }

/-- A transcript goes on with another one. -/
theorem append_of_running {t : Transcript} (h : t.stop = none) (u : Transcript) :
    t ++ u = ⟨t.text ++ u.text, t.log ++ u.log, u.stop⟩ := by
  show append t u = _
  rw [append, h]

/-- Nothing comes after a transcript that was stopped. -/
theorem append_of_stopped {t : Transcript} {x : Expr} (h : t.stop = some x) (u : Transcript) :
    t ++ u = t := by
  show append t u = _
  rw [append, h]

/-- Nothing more changes nothing. -/
theorem append_empty (t : Transcript) : t ++ {} = t := by
  cases h : t.stop with
  | none =>
    rw [append_of_running h, ← h]
    simp
  | some x => exact append_of_stopped h _

/-- Nothing before changes nothing. -/
theorem empty_append (t : Transcript) : {} ++ t = t := by
  rw [append_of_running rfl]
  simp

/-- Transcripts may be put together in either order. -/
theorem append_assoc (t u v : Transcript) : t ++ u ++ v = t ++ (u ++ v) := by
  cases ht : t.stop with
  | some x => rw [append_of_stopped ht, append_of_stopped ht, append_of_stopped ht]
  | none =>
    cases hu : u.stop with
    | some y =>
      have htu : (t ++ u).stop = some y := by rw [append_of_running ht, hu]
      rw [append_of_stopped htu, append_of_stopped hu]
    | none =>
      have htu : (t ++ u).stop = none := by rw [append_of_running ht, hu]
      rw [append_of_running htu, append_of_running ht, append_of_running ht,
        append_of_running hu]
      simp [String.append_assoc, Array.append_assoc]

/-- To write is to append. -/
theorem write_eq_append {t : Transcript} (h : t.stop = none) (s : String) :
    t.write s = t ++ saying s := by
  rw [append_of_running h, write, h]
  simp [saying]

/-- To warn is to append. -/
theorem warn_eq_append {t : Transcript} (h : t.stop = none) (w : Warning) :
    t.warn w = t ++ warning w := by
  rw [append_of_running h, warn, h]
  simp [warning]

end Transcript

namespace PlainText

open Transcript

variable (strict : Bool) (width : Int)

/-- An expression with a form is replaced by its script. -/
theorem run_form {x : Expr} {f : Form} (h : x.form? = some f) (level : Int) (rest : Agenda)
    (t : Transcript) :
    run strict width (.slot (.sub x level) :: rest) t =
      run strict width (f.script.place level ++ rest) t := by
  rw [run]
  split
  · next g hg => rw [Option.some.inj (hg.symm.trans h)]
  · next hnone => cases hnone.symm.trans h

/-- A strict printer stops at a value without a form. -/
theorem run_gap_strict {x : Expr} (h : x.form? = none) (level : Int) (rest : Agenda)
    (t : Transcript) :
    run true width (.slot (.sub x level) :: rest) t = { t with stop := some x } := by
  rw [run]
  split
  · next g hg => cases h.symm.trans hg
  · rfl

/-- Any other printer warns, and goes on with the sentinel. -/
theorem run_gap_lenient {x : Expr} (h : x.form? = none) (level : Int) (rest : Agenda)
    (t : Transcript) :
    run false width (.slot (.sub x level) :: rest) t =
      run false width (x.sentinel.place level ++ rest) (t.warn ⟨.plainText, x.sort⟩) := by
  rw [run]
  split
  · next g hg => cases h.symm.trans hg
  · rfl

/-- What the printer makes of a list of pieces. -/
def outcome (agenda : Agenda) : Transcript :=
  run strict width agenda {}

/-- Induction along a run.  What is to be shown of a list of pieces may be taken for granted of the
rest of the list, of the list with the script of a form in the place of an expression, and of that
with the sentinel in the place of a value without a form. -/
theorem agenda_induction {motive : Agenda → Prop}
    (nil : motive [])
    (text : ∀ s rest, motive rest → motive (.text s :: rest))
    (indent : ∀ level rest, motive rest → motive (.slot (.indent level) :: rest))
    (form : ∀ x level rest f, x.form? = some f → motive (f.script.place level ++ rest) →
      motive (.slot (.sub x level) :: rest))
    (gap : ∀ x level rest, x.form? = none → motive rest →
      motive (x.sentinel.place level ++ rest) → motive (.slot (.sub x level) :: rest)) :
    ∀ agenda : Agenda, motive agenda
  | [] => nil
  | .text s :: rest => text s rest (agenda_induction nil text indent form gap rest)
  | .slot (.indent level) :: rest =>
    indent level rest (agenda_induction nil text indent form gap rest)
  | .slot (.sub x level) :: rest =>
    match h : x.form? with
    | some f => form x level rest f h (agenda_induction nil text indent form gap _)
    | none =>
      gap x level rest h (agenda_induction nil text indent form gap rest)
        (agenda_induction nil text indent form gap _)
termination_by agenda => (Script.weigh agenda, agenda.length)
decreasing_by
  · apply Prod.Lex.right' <;> simp
  · apply Prod.Lex.right' <;> simp
  · apply Prod.Lex.left
    simpa using Expr.weigh_script_lt h level
  · apply Prod.Lex.left
    simpa using x.sizeOf_pos
  · apply Prod.Lex.left
    simpa using x.weigh_sentinel_lt level

/-- A run adds to what is there what it makes of its list by itself. -/
theorem run_eq_append (agenda : Agenda) {t : Transcript} (ht : t.stop = none) :
    run strict width agenda t = t ++ outcome strict width agenda := by
  induction agenda using agenda_induction generalizing t with
  | nil => rw [outcome, run, run, append_empty]
  | text s rest ih =>
    rw [outcome, run, run, ih (t := t.write s) ht, ih (t := write {} s) rfl, write_eq_append ht,
      write_eq_append rfl, empty_append, append_assoc]
  | indent level rest ih =>
    rw [outcome, run, run, ih (t := t.write _) ht, ih (t := write {} _) rfl, write_eq_append ht,
      write_eq_append rfl, empty_append, append_assoc]
  | form x level rest f hf ih =>
    rw [outcome, run_form strict width hf, run_form strict width hf]
    exact ih ht
  | gap x level rest hf _ ih =>
    cases strict with
    | true =>
      rw [outcome, run_gap_strict width hf, run_gap_strict width hf, append_of_running ht]
      simp
    | false =>
      rw [outcome, run_gap_lenient width hf, run_gap_lenient width hf, ih (t := t.warn _) ht,
        ih (t := warn {} _) rfl, warn_eq_append ht, warn_eq_append rfl, empty_append,
        append_assoc]

@[simp] theorem outcome_nil : outcome strict width [] = {} := by
  rw [outcome, run]

@[simp] theorem outcome_text (s : String) (rest : Agenda) :
    outcome strict width (.text s :: rest) = saying s ++ outcome strict width rest := by
  rw [outcome, run, run_eq_append strict width rest rfl, write_eq_append rfl, empty_append]

@[simp] theorem outcome_indent (level : Int) (rest : Agenda) :
    outcome strict width (.slot (.indent level) :: rest) =
      saying (indentation width level) ++ outcome strict width rest := by
  rw [outcome, run, run_eq_append strict width rest rfl, write_eq_append rfl, empty_append]

/-- The outcome of an expression with a form is that of its script. -/
theorem outcome_form_cons {x : Expr} {f : Form} (h : x.form? = some f) (level : Int)
    (rest : Agenda) :
    outcome strict width (.slot (.sub x level) :: rest) =
      outcome strict width (f.script.place level ++ rest) :=
  run_form strict width h level rest {}

/-- The outcome of a strict printer at a value without a form. -/
theorem outcome_gap_strict {x : Expr} (h : x.form? = none) (level : Int) (rest : Agenda) :
    outcome true width (.slot (.sub x level) :: rest) = stopping x :=
  run_gap_strict width h level rest {}

/-- The outcome of any other printer there: a warning, and then that of the sentinel. -/
theorem outcome_gap_lenient_cons {x : Expr} (h : x.form? = none) (level : Int) (rest : Agenda) :
    outcome false width (.slot (.sub x level) :: rest) =
      warning ⟨.plainText, x.sort⟩ ++ outcome false width (x.sentinel.place level ++ rest) := by
  rw [outcome, run_gap_lenient width h, run_eq_append false width _ rfl, warn_eq_append rfl,
    empty_append]

/-- **Composition.**  What the printer makes of two lists together is what it makes of the first,
followed by what it makes of the second unless it has stopped. -/
theorem outcome_append (first second : Agenda) :
    outcome strict width (first ++ second) =
      outcome strict width first ++ outcome strict width second := by
  induction first using agenda_induction with
  | nil => rw [List.nil_append, outcome_nil, empty_append]
  | text s rest ih => rw [List.cons_append, outcome_text, outcome_text, ih, append_assoc]
  | indent level rest ih =>
    rw [List.cons_append, outcome_indent, outcome_indent, ih, append_assoc]
  | form x level rest f hf ih =>
    rw [List.append_assoc] at ih
    rw [List.cons_append, outcome_form_cons strict width hf, outcome_form_cons strict width hf, ih]
  | gap x level rest hf _ ih =>
    cases strict with
    | true =>
      rw [List.cons_append, outcome_gap_strict width hf, outcome_gap_strict width hf]
      exact (append_of_stopped rfl _).symm
    | false =>
      rw [List.append_assoc] at ih
      rw [List.cons_append, outcome_gap_lenient_cons width hf, outcome_gap_lenient_cons width hf,
        ih, append_assoc]

/-- The printer makes of an expression what it makes of the script of its form. -/
theorem outcome_form {x : Expr} {f : Form} (h : x.form? = some f) (level : Int) :
    outcome strict width [.slot (.sub x level)] =
      outcome strict width (f.script.place level) := by
  rw [outcome_form_cons strict width h, List.append_nil]

/-! ## The printer that is not strict -/

/-- A printer that is not strict goes through to the end. -/
theorem outcome_lenient_stop (agenda : Agenda) : (outcome false width agenda).stop = none := by
  induction agenda using agenda_induction with
  | nil => rw [outcome_nil]
  | text s rest ih => rw [outcome_text, append_of_running rfl, ih]
  | indent level rest ih => rw [outcome_indent, append_of_running rfl, ih]
  | form x level rest f hf ih => rw [outcome_form_cons false width hf, ih]
  | gap x level rest hf _ ih =>
    rw [outcome_gap_lenient_cons width hf, append_of_running rfl, ih]

/-- What a printer that is not strict writes for a list of pieces. -/
def written (agenda : Agenda) : String :=
  (outcome false width agenda).text

/-- The warnings that a printer that is not strict gives for a list of pieces. -/
def warned (agenda : Agenda) : List Warning :=
  (outcome false width agenda).log.toList

@[simp] theorem written_nil : written width [] = "" := by
  rw [written, outcome_nil]

@[simp] theorem warned_nil : warned width [] = [] := by
  rw [warned, outcome_nil]

@[simp] theorem written_append (first second : Agenda) :
    written width (first ++ second) = written width first ++ written width second := by
  rw [written, outcome_append, append_of_running (outcome_lenient_stop width first)]
  rfl

@[simp] theorem warned_append (first second : Agenda) :
    warned width (first ++ second) = warned width first ++ warned width second := by
  rw [warned, outcome_append, append_of_running (outcome_lenient_stop width first)]
  exact Array.toList_append

/-- What is written for a list is written piece by piece. -/
theorem written_cons (p : Piece Int) (rest : Agenda) :
    written width (p :: rest) = written width [p] ++ written width rest :=
  written_append width [p] rest

/-- So are the warnings given. -/
theorem warned_cons (p : Piece Int) (rest : Agenda) :
    warned width (p :: rest) = warned width [p] ++ warned width rest :=
  warned_append width [p] rest

@[simp] theorem written_text (s : String) (rest : Agenda) :
    written width (.text s :: rest) = s ++ written width rest := by
  rw [written, outcome_text, append_of_running rfl]
  rfl

@[simp] theorem warned_text (s : String) (rest : Agenda) :
    warned width (.text s :: rest) = warned width rest := by
  rw [warned, outcome_text, append_of_running rfl]
  simp [saying, warned]

@[simp] theorem written_indent (level : Int) (rest : Agenda) :
    written width (.slot (.indent level) :: rest) =
      indentation width level ++ written width rest := by
  rw [written, outcome_indent, append_of_running rfl]
  rfl

@[simp] theorem warned_indent (level : Int) (rest : Agenda) :
    warned width (.slot (.indent level) :: rest) = warned width rest := by
  rw [warned, outcome_indent, append_of_running rfl]
  simp [saying, warned]

/-- Scripts are put at a level part by part. -/
theorem place_append (level : Int) (s t : Script) :
    Script.place level (s ++ t) = Script.place level s ++ Script.place level t :=
  List.map_append

/-- What is written for scripts with separators between them has the separators between what is
written for each. -/
theorem written_intercalate (level : Int) (separator : String) (g : Expr → Script)
    (xs : List Expr) :
    written width (Script.place level ([.text separator].intercalate (xs.map g))) =
      separator.intercalate (xs.map fun x => written width (Script.place level (g x))) := by
  induction xs with
  | nil => exact written_nil width
  | cons x xs ih =>
    cases xs with
    | nil => rw [List.map_cons, List.map_nil, List.intercalate_singleton, List.map_cons,
        List.map_nil, String.intercalate_singleton]
    | cons y xs =>
      have hseparator : written width (Script.place level [.text separator]) = separator := by
        simp [Script.place, Piece.move]
      rw [List.map_cons, List.map_cons, List.intercalate_cons_cons, ← List.map_cons (f := g),
        place_append, place_append, written_append, written_append, ih, hseparator,
        List.map_cons, List.map_cons, List.map_cons, String.intercalate_cons_cons]

/-- For an expression with a form, its script is written. -/
theorem written_form {x : Expr} {f : Form} (h : x.form? = some f) (level : Int) :
    written width [.slot (.sub x level)] = written width (f.script.place level) := by
  rw [written, outcome_form false width h, written]

/-- For a leaf, its text is written. -/
theorem written_leaf {x : Expr} {c : Category} {s : String} (h : x.form? = some (.leaf c s))
    (level : Int) : written width [.slot (.sub x level)] = s := by
  rw [written_form width h]
  simp [Form.script, Script.place, Piece.move]

/-! ## Sentinels -/

/-- A makeshift spelling does not depend on the level. -/
theorem place_fallback (x : Expr) (level : Int) :
    x.fallback.place level = x.fallback.place 0 := by
  cases x with
  | node h xs => simp [Expr.fallback, Script.place, Script.phrase, Piece.move, Slot.move,
      Margin.level, List.map_flatMap]
  | _ => rfl

/-- A sentinel is a spelling between its two marks, wherever it is put. -/
theorem place_sentinel (x : Expr) (level : Int) :
    x.sentinel.place level =
      .text sentinelOpening :: x.fallback.place 0 ++ [.text sentinelClosing] := by
  rw [← place_fallback x level]
  simp [Expr.sentinel, Script.place, Piece.move]

/-- What is written for a value without a form is its sentinel. -/
theorem written_sentinel {x : Expr} (h : x.form? = none) (level : Int) :
    written width [.slot (.sub x level)] = written width (x.sentinel.place level) := by
  rw [written, outcome_gap_lenient_cons width h, append_of_running rfl, List.append_nil]
  exact String.empty_append

/-- What is written for a value without a form is its makeshift spelling, made visible. -/
theorem written_gap {x : Expr} (h : x.form? = none) (level : Int) :
    written width [.slot (.sub x level)] = sentinelText (fallback width x).text := by
  have hspelled : written width (x.sentinel.place level) =
      sentinelText (written width (x.fallback.place 0)) := by
    simp [place_sentinel, sentinelText, String.append_assoc]
  rw [written_sentinel width h]
  exact hspelled

/-- A value without a form gives a warning, and then those of its makeshift spelling. -/
theorem warned_gap {x : Expr} (h : x.form? = none) (level : Int) :
    warned width [.slot (.sub x level)] =
      ⟨.plainText, x.sort⟩ :: (fallback width x).log.toList := by
  have hspelled : warned width (x.sentinel.place level) = warned width (x.fallback.place 0) := by
    simp [place_sentinel]
  rw [warned, outcome_gap_lenient_cons width h, append_of_running rfl, List.append_nil,
    Array.toList_append]
  exact congrArg (List.cons _) hspelled

end PlainText

end ExprPrinter
