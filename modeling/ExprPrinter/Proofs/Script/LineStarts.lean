import ExprPrinter.Sentinel

/-!
# Indentation stands at the start of a line

In the script of every form, and in every sentinel, an indentation comes
directly after a text that ends a line: `startsLines_script`.  The property is
checked from left to right, with a flag that says whether the piece just passed
was such a text.  What is known with the flag down is known with it up, so
scripts can be put one after the other as long as the later ones do not rely on
what stands before them.
-/

namespace ExprPrinter

/-- Whether a text ends a line. -/
def endsLine (s : String) : Bool :=
  s.toList.getLast? == some '\n'

/-- A text that ends a line is another one and a line break. -/
theorem eq_append_of_endsLine {s : String} (h : endsLine s = true) : ∃ t : String, s = t ++ "\n" := by
  have hlast : s.toList.getLast? = some '\n' := by simpa [endsLine] using h
  obtain ⟨cs, hcs⟩ := List.getLast?_eq_some_iff.mp hlast
  refine ⟨String.ofList cs, ?_⟩
  rw [← String.toList_inj, hcs]
  simp

namespace Script

variable {μ ν : Type}

/-- Every indentation comes directly after a text that ends a line.  The flag says whether such a
text stands before the first piece. -/
def StartsLines : Bool → List (Piece μ) → Prop
  | _, [] => True
  | _, .text s :: rest => StartsLines (endsLine s) rest
  | fresh, .slot (.indent _) :: rest => fresh = true ∧ StartsLines false rest
  | _, .slot (.sub _ _) :: rest => StartsLines false rest

@[simp] theorem startsLines_nil (fresh : Bool) : StartsLines fresh ([] : List (Piece μ)) := by
  simp [StartsLines]

@[simp] theorem startsLines_text (fresh : Bool) (s : String) (rest : List (Piece μ)) :
    StartsLines fresh (.text s :: rest) ↔ StartsLines (endsLine s) rest := by
  simp [StartsLines]

@[simp] theorem startsLines_indent (fresh : Bool) (m : μ) (rest : List (Piece μ)) :
    StartsLines fresh (.slot (.indent m) :: rest) ↔ fresh = true ∧ StartsLines false rest := by
  simp [StartsLines]

@[simp] theorem startsLines_sub (fresh : Bool) (x : Expr) (m : μ) (rest : List (Piece μ)) :
    StartsLines fresh (.slot (.sub x m) :: rest) ↔ StartsLines false rest := by
  simp [StartsLines]

@[simp] theorem startsLines_phrase (fresh : Bool) (x : Expr) (rest : Script) :
    StartsLines fresh (phrase x :: rest) ↔ StartsLines false rest :=
  startsLines_sub fresh x .edge rest

/-- What does not rely on the text before it holds after any text. -/
theorem StartsLines.weaken {ps : List (Piece μ)} (h : StartsLines false ps) (fresh : Bool) :
    StartsLines fresh ps := by
  cases ps with
  | nil => simp
  | cons p rest =>
    cases p with
    | text s => simpa using h
    | slot s =>
      cases s with
      | indent m => simp at h
      | sub x m => simpa using h

/-- Scripts that begin their lines with marks may be put together. -/
theorem StartsLines.append {fresh : Bool} {ps qs : List (Piece μ)} (hp : StartsLines fresh ps)
    (hq : StartsLines false qs) : StartsLines fresh (ps ++ qs) := by
  induction ps generalizing fresh with
  | nil => exact hq.weaken fresh
  | cons p rest ih =>
    cases p with
    | text s =>
      rw [startsLines_text] at hp
      rw [List.cons_append, startsLines_text]
      exact ih hp
    | slot s =>
      cases s with
      | indent m =>
        rw [startsLines_indent] at hp
        rw [List.cons_append, startsLines_indent]
        exact ⟨hp.1, ih hp.2⟩
      | sub x m =>
        rw [startsLines_sub] at hp
        rw [List.cons_append, startsLines_sub]
        exact ih hp

/-- Marks remain at the front of their lines at every level. -/
theorem startsLines_move (f : μ → ν) (fresh : Bool) (ps : List (Piece μ)) :
    StartsLines fresh (ps.map (Piece.move f)) ↔ StartsLines fresh ps := by
  induction ps generalizing fresh with
  | nil => simp
  | cons p rest ih =>
    cases p with
    | text s => simpa [Piece.move] using ih (endsLine s)
    | slot s =>
      cases s with
      | indent m => simp [Piece.move, Slot.move, ih]
      | sub x m => simpa [Piece.move, Slot.move] using ih false

/-- The same for several scripts. -/
theorem startsLines_flatMap {ι : Type} {g : ι → Script} (hg : ∀ i, StartsLines false (g i))
    (is : List ι) : StartsLines false (is.flatMap g) := by
  induction is with
  | nil => simp
  | cons i is ih =>
    rw [List.flatMap_cons]
    exact (hg i).append ih

/-- Scripts with a separator between them.  They may rely on a flag that the separator sets. -/
theorem startsLines_intercalate {ι : Type} {fresh : Bool} {separator : Script}
    (hs : ∀ qs : Script, StartsLines fresh qs → StartsLines false (separator ++ qs))
    {g : ι → Script} (hg : ∀ i, StartsLines fresh (g i)) (is : List ι) :
    StartsLines fresh (separator.intercalate (is.map g)) := by
  induction is with
  | nil => simp
  | cons i is ih =>
    cases is with
    | nil => simpa using hg i
    | cons j js =>
      rw [List.map_cons] at ih
      rw [List.map_cons, List.map_cons, List.intercalate_cons_cons, List.append_assoc]
      exact (hg i).append (hs _ ih)

@[simp] theorem startsLines_newline_append (m : Margin) (rest : Script) :
    StartsLines false (newline m ++ rest) ↔ StartsLines false rest := by
  have hbreak : endsLine "\n" = true := by decide
  simp [newline, hbreak]

@[simp] theorem startsLines_joined (separator : String) (xs : List Expr) :
    StartsLines false (joined separator xs) :=
  startsLines_intercalate (fun _ h => (startsLines_text ..).mpr (h.weaken _)) (by simp) xs

@[simp] theorem startsLines_enclosed (opening separator closing : String) (xs : List Expr) :
    StartsLines false (enclosed opening xs separator closing) := by
  rw [enclosed, List.cons_append, startsLines_text]
  exact ((startsLines_joined separator xs).weaken _).append (by simp)

@[simp] theorem startsLines_statement (x : Expr) : StartsLines false (statement x) := by
  simp [statement]

@[simp] theorem startsLines_body (xs : List Expr) : StartsLines false (body xs) :=
  startsLines_flatMap startsLines_statement xs

@[simp] theorem startsLines_ending : StartsLines false ending := by
  simp [ending]

@[simp] theorem startsLines_arm (word : Keyword) (a : Arm) : StartsLines false (arm word a) := by
  simp [arm]

/-- The last alternative begins its lines with marks. -/
theorem startsLines_otherwise (last : Option (List Expr)) : StartsLines false (otherwise last) := by
  cases last with
  | none => simp [otherwise]
  | some xs =>
    rw [otherwise, startsLines_newline_append, startsLines_text]
    exact (startsLines_body xs).weaken _

/-- So does a conditional, with all its arms. -/
theorem startsLines_conditional (word : Keyword) (first : Arm) (more : List Arm)
    (last : Option (List Expr)) : StartsLines false (conditional word first more last) := by
  have hmore : StartsLines false (more.flatMap fun a => newline .here ++ arm .elseifWord a) :=
    startsLines_flatMap (by simp) more
  rw [conditional]
  exact (((startsLines_arm word first).append hmore).append (startsLines_otherwise last)).append
    startsLines_ending

/-- So do the forms of a module. -/
theorem startsLines_moduleForms (xs : List Expr) : StartsLines false (moduleForms xs) := by
  cases xs with
  | nil => simp [moduleForms]
  | cons x xs =>
    have hmore : StartsLines false (xs.flatMap fun y => .text "\n" :: statement y) :=
      startsLines_flatMap
        (fun y => (startsLines_text ..).mpr ((startsLines_statement y).weaken _)) xs
    exact (startsLines_statement x).append hmore

/-- The entries of a mapping rely on the line that ends before them. -/
theorem startsLines_entries (xs : List Expr) :
    StartsLines true ([.text ",\n"].intercalate (xs.map entry)) := by
  have hbreak : endsLine ",\n" = true := by decide
  apply startsLines_intercalate
  · intro qs hqs
    simpa [hbreak] using hqs
  · intro x
    simp [entry]

/-- So do the entries of a mapping. -/
theorem startsLines_mapping (xs : List Expr) : StartsLines false (Form.mapping xs).script := by
  have hbreak : endsLine "Dict(\n" = true := by decide
  rw [Form.script, List.cons_append, startsLines_text, hbreak]
  exact (startsLines_entries xs).append (by simp)

/-- Bindings begin no line. -/
theorem startsLines_bindings (xs : List Expr) : StartsLines false (bindings xs) := by
  cases xs with
  | nil => simp [bindings]
  | cons x xs =>
    rw [bindings, startsLines_text]
    · exact (startsLines_joined ", " (x :: xs)).weaken _
    · simp

/-- Nor does an operand. -/
theorem startsLines_operand (c : Connective) (x : Expr) : StartsLines false (operand c x) := by
  unfold operand
  split <;> simp

/-- Nor what is unquoted. -/
theorem startsLines_unquoted (x : Expr) : StartsLines false (unquoted x) := by
  unfold unquoted
  split <;> simp

/-- The body of a definition begins its lines with marks. -/
theorem startsLines_definitionBody (xs : Option (List Expr)) :
    StartsLines false (definitionBody xs) := by
  cases xs with
  | none => simp [definitionBody]
  | some xs => exact (startsLines_body xs).append startsLines_ending

/-- So does a block. -/
theorem startsLines_block (xs : List Expr) : StartsLines false (block xs) := by
  unfold block
  split
  · simp
  · rw [List.cons_append, startsLines_text]
    exact ((startsLines_body xs).append startsLines_ending).weaken _

/-- **Indentation stands at the start of a line**, in the script of every form. -/
theorem startsLines_script (f : Form) : StartsLines false f.script := by
  cases f with
  | mapping xs => exact startsLines_mapping xs
  | quotation xs =>
    rw [Form.script, startsLines_text]
    exact (startsLines_enclosed "(" "\n" ")" xs).weaken _
  | unquote x => exact startsLines_unquoted x
  | block xs => exact startsLines_block xs
  | conditional word first more last => exact startsLines_conditional word first more last
  | letBlock xs ys =>
    rw [Form.script, List.cons_append, List.cons_append, startsLines_text]
    exact (((startsLines_bindings xs).append (startsLines_body ys)).append
      startsLines_ending).weaken _
  | definition definer x xs =>
    rw [Form.script, startsLines_text, startsLines_phrase]
    exact startsLines_definitionBody xs
  | moduleDef x xs =>
    rw [Form.script, List.cons_append, List.cons_append, startsLines_text, startsLines_phrase]
    exact (startsLines_moduleForms xs).append startsLines_ending
  | importing word xs =>
    rw [Form.script, startsLines_text]
    exact (startsLines_joined "." xs).weaken _
  | exporting xs =>
    rw [Form.script, startsLines_text]
    exact (startsLines_joined "," xs).weaken _
  | typed x y => cases x <;> simp [Form.script]
  | logical c xs =>
    exact startsLines_intercalate (fun _ h => (startsLines_text ..).mpr (h.weaken _))
      (startsLines_operand c) xs
  | toplevel xs =>
    exact startsLines_intercalate (fun qs h => (startsLines_newline_append .here qs).mpr h)
      (by simp) xs
  | _ => simp [Form.script, infixed]

end Script

namespace Expr

open Script

/-- A makeshift spelling begins no line of its own. -/
theorem startsLines_fallback (x : Expr) : StartsLines false x.fallback := by
  cases x with
  | node h xs =>
    have hchildren : StartsLines false (xs.flatMap fun x => [.text " ", phrase x]) :=
      startsLines_flatMap (by simp) xs
    rw [fallback, List.cons_append, startsLines_text]
    exact (hchildren.append (by simp)).weaken _
  | _ => simp [fallback]

/-- There is no indentation in a sentinel, or it would stand at the start of a line. -/
theorem startsLines_sentinel (x : Expr) : StartsLines false x.sentinel := by
  rw [sentinel, List.cons_append, startsLines_text]
  exact (x.startsLines_fallback.append (by simp)).weaken _

end Expr

end ExprPrinter
