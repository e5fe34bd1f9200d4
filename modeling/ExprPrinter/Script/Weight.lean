import ExprPrinter.Form.Weight
import ExprPrinter.Script

/-!
# The weight of a script

The script of a form holds each expression of the form once, or less than
once where a name is written out, so its slots weigh no more than the form:
`Expr.weigh_script_lt`.
-/

namespace ExprPrinter

namespace Script

variable {μ : Type}

/-- The sizes of the expressions in several pieces together. -/
noncomputable def weigh : List (Piece μ) → Nat
  | [] => 0
  | p :: ps => p.weight + weigh ps

@[simp] theorem weigh_nil : weigh ([] : List (Piece μ)) = 0 := rfl

@[simp] theorem weigh_text (s : String) (ps : List (Piece μ)) :
    weigh (.text s :: ps) = weigh ps := by
  simp [weigh, Piece.weight]

@[simp] theorem weigh_indent (m : μ) (ps : List (Piece μ)) :
    weigh (.slot (.indent m) :: ps) = weigh ps := by
  simp [weigh, Piece.weight, Slot.weight]

@[simp] theorem weigh_sub (x : Expr) (m : μ) (ps : List (Piece μ)) :
    weigh (.slot (.sub x m) :: ps) = sizeOf x + weigh ps := by
  simp [weigh, Piece.weight, Slot.weight]

@[simp] theorem weigh_phrase (x : Expr) (ps : Script) :
    weigh (phrase x :: ps) = sizeOf x + weigh ps :=
  weigh_sub x .edge ps

@[simp] theorem weigh_append (ps qs : List (Piece μ)) :
    weigh (ps ++ qs) = weigh ps + weigh qs := by
  induction ps with
  | nil => simp
  | cons p ps ih => rw [List.cons_append, weigh, weigh, ih, Nat.add_assoc]

/-- Putting a script at a level does not change its weight. -/
theorem weigh_place (base : Int) (s : Script) : weigh (s.place base) = weigh s := by
  induction s with
  | nil => rfl
  | cons p s ih =>
    rw [place] at ih
    rw [place, List.map_cons, weigh, weigh, ih, Piece.weight_move]

/-- If the script for one expression has its size for a weight, then the scripts for several have
the sizes of all. -/
theorem weigh_flatMap {g : Expr → Script} (hg : ∀ x, weigh (g x) = sizeOf x)
    (xs : List Expr) : weigh (xs.flatMap g) = weights xs := by
  induction xs with
  | nil => rfl
  | cons x xs ih => rw [List.flatMap_cons, weigh_append, hg, ih, weights_cons]

/-- The same with separators that have no subexpressions. -/
theorem weigh_intercalate {g : Expr → Script} (hg : ∀ x, weigh (g x) = sizeOf x)
    (separator : Script) (h : weigh separator = 0) (xs : List Expr) :
    weigh (separator.intercalate (xs.map g)) = weights xs := by
  induction xs with
  | nil => rfl
  | cons x xs ih =>
    cases xs with
    | nil => simp [hg]
    | cons y ys =>
      rw [List.map_cons] at ih
      rw [List.map_cons, List.map_cons, List.intercalate_cons_cons, weigh_append, weigh_append,
        hg, h, ih, Nat.add_zero]
      exact (weights_cons x (y :: ys)).symm

@[simp] theorem weigh_newline (m : Margin) : weigh (newline m) = 0 := by
  simp [newline]

@[simp] theorem weigh_joined (separator : String) (xs : List Expr) :
    weigh (joined separator xs) = weights xs :=
  weigh_intercalate (by simp) [.text separator] rfl xs

@[simp] theorem weigh_enclosed (opening separator closing : String) (xs : List Expr) :
    weigh (enclosed opening xs separator closing) = weights xs := by
  simp [enclosed]

@[simp] theorem weigh_statement (x : Expr) : weigh (statement x) = sizeOf x := by
  simp [statement]

@[simp] theorem weigh_body (xs : List Expr) : weigh (body xs) = weights xs :=
  weigh_flatMap weigh_statement xs

@[simp] theorem weigh_ending : weigh ending = 0 := by
  simp [ending]

@[simp] theorem weigh_arm (word : Keyword) (a : Arm) : weigh (arm word a) = a.weight := by
  simp [arm, Arm.weight]

@[simp] theorem weigh_otherwise (last : Option (List Expr)) :
    weigh (otherwise last) = weights (last.getD []) := by
  cases last <;> simp [otherwise]

/-- The later arms of a conditional, with the last alternative, have the weight of their chain. -/
theorem weigh_chain (arms : List Arm) (last : Option (List Expr)) :
    weigh (arms.flatMap fun a => newline .here ++ arm .elseifWord a) + weigh (otherwise last) =
      chainWeight arms last := by
  induction arms with
  | nil => simp
  | cons a arms ih =>
    rw [chainWeight_cons, ← ih]
    simp [Nat.add_assoc]

@[simp] theorem weigh_moduleForms (xs : List Expr) : weigh (moduleForms xs) = weights xs := by
  cases xs with
  | nil => rfl
  | cons x xs =>
    rw [moduleForms, weigh_append, weigh_statement, weigh_flatMap (by simp), weights_cons]

@[simp] theorem weigh_entry (x : Expr) : weigh (entry x) = sizeOf x := by
  simp [entry]

@[simp] theorem weigh_operand (c : Connective) (x : Expr) : weigh (operand c x) = sizeOf x := by
  unfold operand
  split <;> simp

/-- What is unquoted weighs no more than its expression, because a name is written as a text. -/
theorem weigh_unquoted_le (x : Expr) : weigh (unquoted x) ≤ sizeOf x := by
  unfold unquoted
  split <;> simp

@[simp] theorem weigh_bindings (xs : List Expr) : weigh (bindings xs) = weights xs := by
  cases xs <;> simp [bindings]

@[simp] theorem weigh_definitionBody (xs : Option (List Expr)) :
    weigh (definitionBody xs) = weights (xs.getD []) := by
  cases xs <;> simp [definitionBody]

@[simp] theorem weigh_block (xs : List Expr) : weigh (block xs) = weights xs := by
  unfold block
  split <;> simp

/-- **A script is not heavier than its form.** -/
theorem weigh_script_le (f : Form) : weigh f.script ≤ f.weight := by
  cases f with
  | unquote x => exact weigh_unquoted_le x
  | mapping xs =>
    have hentries := weigh_intercalate weigh_entry [.text ",\n"] rfl xs
    simp [Form.script, Form.weight, hentries]
  | conditional word first more last =>
    simp [Form.script, Form.weight, Script.conditional, ← weigh_chain]
  | logical c xs =>
    have hoperands := weigh_intercalate (weigh_operand c) [.text (" " ++ c.kind.name ++ " ")] rfl xs
    simp [Form.script, Form.weight, hoperands]
  | toplevel xs =>
    have hitems := weigh_intercalate (g := fun x => [.slot (.sub x .here)]) (by simp)
      (newline .here) (weigh_newline .here) xs
    simp [Form.script, Form.weight, hitems]
  | typed x y => cases x <;> simp [Form.script, Form.weight]
  | _ => simp [Form.script, Form.weight, infixed]

end Script

/-- The slots of the script of an expression hold less than the expression. -/
theorem Expr.weigh_script_lt {x : Expr} {f : Form} (h : x.form? = some f) (level : Int) :
    Script.weigh (f.script.place level) < sizeOf x := by
  rw [Script.weigh_place]
  exact Nat.lt_of_le_of_lt (Script.weigh_script_le f) (weight_form?_lt h)

end ExprPrinter
