import ExprPrinter.Sentinel

/-!
# The subexpressions in a script

A script takes up the expressions of its form, each of them once and in the order in
which they are written.  There is one equation for each of the ways in which scripts
are put together.  The sizes of the subexpressions are bounded by the weight of the
script, so each of them is smaller than the expression that the script is for.
-/

namespace ExprPrinter

/-- The expressions of an arm. -/
def Arm.exprs (a : Arm) : List Expr :=
  a.condition :: a.body

/-- The subexpression in a piece, if there is one. -/
def Piece.part? {μ : Type} : Piece μ → Option Expr
  | text _ => none
  | slot (.indent _) => none
  | slot (.sub x _) => some x

/-- The subexpressions in a script, from left to right. -/
def Script.parts (s : Script) : List Expr :=
  s.filterMap Piece.part?

namespace Script

@[simp] theorem parts_nil : parts [] = [] := rfl

@[simp] theorem parts_text (t : String) (s : Script) : parts (.text t :: s) = parts s := rfl

@[simp] theorem parts_indent (m : Margin) (s : Script) :
    parts (.slot (.indent m) :: s) = parts s := rfl

@[simp] theorem parts_sub (x : Expr) (m : Margin) (s : Script) :
    parts (.slot (.sub x m) :: s) = x :: parts s := rfl

@[simp] theorem parts_phrase (x : Expr) (s : Script) : parts (phrase x :: s) = x :: parts s := rfl

@[simp] theorem parts_append (s t : Script) : parts (s ++ t) = parts s ++ parts t :=
  List.filterMap_append

/-- The parts of several scripts come one after the other. -/
theorem parts_flatMap {ι : Type} (g : ι → Script) (is : List ι) :
    parts (is.flatMap g) = is.flatMap fun i => parts (g i) := by
  induction is with
  | nil => rfl
  | cons i is ih => rw [List.flatMap_cons, parts_append, ih, List.flatMap_cons]

/-- Separators without subexpressions do not count. -/
theorem parts_intercalate {separator : Script} (h : parts separator = []) (g : Expr → Script)
    (xs : List Expr) :
    parts (separator.intercalate (xs.map g)) = xs.flatMap fun x => parts (g x) := by
  induction xs with
  | nil => rfl
  | cons x xs ih =>
    cases xs with
    | nil => rw [List.map_cons, List.map_nil, List.intercalate_singleton, List.flatMap_singleton]
    | cons y xs =>
      rw [List.map_cons, List.map_cons, List.intercalate_cons_cons, ← List.map_cons (f := g),
        parts_append, parts_append, ih, h, List.append_nil]
      rfl

@[simp] theorem parts_newline (m : Margin) : parts (newline m) = [] := rfl

@[simp] theorem parts_joined (separator : String) (xs : List Expr) :
    parts (joined separator xs) = xs := by
  rw [joined, parts_intercalate rfl]
  exact List.flatMap_singleton' xs

@[simp] theorem parts_enclosed (opening : String) (xs : List Expr) (separator closing : String) :
    parts (enclosed opening xs separator closing) = xs := by
  simp [enclosed]

@[simp] theorem parts_infixed (x : Expr) (operator : String) (y : Expr) :
    parts (infixed x operator y) = [x, y] := rfl

@[simp] theorem parts_body (xs : List Expr) : parts (body xs) = xs := by
  rw [body, parts_flatMap]
  exact List.flatMap_singleton' xs

@[simp] theorem parts_ending : parts ending = [] := rfl

@[simp] theorem parts_arm (word : Keyword) (a : Arm) :
    parts (arm word a) = a.exprs := by
  simp [arm, Arm.exprs]

@[simp] theorem parts_otherwise (last : Option (List Expr)) :
    parts (otherwise last) = last.getD [] := by
  cases last <;> simp [otherwise]

@[simp] theorem parts_conditional (word : Keyword) (first : Arm) (more : List Arm)
    (last : Option (List Expr)) :
    parts (conditional word first more last) =
      (first :: more).flatMap Arm.exprs ++ last.getD [] := by
  simp [conditional, parts_flatMap]

@[simp] theorem parts_moduleForms (xs : List Expr) : parts (moduleForms xs) = xs := by
  cases xs with
  | nil => rfl
  | cons x xs =>
    have hmore : parts (xs.flatMap fun y => .text "\n" :: statement y) = xs := by
      rw [parts_flatMap]
      exact List.flatMap_singleton' xs
    rw [moduleForms, parts_append, hmore]
    rfl

@[simp] theorem parts_bindings (xs : List Expr) : parts (bindings xs) = xs := by
  cases xs with
  | nil => rfl
  | cons x xs => exact parts_joined ", " (x :: xs)

@[simp] theorem parts_definitionBody (xs : Option (List Expr)) :
    parts (definitionBody xs) = xs.getD [] := by
  cases xs <;> simp [definitionBody]

@[simp] theorem parts_block (xs : List Expr) : parts (block xs) = xs := by
  unfold block
  split <;> simp

@[simp] theorem parts_operand (c : Connective) (x : Expr) : parts (operand c x) = [x] := by
  rw [operand]
  split
  · rfl
  · rfl

/-- An unquoted name is written out, and every other expression is taken up. -/
theorem parts_unquoted_subset (x : Expr) : parts (unquoted x) ⊆ [x] := by
  unfold unquoted
  split
  · exact List.nil_subset _
  · exact List.Subset.refl _

/-- The parts of a mapping are its entries. -/
theorem parts_mapping (entries : List Expr) : parts (Form.mapping entries).script = entries := by
  have hcomma : parts [.text ",\n"] = [] := rfl
  rw [Form.script, parts_append, parts_text, parts_intercalate hcomma, parts_text, parts_nil,
    List.append_nil]
  exact List.flatMap_singleton' entries

/-- The parts of a call are the callee and the arguments. -/
theorem parts_call (callee : Expr) (xs : List Expr) :
    parts (Form.call callee xs).script = callee :: xs := by
  simp [Form.script]

/-- The parts of a logical operator are its operands. -/
theorem parts_logical (c : Connective) (xs : List Expr) :
    parts (Form.logical c xs).script = xs := by
  rw [Form.script, parts_intercalate rfl]
  simp only [parts_operand]
  exact List.flatMap_singleton' xs

/-- The parts of toplevel forms are these forms. -/
theorem parts_toplevel (xs : List Expr) : parts (Form.toplevel xs).script = xs := by
  rw [Form.script, parts_intercalate rfl]
  exact List.flatMap_singleton' xs

/-- A part is not larger than the weight of the script. -/
theorem sizeOf_le_of_mem_parts {s : Script} {y : Expr} (h : y ∈ s.parts) :
    sizeOf y ≤ weigh s := by
  obtain ⟨p, hp, hy⟩ := List.mem_filterMap.mp h
  have hweight : sizeOf y = p.weight := by
    cases p with
    | text t => cases hy
    | slot t =>
      cases t with
      | indent m => cases hy
      | sub x m =>
        cases hy
        rfl
  rw [hweight]
  clear h hy hweight
  induction s with
  | nil => cases hp
  | cons q s ih =>
    rw [weigh]
    rcases List.mem_cons.mp hp with rfl | hs
    · omega
    · have hle := ih hs
      omega

end Script

/-- So the parts of the script of an expression are smaller than the expression. -/
theorem Expr.sizeOf_lt_of_mem_parts {x y : Expr} {f : Form} (hf : x.form? = some f)
    (hy : y ∈ f.script.parts) : sizeOf y < sizeOf x := by
  have hpart := Script.sizeOf_le_of_mem_parts hy
  have hscript := Expr.weigh_script_lt hf 0
  rw [Script.weigh_place] at hscript
  omega

end ExprPrinter
