import ExprPrinter.Form.Weight
import ExprPrinter.Layout

/-!
# The weight of a layout

The layout of a form holds each expression of the form once, or less than
once where a name is written out, so its slots weigh no more than the form,
which is less than the expression laid out: `Expr.weigh_layout_lt`.
-/

namespace ExprPrinter

namespace Document

variable {α : Type} (w : α → Nat)

@[simp] theorem weighAll_nil : weighAll w [] = 0 := by
  simp [weighAll]

@[simp] theorem weighAll_cons (d : Document α) (ds : List (Document α)) :
    weighAll w (d :: ds) = d.weigh w + weighAll w ds := by
  simp [weighAll]

/-- Separators without subexpressions add no weight. -/
theorem weighAll_interpose {separator : List (Document α)} (h : weighAll w separator = 0)
    (ds : List (Document α)) : weighAll w (interpose separator ds) = weighAll w ds := by
  fun_induction interpose separator ds with
  | case1 => rfl
  | case2 => rfl
  | case3 d e rest ih => simp [weighAll_append, ih, h]

end Document

namespace Layout

open Document

@[simp] theorem weigh_text (s : String) :
    (Document.text s : Layout).weigh Slot.weight = 0 := by
  simp [weigh]

@[simp] theorem weigh_unit (c : Category) (ds : List Layout) :
    (unit c ds).weigh Slot.weight = weighAll Slot.weight ds := by
  simp [unit, weigh]

@[simp] theorem weigh_token (c : Category) (s : String) :
    (token c s).weigh Slot.weight = 0 := by
  simp [token, weigh]

@[simp] theorem weigh_embed (x : Expr) : (embed x).weigh Slot.weight = sizeOf x := by
  simp [embed, weigh, Slot.weight]

@[simp] theorem weighAll_newline (m : Margin) : weighAll Slot.weight (newline m) = 0 := by
  simp [newline, lineBreak, weigh, Slot.weight]

/-- If the layout for one expression has its size for a weight, then the layouts for several have
the sizes of all. -/
theorem weighAll_map {g : Expr → Layout} (hg : ∀ x, (g x).weigh Slot.weight = sizeOf x)
    (xs : List Expr) : weighAll Slot.weight (xs.map g) = weights xs := by
  induction xs with
  | nil => simp
  | cons x xs ih => simp [hg, ih]

/-- Expressions that are joined by separators weigh what they weigh together. -/
theorem weighAll_joined {separator : List Layout} (h : weighAll Slot.weight separator = 0)
    (xs : List Expr) : weighAll Slot.weight (joined separator xs) = weights xs := by
  rw [joined, weighAll_interpose _ h, weighAll_map weigh_embed]

/-- Brackets add no weight. -/
theorem weighAll_enclosed {separator : List Layout} (h : weighAll Slot.weight separator = 0)
    (opening closing : String) (xs : List Expr) :
    weighAll Slot.weight (enclosed opening separator xs closing) = weights xs := by
  simp [enclosed, bracket, weighAll_append, weighAll_joined h]

@[simp] theorem weighAll_statement (x : Expr) : weighAll Slot.weight (statement x) = sizeOf x := by
  simp [statement, weighAll_append, weigh, Slot.weight]

/-- The same if several layouts come of each expression. -/
theorem weighAll_flatMap {g : Expr → List Layout}
    (hg : ∀ x, weighAll Slot.weight (g x) = sizeOf x) (xs : List Expr) :
    weighAll Slot.weight (xs.flatMap g) = weights xs := by
  induction xs with
  | nil => simp
  | cons x xs ih => simp [weighAll_append, hg, ih]

@[simp] theorem weighAll_body (xs : List Expr) : weighAll Slot.weight (body xs) = weights xs :=
  weighAll_flatMap weighAll_statement xs

@[simp] theorem weighAll_ending : weighAll Slot.weight ending = 0 := by
  simp [ending, weighAll_append, reserved]

@[simp] theorem weighAll_arm (word : Keyword) (a : Arm) :
    weighAll Slot.weight (arm word a) = a.weight := by
  simp [arm, reserved, blankSpace, Arm.weight]

@[simp] theorem weighAll_otherwise (last : Option (List Expr)) :
    weighAll Slot.weight (otherwise last) = weights (last.getD []) := by
  cases last <;> simp [otherwise, weighAll_append, reserved]

/-- The later arms of a conditional, with the last alternative, have the weight of their chain. -/
theorem weighAll_chain (arms : List Arm) (last : Option (List Expr)) :
    weighAll Slot.weight (arms.flatMap fun a => newline .here ++ arm .elseifWord a) +
      weighAll Slot.weight (otherwise last) = chainWeight arms last := by
  induction arms with
  | nil => simp
  | cons a arms ih =>
    rw [chainWeight_cons, ← ih]
    simp [weighAll_append, Nat.add_assoc]

@[simp] theorem weighAll_moduleForms (xs : List Expr) :
    weighAll Slot.weight (moduleForms xs) = weights xs := by
  cases xs with
  | nil => simp [moduleForms]
  | cons x xs =>
    simp only [moduleForms, weighAll_append, weighAll_statement, weights_cons]
    rw [weighAll_flatMap (fun y => by simp [lineBreak])]

@[simp] theorem weigh_entry (x : Expr) : (entry x).weigh Slot.weight = sizeOf x := by
  simp [entry, weigh, Slot.weight]

@[simp] theorem weigh_operand (c : Connective) (x : Expr) :
    (operand c x).weigh Slot.weight = sizeOf x := by
  unfold operand
  split <;> simp [weigh, bracket]

/-- What is unquoted weighs no more than its expression, because a name is written as a text. -/
theorem weighAll_unquoted_le (x : Expr) : weighAll Slot.weight (unquoted x) ≤ sizeOf x := by
  unfold unquoted
  split <;> simp [bracket]

@[simp] theorem weighAll_definitionBody (xs : Option (List Expr)) :
    weighAll Slot.weight (definitionBody xs) = weights (xs.getD []) := by
  cases xs <;> simp [definitionBody, weighAll_append, blankSpace, reserved]

@[simp] theorem weighAll_block (xs : List Expr) :
    weighAll Slot.weight (block xs) = weights xs := by
  unfold block
  split <;> simp [weigh, Slot.weight, weighAll_append, reserved]

/-- **A layout is not heavier than its form.** -/
theorem weigh_layout_le (f : Form) : f.layout.weigh Slot.weight ≤ f.weight := by
  cases f with
  | unquote x => simpa [Form.layout, Form.weight] using weighAll_unquoted_le x
  | tuple xs => simp [Form.layout, Form.weight, weighAll_enclosed, comma]
  | vector xs => simp [Form.layout, Form.weight, weighAll_enclosed, comma]
  | mapping xs =>
    simp [Form.layout, Form.weight, weighAll_append, weighAll_interpose, weighAll_map, comma,
      lineBreak, bracket]
  | quotation xs => simp [Form.layout, Form.weight, weighAll_enclosed, lineBreak]
  | conditional word first more last =>
    simp [Form.layout, Form.weight, Layout.conditional, weighAll_append,
      ← weighAll_chain]
  | comparison xs => simp [Form.layout, Form.weight, weighAll_enclosed, blankSpace]
  | letBlock xs ys =>
    cases xs <;>
      simp [Form.layout, Form.weight, weighAll_append, weighAll_joined, reserved, blankSpace,
        comma]
  | index x xs => simp [Form.layout, Form.weight, weighAll_enclosed, comma]
  | range xs => simp [Form.layout, Form.weight, weighAll_joined, operator]
  | importing word xs =>
    simp [Form.layout, Form.weight, weighAll_joined, reserved, blankSpace, dot]
  | exporting xs =>
    simp [Form.layout, Form.weight, weighAll_joined, reserved, blankSpace, comma]
  | typed x y => cases x <;> simp [Form.layout, Form.weight, operator]
  | generic x xs => simp [Form.layout, Form.weight, weighAll_enclosed, comma, blankSpace]
  | logical c xs =>
    simp [Form.layout, Form.weight, weighAll_interpose, weighAll_map, blankSpace, operator]
  | call x xs => simp [Form.layout, Form.weight, weighAll_enclosed, comma, blankSpace]
  | macroCall x xs => simp [Form.layout, Form.weight, weighAll_enclosed, comma, blankSpace]
  | toplevel xs =>
    have hitems : weighAll Slot.weight
        (interpose (newline .here) (xs.map fun x => .slot (.sub x .here))) = weights xs := by
      rw [weighAll_interpose _ (weighAll_newline _),
        weighAll_map (fun x => by simp [weigh, Slot.weight])]
    simp only [Form.layout, Form.weight, weigh_unit]
    exact Nat.le_of_eq hitems
  | _ =>
    simp [Form.layout, Form.weight, weighAll_append, reserved, blankSpace, operator, dot]

/-- Putting a layout at a level does not change its weight. -/
theorem weigh_place (base : Int) (l : Layout) :
    (l.place base).weigh Slot.weight = l.weigh Slot.weight := by
  simp [place, weigh_map, Slot.weight_move]

end Layout

/-- The slots of the layout of an expression hold less than the expression. -/
theorem Expr.weigh_layout_lt {x : Expr} {f : Form} (h : x.form? = some f) (level : Int) :
    (f.layout.place level).weigh Slot.weight < sizeOf x := by
  rw [Layout.weigh_place]
  exact Nat.lt_of_le_of_lt (Layout.weigh_layout_le f) (weight_form?_lt h)

end ExprPrinter
