import ExprPrinter.Layout
import ExprPrinter.Proofs.Script.Views

/-!
# Other subexpressions in the same form

The script and the layout of a form treat its subexpressions as something to be
filled in later.  So when each subexpression is replaced by another one, the
same happens in the script and in the layout, and nothing else: `script_replace`
and `layout_replace`.

Two things about a subexpression do show in them.  An operand is bracketed if
it has the opposite operator, and an unquoted name is not bracketed.  A
replacement has to leave them as they are, and `KeepsLooks` says so.
-/

namespace ExprPrinter

variable {μ ν : Type} {g : Expr → Expr}

/-! ## Replacing subexpressions -/

/-- A slot with its subexpression replaced. -/
def Slot.replace (g : Expr → Expr) : Slot μ → Slot μ
  | indent m => indent m
  | sub x m => sub (g x) m

/-- It makes no difference whether a slot is moved before or after. -/
theorem Slot.replace_move (f : μ → ν) (s : Slot μ) :
    (s.move f).replace g = (s.replace g).move f := by
  cases s <;> rfl

/-- A piece with its subexpression replaced. -/
def Piece.replace (g : Expr → Expr) : Piece μ → Piece μ
  | text s => text s
  | slot s => slot (s.replace g)

/-- Nor for a piece. -/
theorem Piece.replace_move (f : μ → ν) (p : Piece μ) :
    (p.move f).replace g = (p.replace g).move f := by
  cases p with
  | text s => rfl
  | slot s => exact congrArg Piece.slot (s.replace_move f)

/-- Pieces with their subexpressions replaced. -/
def Script.replace (g : Expr → Expr) (ps : List (Piece μ)) : List (Piece μ) :=
  ps.map (Piece.replace g)

/-- A layout with its subexpressions replaced. -/
def Layout.replace (g : Expr → Expr) (l : Document (Slot μ)) : Document (Slot μ) :=
  l.map (Slot.replace g)

/-- An arm with its expressions replaced. -/
def Arm.replace (g : Expr → Expr) (a : Arm) : Arm :=
  ⟨g a.condition, a.body.map g⟩

/-- A form with its subexpressions replaced. -/
def Form.replace (g : Expr → Expr) : Form → Form
  | leaf category s => leaf category s
  | ratio n d => ratio (g n) (g d)
  | pair a b => pair (g a) (g b)
  | tuple items => tuple (items.map g)
  | vector items => vector (items.map g)
  | mapping entries => mapping (entries.map g)
  | quotation items => quotation (items.map g)
  | unquote x => unquote (g x)
  | splat x => splat (g x)
  | block statements => block (statements.map g)
  | conditional word first more last =>
    conditional word (first.replace g) (more.map (Arm.replace g)) (last.map (List.map g))
  | comparison items => comparison (items.map g)
  | letBlock bindings body => letBlock (bindings.map g) (body.map g)
  | definition definer signature body => definition definer (g signature) (body.map (List.map g))
  | lambda parameters body => lambda (g parameters) (g body)
  | assignment place value => assignment (g place) (g value)
  | index container places => index (g container) (places.map g)
  | range items => range (items.map g)
  | moduleDef name forms => moduleDef (g name) (forms.map g)
  | importing word names => importing word (names.map g)
  | exporting names => exporting (names.map g)
  | member owner field => member (g owner) (g field)
  | typed owner type => typed (owner.map g) (g type)
  | generic base parameters => generic (g base) (parameters.map g)
  | logical c operands => logical c (operands.map g)
  | call callee arguments => call (g callee) (arguments.map g)
  | macroCall callee arguments => macroCall (g callee) (arguments.map g)
  | toplevel items => toplevel (items.map g)

/-- A replacement that keeps what the script and the layout of a form look at. -/
structure KeepsLooks (g : Expr → Expr) : Prop where
  sym (name : String) : g (.sym name) = .sym name
  ne_sym {x : Expr} (h : ∀ name, x ≠ .sym name) (name : String) : g x ≠ .sym name
  isKind (x : Expr) (c : Connective) : (g x).isKind c.kind = x.isKind c.kind

/-! ## Scripts -/

namespace Script

@[simp] theorem replace_nil : replace g ([] : List (Piece μ)) = [] := rfl

@[simp] theorem replace_text (s : String) (ps : List (Piece μ)) :
    replace g (.text s :: ps) = .text s :: replace g ps := rfl

@[simp] theorem replace_slot (s : Slot μ) (ps : List (Piece μ)) :
    replace g (.slot s :: ps) = .slot (s.replace g) :: replace g ps := rfl

@[simp] theorem replace_append (ps qs : List (Piece μ)) :
    replace g (ps ++ qs) = replace g ps ++ replace g qs :=
  List.map_append

/-- A script may be put at its level before or after. -/
theorem replace_place (base : Int) (s : Script) :
    replace g (s.place base) = place base (replace g s) := by
  simp [replace, place, Piece.replace_move]

/-- If the script for one thing is replaced by that for another, then so for several. -/
theorem replace_flatMap {ι κ : Type} {h : ι → Script} {k : κ → Script} {f : ι → κ}
    (hk : ∀ i, replace g (h i) = k (f i)) (is : List ι) :
    replace g (is.flatMap h) = (is.map f).flatMap k := by
  induction is with
  | nil => rfl
  | cons i is ih => simp [hk, ih]

/-- The same with separators in between. -/
theorem replace_intercalate {s : Script} {h k : Expr → Script} (hs : replace g s = s)
    (hk : ∀ x, replace g (h x) = k (g x)) (xs : List Expr) :
    replace g (s.intercalate (xs.map h)) = s.intercalate ((xs.map g).map k) := by
  induction xs with
  | nil => rfl
  | cons x xs ih =>
    cases xs with
    | nil => simp [hk]
    | cons y ys =>
      rw [List.map_cons, List.map_cons] at ih
      simp [List.intercalate_cons_cons, hk, hs, ih]

@[simp] theorem replace_phrase (x : Expr) (ps : Script) :
    replace g (phrase x :: ps) = phrase (g x) :: replace g ps := rfl

@[simp] theorem replace_newline (m : Margin) : replace g (newline m) = newline m := rfl

@[simp] theorem replace_joined (separator : String) (xs : List Expr) :
    replace g (joined separator xs) = joined separator (xs.map g) :=
  replace_intercalate rfl (fun _ => rfl) xs

@[simp] theorem replace_enclosed (opening : String) (xs : List Expr) (separator closing : String) :
    replace g (enclosed opening xs separator closing) =
      enclosed opening (xs.map g) separator closing := by
  simp [enclosed]

@[simp] theorem replace_infixed (x : Expr) (operator : String) (y : Expr) :
    replace g (infixed x operator y) = infixed (g x) operator (g y) := rfl

@[simp] theorem replace_body (xs : List Expr) : replace g (body xs) = body (xs.map g) :=
  replace_flatMap (k := statement) (f := g) (fun _ => rfl) xs

@[simp] theorem replace_ending : replace g ending = ending := rfl

@[simp] theorem replace_arm (word : Keyword) (a : Arm) :
    replace g (arm word a) = arm word (a.replace g) := by
  simp [arm, Arm.replace]

@[simp] theorem replace_otherwise (last : Option (List Expr)) :
    replace g (otherwise last) = otherwise (last.map (List.map g)) := by
  cases last <;> simp [otherwise]

@[simp] theorem replace_conditional (word : Keyword) (first : Arm) (more : List Arm)
    (last : Option (List Expr)) :
    replace g (conditional word first more last) =
      conditional word (first.replace g) (more.map (Arm.replace g)) (last.map (List.map g)) := by
  have hmore := replace_flatMap (g := g) (f := Arm.replace g)
    (h := fun a => newline .here ++ arm .elseifWord a)
    (k := fun a => newline .here ++ arm .elseifWord a) (by simp) more
  simp [conditional, hmore]

@[simp] theorem replace_moduleForms (xs : List Expr) :
    replace g (moduleForms xs) = moduleForms (xs.map g) := by
  cases xs with
  | nil => rfl
  | cons x xs =>
    have hstatement : ∀ y, replace g (statement y) = statement (g y) := fun _ => rfl
    have hmore := replace_flatMap (g := g) (f := g) (h := fun y => .text "\n" :: statement y)
      (k := fun y => .text "\n" :: statement y) (by simp [hstatement]) xs
    simp [moduleForms, hstatement, hmore]

@[simp] theorem replace_bindings (xs : List Expr) :
    replace g (bindings xs) = bindings (xs.map g) := by
  cases xs <;> simp [bindings]

@[simp] theorem replace_definitionBody (xs : Option (List Expr)) :
    replace g (definitionBody xs) = definitionBody (xs.map (List.map g)) := by
  cases xs <;> simp [definitionBody]

@[simp] theorem replace_block (xs : List Expr) :
    replace g (block xs) = block (xs.map g) := by
  rcases xs with _ | ⟨x, _ | ⟨y, more⟩⟩
  · rfl
  · rfl
  · simp [block]

/-- An operand is in brackets before if and only if it is so after. -/
theorem replace_operand (hg : KeepsLooks g) (c : Connective) (x : Expr) :
    replace g (operand c x) = operand c (g x) := by
  unfold operand
  rw [hg.isKind]
  split <;> rfl

/-- A name that is unquoted stays a name. -/
theorem replace_unquoted (hg : KeepsLooks g) (x : Expr) :
    replace g (unquoted x) = unquoted (g x) := by
  by_cases hx : ∃ name, x = .sym name
  · obtain ⟨name, rfl⟩ := hx
    rw [hg.sym]
    rfl
  · have hne : ∀ name, x ≠ .sym name := fun name heq => hx ⟨name, heq⟩
    rw [unquoted_of_ne_sym hne, unquoted_of_ne_sym (hg.ne_sym hne)]
    rfl

end Script

/-- The script of a form, with other subexpressions in it. -/
theorem Form.script_replace (hg : KeepsLooks g) (f : Form) :
    (f.replace g).script = Script.replace g f.script := by
  cases f with
  | mapping entries =>
    have hentries := Script.replace_intercalate (g := g) (s := [.text ",\n"])
      (h := Script.entry) (k := Script.entry) rfl (fun _ => rfl) entries
    simp [replace, script, hentries]
  | unquote x => exact (Script.replace_unquoted hg x).symm
  | logical c operands =>
    exact (Script.replace_intercalate rfl (Script.replace_operand hg c) operands).symm
  | toplevel items => exact (Script.replace_intercalate rfl (fun _ => rfl) items).symm
  | typed owner type => cases owner <;> simp [replace, script]
  | _ => simp [replace, script]

/-! ## Layouts -/

namespace Document

variable {α β γ : Type}

mutual

/-- Mapping twice is mapping once. -/
theorem map_map (f : α → β) (h : β → γ) :
    ∀ d : Document α, (d.map f).map h = d.map fun a => h (f a)
  | text s => by simp only [map]
  | tagged _ ds => by simp only [map, mapAll_mapAll f h ds]
  | run ds => by simp only [map, mapAll_mapAll f h ds]
  | slot a => by simp only [map]

/-- The same for several documents. -/
theorem mapAll_mapAll (f : α → β) (h : β → γ) :
    ∀ ds : List (Document α), mapAll h (mapAll f ds) = mapAll (fun a => h (f a)) ds
  | [] => by simp only [mapAll]
  | d :: ds => by simp only [mapAll, map_map f h d, mapAll_mapAll f h ds]

end

end Document

namespace Layout

open Document

/-- A layout may be put at its level before or after. -/
theorem replace_place (base : Int) (l : Layout) :
    replace g (l.place base) = place base (replace g l) := by
  simp only [replace, place, map_map, Slot.replace_move]

@[simp] theorem replace_text (s : String) : replace g (.text s : Layout) = .text s := by
  simp only [replace, map]

@[simp] theorem replace_indent (m : Margin) :
    replace g (.slot (.indent m) : Layout) = .slot (.indent m) := by
  simp only [replace, map, Slot.replace]

@[simp] theorem replace_sub (x : Expr) (m : Margin) :
    replace g (.slot (.sub x m) : Layout) = .slot (.sub (g x) m) := by
  simp only [replace, map, Slot.replace]

@[simp] theorem replace_run (ls : List Layout) :
    replace g (.run ls : Layout) = .run (ls.map (replace g)) := by
  simp only [replace, map, mapAll_eq_map]
  rfl

@[simp] theorem replace_unit (c : Category) (ls : List Layout) :
    replace g (unit c ls) = unit c (ls.map (replace g)) := by
  simp only [replace, unit, map, mapAll_eq_map]
  rfl

@[simp] theorem replace_token (c : Category) (s : String) :
    replace g (token c s) = token c s := by
  simp only [replace, token, map, mapAll]

@[simp] theorem replace_embed (x : Expr) : replace g (embed x) = embed (g x) :=
  replace_sub x .edge

@[simp] theorem replace_reserved (w : Keyword) : replace g (reserved w) = reserved w :=
  replace_token .reserved w.word

@[simp] theorem replace_bracket (s : String) : replace g (bracket s) = bracket s :=
  replace_token .paren s

@[simp] theorem replace_operator (s : String) : replace g (operator s) = operator s :=
  replace_token .otherOperator s

@[simp] theorem replace_comma : replace g comma = comma :=
  replace_token .comma ","

@[simp] theorem replace_dot : replace g dot = dot :=
  replace_token .dotOperator "."

@[simp] theorem replace_blankSpace : replace g blankSpace = blankSpace :=
  replace_text " "

@[simp] theorem replace_lineBreak : replace g lineBreak = lineBreak :=
  replace_text "\n"

@[simp] theorem map_replace_newline (m : Margin) :
    (newline m).map (replace g) = newline m := by
  simp [newline]

/-- If the layouts for one thing are replaced by those for another, then so for several. -/
theorem map_replace_flatMap {ι κ : Type} {h : ι → List Layout} {k : κ → List Layout} {f : ι → κ}
    (hk : ∀ i, (h i).map (replace g) = k (f i)) (is : List ι) :
    (is.flatMap h).map (replace g) = (is.map f).flatMap k := by
  induction is with
  | nil => rfl
  | cons i is ih => simp [hk, ih]

/-- The same with separators in between. -/
theorem map_replace_interpose {s : List Layout} {h k : Expr → Layout} (hs : s.map (replace g) = s)
    (hk : ∀ x, replace g (h x) = k (g x)) (xs : List Expr) :
    (interpose s (xs.map h)).map (replace g) = interpose s ((xs.map g).map k) := by
  induction xs with
  | nil => rfl
  | cons x xs ih =>
    cases xs with
    | nil => simp [interpose, hk]
    | cons y ys =>
      rw [List.map_cons, List.map_cons] at ih
      simp [interpose, hk, hs, ih]

@[simp] theorem map_replace_joined {s : List Layout} (hs : s.map (replace g) = s)
    (xs : List Expr) : (joined s xs).map (replace g) = joined s (xs.map g) :=
  map_replace_interpose hs replace_embed xs

@[simp] theorem map_replace_enclosed (opening : String) {s : List Layout}
    (hs : s.map (replace g) = s) (xs : List Expr) (closing : String) :
    (enclosed opening s xs closing).map (replace g) = enclosed opening s (xs.map g) closing := by
  simp [enclosed, hs]

@[simp] theorem map_replace_statement (x : Expr) :
    (statement x).map (replace g) = statement (g x) := by
  simp [statement]

@[simp] theorem map_replace_body (xs : List Expr) :
    (body xs).map (replace g) = body (xs.map g) :=
  map_replace_flatMap map_replace_statement xs

@[simp] theorem map_replace_ending : ending.map (replace g) = ending := by
  simp [ending]

@[simp] theorem map_replace_arm (word : Keyword) (a : Arm) :
    (arm word a).map (replace g) = arm word (a.replace g) := by
  simp [arm, Arm.replace]

@[simp] theorem map_replace_otherwise (last : Option (List Expr)) :
    (otherwise last).map (replace g) = otherwise (last.map (List.map g)) := by
  cases last <;> simp [otherwise]

@[simp] theorem map_replace_conditional (word : Keyword) (first : Arm) (more : List Arm)
    (last : Option (List Expr)) :
    (conditional word first more last).map (replace g) =
      conditional word (first.replace g) (more.map (Arm.replace g)) (last.map (List.map g)) := by
  have hmore := map_replace_flatMap (g := g) (f := Arm.replace g)
    (h := fun a => newline .here ++ arm .elseifWord a)
    (k := fun a => newline .here ++ arm .elseifWord a) (by simp) more
  simp [conditional, hmore]

@[simp] theorem map_replace_moduleForms (xs : List Expr) :
    (moduleForms xs).map (replace g) = moduleForms (xs.map g) := by
  cases xs with
  | nil => rfl
  | cons x xs =>
    have hmore := map_replace_flatMap (g := g) (f := g) (h := fun y => lineBreak :: statement y)
      (k := fun y => lineBreak :: statement y) (by simp) xs
    simp [moduleForms, hmore]

@[simp] theorem map_replace_definitionBody (xs : Option (List Expr)) :
    (definitionBody xs).map (replace g) = definitionBody (xs.map (List.map g)) := by
  cases xs <;> simp [definitionBody]

@[simp] theorem map_replace_block (xs : List Expr) :
    (block xs).map (replace g) = block (xs.map g) := by
  rcases xs with _ | ⟨x, _ | ⟨y, more⟩⟩ <;> simp [block]

/-- An operand is in brackets before if and only if it is so after. -/
theorem replace_operand (hg : KeepsLooks g) (c : Connective) (x : Expr) :
    replace g (operand c x) = operand c (g x) := by
  unfold operand
  rw [hg.isKind]
  split <;> simp

/-- What is no name is unquoted in brackets. -/
theorem unquoted_of_ne_sym {x : Expr} (h : ∀ n, x ≠ .sym n) :
    unquoted x = [bracket "(", embed x, bracket ")"] := by
  cases x with
  | sym n => exact absurd rfl (h n)
  | _ => rfl

/-- A name that is unquoted stays a name. -/
theorem map_replace_unquoted (hg : KeepsLooks g) (x : Expr) :
    (unquoted x).map (replace g) = unquoted (g x) := by
  by_cases hx : ∃ name, x = .sym name
  · obtain ⟨name, rfl⟩ := hx
    rw [hg.sym]
    simp [unquoted]
  · have hne : ∀ name, x ≠ .sym name := fun name heq => hx ⟨name, heq⟩
    rw [unquoted_of_ne_sym hne, unquoted_of_ne_sym (hg.ne_sym hne)]
    simp

end Layout

/-- The layout of a form, with other subexpressions in it. -/
theorem Form.layout_replace (hg : KeepsLooks g) (f : Form) :
    (f.replace g).layout = Layout.replace g f.layout := by
  cases f with
  | mapping entries =>
    have hentries := Layout.map_replace_interpose (g := g)
      (s := [Layout.comma, Layout.lineBreak]) (h := Layout.entry) (k := Layout.entry) (by simp)
      (by simp [Layout.entry]) entries
    simp [replace, layout, hentries]
  | unquote x => simp [replace, layout, Layout.map_replace_unquoted hg]
  | letBlock bindings statements => cases bindings <;> simp [replace, layout]
  | logical c operands =>
    have hoperands := Layout.map_replace_interpose
      (s := [Layout.blankSpace, Layout.operator c.kind.name, Layout.blankSpace]) (by simp)
      (Layout.replace_operand hg c) operands
    simp [replace, layout, hoperands]
  | toplevel items =>
    have hitems := Layout.map_replace_interpose (g := g) (s := Layout.newline .here)
      (h := fun x => .slot (.sub x .here)) (k := fun x => .slot (.sub x .here)) (by simp)
      (by simp) items
    simp [replace, layout, hitems]
  | typed owner type => cases owner <;> simp [replace, layout]
  | _ => simp [replace, layout]

end ExprPrinter
