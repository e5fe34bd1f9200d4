import ExprPrinter.Indent
import ExprPrinter.Layout

/-!
# What layouts are made of

The layout of a form is one unit.  For an atom it is a token, a unit with a text
and nothing else.  For all other forms it has parts, and these are of four sorts:
tokens, texts of spaces and line breaks, slots, and runs of such parts.  In front
of the parts there may be a mark, the colon of a quotation or the dollar sign of an
unquoted form: `Form.layout_cases`.

Whatever is to be said of all layouts can be said of these few sorts of parts.
-/

namespace ExprPrinter

/-- A text of spaces and line breaks only. -/
def IsSpacing (s : String) : Prop :=
  ∀ c ∈ s.toList, c = ' ' ∨ c = '\n'

instance (s : String) : Decidable (IsSpacing s) :=
  List.decidableBAll (fun c => c = ' ' ∨ c = '\n') s.toList

/-- Indentation is spacing. -/
theorem isSpacing_indentation (width level : Int) : IsSpacing (indentation width level) := by
  intro c hc
  rw [indentation, String.toList_ofList] at hc
  exact .inl (List.eq_of_mem_replicate hc)

/-- The mark in front of the parts of a unit with the given path, if it has one. -/
def frontMark (path : String) : Option String :=
  if path = Category.quoted.path then some ":"
  else if path = Category.unquoted.path then some "$"
  else none

/-- No symbol is an error. -/
theorem Category.ofSymbol_ne_error (name : String) : ofSymbol name ≠ error := by
  unfold ofSymbol
  repeat' split
  all_goals decide

/-- No definition is an error. -/
theorem Definer.category_ne_error (definer : Definer) : definer.category ≠ .error := by
  cases definer <;> decide

namespace Layout

/-- The parts that units are made of. -/
inductive IsPart : Layout → Prop
  | token {c : Category} (hc : c ≠ .error) (s : String) : IsPart (token c s)
  | spacing {s : String} (hs : IsSpacing s) : IsPart (.text s)
  | slot (s : Slot Margin) : IsPart (.slot s)
  | run {ls : List Layout} (h : ∀ l ∈ ls, IsPart l) : IsPart (.run ls)

/-- Parts of a unit, one after the other. -/
def AreParts (ls : List Layout) : Prop :=
  ∀ l ∈ ls, IsPart l

@[simp] theorem areParts_nil : AreParts [] :=
  List.forall_mem_nil _

@[simp] theorem areParts_cons (l : Layout) (ls : List Layout) :
    AreParts (l :: ls) ↔ IsPart l ∧ AreParts ls :=
  List.forall_mem_cons

@[simp] theorem areParts_append (ls ms : List Layout) :
    AreParts (ls ++ ms) ↔ AreParts ls ∧ AreParts ms :=
  List.forall_mem_append

/-- Parts for each of some things are parts. -/
theorem areParts_map {ι : Type} {g : ι → Layout} (hg : ∀ i, IsPart (g i)) (is : List ι) :
    AreParts (is.map g) :=
  List.forall_mem_map.mpr fun i _ => hg i

/-- The same if there are several for each. -/
theorem areParts_flatMap {ι : Type} {g : ι → List Layout} (hg : ∀ i, AreParts (g i))
    (is : List ι) : AreParts (is.flatMap g) := by
  intro l hl
  obtain ⟨i, _, hi⟩ := List.mem_flatMap.mp hl
  exact hg i l hi

/-- Separators between parts are parts, if they are so alone. -/
theorem areParts_interpose {separator : List Layout} (hs : AreParts separator)
    {ls : List Layout} (hls : AreParts ls) : AreParts (interpose separator ls) := by
  fun_induction interpose separator ls with
  | case1 => exact hls
  | case2 l => exact hls
  | case3 l m rest ih =>
    rw [areParts_cons] at hls ⊢
    exact ⟨hls.1, (areParts_append _ _).mpr ⟨hs, ih hls.2⟩⟩

@[simp] theorem isPart_slot (s : Slot Margin) : IsPart (.slot s) :=
  .slot s

@[simp] theorem isPart_token {c : Category} (hc : c ≠ .error) (s : String) : IsPart (token c s) :=
  .token hc s

@[simp] theorem isPart_embed (x : Expr) : IsPart (embed x) :=
  .slot _

@[simp] theorem isPart_reserved (w : Keyword) : IsPart (reserved w) :=
  .token (by decide) _

@[simp] theorem isPart_bracket (s : String) : IsPart (bracket s) :=
  .token (by decide) _

@[simp] theorem isPart_operator (s : String) : IsPart (operator s) :=
  .token (by decide) _

@[simp] theorem isPart_comma : IsPart comma :=
  .token (by decide) _

@[simp] theorem isPart_dot : IsPart dot :=
  .token (by decide) _

@[simp] theorem isPart_blankSpace : IsPart blankSpace :=
  .spacing (by decide)

@[simp] theorem isPart_lineBreak : IsPart lineBreak :=
  .spacing (by decide)

@[simp] theorem isPart_symbol (name : String) : IsPart (token (.ofSymbol name) name) :=
  .token (Category.ofSymbol_ne_error name) name

@[simp] theorem areParts_newline (m : Margin) : AreParts (newline m) := by
  simp [newline]

@[simp] theorem areParts_joined {separator : List Layout} (hs : AreParts separator)
    (xs : List Expr) : AreParts (joined separator xs) :=
  areParts_interpose hs (areParts_map isPart_embed xs)

@[simp] theorem areParts_enclosed {separator : List Layout} (hs : AreParts separator)
    (opening closing : String) (xs : List Expr) :
    AreParts (enclosed opening separator xs closing) := by
  simp [enclosed, hs]

@[simp] theorem areParts_statement (x : Expr) : AreParts (statement x) := by
  simp [statement]

@[simp] theorem areParts_body (xs : List Expr) : AreParts (body xs) :=
  areParts_flatMap areParts_statement xs

@[simp] theorem areParts_ending : AreParts ending := by
  simp [ending]

@[simp] theorem areParts_arm (word : Keyword) (a : Arm) : AreParts (arm word a) := by
  simp [arm]

@[simp] theorem areParts_conditional (word : Keyword) (first : Arm) (more : List Arm)
    (last : Option (List Expr)) : AreParts (conditional word first more last) := by
  have hmore := areParts_flatMap (g := fun a => newline .here ++ arm .elseifWord a) (by simp) more
  cases last <;> simp [conditional, otherwise, hmore]

@[simp] theorem areParts_definitionBody (xs : Option (List Expr)) :
    AreParts (definitionBody xs) := by
  cases xs <;> simp [definitionBody]

@[simp] theorem areParts_block (xs : List Expr) : AreParts (block xs) := by
  unfold block
  split <;> simp

@[simp] theorem areParts_moduleForms (xs : List Expr) : AreParts (moduleForms xs) := by
  cases xs with
  | nil => exact areParts_nil
  | cons x xs =>
    have hmore := areParts_flatMap (g := fun y => lineBreak :: statement y) (by simp) xs
    simp [moduleForms, hmore]

/-- An entry of a mapping is a part. -/
theorem isPart_entry (x : Expr) : IsPart (entry x) := by
  have hentry : AreParts [.slot (.indent .deeper), .slot (.sub x .deeper)] := by simp
  exact .run hentry

/-- So is an operand, in brackets or not. -/
theorem isPart_operand (c : Connective) (x : Expr) : IsPart (operand c x) := by
  have hbrackets : AreParts [bracket "(", embed x, bracket ")"] := by simp
  unfold operand
  split
  · exact .run hbrackets
  · exact isPart_embed x

@[simp] theorem areParts_unquoted (x : Expr) : AreParts (unquoted x) := by
  unfold unquoted
  split <;> simp

end Layout

/-- The parts of a form that is no atom: the category of its unit, and what the unit has in it after
the mark, if there is one. -/
structure Form.Assembled (f : Form) (c : Category) (parts : List Layout) : Prop where
  noError : c ≠ .error
  areParts : Layout.AreParts parts
  layout_eq : f.layout = Layout.unit c ((frontMark c.path).toList.map .text ++ parts)

namespace Form

open Layout

/-- A layout that is one unit without a mark is assembled of its parts. -/
theorem assembled {f : Form} {c : Category} {parts : List Layout} (hc : c ≠ .error)
    (hmark : frontMark c.path = none) (hparts : AreParts parts) (h : f.layout = unit c parts) :
    f.Assembled c parts := by
  refine ⟨hc, hparts, ?_⟩
  rw [hmark, h]
  rfl

/-- **Layouts and their parts.**  The layout of every form is a token, or a unit with parts. -/
theorem layout_cases (f : Form) :
    (∃ c s, f = leaf c s) ∨ ∃ (c : Category) (parts : List Layout), f.Assembled c parts := by
  cases f with
  | leaf c s => exact .inl ⟨c, s, rfl⟩
  | mapping entries =>
    have hentries : AreParts (interpose [comma, lineBreak] (entries.map entry)) :=
      areParts_interpose (by simp) (areParts_map isPart_entry entries)
    exact .inr ⟨_, _, assembled (by decide) (by decide) (by simp [hentries]) rfl⟩
  | logical c operands =>
    have hoperands : AreParts (interpose [blankSpace, operator c.kind.name, blankSpace]
        (operands.map (operand c))) :=
      areParts_interpose (by simp) (areParts_map (isPart_operand c) operands)
    exact .inr ⟨_, _, assembled (by decide) (by decide) hoperands rfl⟩
  | toplevel items =>
    have hitems : AreParts (interpose (newline .here) (items.map fun x => .slot (.sub x .here))) :=
      areParts_interpose (areParts_newline .here)
        (areParts_map (fun x => isPart_slot (.sub x .here)) items)
    exact .inr ⟨_, _, assembled (by decide) (by decide) hitems rfl⟩
  | quotation items =>
    exact .inr ⟨.quoted, enclosed "(" [lineBreak] items ")", by decide, by simp, rfl⟩
  | unquote x => exact .inr ⟨.unquoted, unquoted x, by decide, by simp, rfl⟩
  | letBlock bindings statements =>
    refine .inr ⟨_, _, assembled (by decide) (by decide) ?_ rfl⟩
    cases bindings <;> simp
  | typed owner type =>
    refine .inr ⟨_, _, assembled (by decide) (by decide) ?_ rfl⟩
    cases owner <;> simp
  | definition definer signature statements =>
    have hmark : frontMark definer.category.path = none := by cases definer <;> decide
    exact .inr ⟨_, _, assembled definer.category_ne_error hmark (by simp) rfl⟩
  | _ => exact .inr ⟨_, _, assembled (by decide) (by decide) (by simp) rfl⟩

end Form

end ExprPrinter
