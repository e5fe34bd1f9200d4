import ExprPrinter.Layout
import ExprPrinter.Script

/-!
# Layouts spell scripts

The layout and the script of a form are two tables, one for each printer.
They cut the text of a form differently: the script has ` => ` as one text
where the layout has a blank, a labelled operator and another blank.  Cut into
single letters, with all labels dropped, the two are the same for every form:
`letters_layout`.
-/

namespace ExprPrinter

variable {μ ν : Type}

namespace Piece

/-- A piece with its text cut into letters. -/
def letters : Piece μ → List (Piece μ)
  | text s => s.toList.map fun c => text (String.singleton c)
  | slot s => [slot s]

/-- Letters move with their piece. -/
theorem letters_move (f : μ → ν) (p : Piece μ) :
    (p.move f).letters = p.letters.map (move f) := by
  cases p with
  | text s => simp [move, letters, Function.comp_def]
  | slot s => rfl

end Piece

namespace Script

/-- Pieces with all their texts cut into letters. -/
def letters (ps : List (Piece μ)) : List (Piece μ) :=
  ps.flatMap Piece.letters

@[simp] theorem letters_nil : letters ([] : List (Piece μ)) = [] := rfl

@[simp] theorem letters_cons (p : Piece μ) (ps : List (Piece μ)) :
    letters (p :: ps) = p.letters ++ letters ps := by
  simp [letters]

@[simp] theorem letters_append (ps qs : List (Piece μ)) :
    letters (ps ++ qs) = letters ps ++ letters qs := by
  simp [letters]

/-- A script may be put at its level before or after it is cut into letters. -/
theorem letters_place (base : Int) (s : Script) :
    letters (s.place base) = place base (letters s) := by
  simp [letters, place, List.flatMap_map, List.map_flatMap, Piece.letters_move]

end Script

namespace Document

mutual

/-- The letters and slots of a document, without its labels. -/
def letters : Document (Slot μ) → List (Piece μ)
  | text s => (Piece.text s).letters
  | tagged _ ds => lettersAll ds
  | run ds => lettersAll ds
  | slot s => [.slot s]

/-- The letters and slots of several documents. -/
def lettersAll : List (Document (Slot μ)) → List (Piece μ)
  | [] => []
  | d :: ds => letters d ++ lettersAll ds

end

@[simp] theorem lettersAll_append (ds es : List (Document (Slot μ))) :
    lettersAll (ds ++ es) = lettersAll ds ++ lettersAll es := by
  induction ds with
  | nil => rfl
  | cons d ds ih => simp [lettersAll, ih]

mutual

/-- Letters move with their document. -/
theorem letters_map (f : μ → ν) :
    ∀ d : Document (Slot μ), (d.map (Slot.move f)).letters = d.letters.map (Piece.move f)
  | text s => by simpa [map, letters, Piece.move] using (Piece.text s).letters_move f
  | tagged _ ds => by simp [map, letters, lettersAll_mapAll f ds]
  | run ds => by simp [map, letters, lettersAll_mapAll f ds]
  | slot s => by simp [map, letters, Piece.move]

/-- The same for several documents. -/
theorem lettersAll_mapAll (f : μ → ν) :
    ∀ ds : List (Document (Slot μ)),
      lettersAll (mapAll (Slot.move f) ds) = (lettersAll ds).map (Piece.move f)
  | [] => by simp [mapAll, lettersAll]
  | d :: ds => by simp [mapAll, lettersAll, letters_map f d, lettersAll_mapAll f ds]

end

end Document

namespace Layout

open Document

/-- A layout may be put at its level before or after. -/
theorem letters_place (base : Int) (l : Layout) :
    (l.place base).letters = Script.place base l.letters :=
  letters_map (Margin.level base) l

@[simp] theorem letters_text (s : String) :
    (.text s : Layout).letters = (Piece.text s).letters := by
  simp [Document.letters]

@[simp] theorem letters_slot (s : Slot Margin) : (.slot s : Layout).letters = [.slot s] := by
  simp [Document.letters]

@[simp] theorem letters_run (ds : List Layout) : (.run ds : Layout).letters = lettersAll ds := by
  simp [Document.letters]

@[simp] theorem letters_token (c : Category) (s : String) :
    (token c s).letters = (Piece.text s).letters := by
  simp [token, Document.letters, lettersAll]

@[simp] theorem letters_unit (c : Category) (ds : List Layout) :
    (unit c ds).letters = lettersAll ds := by
  simp [unit, Document.letters]

@[simp] theorem letters_embed (x : Expr) : (embed x).letters = (Script.phrase x).letters := by
  simp [embed, Script.phrase, Piece.letters]

@[simp] theorem letters_reserved (w : Keyword) :
    (reserved w).letters = (Piece.text w.word).letters :=
  letters_token .reserved w.word

@[simp] theorem letters_bracket (s : String) : (bracket s).letters = (Piece.text s).letters :=
  letters_token .paren s

@[simp] theorem letters_operator (s : String) : (operator s).letters = (Piece.text s).letters :=
  letters_token .otherOperator s

@[simp] theorem letters_comma : comma.letters = (Piece.text ",").letters :=
  letters_token .comma ","

@[simp] theorem letters_dot : dot.letters = (Piece.text ".").letters :=
  letters_token .dotOperator "."

@[simp] theorem letters_blankSpace : blankSpace.letters = (Piece.text " ").letters :=
  letters_text " "

@[simp] theorem letters_lineBreak : lineBreak.letters = (Piece.text "\n").letters :=
  letters_text "\n"

@[simp] theorem lettersAll_newline (m : Margin) :
    lettersAll (Layout.newline m) = Script.letters (Script.newline m) := by
  simp [Layout.newline, Script.newline, lettersAll, Piece.letters]

/-- Layouts with separators are spelled as scripts with separators, if each of them is so alone. -/
theorem lettersAll_interpose (separator : List Layout) (s : Script)
    (hs : lettersAll separator = Script.letters s) {g : Expr → Layout} {h : Expr → Script}
    (hgh : ∀ x, (g x).letters = Script.letters (h x)) (xs : List Expr) :
    lettersAll (interpose separator (xs.map g)) = Script.letters (s.intercalate (xs.map h)) := by
  induction xs with
  | nil => rfl
  | cons x xs ih =>
    cases xs with
    | nil => simp [interpose, lettersAll, hgh]
    | cons y ys =>
      rw [List.map_cons, List.map_cons] at ih
      simp [interpose, lettersAll, hgh, hs, ih]

/-- Joined expressions are spelled alike. -/
theorem lettersAll_joined {separator : List Layout} {s : String}
    (hs : lettersAll separator = (Piece.text s).letters) (xs : List Expr) :
    lettersAll (Layout.joined separator xs) = Script.letters (Script.joined s xs) :=
  lettersAll_interpose separator [.text s] (by simpa using hs) (by simp) xs

/-- So are enclosed ones. -/
theorem lettersAll_enclosed {separator : List Layout} {s : String}
    (hs : lettersAll separator = (Piece.text s).letters) (opening closing : String)
    (xs : List Expr) :
    lettersAll (Layout.enclosed opening separator xs closing) =
      Script.letters (Script.enclosed opening xs s closing) := by
  simp [Layout.enclosed, Script.enclosed, lettersAll, lettersAll_joined hs]

/-- Layouts for each of some things are spelled as the scripts for them. -/
theorem lettersAll_flatMap {ι : Type} {g : ι → List Layout} {h : ι → Script}
    (hgh : ∀ i, lettersAll (g i) = Script.letters (h i)) (is : List ι) :
    lettersAll (is.flatMap g) = Script.letters (is.flatMap h) := by
  induction is with
  | nil => rfl
  | cons i is ih => simp [hgh, ih]

@[simp] theorem lettersAll_statement (x : Expr) :
    lettersAll (Layout.statement x) = Script.letters (Script.statement x) := by
  simp [Layout.statement, Script.statement, lettersAll, Piece.letters]

@[simp] theorem lettersAll_body (xs : List Expr) :
    lettersAll (Layout.body xs) = Script.letters (Script.body xs) :=
  lettersAll_flatMap lettersAll_statement xs

@[simp] theorem lettersAll_ending : lettersAll Layout.ending = Script.letters Script.ending := by
  simp [Layout.ending, Script.ending, Keyword.word, lettersAll]

@[simp] theorem lettersAll_arm (word : Keyword) (a : Arm) :
    lettersAll (Layout.arm word a) = Script.letters (Script.arm word a) := by
  simp [Layout.arm, Script.arm, lettersAll, Piece.letters]

@[simp] theorem lettersAll_otherwise (last : Option (List Expr)) :
    lettersAll (Layout.otherwise last) = Script.letters (Script.otherwise last) := by
  cases last with
  | none => rfl
  | some xs => simp [Layout.otherwise, Script.otherwise, Keyword.word, lettersAll]

@[simp] theorem lettersAll_conditional (word : Keyword) (first : Arm) (more : List Arm)
    (last : Option (List Expr)) :
    lettersAll (Layout.conditional word first more last) =
      Script.letters (Script.conditional word first more last) := by
  have hmore := lettersAll_flatMap (g := fun a => Layout.newline .here ++ Layout.arm .elseifWord a)
    (h := fun a => Script.newline .here ++ Script.arm .elseifWord a) (by simp) more
  simp [Layout.conditional, Script.conditional, hmore]

@[simp] theorem lettersAll_moduleForms (xs : List Expr) :
    lettersAll (Layout.moduleForms xs) = Script.letters (Script.moduleForms xs) := by
  cases xs with
  | nil => rfl
  | cons x xs =>
    have hmore := lettersAll_flatMap (g := fun y => lineBreak :: Layout.statement y)
      (h := fun y => .text "\n" :: Script.statement y) (by simp [lettersAll]) xs
    simp [Layout.moduleForms, Script.moduleForms, hmore]

@[simp] theorem letters_entry (x : Expr) :
    (Layout.entry x).letters = Script.letters (Script.entry x) := by
  simp [Layout.entry, Script.entry, lettersAll, Piece.letters]

@[simp] theorem letters_operand (c : Connective) (x : Expr) :
    (Layout.operand c x).letters = Script.letters (Script.operand c x) := by
  unfold Layout.operand Script.operand
  split <;> simp [lettersAll]

@[simp] theorem lettersAll_unquoted (x : Expr) :
    (Piece.text "$").letters ++ lettersAll (Layout.unquoted x) =
      Script.letters (Script.unquoted x) := by
  unfold Layout.unquoted Script.unquoted
  split <;> simp [lettersAll, Piece.letters]

@[simp] theorem lettersAll_definitionBody (xs : Option (List Expr)) :
    lettersAll (Layout.definitionBody xs) = Script.letters (Script.definitionBody xs) := by
  cases xs with
  | none => simp [Layout.definitionBody, Script.definitionBody, Keyword.word, lettersAll,
      Piece.letters]
  | some xs => simp [Layout.definitionBody, Script.definitionBody]

@[simp] theorem lettersAll_block (xs : List Expr) :
    lettersAll (Layout.block xs) = Script.letters (Script.block xs) := by
  unfold Layout.block Script.block
  split <;> simp [lettersAll, Keyword.word, Piece.letters]

/-- **Layouts spell scripts.**  Without labels, and letter by letter, the layout of a form is its
script. -/
theorem letters_layout (f : Form) : f.layout.letters = Script.letters f.script := by
  -- The separators of the two tables, which the lists of a form have between their items.
  have hcomma : lettersAll [comma] = (Piece.text ",").letters := by simp [lettersAll]
  have hlist : lettersAll [comma, blankSpace] = (Piece.text ", ").letters := by
    simp [lettersAll, Piece.letters]
  have hblank : lettersAll [blankSpace] = (Piece.text " ").letters := by simp [lettersAll]
  have hbreak : lettersAll [lineBreak] = (Piece.text "\n").letters := by simp [lettersAll]
  have hcolon : lettersAll [operator ":"] = (Piece.text ":").letters := by simp [lettersAll]
  have hdot : lettersAll [dot] = (Piece.text ".").letters := by simp [lettersAll]
  cases f with
  | leaf c s => simp [Form.layout, Form.script]
  | tuple xs => simp [Form.layout, Form.script, lettersAll_enclosed hcomma]
  | vector xs => simp [Form.layout, Form.script, lettersAll_enclosed hcomma]
  | mapping xs =>
    have hentries := lettersAll_interpose [comma, lineBreak] [.text ",\n"]
      (by simp [lettersAll, Piece.letters]) letters_entry xs
    simp [Form.layout, Form.script, hentries, lettersAll, Piece.letters]
  | quotation xs => simp [Form.layout, Form.script, lettersAll_enclosed hbreak, lettersAll]
  | unquote x => simp [Form.layout, Form.script, lettersAll]
  | block xs => simp [Form.layout, Form.script]
  | conditional word first more last => simp [Form.layout, Form.script]
  | comparison xs => simp [Form.layout, Form.script, lettersAll_enclosed hblank]
  | letBlock xs ys =>
    cases xs with
    | nil => simp [Form.layout, Form.script, Script.bindings, Keyword.word, lettersAll]
    | cons x xs =>
      simp [Form.layout, Form.script, Script.bindings, lettersAll_joined hlist, Keyword.word,
        lettersAll]
  | definition definer x xs => simp [Form.layout, Form.script, lettersAll, Piece.letters]
  | index x xs => simp [Form.layout, Form.script, lettersAll_enclosed hcomma, lettersAll]
  | range xs => simp [Form.layout, Form.script, lettersAll_joined hcolon]
  | moduleDef x xs =>
    simp [Form.layout, Form.script, Keyword.word, lettersAll, Piece.letters]
  | importing word xs =>
    simp [Form.layout, Form.script, lettersAll_joined hdot, lettersAll, Piece.letters]
  | exporting xs =>
    simp [Form.layout, Form.script, lettersAll_joined hcomma, Keyword.word, lettersAll,
      Piece.letters]
  | typed x y => cases x <;> simp [Form.layout, Form.script, lettersAll]
  | generic x xs => simp [Form.layout, Form.script, lettersAll_enclosed hlist, lettersAll]
  | logical c xs =>
    have hoperands := lettersAll_interpose [blankSpace, operator c.kind.name, blankSpace]
      [.text (" " ++ c.kind.name ++ " ")] (by simp [lettersAll, Piece.letters])
      (letters_operand c) xs
    simp [Form.layout, Form.script, hoperands]
  | call x xs => simp [Form.layout, Form.script, lettersAll_enclosed hlist, lettersAll]
  | macroCall x xs => simp [Form.layout, Form.script, lettersAll_enclosed hlist, lettersAll]
  | toplevel xs =>
    have hitems := lettersAll_interpose (Layout.newline .here) (Script.newline .here)
      (lettersAll_newline .here) (g := fun x => .slot (.sub x .here))
      (h := fun x => [.slot (.sub x .here)]) (by simp [Piece.letters]) xs
    simp [Form.layout, Form.script, hitems]
  | _ => simp [Form.layout, Form.script, Script.infixed, lettersAll, Piece.letters]

end Layout

end ExprPrinter
