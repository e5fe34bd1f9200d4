import ExprPrinter.Slot

/-!
# Scripts

The script of a form is what the plain-text printer makes of it: a list of
pieces, to be written from left to right, each of them a text or a slot.
Words and blanks that stand together are one text.  `Script.place` puts a
script at a level, and turns every margin into a level of its own.

Nothing here looks at the layout of a form.  That the two say the same is a
theorem about them.
-/

namespace ExprPrinter

/-- A piece of what is to be written: a text, or a slot. -/
inductive Piece (μ : Type) where
  | text (s : String)
  | slot (s : Slot μ)

namespace Piece

variable {μ ν : Type}

/-- A piece with another margin. -/
def move (f : μ → ν) : Piece μ → Piece ν
  | text s => text s
  | slot s => slot (s.move f)

/-- The weight of a piece is the size of the expression that it holds. -/
noncomputable def weight : Piece μ → Nat
  | text _ => 0
  | slot s => s.weight

/-- Moving a piece does not change its weight. -/
theorem weight_move (f : μ → ν) (p : Piece μ) : (p.move f).weight = p.weight := by
  cases p with
  | text s => rfl
  | slot s => exact s.weight_move f

end Piece

/-- The script of a form, not yet at any level. -/
abbrev Script := List (Piece Margin)

/-- A script at a level, or several of them one after the other: what is to be written. -/
abbrev Agenda := List (Piece Int)

namespace Script

/-- A script put at a level. -/
def place (base : Int) (s : Script) : Agenda :=
  s.map (Piece.move (Margin.level base))

/-- A subexpression inside a line. -/
def phrase (x : Expr) : Piece Margin :=
  .slot (.sub x .edge)

/-- A new line with the given margin. -/
def newline (m : Margin) : Script :=
  [.text "\n", .slot (.indent m)]

/-- Subexpressions inside a line, with a separator between them. -/
def joined (separator : String) (xs : List Expr) : Script :=
  [.text separator].intercalate (xs.map fun x => [phrase x])

/-- Subexpressions between brackets. -/
def enclosed (opening : String) (xs : List Expr) (separator closing : String) : Script :=
  .text opening :: joined separator xs ++ [.text closing]

/-- Two subexpressions with an operator between them. -/
def infixed (x : Expr) (operator : String) (y : Expr) : Script :=
  [phrase x, .text operator, phrase y]

/-- A statement on a line of its own, one step deeper. -/
def statement (x : Expr) : Script :=
  newline .deeper ++ [.slot (.sub x .deeper)]

/-- Statements, each on a line of its own. -/
def body (xs : List Expr) : Script :=
  xs.flatMap statement

/-- The last line of a form that has a body. -/
def ending : Script :=
  newline .here ++ [.text "end"]

/-- A line that begins with a word and a condition, and the statements under it. -/
def arm (word : Keyword) (a : Arm) : Script :=
  .text (word.word ++ " ") :: phrase a.condition :: body a.body

/-- The lines for what is done if no condition applies. -/
def otherwise : Option (List Expr) → Script
  | none => []
  | some xs => newline .here ++ .text "else" :: body xs

/-- The lines of a conditional. -/
def conditional (word : Keyword) (first : Arm) (more : List Arm)
    (last : Option (List Expr)) : Script :=
  arm word first ++ more.flatMap (fun a => newline .here ++ arm .elseifWord a) ++
    otherwise last ++ ending

/-- The forms of a module, with an empty line between them. -/
def moduleForms : List Expr → Script
  | [] => []
  | x :: xs => statement x ++ xs.flatMap fun y => .text "\n" :: statement y

/-- An entry of a mapping, behind its indentation. -/
def entry (x : Expr) : Script :=
  [.slot (.indent .deeper), .slot (.sub x .deeper)]

/-- An operand, in brackets if it has the opposite operator. -/
def operand (c : Connective) (x : Expr) : Script :=
  if x.isKind c.opposite.kind then [.text "(", phrase x, .text ")"] else [phrase x]

/-- What is written for an unquoted form: a bare name, or brackets. -/
def unquoted : Expr → Script
  | .sym name => [.text ("$" ++ name)]
  | x => [.text "$(", phrase x, .text ")"]

/-- The bindings of a `let`, behind a blank if there are any. -/
def bindings : List Expr → Script
  | [] => []
  | xs => .text " " :: joined ", " xs

/-- What follows the signature of a function or macro. -/
def definitionBody : Option (List Expr) → Script
  | none => [.text " end"]
  | some xs => body xs ++ ending

/-- A block of one statement is that statement; any other has a first and a last line. -/
def block : List Expr → Script
  | [x] => [.slot (.sub x .here)]
  | xs => .text "begin" :: body xs ++ ending

end Script

open Script in
/-- The script of a form. -/
def Form.script : Form → Script
  | leaf _ s => [.text s]
  | ratio n d => infixed n "//" d
  | pair a b => infixed a " => " b
  | tuple items => enclosed "(" items "," ")"
  | vector items => enclosed "[" items "," "]"
  | mapping entries =>
    .text "Dict(\n" :: [.text ",\n"].intercalate (entries.map entry) ++ [.text ")"]
  | quotation items => .text ":" :: enclosed "(" items "\n" ")"
  | unquote x => unquoted x
  | splat x => [phrase x, .text "..."]
  | block statements => Script.block statements
  | conditional word first more last => Script.conditional word first more last
  | comparison items => enclosed "(" items " " ")"
  | letBlock places statements => .text "let" :: bindings places ++ body statements ++ ending
  | definition definer signature statements =>
    .text (definer.word.word ++ " ") :: phrase signature :: definitionBody statements
  | lambda parameters value => infixed parameters " -> " value
  | assignment place value => infixed place " = " value
  | index container places => phrase container :: enclosed "[" places "," "]"
  | range items => joined ":" items
  | moduleDef name forms => .text "module " :: phrase name :: moduleForms forms ++ ending
  | importing word names => .text (word.word ++ " ") :: joined "." names
  | exporting names => .text "export " :: joined "," names
  | member owner field => infixed owner "." field
  | typed owner type => (owner.map phrase).toList ++ [.text "::", phrase type]
  | generic base parameters => phrase base :: enclosed "\x7b" parameters ", " "\x7d"
  | logical c operands =>
    [.text (" " ++ c.kind.name ++ " ")].intercalate (operands.map (operand c))
  | call callee arguments => phrase callee :: enclosed "(" arguments ", " ")"
  | macroCall callee arguments => phrase callee :: enclosed "(" arguments ", " ")"
  | toplevel items => (newline .here).intercalate (items.map fun x => [.slot (.sub x .here)])

end ExprPrinter
