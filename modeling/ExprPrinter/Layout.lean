import ExprPrinter.Document.Basic
import ExprPrinter.Slot

/-!
# Layouts

The layout of a form is what the markup printer makes of it: a document with
slots.  Reserved words, operators, brackets and commas are units of their own,
and blanks and line breaks are bare texts.  `Layout.place` puts a layout at a
level, and turns every margin into a level of its own.
-/

namespace ExprPrinter

/-- The layout of a form, not yet at any level. -/
abbrev Layout := Document (Slot Margin)

/-- A layout at a level. -/
abbrev Placed := Document (Slot Int)

namespace Layout

/-- A layout put at a level. -/
def place (base : Int) (l : Layout) : Placed :=
  l.map (Slot.move (Margin.level base))

/-- A labelled piece of text. -/
def token (category : Category) (s : String) : Layout :=
  .tagged category.path [.text s]

/-- A labelled unit with several parts. -/
def unit (category : Category) (parts : List Layout) : Layout :=
  .tagged category.path parts

/-- A subexpression inside a line. -/
def embed (x : Expr) : Layout :=
  .slot (.sub x .edge)

/-- A reserved word. -/
def reserved (w : Keyword) : Layout :=
  token .reserved w.word

/-- A bracket. -/
def bracket (s : String) : Layout :=
  token .paren s

/-- An operator of no special class. -/
def operator (s : String) : Layout :=
  token .otherOperator s

/-- A comma. -/
def comma : Layout :=
  token .comma ","

/-- A dot between names. -/
def dot : Layout :=
  token .dotOperator "."

/-- A blank. -/
def blankSpace : Layout :=
  .text " "

/-- The end of a line. -/
def lineBreak : Layout :=
  .text "\n"

/-- A new line with the given margin. -/
def newline (m : Margin) : List Layout :=
  [lineBreak, .slot (.indent m)]

/-- Subexpressions inside a line, with a separator between them. -/
def joined (separator : List Layout) (xs : List Expr) : List Layout :=
  interpose separator (xs.map embed)

/-- Subexpressions between brackets. -/
def enclosed (opening : String) (separator : List Layout) (xs : List Expr) (closing : String) :
    List Layout :=
  bracket opening :: joined separator xs ++ [bracket closing]

/-- A statement on a line of its own, one step deeper. -/
def statement (x : Expr) : List Layout :=
  newline .deeper ++ [.slot (.sub x .deeper)]

/-- Statements, each on a line of its own. -/
def body (xs : List Expr) : List Layout :=
  xs.flatMap statement

/-- The last line of a form that has a body. -/
def ending : List Layout :=
  newline .here ++ [reserved .endWord]

/-- A line that begins with a word and a condition, and the statements under it. -/
def arm (word : Keyword) (a : Arm) : List Layout :=
  [reserved word, blankSpace, embed a.condition] ++ body a.body

/-- The lines for what is done if no condition applies. -/
def otherwise : Option (List Expr) → List Layout
  | none => []
  | some xs => newline .here ++ reserved .elseWord :: body xs

/-- The forms of a module, with an empty line between them. -/
def moduleForms : List Expr → List Layout
  | [] => []
  | x :: xs => statement x ++ xs.flatMap fun y => lineBreak :: statement y

/-- An entry of a mapping, on a line of its own. -/
def entry (x : Expr) : Layout :=
  .run [.slot (.indent .deeper), .slot (.sub x .deeper)]

/-- An operand, in brackets if it has the opposite operator. -/
def operand (c : Connective) (x : Expr) : Layout :=
  if x.isKind c.opposite.kind then .run [bracket "(", embed x, bracket ")"] else embed x

/-- What stands behind the dollar sign of an unquoted form: a bare name, or brackets. -/
def unquoted : Expr → List Layout
  | .sym name => [token (.ofSymbol name) name]
  | x => [bracket "(", embed x, bracket ")"]

/-- The parts of a conditional. -/
def conditional (word : Keyword) (first : Arm) (more : List Arm)
    (last : Option (List Expr)) : List Layout :=
  arm word first ++ more.flatMap (fun a => newline .here ++ arm .elseifWord a) ++
    otherwise last ++ ending

/-- What follows the signature of a function or macro. -/
def definitionBody : Option (List Expr) → List Layout
  | none => [blankSpace, reserved .endWord]
  | some xs => body xs ++ ending

/-- A block of one statement is that statement; any other has a first and a last line. -/
def block : List Expr → List Layout
  | [x] => [.slot (.sub x .here)]
  | xs => reserved .beginWord :: body xs ++ ending

end Layout

open Layout in
/-- The layout of a form. -/
def Form.layout : Form → Layout
  | leaf category s => token category s
  | ratio n d => unit .ratio [embed n, token .arithmetic "//", embed d]
  | pair a b => unit .pair [embed a, blankSpace, operator "=>", blankSpace, embed b]
  | tuple items => unit .tuple (enclosed "(" [comma] items ")")
  | vector items => unit .vector (enclosed "[" [comma] items "]")
  | mapping entries =>
    unit .mapping ([token (.ofSymbol "Dict") "Dict", bracket "(", lineBreak] ++
      interpose [comma, lineBreak] (entries.map entry) ++ [bracket ")"])
  | quotation items => unit .quoted (.text ":" :: enclosed "(" [lineBreak] items ")")
  | unquote x => unit .unquoted (.text "$" :: unquoted x)
  | splat x => unit .splat [embed x, operator "..."]
  | block statements => unit .block (Layout.block statements)
  | conditional word first more last =>
    unit .conditional (Layout.conditional word first more last)
  | comparison items => unit .comparison (enclosed "(" [blankSpace] items ")")
  | letBlock bindings statements =>
    unit .letBlock (reserved .letWord ::
      (if bindings.isEmpty then [] else blankSpace :: joined [comma, blankSpace] bindings) ++
      body statements ++ ending)
  | definition definer signature statements =>
    unit definer.category
      ([reserved definer.word, blankSpace, embed signature] ++ definitionBody statements)
  | lambda parameters value =>
    unit .lambda [embed parameters, blankSpace, operator "->", blankSpace, embed value]
  | assignment place value =>
    unit .assignment [embed place, blankSpace, operator "=", blankSpace, embed value]
  | index container places => unit .index (embed container :: enclosed "[" [comma] places "]")
  | range items => unit .range (joined [operator ":"] items)
  | moduleDef name forms =>
    unit .moduleDef ([reserved .moduleWord, blankSpace, embed name] ++ moduleForms forms ++ ending)
  | importing word names => unit .importing ([reserved word, blankSpace] ++ joined [dot] names)
  | exporting names =>
    unit .exporting ([reserved .exportWord, blankSpace] ++ joined [comma] names)
  | member owner field => unit .member [embed owner, dot, embed field]
  | typed owner type => unit .typed ((owner.map embed).toList ++ [operator "::", embed type])
  | generic base parameters =>
    unit .generic (embed base :: enclosed "\x7b" [comma, blankSpace] parameters "\x7d")
  | logical c operands =>
    unit .logical (interpose [blankSpace, operator c.kind.name, blankSpace]
      (operands.map (operand c)))
  | call callee arguments =>
    unit .call (embed callee :: enclosed "(" [comma, blankSpace] arguments ")")
  | macroCall callee arguments =>
    unit .macroCall (embed callee :: enclosed "(" [comma, blankSpace] arguments ")")
  | toplevel items =>
    unit .toplevel (interpose (newline .here) (items.map fun x => .slot (.sub x .here)))

end ExprPrinter
