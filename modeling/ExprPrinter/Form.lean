import ExprPrinter.Category
import ExprPrinter.Expr.Basic
import ExprPrinter.Number.Decimal

/-!
# Forms

A form is what an expression says once its spelling is set aside: an atom with
its text, or a syntactic form with its parts in named places.  A literal and
the node that spells it are the same form; a body is a list of statements; a
conditional has all its arms together, however deep they are nested in the
tree.  `Expr.form?` finds the form of an expression.  It fails exactly on plain
data, on nodes whose head word names no kind, and on nodes with a number of
children that their kind does not admit.
-/

namespace ExprPrinter

/-- The reserved words of the output. -/
inductive Keyword where
  | beginWord | endWord | letWord | ifWord | elseifWord | elseWord
  | functionWord | macroWord | moduleWord | importWord | usingWord | exportWord
  deriving DecidableEq, Repr

/-- The spelling of a reserved word. -/
def Keyword.word : Keyword → String
  | beginWord => "begin"
  | endWord => "end"
  | letWord => "let"
  | ifWord => "if"
  | elseifWord => "elseif"
  | elseWord => "else"
  | functionWord => "function"
  | macroWord => "macro"
  | moduleWord => "module"
  | importWord => "import"
  | usingWord => "using"
  | exportWord => "export"

/-- The two logical operators. -/
inductive Connective where
  | conjunction | disjunction
  deriving DecidableEq, Repr

namespace Connective

/-- The kind of the nodes with this operator. -/
def kind : Connective → Kind
  | conjunction => .conjunction
  | disjunction => .disjunction

/-- The other operator. -/
def opposite : Connective → Connective
  | conjunction => disjunction
  | disjunction => conjunction

end Connective

/-- The two sorts of definitions. -/
inductive Definer where
  | function | macroDef
  deriving DecidableEq, Repr

namespace Definer

/-- The category of such a definition. -/
def category : Definer → Category
  | function => .function
  | macroDef => .macroDef

/-- The word that such a definition begins with. -/
def word : Definer → Keyword
  | function => .functionWord
  | macroDef => .macroWord

end Definer

/-- One condition of a conditional, with the statements that it guards. -/
structure Arm where
  condition : Expr
  body : List Expr

/-- What an expression says, with its parts in named places. -/
inductive Form where
  /-- An atom: its category and its text. -/
  | leaf (category : Category) (text : String)
  | ratio (numerator denominator : Expr)
  | pair (first second : Expr)
  | tuple (items : List Expr)
  | vector (items : List Expr)
  | mapping (entries : List Expr)
  | quotation (items : List Expr)
  | unquote (inner : Expr)
  | splat (inner : Expr)
  | block (statements : List Expr)
  /-- Arms tried in turn, the first behind the given word, and what is done if none applies. -/
  | conditional (word : Keyword) (first : Arm) (more : List Arm) (otherwise : Option (List Expr))
  | comparison (items : List Expr)
  | letBlock (bindings : List Expr) (body : List Expr)
  /-- A function or macro, perhaps without a body. -/
  | definition (definer : Definer) (signature : Expr) (body : Option (List Expr))
  | lambda (parameters body : Expr)
  | assignment (place value : Expr)
  | index (container : Expr) (places : List Expr)
  | range (items : List Expr)
  | moduleDef (name : Expr) (forms : List Expr)
  /-- The names of a path to import from. -/
  | importing (word : Keyword) (names : List Expr)
  | exporting (names : List Expr)
  | member (owner field : Expr)
  /-- A type, perhaps after what it is the type of. -/
  | typed (owner : Option Expr) (type : Expr)
  | generic (base : Expr) (parameters : List Expr)
  | logical (connective : Connective) (operands : List Expr)
  | call (callee : Expr) (arguments : List Expr)
  | macroCall (callee : Expr) (arguments : List Expr)
  | toplevel (items : List Expr)

namespace Expr

/-- The arms that follow in the else-position of a conditional, and the body that ends the chain.
A well-formed `elseif` node continues it and everything else ends it. -/
def chain : Expr → List Arm × Option (List Expr)
  | x@(node h [condition, body]) =>
    if h.name == Kind.elseif.name then ([⟨condition, body.statements⟩], none)
    else ([], some x.statements)
  | x@(node h [condition, body, alternative]) =>
    if h.name == Kind.elseif.name then
      let (arms, otherwise) := chain alternative
      (⟨condition, body.statements⟩ :: arms, otherwise)
    else ([], some x.statements)
  | x => ([], some x.statements)

/-- A member that is a quoted name is written as the bare name. -/
def field : Expr → Expr
  | quoted (sym name) => sym name
  | x => x

/-- Whether a value is the symbol that begins a mapping in call form. -/
def isMappingName : Expr → Bool
  | sym name => name == "Dict"
  | _ => false

end Expr

/-- Numbers of the output that are not finite are capitalised. -/
def outputWords : NumberWords := ⟨"NaN", "Inf"⟩

/-- An integer in hexadecimal, with its sign before the digits. -/
def hexText (n : Int) : String :=
  "0x" ++ (if n < 0 then "-" else "") ++ String.ofList (Nat.toDigits 16 n.natAbs)

namespace Form

/-- The form of a symbol. -/
def symbol (name : String) : Form :=
  leaf (.ofSymbol name) name

/-- The form of a quoted name. -/
def quotedName (name : String) : Form :=
  leaf .keyword (":" ++ name)

/-- A conditional that starts with the given word, from the children of its node. -/
def conditional? (word : Keyword) : List Expr → Option Form
  | [condition, body] => some (conditional word ⟨condition, body.statements⟩ [] none)
  | [condition, body, alternative] =>
    let (arms, otherwise) := alternative.chain
    some (conditional word ⟨condition, body.statements⟩ arms otherwise)
  | _ => none

/-- A function or macro, from the children of its node. -/
def definition? (definer : Definer) : List Expr → Option Form
  | [signature] => some (definition definer signature none)
  | [signature, body] => some (definition definer signature (some body.statements))
  | _ => none

/-- The form of a node, from its kind and children. -/
def ofNode? (k : Kind) (children : List Expr) : Option Form :=
  match k with
  | .ratio => match children with
    | [n, d] => some (ratio n d)
    | _ => none
  | .pair => match children with
    | [a, b] => some (pair a b)
    | _ => none
  | .tuple => some (tuple children)
  | .vector => some (vector children)
  | .mapping => some (mapping children)
  | .quote => match children with
    | [] => none
    | [.sym name] => some (quotedName name)
    | items => some (quotation items)
  | .unquote => match children with
    | [x] => some (unquote x)
    | _ => none
  | .splat => match children with
    | [x] => some (splat x)
    | _ => none
  | .block => some (block children)
  | .conditional => conditional? .ifWord children
  | .elseif => conditional? .elseifWord children
  | .comparison => some (comparison children)
  | .letBlock => match children with
    | body :: bindings => some (letBlock bindings body.statements)
    | [] => none
  | .function => definition? .function children
  | .macroDef => definition? .macroDef children
  | .lambda => match children with
    | [parameters, body] => some (lambda parameters body)
    | _ => none
  | .assignment => match children with
    | [place, value] => some (assignment place value)
    | _ => none
  | .index => match children with
    | container :: places => some (index container places)
    | [] => none
  | .range => some (range children)
  | .moduleDef => match children with
    | [name] => some (moduleDef name [])
    | [name, body] => some (moduleDef name body.statements)
    | _ => none
  | .importing => some (importing .importWord children)
  | .usingModule => some (importing .usingWord children)
  | .exporting => some (exporting children)
  | .member => match children with
    | [owner, x] => some (member owner x.field)
    | _ => none
  | .typed => match children with
    | [type] => some (typed none type)
    | [owner, type] => some (typed (some owner) type)
    | _ => none
  | .generic => match children with
    | base :: parameters => some (generic base parameters)
    | [] => none
  | .conjunction => some (logical .conjunction children)
  | .disjunction => some (logical .disjunction children)
  | .call => match children with
    | callee :: arguments =>
      if callee.isMappingName then some (mapping arguments) else some (call callee arguments)
    | [] => none
  | .macroCall => match children with
    | callee :: arguments => some (macroCall callee arguments)
    | [] => none
  | .toplevel => some (toplevel children)

end Form

namespace Expr

/-- The form of an expression, if it has one. -/
def form? : Expr → Option Form
  | nil => some (.leaf .nil "nothing")
  | bool b => some (.leaf .bool (if b then "true" else "false"))
  | int n => some (.leaf .number (toString n))
  | uint n => some (.leaf .hexNumber (hexText n))
  | float x => some (.leaf .decimalNumber (x.text outputWords))
  | ratio n d => some (.leaf .ratio (toString n ++ "//" ++ toString d))
  | char s => some (.leaf .char ("'" ++ s ++ "'"))
  | str s => some (.leaf .text ("\"" ++ s ++ "\""))
  | sym name => some (.symbol name)
  | quoted (sym name) => some (.quotedName name)
  | quoted x => some (.quotation [x])
  | pair a b => some (.pair a b)
  | tuple items => some (.tuple items)
  | list items => some (.vector items)
  | mapping entries => some (.mapping entries)
  | node h children => h.kind?.bind fun k => Form.ofNode? k children
  | plain _ => none

/-- Whether an expression may have a form, by its head word and its number of children alone. -/
def isSupported : Expr → Bool
  | node h children => h.kind?.any fun k => k.admits children.length
  | plain _ => false
  | _ => true

end Expr

end ExprPrinter
