import ExprPrinter.Kind
import ExprPrinter.Text.Uppercase

/-!
# Categories of highlighted text

Each meaningful unit of the output belongs to a category, and each category
has a key and a tag path such as `span.constant.number`.  A node takes its
category from its kind, and a symbol from its spelling: operators come in
four classes, a capital at the start makes a type name, and everything else
is a plain name.
-/

namespace ExprPrinter

/-- What a unit of the output is. -/
inductive Category where
  | paren | comma
  | nil | bool | number | hexNumber | decimalNumber | ratio | char | text | keyword
  | plainName | typeName | reserved | quoted | unquoted
  | dotOperator | otherOperator | arithmetic | bitwise | relation
  | pair | tuple | vector | mapping
  | block | conditional | assignment | comparison | function | macroDef | letBlock | lambda
  | splat | index | range | moduleDef | importing | exporting | member | typed | generic
  | logical | call | macroCall | toplevel | error
  deriving DecidableEq, Repr

namespace Category

/-- Every category. -/
def all : List Category :=
  [.paren, .comma, .nil, .bool, .number, .hexNumber, .decimalNumber, .ratio, .char, .text,
    .keyword, .plainName, .typeName, .reserved, .quoted, .unquoted, .dotOperator,
    .otherOperator, .arithmetic, .bitwise, .relation, .pair, .tuple, .vector, .mapping, .block,
    .conditional, .assignment, .comparison, .function, .macroDef, .letBlock, .lambda, .splat,
    .index, .range, .moduleDef, .importing, .exporting, .member, .typed, .generic, .logical,
    .call, .macroCall, .toplevel, .error]

/-- The key of a category. -/
def key : Category → String
  | paren => "paren"
  | comma => "comma"
  | nil => "nil"
  | bool => "bool"
  | number => "number"
  | hexNumber => "number-hex"
  | decimalNumber => "number-decimal"
  | ratio => "rational"
  | char => "char"
  | text => "string"
  | keyword => "keyword"
  | plainName => "variable"
  | typeName => "variable-type"
  | reserved => "reserved"
  | quoted => "quoted"
  | unquoted => "unquoted"
  | dotOperator => "op-dot"
  | otherOperator => "op-misc"
  | arithmetic => "op-arithmetic"
  | bitwise => "op-bitwise"
  | relation => "op-comparison"
  | pair => "pair"
  | tuple => "tuple"
  | vector => "vect"
  | mapping => "dict"
  | block => "block"
  | conditional => "if"
  | assignment => "assignment"
  | comparison => "comparison"
  | function => "function"
  | macroDef => "macro"
  | letBlock => "let"
  | lambda => "lambda"
  | splat => "splat"
  | index => "index"
  | range => "range"
  | moduleDef => "module"
  | importing => "import"
  | exporting => "export"
  | member => "member"
  | typed => "type-annotation"
  | generic => "generic"
  | logical => "logical"
  | call => "call"
  | macroCall => "macro-call"
  | toplevel => "toplevel"
  | error => "error"

/-- The tag path of a category. -/
def path : Category → String
  | paren => "span.punctuation.paren"
  | comma => "span.punctuation.comma"
  | nil => "span.constant.nil"
  | bool => "span.constant.bool"
  | number => "span.constant.number"
  | hexNumber => "span.constant.number.hex"
  | decimalNumber => "span.constant.number.decimal"
  | ratio => "span.constant.rational"
  | char => "span.constant.char"
  | text => "span.constant.string"
  | keyword => "span.constant.keyword"
  | plainName => "span.variable"
  | typeName => "span.variable.type"
  | reserved => "span.reserved"
  | quoted => "span.quoted"
  | unquoted => "span.unquoted"
  | dotOperator => "span.operator.dot"
  | otherOperator => "span.operator.misc"
  | arithmetic => "span.operator.arithmetic"
  | bitwise => "span.operator.bitmath"
  | relation => "span.operator.comparison"
  | pair => "span.ds.pair"
  | tuple => "span.ds.tuple"
  | vector => "span.ds.vect"
  | mapping => "span.ds.dict"
  | block => "span.block"
  | conditional => "span.if"
  | assignment => "span.def"
  | comparison => "span.comparison"
  | function => "span.function"
  | macroDef => "span.macro"
  | letBlock => "span.let"
  | lambda => "span.lambda"
  | splat => "span.splat"
  | index => "span.ref"
  | range => "span.range"
  | moduleDef => "span.module"
  | importing => "span.import"
  | exporting => "span.export"
  | member => "span.access"
  | typed => "span.typestring"
  | generic => "span.curly"
  | logical => "span.logical"
  | call => "span.call"
  | macroCall => "span.macrocall"
  | toplevel => "span.toplevel"
  | error => "span.error"

/-- The category with the given key, if there is one. -/
def ofKey? (s : String) : Option Category :=
  all.find? fun c => c.key == s

/-- The list of categories is complete. -/
theorem mem_all (c : Category) : c ∈ all := by
  cases c <;> decide

/-- Every category is found under its key. -/
theorem ofKey?_key (c : Category) : ofKey? c.key = some c := by
  cases c <;> decide

/-- Operators that compute with numbers. -/
def arithmeticOperators : List String :=
  ["+", "-", "*", "/", "\\", "^", "%", "//"]

/-- Operators on bits. -/
def bitwiseOperators : List String :=
  ["~", "&", "|", "$", ">>", "<<", ">>>"]

/-- Operators that compare. -/
def relationOperators : List String :=
  ["==", "!=", "<", ">", "<=", ">="]

/-- Operators of no other class. -/
def otherOperators : List String :=
  [":", ".", "::", "=>", "..."]

/-- Whether the first character of a name is uppercase. -/
def startsUppercase (name : String) : Bool :=
  match name.toList with
  | [] => false
  | c :: _ => Text.isUppercase c

/-- The category of a symbol. -/
def ofSymbol (name : String) : Category :=
  if arithmeticOperators.contains name then arithmetic
  else if bitwiseOperators.contains name then bitwise
  else if relationOperators.contains name then relation
  else if otherOperators.contains name then otherOperator
  else if startsUppercase name then typeName
  else plainName

end Category

end ExprPrinter
