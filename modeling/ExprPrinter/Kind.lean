/-!
# Kinds of nodes

A node of an expression tree has a head word, and thirty-one head words name a
syntactic form.  `Kind` is that closed set.  Each kind has its spelling, the
name of its constant, and the least and greatest number of children with which
it makes sense.
-/

namespace ExprPrinter

/-- The syntactic forms that have a layout. -/
inductive Kind where
  | ratio | pair | tuple | vector | mapping
  | quote | unquote | splat
  | block | conditional | elseif | comparison | letBlock
  | function | macroDef | lambda | assignment
  | index | range
  | moduleDef | importing | usingModule | exporting
  | member | typed | generic
  | conjunction | disjunction
  | call | macroCall | toplevel
  deriving DecidableEq, Repr

namespace Kind

/-- Every kind, in the order in which the constants are declared. -/
def all : List Kind :=
  [.ratio, .pair, .tuple, .vector, .mapping, .quote, .unquote, .splat, .block, .conditional,
    .elseif, .comparison, .letBlock, .function, .macroDef, .lambda, .assignment, .index, .range,
    .moduleDef, .importing, .usingModule, .exporting, .member, .typed, .generic, .conjunction,
    .disjunction, .call, .macroCall, .toplevel]

/-- The head word of a kind, as expression trees spell it. -/
def name : Kind → String
  | ratio => "//"
  | pair => "=>"
  | tuple => "tuple"
  | vector => "vect"
  | mapping => "dict"
  | quote => "quote"
  | unquote => "$"
  | splat => "..."
  | block => "block"
  | conditional => "if"
  | elseif => "elseif"
  | comparison => "comparison"
  | letBlock => "let"
  | function => "function"
  | macroDef => "macro"
  | lambda => "->"
  | assignment => "="
  | index => "ref"
  | range => ":"
  | moduleDef => "module"
  | importing => "import"
  | usingModule => "using"
  | exporting => "export"
  | member => "."
  | typed => "::"
  | generic => "curly"
  | conjunction => "&&"
  | disjunction => "||"
  | call => "call"
  | macroCall => "macrocall"
  | toplevel => "toplevel"

/-- The name of the constant that stands for a kind. -/
def constant : Kind → String
  | ratio => "RATIONAL"
  | pair => "PAIR"
  | tuple => "TUPLE"
  | vector => "LIST"
  | mapping => "MAPPING"
  | quote => "QUOTE"
  | unquote => "UNQUOTE"
  | splat => "SPLAT"
  | block => "BLOCK"
  | conditional => "CONDITIONAL"
  | elseif => "ELSEIF"
  | comparison => "COMPARISON"
  | letBlock => "LET"
  | function => "FUNCTION"
  | macroDef => "MACRO"
  | lambda => "LAMBDA"
  | assignment => "ASSIGNMENT"
  | index => "INDEX"
  | range => "RANGE"
  | moduleDef => "MODULE"
  | importing => "IMPORT"
  | usingModule => "USING"
  | exporting => "EXPORT"
  | member => "MEMBER_ACCESS"
  | typed => "TYPE_ANNOTATION"
  | generic => "GENERIC"
  | conjunction => "AND"
  | disjunction => "OR"
  | call => "CALL"
  | macroCall => "MACRO_CALL"
  | toplevel => "TOPLEVEL"

/-- The kind that a head word names, if it names one. -/
def ofName? (s : String) : Option Kind :=
  all.find? fun k => k.name == s

/-- The fewest children a kind needs, where it needs any. -/
def fewest? : Kind → Option Nat
  | ratio | pair | conditional | elseif | lambda | assignment | member => some 2
  | quote | unquote | splat | letBlock | function | macroDef | index | moduleDef | typed
  | generic | call | macroCall => some 1
  | tuple | vector | mapping | block | comparison | range | importing | usingModule | exporting
  | conjunction | disjunction | toplevel => none

/-- The most children a kind takes, where their number is bounded. -/
def most? : Kind → Option Nat
  | conditional | elseif => some 3
  | ratio | pair | function | macroDef | lambda | assignment | moduleDef | member
  | typed => some 2
  | unquote | splat => some 1
  | tuple | vector | mapping | quote | block | comparison | letBlock | index | range | importing
  | usingModule | exporting | generic | conjunction | disjunction | call | macroCall
  | toplevel => none

/-- Whether a node of this kind may have `n` children. -/
def admits (k : Kind) (n : Nat) : Bool :=
  decide (k.fewest?.getD 0 ≤ n) && decide (n ≤ k.most?.getD n)

/-- The list of kinds is complete. -/
theorem mem_all (k : Kind) : k ∈ all := by
  cases k <;> decide

/-- Every kind is found under its name. -/
theorem ofName?_name (k : Kind) : ofName? k.name = some k := by
  cases k <;> decide

/-- What is found under a name has this name. -/
theorem name_of_ofName? {s : String} {k : Kind} (h : ofName? s = some k) : k.name = s := by
  simpa using List.find?_some h

end Kind

end ExprPrinter
