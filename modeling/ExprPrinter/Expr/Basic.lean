import ExprPrinter.Kind
import ExprPrinter.Number.Binary64

/-!
# Expression trees

An expression is an atom, a container literal, or a node: a head word with
any number of children.  The head may be any word, also one that names no
kind, and a node of a known kind may have a number of children that makes no
sense for it; such nodes are values like all others and only have no layout.

A tree may also hold *plain data*, which is what a host program has before it
is lifted into an expression.
-/

namespace ExprPrinter

/-- The head word of a node, given as a constant of the closed set or just spelled out.  The two
ways of giving it differ only when a tree is inspected. -/
inductive Head where
  | constant (k : Kind)
  | spelled (word : String)
  deriving DecidableEq, Repr

namespace Head

/-- The head word itself. -/
def name : Head → String
  | constant k => k.name
  | spelled word => word

/-- The kind that the head word names, if it names one. -/
def kind? (h : Head) : Option Kind :=
  match h with
  | constant k => some k
  | spelled word => Kind.ofName? word

/-- A head word has the kind that its name has, however the word was given. -/
theorem kind?_eq_ofName? (h : Head) : h.kind? = Kind.ofName? h.name := by
  cases h with
  | constant k => exact (Kind.ofName?_name k).symm
  | spelled word => rfl

end Head

/-- What comes of inspecting a value of a foreign type: a text, or an error of its own. -/
inductive Inspection where
  | shown (text : String)
  | raised (error message : String)
  deriving DecidableEq, Repr

/-- A value of a foreign type, as far as it can be seen from outside. -/
structure Oddity where
  typeName : String
  inspection : Inspection
  /-- What it is worth, if it is a number. -/
  worth? : Option Rat := none
  /-- What it is compared by, if it is no number. -/
  likeness : String := typeName
  deriving DecidableEq, Repr

/-- Plain data, with containers of `α`. -/
inductive Datum (α : Type) where
  | absent
  | bool (b : Bool)
  | int (n : Int)
  | float (x : Binary64)
  | fraction (q : Rat)
  | text (s : String)
  | tuple (items : List α)
  | list (items : List α)
  | dict (entries : List (α × α))
  /-- A mapping of a foreign type, with its entries. -/
  | table (o : Oddity) (entries : List (α × α))
  /-- A value of a foreign type that is no mapping.  No expression stands for it. -/
  | oddity (o : Oddity)

/-- Expression trees. -/
inductive Expr where
  /-- The absent value. -/
  | nil
  | bool (b : Bool)
  /-- An integer, written in decimal. -/
  | int (n : Int)
  /-- An integer written in hexadecimal. -/
  | uint (n : Int)
  | float (x : Binary64)
  /-- An exact ratio, kept as given and not in lowest terms. -/
  | ratio (numerator denominator : Int)
  | char (s : String)
  | str (s : String)
  /-- An identifier or operator, by its spelling. -/
  | sym (name : String)
  /-- A name or form that is referred to and not evaluated. -/
  | quoted (inner : Expr)
  | pair (first second : Expr)
  | tuple (items : List Expr)
  | list (items : List Expr)
  /-- An ordered literal of entries, which are pairs as a rule. -/
  | mapping (entries : List Expr)
  | node (head : Head) (children : List Expr)
  | plain (datum : Datum Expr)

namespace Expr

instance : Inhabited Expr := ⟨.nil⟩

/-- Whether a value is a node with the given head word. -/
def hasHead (word : String) : Expr → Bool
  | node h _ => h.name == word
  | _ => false

/-- Whether a value is a node of the given kind, whatever its number of children. -/
def isKind (k : Kind) (x : Expr) : Bool :=
  x.hasHead k.name

/-- The children of a node; other values have none. -/
def children : Expr → List Expr
  | node _ xs => xs
  | _ => []

/-- The statements of a body: the children of a block, and any other body by itself. -/
def statements (body : Expr) : List Expr :=
  if body.isKind .block then body.children else [body]

end Expr

end ExprPrinter
