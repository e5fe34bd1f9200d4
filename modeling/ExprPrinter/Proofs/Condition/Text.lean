import ExprPrinter.Proofs.Condition.Joining
import ExprPrinter.Proofs.Warnings

/-!
# The text of a condition

Conditions are the trees made of names, calls of a name, and the two logical
operators, with or without blocks of one statement around them.  This module
says how the text of a condition reads: `Expr.alternatives` gives the
alternatives and their factors, and `Expr.IsCondition.render_eq` that every
printer has a text for a condition, and that it is theirs.

Operands of `||` become alternatives, all of them in one list.  Operands of `&&`
are glued together: the last alternative of one operand and the first of the
next are one alternative.  Brackets stand around an operand that has the
opposite operator, and keep it together as one factor.  A block of one statement
has no text of its own, and so it gets no brackets whatever is in it.
-/

namespace ExprPrinter

open Condition

/-! ## Trees that are conditions -/

namespace Expr

/-- Trees made of names, calls of a name, and logical operators with two operands or more.  If
`blocks` is true, there may also be blocks of one statement anywhere. -/
inductive IsCondition (blocks : Prop) : Expr → Prop
  | name {n : String} (hn : IsName n) : IsCondition blocks (sym n)
  | call {h : Head} {callee : String} {arguments : List Expr} (hname : h.name = Kind.call.name)
      (hcallee : IsName callee) (hmapping : callee ≠ "Dict")
      (harguments : ∀ x ∈ arguments, IsCondition blocks x) :
      IsCondition blocks (node h (sym callee :: arguments))
  | logical {h : Head} {operands : List Expr} (c : Connective) (hname : h.name = c.kind.name)
      (hlength : 2 ≤ operands.length) (hoperands : ∀ x ∈ operands, IsCondition blocks x) :
      IsCondition blocks (node h operands)
  | block {h : Head} {x : Expr} (hblocks : blocks) (hname : h.name = Kind.block.name)
      (hx : IsCondition blocks x) : IsCondition blocks (node h [x])

/-- Two conditions under a connective are a condition. -/
theorem IsCondition.binary {blocks : Prop} {h : Head} {x y : Expr} (c : Connective)
    (hname : h.name = c.kind.name) (hx : x.IsCondition blocks) (hy : y.IsCondition blocks) :
    (node h [x, y]).IsCondition blocks :=
  .logical c hname (Nat.le_refl 2) (by simp [hx, hy])

/-! ## How they read -/

/-- An operand, in brackets if it has the opposite operator, from what it is without them. -/
def bracketed (c : Connective) (x : Expr) (a : Alternatives) : Alternatives :=
  if x.isKind c.opposite.kind then [[.group a]] else a

/-- The alternatives of a node, from those of its children. -/
def nodeAlternatives (k : Kind) (children : List Expr) (as : List Alternatives) : Alternatives :=
  match k with
  | .call => match children with
    | sym callee :: _ => [[.call callee as.tail]]
    | _ => []
  | .block => as.flatten
  | .conjunction => Connective.conjunction.joinAll (children.zipWith (bracketed .conjunction) as)
  | .disjunction => Connective.disjunction.joinAll (children.zipWith (bracketed .disjunction) as)
  | _ => []

mutual

/-- How the text of a condition reads. -/
def alternatives : Expr → Alternatives
  | sym n => [[.name n]]
  | node h children =>
    h.kind?.elim [] fun k => nodeAlternatives k children (alternativesAll children)
  | _ => []

/-- How the texts of several conditions read. -/
def alternativesAll : List Expr → List Alternatives
  | [] => []
  | x :: xs => alternatives x :: alternativesAll xs

end

/-- Children are read one by one. -/
theorem alternativesAll_eq_map (xs : List Expr) : alternativesAll xs = xs.map alternatives := by
  induction xs with
  | nil => rfl
  | cons x xs ih => rw [alternativesAll, ih, List.map_cons]

/-- The kind of a node is that of its name. -/
theorem isKind_node {h : Head} {k : Kind} (hname : h.name = k.name) (l : Kind) (xs : List Expr) :
    (node h xs).isKind l = (k.name == l.name) := by
  rw [isKind, hasHead, hname]

/-- A node of a kind reads as its kind says, given how its children read. -/
theorem alternatives_node {h : Head} {k : Kind} (hname : h.name = k.name) (xs : List Expr) :
    (node h xs).alternatives = nodeAlternatives k xs (xs.map alternatives) := by
  rw [alternatives, Head.kind?_of_name hname, alternativesAll_eq_map]
  rfl

/-- A call reads as one factor. -/
theorem alternatives_call {h : Head} (hname : h.name = Kind.call.name) (callee : String)
    (xs : List Expr) :
    (node h (sym callee :: xs)).alternatives = [[.call callee (xs.map alternatives)]] :=
  alternatives_node hname _

/-- A block of one statement reads as that statement. -/
theorem alternatives_block {h : Head} (hname : h.name = Kind.block.name) (x : Expr) :
    (node h [x]).alternatives = x.alternatives := by
  rw [alternatives_node hname]
  exact List.append_nil _

/-- How an operand reads, with its brackets. -/
def operandAlternatives (c : Connective) (x : Expr) : Alternatives :=
  bracketed c x x.alternatives

/-- A logical node reads as its operands, joined. -/
theorem alternatives_logical {h : Head} {c : Connective} (hname : h.name = c.kind.name)
    (xs : List Expr) :
    (node h xs).alternatives = c.joinAll (xs.map (operandAlternatives c)) := by
  have hzip : xs.zipWith (bracketed c) (xs.map alternatives) = xs.map (operandAlternatives c) := by
    rw [List.zipWith_map_right, List.zipWith_self]
    rfl
  rw [alternatives_node hname, ← hzip]
  cases c <;> rfl

/-- A proper operand is proper in brackets, too. -/
theorem properAlternatives_operand {c : Connective} {x : Expr}
    (h : ProperAlternatives x.alternatives) : ProperAlternatives (operandAlternatives c x) := by
  rw [operandAlternatives, bracketed]
  split
  · exact properAlternatives_factor (.group h.some h.rows h.factors)
  · exact h

/-- So are all operands. -/
theorem properAlternatives_operands (c : Connective) {xs : List Expr}
    (h : ∀ x ∈ xs, ProperAlternatives x.alternatives) :
    ∀ a ∈ xs.map (operandAlternatives c), ProperAlternatives a := by
  intro a ha
  obtain ⟨y, hy, rfl⟩ := List.mem_map.mp ha
  exact properAlternatives_operand (h y hy)

/-- Two operands or more are not none. -/
theorem map_ne_nil {α : Type} {g : Expr → α} {xs : List Expr} (h : 2 ≤ xs.length) :
    xs.map g ≠ [] := by
  intro hnil
  rw [List.map_eq_nil_iff.mp hnil] at h
  cases h

/-- A condition can be read. -/
theorem IsCondition.properAlternatives {blocks : Prop} {x : Expr} (h : x.IsCondition blocks) :
    ProperAlternatives x.alternatives := by
  induction h with
  | name hn => exact properAlternatives_factor (.name hn)
  | call hname hcallee _ _ ih =>
    rw [alternatives_call hname]
    apply properAlternatives_factor
    refine .call hcallee ?_ ?_ ?_
    all_goals
      intro a ha
      obtain ⟨y, hy, rfl⟩ := List.mem_map.mp ha
    · exact (ih y hy).some
    · exact (ih y hy).rows
    · exact (ih y hy).factors
  | logical c hname hlength _ ih =>
    rw [alternatives_logical hname]
    exact c.properAlternatives_joinAll (map_ne_nil hlength) (properAlternatives_operands c ih)
  | block _ hname _ ih => rwa [alternatives_block hname]

/-! ## What is written for them -/

/-- The form of a call by a name that is not that of mappings. -/
theorem form?_call {h : Head} (hname : h.name = Kind.call.name) {callee : String}
    (hmapping : callee ≠ "Dict") (xs : List Expr) :
    (node h (sym callee :: xs)).form? = some (.call (sym callee) xs) := by
  have hcallee : ¬(sym callee).isMappingName = true := by simpa [isMappingName] using hmapping
  rw [form?_node hname, Form.ofNode?, if_neg hcallee]

/-- The form of a logical node. -/
theorem form?_logical {h : Head} {c : Connective} (hname : h.name = c.kind.name)
    (xs : List Expr) : (node h xs).form? = some (.logical c xs) := by
  rw [form?_node hname]
  cases c <;> rfl

/-- The form of a block. -/
theorem form?_block {h : Head} (hname : h.name = Kind.block.name) (xs : List Expr) :
    (node h xs).form? = some (.block xs) :=
  form?_node hname xs

end Expr

open Script in
/-- What is written between separators is written one after the other. -/
theorem PlainText.toList_written_intercalate (width level : Int) (separator : String)
    (g : Expr → Script) (xs : List Expr) :
    (written width (place level ([.text separator].intercalate (xs.map g)))).toList =
      separator.toList.intercalate
        (xs.map fun x => (written width (place level (g x))).toList) := by
  rw [written_intercalate, String.toList_intercalate, List.map_map]
  rfl

namespace Expr

open PlainText Script

variable {blocks : Prop} {x : Expr}

/-- An operand is written as its tokens, in brackets or not, if it is so without. -/
theorem toList_written_operand {width : Int} {c : Connective} (level : Int)
    (h : (written width [.slot (.sub x 0)]).toList = spell (tokens x.alternatives)) :
    (written width (place level (operand c x))).toList =
      spell (tokens (operandAlternatives c x)) := by
  rw [operand, operandAlternatives, bracketed]
  split
  · have hplace : place level [.text "(", phrase x, .text ")"] =
        .text "(" :: ([.slot (.sub x 0)] ++ [.text ")"]) := rfl
    rw [hplace, written_text, written_append, written_text, written_nil, String.toList_append,
      String.toList_append, h, tokens_factor, Factor.tokens_group, spell_enclosed]
    simp [Token.spelling]
  · exact h

/-- A condition has the text of its alternatives, at every level. -/
theorem IsCondition.toList_written (h : x.IsCondition blocks) (width level : Int) :
    (written width [.slot (.sub x level)]).toList = spell (tokens x.alternatives) := by
  induction h generalizing level with
  | @name n hn =>
    have hform : (sym n).form? = some (.leaf (.ofSymbol n) n) := rfl
    rw [written_leaf width hform, alternatives, tokens_factor]
    exact (List.append_nil _).symm
  | @call _ callee arguments hname hcallee hmapping _ ih =>
    have hform : (sym callee).form? = some (.leaf (.ofSymbol callee) callee) := rfl
    have hplace : place level (Form.call (sym callee) arguments).script =
        [.slot (.sub (sym callee) 0)] ++
          .text "(" :: (place level (joined ", " arguments) ++ [.text ")"]) := by
      simp [place, Form.script, enclosed, Piece.move, phrase, Slot.move, Margin.level]
    have harguments : (arguments.map fun x => (written width (place level [phrase x])).toList) =
        arguments.map fun x => spell (tokens x.alternatives) :=
      List.map_congr_left fun x hx => ih x hx 0
    rw [written_form width (form?_call hname hmapping _), alternatives_call hname, hplace,
      written_append, written_leaf width hform, written_text, written_append, written_text,
      written_nil, String.toList_append, String.toList_append, String.toList_append, joined,
      toList_written_intercalate, harguments, tokens_factor, Factor.tokens_call, spell_enclosed,
      spell_intercalate, List.map_map, List.map_map]
    simp [Token.spelling, Function.comp_def]
  | @logical _ operands c hname _ hconditions ih =>
    have hoperands : (operands.map fun x => (written width (place level (operand c x))).toList) =
        operands.map fun x => spell (tokens (operandAlternatives c x)) :=
      List.map_congr_left fun x hx => toList_written_operand level (ih x hx 0)
    have hproper := properAlternatives_operands c fun x hx => (hconditions x hx).properAlternatives
    rw [written_form width (form?_logical hname _), alternatives_logical hname, Form.script,
      toList_written_intercalate, hoperands, c.tokens_joinAll hproper, spell_intercalate,
      c.token_spelling, List.map_map, List.map_map]
    rfl
  | block _ hname _ ih =>
    -- the statement is written at the level of the block, not inside a line
    rw [written_form width (form?_block hname _), alternatives_block hname]
    exact ih level

end Expr

/-! ## What is warned of -/

namespace Expr

open PlainText Script

variable {blocks : Prop} {x : Expr}

/-- Everything in a condition has a form. -/
theorem IsCondition.gaps_eq_nil (h : x.IsCondition blocks) (level : Int) : x.gaps level = [] := by
  have hsym : ∀ (n : String) (l : Int), (sym n).gaps l = [] :=
    fun n l => gaps_of_parts (f := .symbol n) rfl (fun y hy => by cases hy) l
  induction h generalizing level with
  | name => exact hsym _ level
  | call hname _ hmapping _ ih =>
    apply gaps_of_parts (form?_call hname hmapping _)
    intro y hy l
    rw [parts_call, List.mem_cons] at hy
    rcases hy with rfl | hy
    · exact hsym _ l
    · exact ih y hy l
  | logical c hname _ _ ih =>
    apply gaps_of_parts (form?_logical hname _)
    intro y hy l
    rw [parts_logical] at hy
    exact ih y hy l
  | block _ hname _ ih =>
    apply gaps_of_parts (form?_block hname _)
    intro y hy l
    cases List.mem_singleton.mp hy
    exact ih l

/-- **Conditions in text.**  Every printer has a text for a condition, without a warning, and it is
that of its alternatives behind some blanks. -/
theorem IsCondition.render_eq (h : x.IsCondition blocks) (strict : Bool) (width level : Int) :
    ∃ s : String, PlainText.render strict width x level = .ok (s, []) ∧
      s.toList = List.replicate (level * width).toNat ' ' ++ spell (tokens x.alternatives) := by
  have hgaps := h.gaps_eq_nil level
  have hwarned : warned width [.slot (.sub x level)] = [] := (warned_eq_nil_iff width _).mpr hgaps
  have hlenient := render_lenient width level x
  rw [hwarned] at hlenient
  refine ⟨indentation width level ++ written width [.slot (.sub x level)], ?_, ?_⟩
  · cases strict with
    | true => rw [render_strict_of_no_gap width level x hgaps, hlenient]
    | false => exact hlenient
  · rw [String.toList_append, h.toList_written, indentation, String.toList_ofList]

end Expr

end ExprPrinter
