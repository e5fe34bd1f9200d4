import ExprPrinter.Proofs.Condition.Text

/-!
# What a condition means, before and after printing

A condition has a truth value as a tree and as it is read from a text, under
every interpretation of its names and calls.  The two are the same as long as
every operand of `&&` is one alternative when it is printed.  An operand with the
operator `||` is, because it gets brackets.

A block of one statement is printed as that statement.  An operand of `&&` that
is such a block with `||` inside gets no brackets, since it is no `||` itself,
and the text then says something else.  `Expr.hidesDisjunction` finds these
operands.  Where there are none, the meaning is kept, also through blocks:
`Expr.IsCondition.value_alternatives`.
-/

namespace ExprPrinter

open Condition

/-! ## The value of what is read -/

/-- What an operator makes of truth values. -/
def Connective.combine : Connective → List Bool → Bool
  | conjunction, bs => bs.all id
  | disjunction, bs => bs.any id

namespace Condition

/-- Truth values for names, and for the calls of a name by the values of the arguments. -/
structure Interpretation where
  name : String → Bool
  call : String → List Bool → Bool

mutual

/-- The truth value of a factor. -/
def Factor.value (v : Interpretation) : Factor → Bool
  | .name s => v.name s
  | .call callee arguments => v.call callee (argumentValues v arguments)
  | .group a => value v a

/-- Whether all factors of an alternative are true. -/
def rowValue (v : Interpretation) : List Factor → Bool
  | [] => true
  | f :: row => f.value v && rowValue v row

/-- Whether one of the alternatives is true. -/
def value (v : Interpretation) : List (List Factor) → Bool
  | [] => false
  | row :: a => rowValue v row || value v a

/-- The truth values of arguments. -/
def argumentValues (v : Interpretation) : List (List (List Factor)) → List Bool
  | [] => []
  | a :: arguments => value v a :: argumentValues v arguments

end

variable (v : Interpretation)

/-- The values of arguments are taken one by one. -/
theorem argumentValues_eq_map (arguments : List Alternatives) :
    argumentValues v arguments = arguments.map (value v) := by
  induction arguments with
  | nil => rfl
  | cons a arguments ih => rw [argumentValues, ih, List.map_cons]

/-- A single alternative has the value of its row. -/
theorem value_singleton (row : List Factor) : value v [row] = rowValue v row := by
  rw [value, value, Bool.or_false]

/-- A single factor has its own value. -/
theorem value_factor (f : Factor) : value v [[f]] = f.value v := by
  rw [value_singleton, rowValue, rowValue, Bool.and_true]

/-- More alternatives make a disjunction. -/
theorem value_append (a b : Alternatives) : value v (a ++ b) = (value v a || value v b) := by
  induction a with
  | nil => rw [value, Bool.false_or, List.nil_append]
  | cons row a ih => rw [List.cons_append, value, ih, value, Bool.or_assoc]

/-- More factors in a row make a conjunction. -/
theorem rowValue_append (row next : List Factor) :
    rowValue v (row ++ next) = (rowValue v row && rowValue v next) := by
  induction row with
  | nil => rw [rowValue, Bool.true_and, List.nil_append]
  | cons f row ih => rw [List.cons_append, rowValue, ih, rowValue, Bool.and_assoc]

/-- The value of alternatives is what `||` makes of the values of the parts. -/
theorem value_disjunction (as : List Alternatives) :
    value v (Connective.disjunction.joinAll as) =
      Connective.disjunction.combine (as.map (value v)) := by
  induction as with
  | nil => rfl
  | cons a as ih =>
    rw [Connective.joinAll_cons, List.map_cons, Connective.combine, List.any_cons]
    exact (value_append v a _).trans (congrArg (value v a || ·) ih)

/-- If every part is one alternative, the whole with `&&` between the parts is one, too, and its
value is what `&&` makes of the values of the parts. -/
theorem value_conjunction {as : List Alternatives} (hne : as ≠ []) (h : ∀ a ∈ as, a.length = 1) :
    (Connective.conjunction.joinAll as).length = 1 ∧
      value v (Connective.conjunction.joinAll as) =
        Connective.conjunction.combine (as.map (value v)) := by
  induction as with
  | nil => exact absurd rfl hne
  | cons a as ih =>
    obtain ⟨row, rfl⟩ := List.length_eq_one_iff.mp (h a List.mem_cons_self)
    rw [Connective.joinAll_cons, List.map_cons, Connective.combine, List.all_cons]
    by_cases hlast : as = []
    · subst hlast
      exact ⟨rfl, (Bool.and_true _).symm⟩
    · obtain ⟨hlength, hvalue⟩ := ih hlast fun b hb => h b (List.mem_cons_of_mem _ hb)
      obtain ⟨next, hnext⟩ := List.length_eq_one_iff.mp hlength
      have hglued : Connective.conjunction.join [row] [next] = [row ++ next] := rfl
      rw [hnext, value_singleton] at hvalue
      rw [hnext, hglued, value_singleton, value_singleton, rowValue_append, hvalue]
      exact ⟨rfl, rfl⟩

end Condition

/-! ## The value of a tree -/

namespace Expr

/-- The truth value of a node, from those of its children.  A block has the value of its last
statement. -/
def nodeTruth (v : Interpretation) (k : Kind) (children : List Expr) (bs : List Bool) : Bool :=
  match k with
  | .call => match children with
    | sym callee :: _ => v.call callee bs.tail
    | _ => false
  | .block => bs.getLastD false
  | .conjunction => Connective.conjunction.combine bs
  | .disjunction => Connective.disjunction.combine bs
  | _ => false

mutual

/-- The truth value of a condition.  Other values have none that counts. -/
def truth (v : Interpretation) : Expr → Bool
  | sym n => v.name n
  | node h children =>
    h.kind?.elim false fun k => nodeTruth v k children (truths v children)
  | _ => false

/-- The truth values of several conditions. -/
def truths (v : Interpretation) : List Expr → List Bool
  | [] => []
  | x :: xs => truth v x :: truths v xs

end

variable (v : Interpretation)

/-- The truths of several trees are taken one by one. -/
theorem truths_eq_map (xs : List Expr) : truths v xs = xs.map (truth v) := by
  induction xs with
  | nil => rfl
  | cons x xs ih => rw [truths, ih, List.map_cons]

/-- The truth of a node of a kind comes from those of its children. -/
theorem truth_node {h : Head} {k : Kind} (hname : h.name = k.name) (xs : List Expr) :
    (node h xs).truth v = nodeTruth v k xs (xs.map (truth v)) := by
  rw [truth, Head.kind?_of_name hname, truths_eq_map]
  rfl

/-- A logical node combines the truths of its operands. -/
theorem truth_logical {h : Head} {c : Connective} (hname : h.name = c.kind.name)
    (xs : List Expr) : (node h xs).truth v = c.combine (xs.map (truth v)) := by
  rw [truth_node v hname]
  cases c <;> rfl

/-! ## Operands that lose their brackets -/

/-- What is printed of a value: the statement inside, if it is a block of one statement. -/
def shown : Expr → Expr
  | node h [x] => if h.name == Kind.block.name then shown x else node h [x]
  | x => x

/-- Whether a value is a block that is printed as a disjunction. -/
def isHidden (x : Expr) : Bool :=
  x.isKind .block && x.shown.isKind .disjunction

mutual

/-- Whether somewhere in a tree an operand of `&&` is a block that is printed as a disjunction. -/
def hidesDisjunction : Expr → Bool
  | node h xs =>
    h.name == Kind.conjunction.name && xs.any isHidden || hidesDisjunctionAny xs
  | _ => false

/-- Whether that is so in one of several trees. -/
def hidesDisjunctionAny : List Expr → Bool
  | [] => false
  | x :: xs => hidesDisjunction x || hidesDisjunctionAny xs

end

/-- Several trees hide a disjunction if one of them does. -/
theorem hidesDisjunctionAny_eq_any (xs : List Expr) :
    hidesDisjunctionAny xs = xs.any hidesDisjunction := by
  induction xs with
  | nil => rfl
  | cons x xs ih => rw [hidesDisjunctionAny, ih, List.any_cons]

/-- A node that hides no disjunction has no hidden operand, if it is a conjunction, and no child
that hides one. -/
theorem hidesDisjunction_node {h : Head} {xs : List Expr}
    (hnone : (node h xs).hidesDisjunction = false) :
    (h.name = Kind.conjunction.name → ∀ x ∈ xs, x.isHidden = false) ∧
      ∀ x ∈ xs, x.hidesDisjunction = false := by
  rw [hidesDisjunction, hidesDisjunctionAny_eq_any, Bool.or_eq_false_iff, List.any_eq_false]
    at hnone
  constructor
  · intro hname
    rw [hname, beq_self_eq_true, Bool.true_and, List.any_eq_false] at hnone
    exact fun x hx => Bool.eq_false_iff.mpr (hnone.1 x hx)
  · exact fun x hx => Bool.eq_false_iff.mpr (hnone.2 x hx)

/-- A block of one statement shows as that statement. -/
theorem shown_block {h : Head} (hname : h.name = Kind.block.name) (x : Expr) :
    (node h [x]).shown = x.shown := by
  rw [shown, if_pos (beq_iff_eq.mpr hname)]

/-- What is no block shows as itself. -/
theorem shown_of_not_block {x : Expr} (h : x.isKind .block = false) : x.shown = x := by
  unfold shown
  split
  · next head y =>
    have hname : ¬(head.name == Kind.block.name) = true := Bool.eq_false_iff.mp h
    rw [if_neg hname]
  · rfl

namespace IsCondition

variable {v} {x : Expr}

/-- An operand of `&&` that is not hidden is printed as one alternative. -/
theorem length_operand
    (h : x.shown.isKind .disjunction = false → x.alternatives.length = 1)
    (hvisible : x.isHidden = false) : (operandAlternatives .conjunction x).length = 1 := by
  rw [operandAlternatives, bracketed]
  split
  · rfl
  · next hkind =>
    apply h
    rcases Bool.and_eq_false_iff.mp hvisible with hblock | hshown
    · rw [shown_of_not_block hblock]
      exact Bool.eq_false_iff.mpr hkind
    · exact hshown

/-- An operand has its value, in brackets or not. -/
theorem value_operand (c : Connective) (h : value v x.alternatives = x.truth v) :
    value v (operandAlternatives c x) = x.truth v := by
  rw [operandAlternatives, bracketed]
  split
  · rw [value_factor, Factor.value, h]
  · exact h

/-- A condition that hides no disjunction keeps its value in print, and it is one alternative unless
it is printed as a disjunction. -/
theorem value_alternatives (h : x.IsCondition True) (hnone : x.hidesDisjunction = false) :
    value v x.alternatives = x.truth v ∧
      (x.shown.isKind .disjunction = false → x.alternatives.length = 1) := by
  induction h with
  | name => exact ⟨value_factor v _, fun _ => rfl⟩
  | @call _ callee xs hname _ _ _ ih =>
    have hbelow := (hidesDisjunction_node hnone).2
    have hvalues : (xs.map alternatives).map (value v) = xs.map (truth v) := by
      rw [List.map_map]
      exact List.map_congr_left fun y hy =>
        (ih y hy (hbelow y (List.mem_cons_of_mem _ hy))).1
    rw [alternatives_call hname, truth_node v hname, value_factor, Factor.value,
      argumentValues_eq_map, hvalues]
    exact ⟨rfl, fun _ => rfl⟩
  | @logical h xs c hname hlength _ ih =>
    obtain ⟨hhere, hbelow⟩ := hidesDisjunction_node hnone
    have hvalues : (xs.map (operandAlternatives c)).map (value v) = xs.map (truth v) := by
      rw [List.map_map]
      exact List.map_congr_left fun y hy => value_operand c (ih y hy (hbelow y hy)).1
    rw [alternatives_logical hname, truth_logical v hname, ← hvalues]
    -- only `&&` needs its operands to be one alternative each
    cases c with
    | conjunction =>
      have hone : ∀ a ∈ xs.map (operandAlternatives .conjunction), a.length = 1 := by
        intro a ha
        obtain ⟨y, hy, rfl⟩ := List.mem_map.mp ha
        exact length_operand (ih y hy (hbelow y hy)).2 (hhere hname y hy)
      obtain ⟨hsingle, hvalue⟩ := value_conjunction v (map_ne_nil hlength) hone
      exact ⟨hvalue, fun _ => hsingle⟩
    | disjunction =>
      refine ⟨value_disjunction v _, fun hshown => ?_⟩
      rw [shown_of_not_block (isKind_node hname .block xs), isKind_node hname] at hshown
      cases hshown
  | @block h y _ hname _ ih =>
    have hbelow := (hidesDisjunction_node hnone).2 y List.mem_cons_self
    rw [alternatives_block hname, truth_node v hname, shown_block hname]
    exact ih hbelow

end IsCondition

end Expr

/-! ## Texts and truth -/

/-- **Meaning in print.**  A condition with blocks of one statement in it has a text that reads as a
condition, and if no operand of `&&` is a block that is printed as a disjunction, that condition has
the value of the tree under every interpretation. -/
theorem text_keeps_truth {x : Expr} (hx : x.IsCondition True) (hnone : x.hidesDisjunction = false)
    (strict : Bool) (width level : Int) :
    ∃ (s : String) (a : Alternatives),
      PlainText.render strict width x level = .ok (s, []) ∧
      read s = some a ∧
      ∀ v, value v a = x.truth v := by
  obtain ⟨s, hs, htext⟩ := hx.render_eq strict width level
  have hread := read_spell hx.properAlternatives htext
  exact ⟨s, x.alternatives, hs, hread, fun v => (hx.value_alternatives hnone).1⟩

/-- A conjunction in a block among the operands of `&&` and of `||`, and a disjunction that gets its
brackets. -/
theorem truth_kept_through_blocks :
    let inner := Expr.node (.spelled "&&") [.sym "c", .sym "d"]
    let either := Expr.node (.constant .disjunction)
      [.sym "b", .node (.constant .block) [inner]]
    let tree := Expr.node (.constant .conjunction)
      [.sym "a", .node (.spelled "block") [.node (.constant .conjunction) [either, .sym "e"]]]
    (tree.IsCondition True ∧ tree.hidesDisjunction = false) ∧
    ∃ (s : String) (a : Alternatives),
      PlainText.render true 4 tree 1 = .ok (s, []) ∧
      read s = some a ∧
      ∀ v, value v a = tree.truth v := by
  intro inner either tree
  have hname : ∀ n ∈ ["a", "b", "c", "d", "e"], (Expr.sym n).IsCondition True :=
    fun n hn => .name (by revert n; decide)
  have hinner : inner.IsCondition True :=
    .binary .conjunction rfl (hname "c" (by simp)) (hname "d" (by simp))
  have heither : either.IsCondition True :=
    .binary .disjunction rfl (hname "b" (by simp)) (.block trivial rfl hinner)
  have htree : tree.IsCondition True :=
    .binary .conjunction rfl (hname "a" (by simp))
      (.block trivial rfl (.binary .conjunction rfl heither (hname "e" (by simp))))
  have hnone : tree.hidesDisjunction = false := by decide
  exact ⟨⟨htree, hnone⟩, text_keeps_truth htree hnone true 4 1⟩

/-- A disjunction in a block loses its brackets as an operand of `&&`, and the text means something
else than the tree. -/
theorem misread_of_hidden_disjunction :
    let tree := Expr.node (.constant .conjunction) [.sym "a",
      .node (.constant .block) [.node (.constant .disjunction) [.sym "b", .sym "c"]]]
    tree.IsCondition True ∧
    PlainText.render false 4 tree 0 = .ok ("a && b || c", []) ∧
    ∃ (a : Alternatives) (v : Interpretation),
      read "a && b || c" = some a ∧ value v a = true ∧ tree.truth v = false := by
  intro tree
  have hname : ∀ n ∈ ["a", "b", "c"], (Expr.sym n).IsCondition True :=
    fun n hn => .name (by revert n; decide)
  have htree : tree.IsCondition True :=
    .binary .conjunction rfl (hname "a" (by simp))
      (.block trivial rfl (.binary .disjunction rfl (hname "b" (by simp)) (hname "c" (by simp))))
  obtain ⟨s, hs, htext⟩ := htree.render_eq false 4 0
  have heq : s = "a && b || c" := by
    rw [← String.toList_inj, htext]
    rfl
  subst heq
  have hread := read_spell htree.properAlternatives htext
  exact ⟨htree, hs, tree.alternatives, ⟨fun n => n == "c", fun _ _ => false⟩, hread, by decide,
    by decide⟩

end ExprPrinter
