import ExprPrinter.Form

/-!
# The weight of a form

The expressions in the places of a form are disjoint proper parts of the
expression that has the form.  So their sizes add up to less than its own:
`Expr.weight_form?_lt`.  Every loop that works through a tree by way of forms
ends for this reason.
-/

namespace ExprPrinter

/-- The sizes of several expressions together. -/
noncomputable def weights : List Expr → Nat
  | [] => 0
  | x :: xs => sizeOf x + weights xs

@[simp] theorem weights_nil : weights [] = 0 := rfl

@[simp] theorem weights_cons (x : Expr) (xs : List Expr) :
    weights (x :: xs) = sizeOf x + weights xs := rfl

/-- The weights of the members of a list do not come up to the size of the list. -/
theorem weights_lt (xs : List Expr) : weights xs < sizeOf xs := by
  induction xs with
  | nil => rw [weights_nil, List.nil.sizeOf_spec]; exact Nat.zero_lt_one
  | cons x xs ih =>
    rw [weights_cons, List.cons.sizeOf_spec]
    omega

namespace Expr

/-- No expression is of size zero. -/
theorem sizeOf_pos (x : Expr) : 0 < sizeOf x := by
  cases x <;> simp only [nil.sizeOf_spec, bool.sizeOf_spec, int.sizeOf_spec, uint.sizeOf_spec,
    float.sizeOf_spec, ratio.sizeOf_spec, char.sizeOf_spec, str.sizeOf_spec, sym.sizeOf_spec,
    quoted.sizeOf_spec, pair.sizeOf_spec, tuple.sizeOf_spec, list.sizeOf_spec,
    mapping.sizeOf_spec, node.sizeOf_spec, plain.sizeOf_spec] <;> omega

/-- The children of a node weigh less than the node. -/
theorem weights_children_lt (x : Expr) : weights x.children < sizeOf x := by
  cases x with
  | node h xs =>
    have hxs := weights_lt xs
    rw [children, node.sizeOf_spec]
    omega
  | _ => exact sizeOf_pos _

/-- A body has its own weight in statements at most. -/
theorem weights_statements_le (x : Expr) : weights x.statements ≤ sizeOf x := by
  unfold statements
  split
  · exact Nat.le_of_lt x.weights_children_lt
  · exact Nat.le_refl _

/-- The name that a quoted member stands for is not larger than the member. -/
theorem sizeOf_field_le (x : Expr) : sizeOf x.field ≤ sizeOf x := by
  unfold field
  split
  · rw [quoted.sizeOf_spec]
    omega
  · exact Nat.le_refl _

end Expr

/-- The size of an arm is that of its condition and statements. -/
noncomputable def Arm.weight (a : Arm) : Nat :=
  sizeOf a.condition + weights a.body

/-- The sizes of a list of arms and of the statements behind them. -/
noncomputable def chainWeight : List Arm → Option (List Expr) → Nat
  | [], last => weights (last.getD [])
  | a :: arms, last => a.weight + chainWeight arms last

@[simp] theorem chainWeight_nil (last : Option (List Expr)) :
    chainWeight [] last = weights (last.getD []) := rfl

@[simp] theorem chainWeight_cons (a : Arm) (arms : List Arm) (last : Option (List Expr)) :
    chainWeight (a :: arms) last = a.weight + chainWeight arms last := rfl

/-- A chain of conditions is not heavier than the expression that it starts at. -/
theorem Expr.chainWeight_chain_le (x : Expr) : chainWeight x.chain.1 x.chain.2 ≤ sizeOf x := by
  fun_induction Expr.chain x with
  | case1 h condition body _ =>
    have hbody := body.weights_statements_le
    simp only [chainWeight_cons, chainWeight_nil, Arm.weight, Option.getD_none, weights_nil,
      Expr.node.sizeOf_spec, List.cons.sizeOf_spec]
    omega
  | case2 h condition body _ =>
    rw [chainWeight_nil]
    exact Expr.weights_statements_le _
  | case3 h condition body alternative _ arms otherwise hc ih =>
    have hbody := body.weights_statements_le
    simp only [hc] at ih
    simp only [chainWeight_cons, Arm.weight, Expr.node.sizeOf_spec, List.cons.sizeOf_spec]
    omega
  | case4 h condition body alternative _ =>
    rw [chainWeight_nil]
    exact Expr.weights_statements_le _
  | case5 x =>
    rw [chainWeight_nil]
    exact x.weights_statements_le

namespace Form

/-- The sizes of the expressions in a form together. -/
noncomputable def weight : Form → Nat
  | leaf _ _ => 0
  | ratio a b | pair a b | lambda a b | assignment a b | member a b => sizeOf a + sizeOf b
  | tuple xs | vector xs | mapping xs | quotation xs | block xs | comparison xs | range xs
  | importing _ xs | exporting xs | logical _ xs | toplevel xs => weights xs
  | unquote x | splat x => sizeOf x
  | conditional _ first more last => first.weight + chainWeight more last
  | letBlock xs ys => weights xs + weights ys
  | definition _ x xs => sizeOf x + weights (xs.getD [])
  | index x xs | moduleDef x xs | generic x xs | call x xs | macroCall x xs =>
    sizeOf x + weights xs
  | typed x y => weights x.toList + sizeOf y

/-- A conditional form is lighter than the list of children that it is made of. -/
theorem weight_conditional?_lt {word : Keyword} {xs : List Expr} {f : Form}
    (h : conditional? word xs = some f) : f.weight < sizeOf xs := by
  unfold conditional? at h
  split at h
  · next condition body =>
    have hbody := body.weights_statements_le
    cases h
    simp only [weight, Arm.weight, chainWeight_nil, Option.getD_none, weights_nil,
      List.cons.sizeOf_spec]
    omega
  · next condition body alternative =>
    have hbody := body.weights_statements_le
    have hrest := alternative.chainWeight_chain_le
    cases h
    simp only [weight, Arm.weight, List.cons.sizeOf_spec]
    omega
  · cases h

/-- A definition is lighter than the list of children that it is made of. -/
theorem weight_definition?_lt {definer : Definer} {xs : List Expr} {f : Form}
    (h : definition? definer xs = some f) : f.weight < sizeOf xs := by
  unfold definition? at h
  split at h
  · cases h
    simp only [weight, Option.getD_none, weights_nil, List.cons.sizeOf_spec]
    omega
  · next signature body =>
    have hbody := body.weights_statements_le
    cases h
    simp only [weight, Option.getD_some, List.cons.sizeOf_spec]
    omega
  · cases h

/-- The expressions in the form of a node are disjoint parts of its children. -/
theorem weight_ofNode?_lt {k : Kind} {xs : List Expr} {f : Form} (h : ofNode? k xs = some f) :
    f.weight < sizeOf xs := by
  have hxs := weights_lt xs
  cases k <;> simp only [ofNode?] at h
  case conditional | elseif => exact weight_conditional?_lt h
  case function | macroDef => exact weight_definition?_lt h
  case tuple | vector | mapping | block | comparison | range | importing | usingModule |
      exporting | conjunction | disjunction | toplevel =>
    cases h
    exact hxs
  case ratio | pair | unquote | splat | lambda | assignment | index | generic | macroCall =>
    split at h <;> cases h
    simp only [weight, List.cons.sizeOf_spec, weights_cons] at hxs ⊢
    omega
  case quote =>
    split at h <;> cases h
    · exact Nat.zero_lt_of_lt hxs
    · exact hxs
  case letBlock =>
    split at h
    · next body bindings =>
      have hbody := body.weights_statements_le
      cases h
      simp only [weight, List.cons.sizeOf_spec, weights_cons] at hxs ⊢
      omega
    · cases h
  case moduleDef =>
    split at h
    · cases h
      simp only [weight, List.cons.sizeOf_spec, weights_nil]
      omega
    · next name body =>
      have hbody := body.weights_statements_le
      cases h
      simp only [weight, List.cons.sizeOf_spec]
      omega
    · cases h
  case member =>
    split at h
    · next owner x =>
      have hfield := x.sizeOf_field_le
      cases h
      simp only [weight, List.cons.sizeOf_spec]
      omega
    · cases h
  case typed =>
    split at h <;> cases h <;>
      simp only [weight, Option.toList, weights_nil, weights_cons, List.cons.sizeOf_spec] <;>
      omega
  case call =>
    split at h
    · next callee arguments =>
      simp only [weights_cons, List.cons.sizeOf_spec] at hxs ⊢
      split at h <;> cases h <;> simp only [weight] <;> omega
    · cases h

end Form

/-- **A form is lighter than its expression.** This is why the printers come to an end. -/
theorem Expr.weight_form?_lt {x : Expr} {f : Form} (h : x.form? = some f) :
    f.weight < sizeOf x := by
  cases x with
  | node head xs =>
    obtain ⟨k, _, hf⟩ := Option.bind_eq_some_iff.1 h
    have hxs := Form.weight_ofNode?_lt hf
    rw [Expr.node.sizeOf_spec]
    omega
  | tuple xs =>
    cases h
    have hxs := weights_lt xs
    simp only [Form.weight, Expr.tuple.sizeOf_spec]
    omega
  | list xs =>
    cases h
    have hxs := weights_lt xs
    simp only [Form.weight, Expr.list.sizeOf_spec]
    omega
  | mapping xs =>
    cases h
    have hxs := weights_lt xs
    simp only [Form.weight, Expr.mapping.sizeOf_spec]
    omega
  | quoted x =>
    cases x with
    | sym name => cases h; exact sizeOf_pos _
    | _ =>
      cases h
      simp only [Form.weight, weights_cons, weights_nil, Expr.quoted.sizeOf_spec]
      omega
  | pair a b =>
    cases h
    simp only [Form.weight, Expr.pair.sizeOf_spec]
    omega
  | plain d => cases h
  | _ => cases h; exact sizeOf_pos _

end ExprPrinter
