import ExprPrinter.Expr.Components
import ExprPrinter.Proofs.PlainText.Expansion
import ExprPrinter.Proofs.Script.Parts
import Mathlib.Data.List.MinMax
import Mathlib.Logic.Relation

/-!
# What the printers go down to

A printer puts the script of its form in the place of an expression, and its sentinel
if it has no form.  Not only children come up in this way: the statements of a body,
the later arms of a chain of conditions and the name in a quoted member are taken from
deeper down.  But all of it is inside the expression: `isInside_of_mem_expansion`.

So a printer could as well be written by recursion on the expression, and what holds
of an expression whenever it holds of all that its place is taken by holds of every
expression: `expansion_induction`.
-/

namespace ExprPrinter

namespace Expr

/-- An expression that another one has inside, at some depth. -/
abbrev IsInside : Expr → Expr → Prop :=
  Relation.TransGen fun y x => y ∈ x.components

/-- An expression that is inside another one, or is that other one. -/
abbrev IsWithin : Expr → Expr → Prop :=
  Relation.ReflTransGen fun y x => y ∈ x.components

/-- What is inside another value is smaller. -/
theorem IsInside.sizeOf_lt {x y : Expr} (h : y.IsInside x) : sizeOf y < sizeOf x := by
  induction h with
  | single hx => exact sizeOf_lt_of_mem_components hx
  | tail _ hx ih => exact Nat.lt_trans ih (sizeOf_lt_of_mem_components hx)

/-- How deep a value is nested: one more than the deepest of what it holds. -/
def depth (x : Expr) : Nat :=
  (x.components.attach.map fun y => y.1.depth).foldr max 0 + 1
termination_by sizeOf x
decreasing_by exact sizeOf_lt_of_mem_components y.2

/-- The depth of a value in terms of what it holds. -/
theorem depth_eq (x : Expr) : x.depth = (x.components.map depth).foldr max 0 + 1 := by
  rw [depth, List.attach_map_val (f := depth)]

/-- Every value has a depth. -/
theorem depth_pos (x : Expr) : 0 < x.depth := by
  rw [depth_eq]
  omega

/-- What a value holds is nested less deep. -/
theorem depth_lt_of_mem_components {x y : Expr} (h : y ∈ x.components) : y.depth < x.depth := by
  have hle : y.depth ≤ (x.components.map depth).foldr max 0 :=
    List.le_max_of_le' 0 (List.mem_map_of_mem h) (Nat.le_refl _)
  rw [depth_eq x]
  omega

/-- What is inside another value is nested less deep. -/
theorem IsInside.depth_lt {x y : Expr} (h : y.IsInside x) : y.depth < x.depth := by
  induction h with
  | single hx => exact depth_lt_of_mem_components hx
  | tail _ hx ih => exact Nat.lt_trans ih (depth_lt_of_mem_components hx)

/-- What is within a component is inside. -/
theorem IsWithin.isInside {x y z : Expr} (h : y.IsWithin z) (hz : z ∈ x.components) :
    y.IsInside x :=
  Relation.TransGen.tail' h hz

/-- Within a value that holds one atom there is nothing but these two. -/
theorem eq_of_isWithin_of_components {x y z : Expr} (hx : x.components = [z])
    (hz : z.components = []) (h : y.IsWithin x) : y = x ∨ y = z := by
  rcases Relation.ReflTransGen.cases_tail h with rfl | ⟨u, hyu, hu⟩
  · exact .inl rfl
  · rw [hx] at hu
    cases List.mem_singleton.mp hu
    rcases Relation.ReflTransGen.cases_tail hyu with rfl | ⟨v, _, hv⟩
    · exact .inr rfl
    · rw [hz] at hv
      cases hv

/-- The statements of a body are within it. -/
theorem isWithin_of_mem_statements {x y : Expr} (h : y ∈ x.statements) : y.IsWithin x := by
  unfold statements at h
  split at h
  · cases x with
    | node head xs => exact .single h
    | _ => cases h
  · cases List.mem_singleton.mp h
    exact .refl

/-- The name that a quoted member stands for is within the member. -/
theorem isWithin_field (x : Expr) : x.field.IsWithin x := by
  unfold field
  split
  · exact .single (List.mem_singleton.mpr rfl)
  · exact .refl

/-- What a chain of conditions collects is within the expression that it starts at. -/
theorem isWithin_chain (x : Expr) :
    ∀ y ∈ x.chain.1.flatMap Arm.exprs ++ x.chain.2.getD [], y.IsWithin x := by
  fun_induction chain x with
  | case1 h condition body _ =>
    intro y hy
    have hcases : y = condition ∨ y ∈ body.statements := by
      simpa [Arm.exprs] using hy
    rcases hcases with rfl | hbody
    · exact .single (by simp [components])
    · exact (isWithin_of_mem_statements hbody).tail (by simp [components])
  | case2 h condition body _ =>
    intro y hy
    exact isWithin_of_mem_statements hy
  | case3 h condition body alternative _ arms otherwise hchain ih =>
    intro y hy
    have hcases : y = condition ∨ y ∈ body.statements ∨
        y ∈ arms.flatMap Arm.exprs ++ otherwise.getD [] := by
      simpa [Arm.exprs, or_assoc] using hy
    simp only [hchain] at ih
    rcases hcases with rfl | hbody | hrest
    · exact .single (by simp [components])
    · exact (isWithin_of_mem_statements hbody).tail (by simp [components])
    · exact (ih y hrest).tail (by simp [components])
  | case4 h condition body alternative _ =>
    intro y hy
    exact isWithin_of_mem_statements hy
  | case5 x =>
    intro y hy
    exact isWithin_of_mem_statements hy

end Expr

namespace Form

/-- The expressions in the places of a form. -/
def exprs : Form → List Expr
  | leaf _ _ => []
  | ratio a b | pair a b | lambda a b | assignment a b | member a b => [a, b]
  | tuple xs | vector xs | mapping xs | quotation xs | block xs | comparison xs | range xs
  | importing _ xs | exporting xs | logical _ xs | toplevel xs => xs
  | unquote x | splat x => [x]
  | conditional _ first more last => (first :: more).flatMap Arm.exprs ++ last.getD []
  | letBlock xs ys => xs ++ ys
  | definition _ x xs => x :: xs.getD []
  | index x xs | moduleDef x xs | generic x xs | call x xs | macroCall x xs => x :: xs
  | typed x y => x.toList ++ [y]

/-- The script of a form takes up expressions of the form only. -/
theorem parts_script_subset (f : Form) : f.script.parts ⊆ f.exprs := by
  cases f with
  | unquote x => exact Script.parts_unquoted_subset x
  | mapping xs => rw [Script.parts_mapping, exprs]; exact List.Subset.refl xs
  | logical c xs => rw [Script.parts_logical, exprs]; exact List.Subset.refl xs
  | toplevel xs => rw [Script.parts_toplevel, exprs]; exact List.Subset.refl xs
  | conditional word first more last =>
    rw [script, Script.parts_conditional, exprs]
    exact List.Subset.refl _
  | typed x y => cases x <;> simp [script, exprs]
  | _ => simp [script, exprs]

/-- Every expression of a form is within one of the children of its node. -/
def FromChildren (xs : List Expr) (f : Form) : Prop :=
  ∀ y ∈ f.exprs, ∃ x ∈ xs, y.IsWithin x

/-- Children of the node are within themselves. -/
theorem fromChildren_of_subset {xs : List Expr} {f : Form} (h : f.exprs ⊆ xs) :
    FromChildren xs f :=
  fun y hy => ⟨y, h hy, .refl⟩

/-- The arms of a conditional come from its children, however far down the chain. -/
theorem fromChildren_conditional? {word : Keyword} {xs : List Expr} {f : Form}
    (h : conditional? word xs = some f) : FromChildren xs f := by
  unfold conditional? at h
  split at h
  · next condition body =>
    cases h
    intro y hy
    have hcases : y = condition ∨ y ∈ body.statements := by
      simpa [exprs, Arm.exprs] using hy
    rcases hcases with rfl | hbody
    · exact ⟨y, by simp, .refl⟩
    · exact ⟨body, by simp, Expr.isWithin_of_mem_statements hbody⟩
  · next condition body alternative =>
    cases h
    intro y hy
    have hcases : y = condition ∨ y ∈ body.statements ∨
        y ∈ alternative.chain.1.flatMap Arm.exprs ++ alternative.chain.2.getD [] := by
      simpa [exprs, Arm.exprs, or_assoc] using hy
    rcases hcases with rfl | hbody | hrest
    · exact ⟨y, by simp, .refl⟩
    · exact ⟨body, by simp, Expr.isWithin_of_mem_statements hbody⟩
    · exact ⟨alternative, by simp, alternative.isWithin_chain y hrest⟩
  · cases h

/-- The statements of a definition come from its body. -/
theorem fromChildren_definition? {definer : Definer} {xs : List Expr} {f : Form}
    (h : definition? definer xs = some f) : FromChildren xs f := by
  unfold definition? at h
  split at h
  · cases h
    exact fromChildren_of_subset (List.Subset.refl _)
  · next signature body =>
    cases h
    intro y hy
    rcases List.mem_cons.mp hy with rfl | hbody
    · exact ⟨y, by simp, .refl⟩
    · exact ⟨body, by simp, Expr.isWithin_of_mem_statements hbody⟩
  · cases h

/-- **Forms are made of children**, of what is inside of them at least. -/
theorem fromChildren_ofNode? {k : Kind} {xs : List Expr} {f : Form} (h : ofNode? k xs = some f) :
    FromChildren xs f := by
  cases k <;> simp only [ofNode?] at h
  case conditional | elseif => exact fromChildren_conditional? h
  case function | macroDef => exact fromChildren_definition? h
  case tuple | vector | mapping | block | comparison | range | importing | usingModule |
      exporting | conjunction | disjunction | toplevel =>
    cases h
    exact fromChildren_of_subset (List.Subset.refl xs)
  case ratio | pair | unquote | splat | lambda | assignment | index | generic | macroCall =>
    split at h <;> cases h
    exact fromChildren_of_subset (List.Subset.refl _)
  case quote =>
    split at h <;> cases h
    · exact fromChildren_of_subset (List.nil_subset _)
    · exact fromChildren_of_subset (List.Subset.refl _)
  case letBlock =>
    split at h
    · next body bindings =>
      cases h
      intro y hy
      rcases List.mem_append.mp hy with hbinding | hbody
      · exact ⟨y, List.mem_cons_of_mem _ hbinding, .refl⟩
      · exact ⟨body, List.mem_cons_self, Expr.isWithin_of_mem_statements hbody⟩
    · cases h
  case moduleDef =>
    split at h
    · cases h
      exact fromChildren_of_subset (List.Subset.refl _)
    · next name body =>
      cases h
      intro y hy
      rcases List.mem_cons.mp hy with rfl | hbody
      · exact ⟨y, by simp, .refl⟩
      · exact ⟨body, by simp, Expr.isWithin_of_mem_statements hbody⟩
    · cases h
  case member =>
    split at h
    · next owner x =>
      cases h
      intro y hy
      have hcases : y = owner ∨ y = x.field := by simpa [exprs] using hy
      rcases hcases with rfl | rfl
      · exact ⟨y, by simp, .refl⟩
      · exact ⟨x, by simp, x.isWithin_field⟩
    · cases h
  case typed =>
    split at h <;> cases h <;> exact fromChildren_of_subset (List.Subset.refl _)
  case call =>
    split at h
    · split at h <;> cases h
      · exact fromChildren_of_subset (List.subset_cons_self _ _)
      · exact fromChildren_of_subset (List.Subset.refl _)
    · cases h

end Form

namespace Expr

/-- The expressions in the form of an expression are inside it. -/
theorem isInside_of_mem_exprs {x y : Expr} {f : Form} (hf : x.form? = some f)
    (hy : y ∈ f.exprs) : y.IsInside x := by
  have hcomponent : ∀ {z : Expr}, z ∈ x.components → z.IsInside x :=
    fun hz => .single hz
  cases x with
  | node head xs =>
    obtain ⟨k, _, hf⟩ := Option.bind_eq_some_iff.mp hf
    obtain ⟨z, hz, hwithin⟩ := Form.fromChildren_ofNode? hf y hy
    exact hwithin.isInside hz
  | quoted z =>
    cases z with
    | sym name =>
      cases hf
      cases hy
    | _ =>
      cases hf
      exact hcomponent hy
  | plain d => cases hf
  | pair a b => cases hf; exact hcomponent hy
  | tuple xs => cases hf; exact hcomponent hy
  | list xs => cases hf; exact hcomponent hy
  | mapping xs => cases hf; exact hcomponent hy
  | _ =>
    cases hf
    cases hy

/-- A sentinel takes up what the value holds, and nothing else. -/
theorem parts_sentinel_subset (x : Expr) : x.sentinel.parts ⊆ x.components := by
  cases x with
  | node head xs =>
    have hchildren : Script.parts (xs.flatMap fun z => [.text " ", Script.phrase z]) = xs := by
      rw [Script.parts_flatMap]
      exact List.flatMap_singleton' xs
    simp [sentinel, fallback, hchildren, components]
  | _ => simp [sentinel, fallback]

/-- **Everything that comes up in the place of an expression is inside it.** -/
theorem isInside_of_mem_expansion {x y : Expr} (hy : y ∈ x.expansion.parts) : y.IsInside x := by
  cases hf : x.form? with
  | some f =>
    rw [expansion_of_form hf] at hy
    exact isInside_of_mem_exprs hf (f.parts_script_subset hy)
  | none =>
    rw [expansion_of_gap hf] at hy
    exact .single (x.parts_sentinel_subset hy)

/-- Induction along the expansions of expressions. -/
theorem expansion_induction {P : Expr → Prop}
    (step : ∀ x, (∀ y ∈ x.expansion.parts, P y) → P x) (x : Expr) : P x := by
  induction hn : sizeOf x using Nat.strongRecOn generalizing x with
  | ind n ih =>
    apply step
    intro y hy
    have hlt := (isInside_of_mem_expansion hy).sizeOf_lt
    exact ih (sizeOf y) (by omega) y rfl

end Expr

end ExprPrinter
