import ExprPrinter.Form

/-!
# Which expressions have a form

Whether a node has a form can be told from its head word and its number of
children: its form is found exactly if its kind admits that number.
-/

namespace ExprPrinter

/-- A number of children is admitted if it is between the two bounds, where there are bounds. -/
theorem Kind.admits_iff (k : Kind) (n : Nat) :
    k.admits n = true ↔ k.fewest?.getD 0 ≤ n ∧ n ≤ k.most?.getD n := by
  rw [admits, Bool.and_eq_true, decide_eq_true_iff, decide_eq_true_iff]

/-- A head with the name of a kind has that kind. -/
theorem Head.kind?_of_name {h : Head} {k : Kind} (hname : h.name = k.name) : h.kind? = some k := by
  rw [kind?_eq_ofName?, hname, Kind.ofName?_name]

/-- The form of a node depends on its head word, and not on how that is given. -/
theorem Expr.form?_node {h : Head} {k : Kind} (hname : h.name = k.name) (xs : List Expr) :
    (node h xs).form? = Form.ofNode? k xs := by
  rw [form?, Head.kind?_of_name hname, Option.bind_some]

namespace Form

/-- Conditionals have forms for the numbers of children that are admitted. -/
theorem isSome_conditional? (word : Keyword) (xs : List Expr) :
    (conditional? word xs).isSome = Kind.conditional.admits xs.length := by
  rcases xs with _ | ⟨x, _ | ⟨y, _ | ⟨z, _ | ⟨w, more⟩⟩⟩⟩
  · rfl
  · rfl
  · rfl
  · rfl
  · simp [conditional?, Kind.admits, Kind.most?]

/-- So have definitions. -/
theorem isSome_definition? (definer : Definer) (xs : List Expr) :
    (definition? definer xs).isSome = Kind.function.admits xs.length := by
  rcases xs with _ | ⟨x, _ | ⟨y, _ | ⟨z, more⟩⟩⟩
  · rfl
  · rfl
  · rfl
  · simp [definition?, Kind.admits, Kind.most?]

/-- So have quotations. -/
theorem isSome_quote (xs : List Expr) :
    (ofNode? .quote xs).isSome = Kind.quote.admits xs.length := by
  rcases xs with _ | ⟨x, _ | ⟨y, more⟩⟩
  · rfl
  · cases x <;> rfl
  · simp [ofNode?, Kind.admits, Kind.fewest?, Kind.most?]

/-- So have calls. -/
theorem isSome_call (xs : List Expr) :
    (ofNode? .call xs).isSome = Kind.call.admits xs.length := by
  cases xs with
  | nil => rfl
  | cons x more =>
    rw [ofNode?]
    split <;> simp [Kind.admits, Kind.fewest?, Kind.most?]

/-- A node has a form exactly if its kind admits its number of children. -/
theorem isSome_ofNode? (k : Kind) (xs : List Expr) :
    (ofNode? k xs).isSome = k.admits xs.length := by
  cases k with
  | conditional => exact isSome_conditional? .ifWord xs
  | elseif => exact isSome_conditional? .elseifWord xs
  | function => exact isSome_definition? .function xs
  | macroDef => exact isSome_definition? .macroDef xs
  | quote => exact isSome_quote xs
  | call => exact isSome_call xs
  | _ =>
    rcases xs with _ | ⟨x, _ | ⟨y, _ | ⟨z, more⟩⟩⟩ <;>
      simp [ofNode?, Kind.admits, Kind.fewest?, Kind.most?]

end Form

/-- An expression has a form exactly if it is supported. -/
theorem Expr.isSome_form? (x : Expr) : x.form?.isSome = x.isSupported := by
  cases x with
  | quoted x => cases x <;> rfl
  | node h xs =>
    rw [form?, isSupported]
    cases h.kind? with
    | none => rfl
    | some k => exact Form.isSome_ofNode? k xs
  | _ => rfl

end ExprPrinter
