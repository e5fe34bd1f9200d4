import ExprPrinter.Proofs.Form.Chains
import ExprPrinter.Script

/-!
# Views of a child

A script takes up each of the children of its node once.  It seldom takes a
child as a whole only: the statements of a body are taken apart, the arms of a
chain of conditions are spliced in, a quoted name loses its quotes.  A view is
one of the ways in which a script can take up a child.

`takes_ofNode?` is the outcome.  Take a node whose kind admits the number of its
children, and leave one child open.  Then the script of the node is the view of
that child, the same view for all that may stand there, between two scripts
that do not depend on it.
-/

namespace ExprPrinter

open Script

/-- A way to take up a child. -/
inductive View where
  /-- The child as it is laid out, with the given margin. -/
  | whole (m : Margin)
  /-- The statements of a body. -/
  | body
  /-- The statements of the body of a module. -/
  | moduleBody
  /-- The rest of a conditional, from the child in its else-position. -/
  | alternative
  /-- The member of an owner. -/
  | field
  /-- The member of an owner, from below a quotation. -/
  | quotedField
  /-- An operand of a logical operator. -/
  | operand (c : Connective)
  /-- An unquoted form. -/
  | unquoted
  /-- A quoted form. -/
  | quotation

/-- What is written for a child in a view. -/
def View.script : View → Expr → Script
  | whole m, x => [.slot (.sub x m)]
  | body, x => Script.body x.statements
  | moduleBody, x => moduleForms x.statements
  | alternative, x =>
    x.chain.1.flatMap (fun a => newline .here ++ arm .elseifWord a) ++ otherwise x.chain.2
  | field, x => [phrase x.field]
  | quotedField, x => [phrase (Expr.quoted x).field]
  | operand c, x => Script.operand c x
  | unquoted, x => Script.unquoted x
  | quotation, .sym name => [.text (":" ++ name)]
  | quotation, x => .text ":" :: enclosed "(" [x] "\n" ")"

/-! ## One child left open among few -/

section Holes

variable {left right : List Expr}

/-- The number of children with one of them left open. -/
theorem length_hole (left right : List Expr) (x : Expr) :
    (left ++ x :: right).length = left.length + right.length + 1 := by
  rw [List.length_append, List.length_cons, Nat.add_assoc]

/-- One child left open among one is alone. -/
theorem hole_of_one (h : left.length + right.length + 1 = 1) : left = [] ∧ right = [] :=
  ⟨List.eq_nil_of_length_eq_zero (by omega), List.eq_nil_of_length_eq_zero (by omega)⟩

/-- One child left open among two is the first or the second. -/
theorem hole_of_two (h : left.length + right.length + 1 = 2) :
    (∃ b, left = [] ∧ right = [b]) ∨ ∃ a, left = [a] ∧ right = [] := by
  cases left with
  | nil =>
    rw [List.length_nil, Nat.zero_add] at h
    obtain ⟨b, rfl⟩ := List.length_eq_one_iff.mp (Nat.succ.inj h)
    exact .inl ⟨b, rfl, rfl⟩
  | cons a left =>
    rw [List.length_cons] at h
    have hrest : left.length + right.length + 1 = 1 := by omega
    obtain ⟨rfl, rfl⟩ := hole_of_one hrest
    exact .inr ⟨a, rfl, rfl⟩

/-- One child left open among three is the first, the second or the third. -/
theorem hole_of_three (h : left.length + right.length + 1 = 3) :
    (∃ b c, left = [] ∧ right = [b, c]) ∨ (∃ a c, left = [a] ∧ right = [c]) ∨
      ∃ a b, left = [a, b] ∧ right = [] := by
  cases left with
  | nil =>
    rw [List.length_nil, Nat.zero_add] at h
    obtain ⟨b, right, rfl⟩ := List.exists_cons_of_length_eq_add_one (Nat.succ.inj h)
    obtain ⟨c, rfl⟩ := List.length_eq_one_iff.mp (Nat.succ.inj (Nat.succ.inj h))
    exact .inl ⟨b, c, rfl, rfl⟩
  | cons a left =>
    rw [List.length_cons] at h
    have hrest : left.length + right.length + 1 = 2 := by omega
    rcases hole_of_two hrest with ⟨c, rfl, rfl⟩ | ⟨b, rfl, rfl⟩
    · exact .inr (.inl ⟨a, c, rfl, rfl⟩)
    · exact .inr (.inr ⟨a, b, rfl, rfl⟩)

/-- The same for up to two children. -/
theorem hole_of_le_two (h : left.length + right.length + 1 ≤ 2) :
    (left = [] ∧ right = []) ∨ (∃ b, left = [] ∧ right = [b]) ∨ ∃ a, left = [a] ∧ right = [] := by
  rcases Nat.lt_or_eq_of_le h with hlt | htwo
  · have hone : left.length + right.length + 1 = 1 := by omega
    exact .inl (hole_of_one hone)
  · exact .inr (hole_of_two htwo)

end Holes

namespace Script

/-! ## Scripts that hold others -/

/-- The outer script is the inner one between two fixed scripts. -/
def Holds {ι : Type} (outer inner : ι → Script) : Prop :=
  ∃ left right : Script, ∀ i, outer i = left ++ inner i ++ right

section Holds

variable {ι : Type} {S T U : ι → Script}

/-- Every script holds itself. -/
theorem Holds.refl (S : ι → Script) : Holds S S :=
  ⟨[], [], fun i => by simp⟩

/-- What is held by what a script holds is held by the script. -/
theorem Holds.trans (h : Holds S T) (g : Holds T U) : Holds S U := by
  obtain ⟨left, right, h⟩ := h
  obtain ⟨left', right', g⟩ := g
  refine ⟨left ++ left', right' ++ right, fun i => ?_⟩
  rw [h i, g i]
  simp only [List.append_assoc]

/-- More in front changes nothing. -/
theorem Holds.append_left (left : Script) (h : Holds S T) : Holds (fun i => left ++ S i) T := by
  obtain ⟨left', right', h⟩ := h
  refine ⟨left ++ left', right', fun i => ?_⟩
  simp only [h i, List.append_assoc]

/-- Nor does more behind. -/
theorem Holds.append_right (right : Script) (h : Holds S T) :
    Holds (fun i => S i ++ right) T := by
  obtain ⟨left', right', h⟩ := h
  refine ⟨left', right' ++ right, fun i => ?_⟩
  simp only [h i, List.append_assoc]

/-- Nor does one piece in front. -/
theorem Holds.cons (p : Piece Margin) (h : Holds S T) : Holds (fun i => p :: S i) T :=
  h.append_left [p]

/-- A script holds another one for whatever it depends on. -/
theorem Holds.comp {κ : Type} (h : Holds S T) (f : κ → ι) :
    Holds (fun k => S (f k)) (fun k => T (f k)) := by
  obtain ⟨left, right, h⟩ := h
  exact ⟨left, right, fun k => h (f k)⟩

end Holds

variable (left right : List Expr)

/-- Scripts for all children hold the script for the open one. -/
theorem holds_flatMap (g : Expr → Script) :
    Holds (fun x => (left ++ x :: right).flatMap g) g := by
  refine ⟨left.flatMap g, right.flatMap g, fun x => ?_⟩
  simp only [List.flatMap_append, List.flatMap_cons, List.append_assoc]

/-- A separated list, seen from one of its members. -/
theorem intercalate_middle {α : Type} (separator : List α) (as : List (List α)) (b : List α)
    (cs : List (List α)) :
    separator.intercalate (as ++ b :: cs) =
      as.flatMap (· ++ separator) ++ b ++ cs.flatMap (separator ++ ·) := by
  induction as with
  | nil =>
    induction cs generalizing b with
    | nil => simp
    | cons c cs ih => simp_all [List.intercalate_cons_cons]
  | cons a as ih =>
    rw [List.cons_append, List.intercalate_cons_of_ne_nil (by simp), ih]
    simp only [List.flatMap_cons, List.append_assoc]

/-- The elements of a list are each written once, with separators between them. -/
theorem holds_intercalate (separator : Script) (g : Expr → Script) :
    Holds (fun x => separator.intercalate ((left ++ x :: right).map g)) g := by
  refine ⟨(left.map g).flatMap (· ++ separator), (right.map g).flatMap (separator ++ ·),
    fun x => ?_⟩
  simp only [List.map_append, List.map_cons, intercalate_middle]

/-- Joined children hold each of them whole. -/
theorem holds_joined (separator : String) :
    Holds (fun x => joined separator (left ++ x :: right)) (View.whole .edge).script :=
  holds_intercalate left right [.text separator] fun x => [phrase x]

/-- So do enclosed ones. -/
theorem holds_enclosed (opening separator closing : String) :
    Holds (fun x => enclosed opening (left ++ x :: right) separator closing)
      (View.whole .edge).script :=
  ((holds_joined left right separator).cons (.text opening)).append_right [.text closing]

/-- So do the statements of a body, each one step deeper. -/
theorem holds_body :
    Holds (fun x => Script.body (left ++ x :: right)) (View.whole .deeper).script :=
  (holds_flatMap left right statement).trans ((Holds.refl _).append_left (newline .deeper))

/-- So do the forms of a module. -/
theorem holds_moduleForms :
    Holds (fun x => moduleForms (left ++ x :: right)) (View.whole .deeper).script := by
  have hstatement : Holds statement (View.whole .deeper).script :=
    (Holds.refl _).append_left (newline .deeper)
  cases left with
  | nil => exact hstatement.append_right (right.flatMap fun y => .text "\n" :: statement y)
  | cons a left =>
    have hmore := holds_flatMap left right fun y => .text "\n" :: statement y
    exact (hmore.trans (hstatement.cons (.text "\n"))).append_left (statement a)

/-- A block that is not of one statement has its words around its body. -/
theorem block_of_length_ne_one {xs : List Expr} (h : xs.length ≠ 1) :
    Script.block xs = .text "begin" :: Script.body xs ++ ending := by
  unfold Script.block
  split
  · exact absurd rfl h
  · rfl

/-- A block holds each of its statements whole, with one margin or another. -/
theorem holds_block :
    ∃ m : Margin, Holds (fun x => Script.block (left ++ x :: right)) (View.whole m).script := by
  by_cases hlone : left.length + right.length = 0
  · have hleft : left = [] := List.eq_nil_of_length_eq_zero (by omega)
    have hright : right = [] := List.eq_nil_of_length_eq_zero (by omega)
    subst hleft hright
    exact ⟨.here, Holds.refl _⟩
  · have hblock : ∀ x : Expr, Script.block (left ++ x :: right) =
        .text "begin" :: Script.body (left ++ x :: right) ++ ending := by
      intro x
      apply block_of_length_ne_one
      rw [length_hole]
      omega
    simp only [hblock]
    exact ⟨.deeper, ((holds_body left right).cons (.text "begin")).append_right ending⟩

/-- A mapping holds each of its entries whole. -/
theorem holds_entries :
    Holds (fun x => (Form.mapping (left ++ x :: right)).script) (View.whole .deeper).script := by
  have hentry : Holds entry (View.whole .deeper).script :=
    (Holds.refl _).cons (.slot (.indent .deeper))
  have hentries := (holds_intercalate left right [.text ",\n"] entry).trans hentry
  exact (hentries.cons (.text "Dict(\n")).append_right [.text ")"]

/-- So do bindings. -/
theorem holds_bindings :
    Holds (fun x => bindings (left ++ x :: right)) (View.whole .edge).script := by
  have hbindings : ∀ x : Expr,
      bindings (left ++ x :: right) = .text " " :: joined ", " (left ++ x :: right) := by
    intro x
    cases left <;> rfl
  simp only [hbindings]
  exact (holds_joined left right ", ").cons (.text " ")

/-- An operator holds its first operand whole. -/
theorem holds_infixed_left (operator : String) (y : Expr) :
    Holds (fun x => infixed x operator y) (View.whole .edge).script :=
  (Holds.refl (View.whole .edge).script).append_right [.text operator, phrase y]

/-- And its second one. -/
theorem holds_infixed_right (y : Expr) (operator : String) :
    Holds (fun x => infixed y operator x) (View.whole .edge).script :=
  (Holds.refl _).append_left [phrase y, .text operator]

/-- An arm holds its condition whole. -/
theorem holds_arm_condition (word : Keyword) (body : List Expr) :
    Holds (fun x => arm word ⟨x, body⟩) (View.whole .edge).script :=
  ((Holds.refl (View.whole .edge).script).append_right (Script.body body)).cons
    (.text (word.word ++ " "))

/-- And its body in statements. -/
theorem holds_arm_body (word : Keyword) (condition : Expr) :
    Holds (fun x => arm word ⟨condition, x.statements⟩) View.body.script :=
  (Holds.refl _).append_left [.text (word.word ++ " "), phrase condition]

/-! ## Values that a view does not take apart -/

section Whole

variable {ι : Type} {z : ι → Expr}

/-- What is no block is its own body. -/
theorem holds_statements (h : ∀ i, (z i).statements = [z i]) :
    Holds (fun i => View.body.script (z i)) (fun i => (View.whole .deeper).script (z i)) := by
  simp only [View.script, h]
  exact (holds_body [] []).comp z

/-- The same in a module. -/
theorem holds_moduleStatements (h : ∀ i, (z i).statements = [z i]) :
    Holds (fun i => View.moduleBody.script (z i))
      (fun i => (View.whole .deeper).script (z i)) := by
  simp only [View.script, h]
  exact (holds_moduleForms [] []).comp z

/-- What ends a chain of conditions is a body behind a word. -/
theorem holds_lastAlternative (h : ∀ i, (z i).chain = ([], some (z i).statements)) :
    Holds (fun i => View.alternative.script (z i)) (fun i => View.body.script (z i)) := by
  simp only [View.script, h]
  exact ((Holds.refl View.body.script).append_left (newline .here ++ [.text "else"])).comp z

/-- What is no quoted name stands whole as a member. -/
theorem holds_field (h : ∀ i, (z i).field = z i) :
    Holds (fun i => View.field.script (z i)) (fun i => (View.whole .edge).script (z i)) := by
  simp only [View.script, h]
  exact Holds.refl _

/-- Whether in brackets or not, an operand is there whole. -/
theorem holds_operand {c : Connective} {b : Bool} (h : ∀ i, (z i).isKind c.opposite.kind = b) :
    Holds (fun i => (View.operand c).script (z i))
      (fun i => (View.whole .edge).script (z i)) := by
  simp only [View.script, Script.operand, h]
  cases b with
  | false => exact Holds.refl _
  | true =>
    exact ((Holds.refl fun i => (View.whole .edge).script (z i)).append_right [.text ")"]).cons
      (.text "(")

/-- What is no name is unquoted in brackets. -/
theorem unquoted_of_ne_sym {x : Expr} (h : ∀ n, x ≠ .sym n) :
    Script.unquoted x = [.text "$(", phrase x, .text ")"] := by
  cases x with
  | sym n => exact absurd rfl (h n)
  | _ => rfl

/-- And quoted in brackets. -/
theorem quotation_of_ne_sym {x : Expr} (h : ∀ n, x ≠ .sym n) :
    View.quotation.script x = .text ":" :: enclosed "(" [x] "\n" ")" := by
  cases x with
  | sym n => exact absurd rfl (h n)
  | _ => rfl

/-- So it is unquoted whole. -/
theorem holds_unquoted (h : ∀ i n, z i ≠ .sym n) :
    Holds (fun i => View.unquoted.script (z i)) (fun i => (View.whole .edge).script (z i)) := by
  refine ⟨[.text "$("], [.text ")"], fun i => ?_⟩
  exact unquoted_of_ne_sym (h i)

/-- And quoted whole. -/
theorem holds_quotation (h : ∀ i n, z i ≠ .sym n) :
    Holds (fun i => View.quotation.script (z i)) (fun i => (View.whole .edge).script (z i)) := by
  simp only [quotation_of_ne_sym (h _)]
  exact ((holds_enclosed [] [] "(" "\n" ")").cons (.text ":")).comp z

end Whole

/-! ## Else-positions -/

section Alternatives

variable {h : Head}

/-- The rest of a conditional from its last arm. -/
theorem alternative_elseif (hname : h.name = Kind.elseif.name) (c b : Expr) :
    View.alternative.script (.node h [c, b]) =
      newline .here ++ (arm .elseifWord ⟨c, b.statements⟩ ++ []) := by
  simp [View.script, Expr.chain_elseif hname, otherwise]

/-- The rest of a conditional from an arm with an alternative. -/
theorem alternative_elseif_else (hname : h.name = Kind.elseif.name) (c b a : Expr) :
    View.alternative.script (.node h [c, b, a]) =
      newline .here ++ (arm .elseifWord ⟨c, b.statements⟩ ++
        (View.alternative.script a ++ [])) := by
  simp [View.script, Expr.chain_elseif_else hname]

variable {left right : List Expr}

/-- A condition, a body and perhaps what is in the else-position, one of them left open. -/
theorem holds_chain {g : List Expr → Script} {word : Keyword} {opening closing : Script}
    (hshort : ∀ c b, g [c, b] = opening ++ (arm word ⟨c, b.statements⟩ ++ closing))
    (hlong : ∀ c b a, g [c, b, a] =
      opening ++ (arm word ⟨c, b.statements⟩ ++ (View.alternative.script a ++ closing)))
    (hadmits : Kind.conditional.admits (left.length + right.length + 1) = true) :
    ∃ w : View, Holds (fun x => g (left ++ x :: right)) w.script := by
  have hbounds : 2 ≤ left.length + right.length + 1 ∧ left.length + right.length + 1 ≤ 3 :=
    (Kind.admits_iff _ _).mp hadmits
  rcases Nat.lt_or_eq_of_le hbounds.2 with hlt | hthree
  · have htwo : left.length + right.length + 1 = 2 := by omega
    rcases hole_of_two htwo with ⟨b, rfl, rfl⟩ | ⟨c, rfl, rfl⟩
    · simp only [List.nil_append, hshort]
      exact ⟨_, ((holds_arm_condition word b.statements).append_right _).append_left _⟩
    · simp only [List.singleton_append, hshort]
      exact ⟨_, ((holds_arm_body word c).append_right _).append_left _⟩
  · rcases hole_of_three hthree with ⟨b, a, rfl, rfl⟩ | ⟨c, a, rfl, rfl⟩ | ⟨c, b, rfl, rfl⟩
    · simp only [List.nil_append, hlong]
      exact ⟨_, ((holds_arm_condition word b.statements).append_right _).append_left _⟩
    · simp only [List.singleton_append, hlong]
      exact ⟨_, ((holds_arm_body word c).append_right _).append_left _⟩
    · simp only [List.cons_append, List.nil_append, hlong]
      have halternative := (Holds.refl View.alternative.script).append_right closing
      exact ⟨_, (halternative.append_left _).append_left _⟩

end Alternatives

end Script

/-! ## Nodes with one child left open -/

section Nodes

variable {left right : List Expr}

/-- What a function makes of children, one of them left open, holds one view of that child. -/
def Takes (left right : List Expr) (allowed : Expr → Prop) (f : List Expr → Option Form) : Prop :=
  ∃ (v : View) (S : Expr → Script), Script.Holds S v.script ∧
    ∀ x, allowed x → (f (left ++ x :: right)).map Form.script = some (S x)

variable {allowed : Expr → Prop}

/-- Two children with an operator between them. -/
theorem takes_infixed {f : List Expr → Option Form} {operator : String}
    (hf : ∀ a b, (f [a, b]).map Form.script = some (infixed a operator b))
    (h : left.length + right.length + 1 = 2) : Takes left right allowed f := by
  rcases hole_of_two h with ⟨b, rfl, rfl⟩ | ⟨a, rfl, rfl⟩
  · exact ⟨_, _, holds_infixed_left operator b, fun x _ => hf x b⟩
  · exact ⟨_, _, holds_infixed_right a operator, fun x _ => hf a x⟩

/-- A conditional takes up its condition, its body and its alternative. -/
theorem takes_conditional? (word : Keyword)
    (h : Kind.conditional.admits (left.length + right.length + 1) = true) :
    Takes left right allowed (Form.conditional? word) := by
  obtain ⟨v, hholds⟩ := holds_chain
    (g := fun xs => ((Form.conditional? word xs).map Form.script).getD [])
    (fun c b => show _ = [] ++ (arm word ⟨c, b.statements⟩ ++ ending) by
      simp [Form.conditional?, Form.script, Script.conditional, otherwise])
    (fun c b a => by simp [Form.conditional?, Form.script, Script.conditional, View.script]) h
  refine ⟨v, _, hholds, fun x _ => ?_⟩
  have hsome : (Form.conditional? word (left ++ x :: right)).isSome = true := by
    rw [Form.isSome_conditional?, length_hole, h]
  obtain ⟨f, hf⟩ := Option.isSome_iff_exists.mp hsome
  rw [hf]
  rfl

/-- A definition takes up its signature and its body. -/
theorem takes_definition? (definer : Definer)
    (h : Kind.function.admits (left.length + right.length + 1) = true) :
    Takes left right allowed (Form.definition? definer) := by
  have hsignature : ∀ body, Script.Holds (fun x => (Form.definition definer x body).script)
      (View.whole .edge).script := fun body =>
    ((Script.Holds.refl (View.whole .edge).script).append_right (definitionBody body)).cons
      (.text (definer.word.word ++ " "))
  rcases hole_of_le_two ((Kind.admits_iff _ _).mp h).2 with
    ⟨rfl, rfl⟩ | ⟨b, rfl, rfl⟩ | ⟨a, rfl, rfl⟩
  · exact ⟨_, _, hsignature none, fun x _ => rfl⟩
  · exact ⟨_, _, hsignature (some b.statements), fun x _ => rfl⟩
  · have hbody : Script.Holds (fun x => Script.body x.statements ++ ending) View.body.script :=
      (Script.Holds.refl View.body.script).append_right ending
    exact ⟨_, _, hbody.append_left [.text (definer.word.word ++ " "), phrase a], fun x _ => rfl⟩

/-- A module takes up its name and its body. -/
theorem takes_moduleDef (h : Kind.moduleDef.admits (left.length + right.length + 1) = true) :
    Takes left right allowed (Form.ofNode? .moduleDef) := by
  have hname : ∀ forms, Script.Holds (fun x => (Form.moduleDef x forms).script)
      (View.whole .edge).script := fun forms =>
    ((Script.Holds.refl (View.whole .edge).script).append_right (moduleForms forms ++ ending)).cons
      (.text "module ")
  rcases hole_of_le_two ((Kind.admits_iff _ _).mp h).2 with
    ⟨rfl, rfl⟩ | ⟨b, rfl, rfl⟩ | ⟨a, rfl, rfl⟩
  · exact ⟨_, _, hname [], fun x _ => rfl⟩
  · exact ⟨_, _, hname b.statements, fun x _ => rfl⟩
  · have hforms : Script.Holds (fun x => moduleForms x.statements ++ ending)
        View.moduleBody.script :=
      (Script.Holds.refl View.moduleBody.script).append_right ending
    exact ⟨_, _, hforms.append_left [.text "module ", phrase a], fun x _ => rfl⟩

/-- A type annotation takes up the value and the type. -/
theorem takes_typed (h : Kind.typed.admits (left.length + right.length + 1) = true) :
    Takes left right allowed (Form.ofNode? .typed) := by
  have hrefl := Script.Holds.refl (View.whole .edge).script
  rcases hole_of_le_two ((Kind.admits_iff _ _).mp h).2 with
    ⟨rfl, rfl⟩ | ⟨b, rfl, rfl⟩ | ⟨a, rfl, rfl⟩
  · exact ⟨_, _, hrefl.append_left [.text "::"], fun x _ => rfl⟩
  · exact ⟨_, _, hrefl.append_right [.text "::", phrase b], fun x _ => rfl⟩
  · exact ⟨_, _, hrefl.append_left [phrase a, .text "::"], fun x _ => rfl⟩

/-- A member access takes up the owner and the member. -/
theorem takes_member (h : Kind.member.admits (left.length + right.length + 1) = true) :
    Takes left right allowed (Form.ofNode? .member) := by
  have hbounds : 2 ≤ left.length + right.length + 1 ∧ left.length + right.length + 1 ≤ 2 :=
    (Kind.admits_iff _ _).mp h
  rcases hole_of_two (Nat.le_antisymm hbounds.2 hbounds.1) with ⟨b, rfl, rfl⟩ | ⟨a, rfl, rfl⟩
  · exact ⟨_, _, holds_infixed_left "." b.field, fun x _ => rfl⟩
  · exact ⟨_, _, (Script.Holds.refl View.field.script).append_left [phrase a, .text "."],
      fun x _ => rfl⟩

/-- The form of a quotation of several children. -/
theorem ofNode?_quote_of_many {xs : List Expr} (h : xs.length ≠ 0) (h' : xs.length ≠ 1) :
    Form.ofNode? .quote xs = some (.quotation xs) := by
  rcases xs with _ | ⟨x, _ | ⟨y, more⟩⟩
  · exact absurd rfl h
  · exact absurd rfl h'
  · cases x <;> rfl

/-- A quotation takes up all its children. -/
theorem takes_quote : Takes left right allowed (Form.ofNode? .quote) := by
  by_cases hlone : left.length + right.length + 1 = 1
  · obtain ⟨rfl, rfl⟩ := hole_of_one hlone
    exact ⟨.quotation, _, Script.Holds.refl _, fun x _ => by cases x <;> rfl⟩
  · have hquote : ∀ x, Form.ofNode? .quote (left ++ x :: right) =
        some (.quotation (left ++ x :: right)) := by
      intro x
      apply ofNode?_quote_of_many <;> rw [length_hole] <;> omega
    refine ⟨_, _, (holds_enclosed left right "(" "\n" ")").cons (.text ":"), fun x _ => ?_⟩
    rw [hquote]
    rfl

/-- A child with the other children in brackets behind it. -/
theorem takes_applied {f : List Expr → Option Form} {opening separator closing : String}
    (hf : ∀ a more, (f (a :: more)).map Form.script =
      some (phrase a :: enclosed opening more separator closing)) :
    Takes left right allowed f := by
  cases left with
  | nil =>
    exact ⟨_, _, (Script.Holds.refl (View.whole .edge).script).append_right _,
      fun x _ => hf x right⟩
  | cons a left =>
    exact ⟨_, _, (holds_enclosed left right opening separator closing).cons (phrase a),
      fun x _ => hf a (left ++ x :: right)⟩

/-- A call takes up the callee and all arguments, if the callee is not turned into the name of
mappings. -/
theorem takes_call (hcallee : left = [] → ∀ x, allowed x → x.isMappingName = false) :
    Takes left right allowed (Form.ofNode? .call) := by
  cases left with
  | nil =>
    refine ⟨_, _, (Script.Holds.refl (View.whole .edge).script).append_right
      (enclosed "(" right ", " ")"), fun x hx => ?_⟩
    rw [List.nil_append, Form.ofNode?, if_neg (by simp [hcallee rfl x hx])]
    rfl
  | cons a left =>
    -- The callee stands fixed here, and decides between a mapping and a call.
    by_cases ha : a.isMappingName = true
    · refine ⟨_, _, holds_entries left right, fun x _ => ?_⟩
      rw [List.cons_append, Form.ofNode?, if_pos ha]
      rfl
    · refine ⟨_, _, (holds_enclosed left right "(" ", " ")").cons (phrase a), fun x _ => ?_⟩
      rw [List.cons_append, Form.ofNode?, if_neg ha]
      rfl

/-- A block of bindings takes up its body and all bindings. -/
theorem takes_letBlock : Takes left right allowed (Form.ofNode? .letBlock) := by
  cases left with
  | nil =>
    have hbody := (Script.Holds.refl View.body.script).append_right ending
    refine ⟨_, _, hbody.append_left (.text "let" :: bindings right), fun x _ => ?_⟩
    rw [← List.append_assoc]
    rfl
  | cons a left =>
    have hbindings := (holds_bindings left right).cons (.text "let")
    exact ⟨_, _, (hbindings.append_right (Script.body a.statements)).append_right ending,
      fun x _ => rfl⟩

/-- A node whose kind admits the number of its children holds each of them, in one view.  The only
child that decides over the form of its node is the callee of a call. -/
theorem takes_ofNode? (k : Kind) (h : k.admits (left.length + right.length + 1) = true)
    (hcallee : k = .call → left = [] → ∀ x, allowed x → x.isMappingName = false) :
    Takes left right allowed (Form.ofNode? k) := by
  have hbounds := (Kind.admits_iff _ _).mp h
  have hrefl := Script.Holds.refl (View.whole .edge).script
  cases k with
  | ratio => exact takes_infixed (fun _ _ => rfl) (Nat.le_antisymm hbounds.2 hbounds.1)
  | pair => exact takes_infixed (fun _ _ => rfl) (Nat.le_antisymm hbounds.2 hbounds.1)
  | lambda => exact takes_infixed (fun _ _ => rfl) (Nat.le_antisymm hbounds.2 hbounds.1)
  | assignment => exact takes_infixed (fun _ _ => rfl) (Nat.le_antisymm hbounds.2 hbounds.1)
  | member => exact takes_member h
  | typed => exact takes_typed h
  | conditional => exact takes_conditional? .ifWord h
  | elseif => exact takes_conditional? .elseifWord h
  | function => exact takes_definition? .function h
  | macroDef => exact takes_definition? .macroDef h
  | moduleDef => exact takes_moduleDef h
  | quote => exact takes_quote
  | letBlock => exact takes_letBlock
  | index => exact takes_applied fun _ _ => rfl
  | generic => exact takes_applied fun _ _ => rfl
  | macroCall => exact takes_applied fun _ _ => rfl
  | call => exact takes_call (hcallee rfl)
  | unquote =>
    obtain ⟨rfl, rfl⟩ := hole_of_one (Nat.le_antisymm hbounds.2 hbounds.1)
    exact ⟨.unquoted, _, Script.Holds.refl _, fun x _ => rfl⟩
  | splat =>
    obtain ⟨rfl, rfl⟩ := hole_of_one (Nat.le_antisymm hbounds.2 hbounds.1)
    exact ⟨_, _, hrefl.append_right [.text "..."], fun x _ => rfl⟩
  | block =>
    obtain ⟨m, hblock⟩ := holds_block left right
    exact ⟨_, _, hblock, fun x _ => rfl⟩
  | tuple => exact ⟨_, _, holds_enclosed left right "(" "," ")", fun x _ => rfl⟩
  | vector => exact ⟨_, _, holds_enclosed left right "[" "," "]", fun x _ => rfl⟩
  | comparison => exact ⟨_, _, holds_enclosed left right "(" " " ")", fun x _ => rfl⟩
  | mapping => exact ⟨_, _, holds_entries left right, fun x _ => rfl⟩
  | range => exact ⟨_, _, holds_joined left right ":", fun x _ => rfl⟩
  | importing =>
    exact ⟨_, _, (holds_joined left right ".").cons (.text "import "), fun x _ => rfl⟩
  | usingModule =>
    exact ⟨_, _, (holds_joined left right ".").cons (.text "using "), fun x _ => rfl⟩
  | exporting =>
    exact ⟨_, _, (holds_joined left right ",").cons (.text "export "), fun x _ => rfl⟩
  | conjunction =>
    exact ⟨.operand .conjunction, _, holds_intercalate left right _ _, fun x _ => rfl⟩
  | disjunction =>
    exact ⟨.operand .disjunction, _, holds_intercalate left right _ _, fun x _ => rfl⟩
  | toplevel => exact ⟨.whole .here, _, holds_intercalate left right _ _, fun x _ => rfl⟩

end Nodes

end ExprPrinter
