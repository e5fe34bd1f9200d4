import ExprPrinter.Proofs.Form.Support

/-!
# Chains of conditions

A conditional is nested in the tree, each `elseif` node being in the else-position
of the one before.  An `elseif` node there continues the chain exactly if it has a
form.  `Expr.Continues` follows the nesting down to the alternative that ends it,
which may be anything but a well-formed `elseif` node, and `Continues.chain_eq`
says that `Expr.chain` finds the same arms.  Whatever stands in an else-position,
it is such a chain: `exists_continues`.
-/

namespace ExprPrinter

namespace Expr

/-- A chain may end with an arm. -/
theorem chain_elseif {h : Head} (hname : h.name = Kind.elseif.name) (c b : Expr) :
    (node h [c, b]).chain = ([⟨c, b.statements⟩], none) := by
  rw [chain, if_pos (beq_iff_eq.mpr hname)]

/-- An arm with an alternative goes on with the chain of the alternative. -/
theorem chain_elseif_else {h : Head} (hname : h.name = Kind.elseif.name) (c b a : Expr) :
    (node h [c, b, a]).chain = (⟨c, b.statements⟩ :: a.chain.1, a.chain.2) := by
  rw [chain, if_pos (beq_iff_eq.mpr hname)]

/-- A node that is no well-formed `elseif` ends the chain. -/
theorem chain_of_not_elseif {h : Head} {xs : List Expr}
    (hne : ¬(h.name = Kind.elseif.name ∧ Kind.elseif.admits xs.length = true)) :
    (node h xs).chain = ([], some (node h xs).statements) := by
  rcases xs with _ | ⟨c, _ | ⟨b, _ | ⟨a, _ | ⟨d, more⟩⟩⟩⟩
  · rfl
  · rfl
  · have hname : h.name ≠ Kind.elseif.name := fun heq => hne ⟨heq, rfl⟩
    simp [chain, hname]
  · have hname : h.name ≠ Kind.elseif.name := fun heq => hne ⟨heq, rfl⟩
    simp [chain, hname]
  · rfl

/-- What is no arm is the last alternative. -/
theorem chain_of_not_isKind {x : Expr} (h : x.isKind .elseif = false) :
    x.chain = ([], some x.statements) := by
  cases x with
  | node head xs =>
    apply chain_of_not_elseif
    rintro ⟨hname, _⟩
    rw [isKind, hasHead, hname, beq_self_eq_true] at h
    cases h
  | _ => rfl

/-- Everything that is no well-formed `elseif` node ends the chain. -/
theorem chain_of_alternative {e : Expr} (h : ¬(e.isKind .elseif = true ∧ e.isSupported = true)) :
    e.chain = ([], some e.statements) := by
  cases e with
  | node head xs =>
    apply chain_of_not_elseif
    rintro ⟨hname, hadmits⟩
    have hkind : (node head xs).isKind .elseif = true := beq_iff_eq.mpr hname
    have hsupported : (node head xs).isSupported = true := by
      rw [isSupported, Head.kind?_of_name hname]
      exact hadmits
    exact h ⟨hkind, hsupported⟩
  | _ => rfl

/-! ## Else-positions -/

/-- What stands in the else-position of a conditional: `elseif` nodes, each in the else-position of
the one before and each with a condition and a branch, and in that of the last one an alternative
that is no well-formed `elseif` node, or nothing. -/
inductive Continues : Option Expr → List (Expr × Expr) → Option Expr → Prop
  | nothing : Continues none [] none
  | alternative {e : Expr} (h : ¬(e.isKind .elseif = true ∧ e.isSupported = true)) :
      Continues (some e) [] (some e)
  | elseif {h : Head} {condition branch : Expr} {rest last : Option Expr}
      {branches : List (Expr × Expr)} (hname : h.name = Kind.elseif.name)
      (hrest : Continues rest branches last) :
      Continues (some (node h (condition :: branch :: rest.toList)))
        ((condition, branch) :: branches) last

/-- The arms and the last body that the printer finds in an else-position. -/
def chainFrom (rest : Option Expr) : List Arm × Option (List Expr) :=
  rest.elim ([], none) chain

/-- An arm, with or without an alternative, comes before the chain from there. -/
theorem chain_elseif_rest {h : Head} (hname : h.name = Kind.elseif.name) (c b : Expr)
    (rest : Option Expr) :
    (node h (c :: b :: rest.toList)).chain =
      (⟨c, b.statements⟩ :: (chainFrom rest).1, (chainFrom rest).2) := by
  cases rest with
  | none => exact chain_elseif hname c b
  | some a => exact chain_elseif_else hname c b a

/-- The branches of a chain are the arms that the printer finds, and what ends it is the last
body. -/
theorem Continues.chain_eq {rest last : Option Expr} {branches : List (Expr × Expr)}
    (h : Continues rest branches last) :
    chainFrom rest =
      (branches.map fun b => ⟨b.1, b.2.statements⟩, last.map statements) := by
  induction h with
  | nothing => rfl
  | alternative hlast => exact chain_of_alternative hlast
  | @elseif h condition branch rest last branches hname _ ih =>
    calc chainFrom (some (node h (condition :: branch :: rest.toList)))
        = (⟨condition, branch.statements⟩ :: (chainFrom rest).1, (chainFrom rest).2) :=
          chain_elseif_rest hname condition branch rest
      _ = _ := by rw [ih, List.map_cons]

/-- The children that a conditional may have: a condition, a branch, and perhaps something in the
else-position. -/
theorem exists_of_admits {xs : List Expr} (h : Kind.conditional.admits xs.length = true) :
    ∃ (c b : Expr) (rest : Option Expr), xs = c :: b :: rest.toList := by
  rcases xs with _ | ⟨c, _ | ⟨b, _ | ⟨a, _ | ⟨d, more⟩⟩⟩⟩
  · cases h
  · cases h
  · exact ⟨c, b, none, rfl⟩
  · exact ⟨c, b, some a, rfl⟩
  · have hmost : (c :: b :: a :: d :: more).length ≤ 3 := ((Kind.admits_iff _ _).mp h).2
    simp only [List.length_cons] at hmost
    omega

/-- A supported conditional has a condition, a body, and perhaps an alternative. -/
theorem exists_of_isSupported {h : Head} {xs : List Expr}
    (hname : h.name = Kind.conditional.name ∨ h.name = Kind.elseif.name)
    (hsupported : (node h xs).isSupported = true) :
    ∃ (c b : Expr) (rest : Option Expr), xs = c :: b :: rest.toList := by
  apply exists_of_admits
  rcases hname with hname | hname
  · rwa [isSupported, Head.kind?_of_name hname] at hsupported
  · rwa [isSupported, Head.kind?_of_name hname] at hsupported

/-- Whatever stands in an else-position, it is a chain. -/
theorem exists_continues (rest : Option Expr) :
    ∃ (branches : List (Expr × Expr)) (last : Option Expr), Continues rest branches last := by
  induction hn : sizeOf rest using Nat.strongRecOn generalizing rest with
  | ind n ih =>
    cases rest with
    | none => exact ⟨[], none, .nothing⟩
    | some e =>
      by_cases helseif : e.isKind .elseif = true ∧ e.isSupported = true
      · cases e with
        | node h xs =>
          have hname : h.name = Kind.elseif.name := beq_iff_eq.mp helseif.1
          obtain ⟨c, b, rest, rfl⟩ := exists_of_isSupported (.inr hname) helseif.2
          have hlt : sizeOf rest < n := by
            cases rest with
            | none =>
              simp only [← hn, Option.toList_none, Option.some.sizeOf_spec, node.sizeOf_spec,
                List.cons.sizeOf_spec, Option.none.sizeOf_spec]
              omega
            | some a =>
              simp only [← hn, Option.toList_some, Option.some.sizeOf_spec, node.sizeOf_spec,
                List.cons.sizeOf_spec]
              omega
          obtain ⟨branches, last, hrest⟩ := ih (sizeOf rest) hlt rest rfl
          exact ⟨_, last, .elseif hname hrest⟩
        | _ => cases helseif.1
      · exact ⟨[], some e, .alternative helseif⟩

/-- Its form has the arms of the chain from the alternative. -/
theorem conditional?_rest (word : Keyword) (c b : Expr) (rest : Option Expr) :
    Form.conditional? word (c :: b :: rest.toList) =
      some (.conditional word ⟨c, b.statements⟩ (chainFrom rest).1 (chainFrom rest).2) := by
  cases rest <;> rfl

end Expr

end ExprPrinter
