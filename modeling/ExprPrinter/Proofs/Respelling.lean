import ExprPrinter.Proofs.Form.Chains
import ExprPrinter.Proofs.Respelling.Printing

/-!
# Literals and the nodes that spell them

A pair, a tuple, a list, a mapping and a quoted name can be written as a
literal, or as a node with the parts of the literal as its children.
`Expr.respell` writes all of them as nodes, at every place of a tree at once.
Renderers look at the type of a child here and there, so this is not just a
matter of the places themselves: a quoted name as the member of an owner is
written without its colon, and that is the one literal that has to stay.

Everything that is looked at is kept: `isKind_respell`, `statements_respell` and
`chain_respell`.  So the form of a respelled value is the respelled form of the
value, `form?_respell`, and `Expr.respell` is a respelling.
-/

namespace ExprPrinter

/-- A kind is known by its name. -/
theorem Kind.name_inj {k l : Kind} (h : k.name = l.name) : k = l := by
  have hk := ofName?_name k
  rw [h, ofName?_name] at hk
  exact (Option.some.inj hk).symm

namespace Expr

/-! ## Literals as nodes -/

/-- Respelled children, but with a quoted name as the second of two kept as it was. -/
def keepField : List Expr → List Expr → List Expr
  | [_, quoted (sym name)], [owner, _] => [owner, quoted (sym name)]
  | _, respelled => respelled

/-- A node with its children respelled, from its children before and after that.  A call of `Dict`
becomes a mapping of its arguments, and a quoted name that is a member stays what it was. -/
def respellNode (h : Head) (children respelled : List Expr) : Expr :=
  if h.name == Kind.call.name && children.head?.any isMappingName then
    node (.spelled Kind.mapping.name) respelled.tail
  else if h.name == Kind.member.name then node (.spelled h.name) (keepField children respelled)
  else node (.spelled h.name) respelled

mutual

/-- A value with all literals in it spelled as nodes, and all heads spelled as words.  Plain data
are left alone, with all that is in them. -/
def respell : Expr → Expr
  | quoted (sym name) => node (.spelled Kind.quote.name) [sym name]
  | quoted x => quoted (respell x)
  | pair a b => node (.spelled Kind.pair.name) [respell a, respell b]
  | tuple items => node (.spelled Kind.tuple.name) (respellAll items)
  | list items => node (.spelled Kind.vector.name) (respellAll items)
  | mapping entries => node (.spelled Kind.mapping.name) (respellAll entries)
  | node h children => respellNode h children (respellAll children)
  | x => x

/-- Values respelled one by one. -/
def respellAll : List Expr → List Expr
  | [] => []
  | x :: xs => respell x :: respellAll xs

end

/-- Children are respelled one by one. -/
theorem respellAll_eq_map (xs : List Expr) : respellAll xs = xs.map respell := by
  induction xs with
  | nil => rfl
  | cons x xs ih => rw [respellAll, ih, List.map_cons]

/-- A node is respelled with its respelled children. -/
theorem respell_node (h : Head) (xs : List Expr) :
    (node h xs).respell = respellNode h xs (xs.map respell) := by
  rw [respell, respellAll_eq_map]

/-- What is quoted is respelled, unless it is a name. -/
theorem respell_quoted {x : Expr} (hx : ∀ name, x ≠ sym name) :
    (quoted x).respell = quoted x.respell := by
  cases x with
  | sym name => exact absurd rfl (hx name)
  | _ => rw [respell]; exact fun _ => Expr.noConfusion

/-- A node of a kind other than a call and an access to a member is respelled child by child. -/
theorem respellNode_of_ne {h : Head} (hcall : h.name ≠ Kind.call.name)
    (hmember : h.name ≠ Kind.member.name) (xs ys : List Expr) :
    respellNode h xs ys = node (.spelled h.name) ys := by
  rw [respellNode, if_neg (by simp [hcall]), if_neg (by simpa using hmember)]

/-- The head word of a respelled node is a new one only for a call of `Dict`. -/
theorem respellNode_head (h : Head) (xs ys : List Expr) :
    (∃ zs, respellNode h xs ys = node (.spelled h.name) zs) ∨
      h.name = Kind.call.name ∧
        respellNode h xs ys = node (.spelled Kind.mapping.name) ys.tail := by
  unfold respellNode
  split
  · next hcall =>
    rw [Bool.and_eq_true, beq_iff_eq] at hcall
    exact .inr ⟨hcall.1, rfl⟩
  · split
    · exact .inl ⟨_, rfl⟩
    · exact .inl ⟨_, rfl⟩

/-- Nothing but a name is respelled to a name. -/
theorem respell_ne_sym {x : Expr} (hx : ∀ name, x ≠ sym name) (name : String) :
    x.respell ≠ sym name := by
  intro heq
  cases x with
  | sym n => exact hx n rfl
  | quoted x =>
    cases x with
    | sym n => cases heq
    | _ => cases heq
  | node h xs =>
    rw [respell_node] at heq
    rcases respellNode_head h xs (xs.map respell) with ⟨zs, hzs⟩ | ⟨_, hzs⟩
    · cases hzs.symm.trans heq
    · cases hzs.symm.trans heq
  | _ => cases heq

/-- Nothing but the name of mappings is respelled to that. -/
theorem isMappingName_respell (x : Expr) : x.respell.isMappingName = x.isMappingName := by
  by_cases hx : ∃ name, x = sym name
  · obtain ⟨name, rfl⟩ := hx
    rfl
  · have hother : ∀ {y : Expr}, (∀ name, y ≠ sym name) → y.isMappingName = false := by
      intro y hy
      cases y with
      | sym name => exact absurd rfl (hy name)
      | _ => rfl
    have hne : ∀ name, x ≠ sym name := fun name heq => hx ⟨name, heq⟩
    rw [hother hne, hother (respell_ne_sym hne)]

/-- The kinds whose nodes literals are respelled as, and that of the calls that are. -/
def literalKinds : List Kind :=
  [.pair, .tuple, .vector, .mapping, .quote, .call]

/-- No node of another kind comes or goes. -/
theorem isKind_respell {k : Kind} (hk : k ∉ literalKinds) (x : Expr) :
    x.respell.isKind k = x.isKind k := by
  have hname : ∀ l ∈ literalKinds, (l.name == k.name) = false := by
    intro l hl
    rw [beq_eq_false_iff_ne]
    intro heq
    rw [Kind.name_inj heq] at hl
    exact hk hl
  cases x with
  | quoted x =>
    cases x with
    | sym n => exact hname .quote (by decide)
    | _ => rfl
  | pair a b => exact hname .pair (by decide)
  | tuple items => exact hname .tuple (by decide)
  | list items => exact hname .vector (by decide)
  | mapping entries => exact hname .mapping (by decide)
  | node h xs =>
    rw [respell_node]
    rcases respellNode_head h xs (xs.map respell) with ⟨zs, hzs⟩ | ⟨hcall, hzs⟩
    · rw [hzs]
      rfl
    · rw [hzs, isKind, isKind, hasHead, hasHead, hcall]
      exact (hname .mapping (by decide)).trans (hname .call (by decide)).symm
  | _ => rfl

/-- A node that is neither a call nor a member keeps its word, over its respelled children. -/
theorem respell_of_isKind {k : Kind} (hcall : k ≠ .call) (hmember : k ≠ .member) {h : Head}
    (hname : h.name = k.name) (xs : List Expr) :
    (node h xs).respell = node (.spelled h.name) (xs.map respell) := by
  rw [respell_node]
  apply respellNode_of_ne
  · exact fun heq => hcall (Kind.name_inj (hname.symm.trans heq))
  · exact fun heq => hmember (Kind.name_inj (hname.symm.trans heq))

/-- The statements of a body are respelled one by one. -/
theorem statements_respell (x : Expr) : x.respell.statements = x.statements.map respell := by
  have hkind := isKind_respell (k := .block) (by decide) x
  by_cases hblock : x.isKind .block = true
  · cases x with
    | node h xs =>
      have hname : h.name = Kind.block.name := beq_iff_eq.mp hblock
      rw [statements, hkind, if_pos hblock, statements, if_pos hblock,
        respell_of_isKind (by decide) (by decide) hname]
      rfl
    | _ => cases hblock
  · rw [statements, hkind, if_neg hblock, statements, if_neg hblock]
    rfl

/-- The arms and the last body of a chain, respelled. -/
def respellChain (c : List Arm × Option (List Expr)) : List Arm × Option (List Expr) :=
  (c.1.map (Arm.replace respell), c.2.map (List.map respell))

/-- The same for the chain from a last alternative. -/
theorem chain_respell_of_last {x : Expr} (hx : x.chain = ([], some x.statements))
    (hrespelled : x.respell.chain = ([], some x.respell.statements)) :
    x.respell.chain = respellChain x.chain := by
  rw [hrespelled, hx, statements_respell]
  rfl

/-- A chain of conditions is respelled arm by arm. -/
theorem chain_respell (x : Expr) : x.respell.chain = respellChain x.chain := by
  cases helseif : x.isKind .elseif with
  | false =>
    have hkind := isKind_respell (k := .elseif) (by decide) x
    rw [helseif] at hkind
    exact chain_respell_of_last (chain_of_not_isKind helseif) (chain_of_not_isKind hkind)
  | true =>
    cases x with
    | node h xs =>
      have hname : h.name = Kind.elseif.name := beq_iff_eq.mp helseif
      have hspelled : (Head.spelled h.name).name = Kind.elseif.name := hname
      have hrespell := respell_of_isKind (k := .elseif) (by decide) (by decide) hname xs
      by_cases hadmits : Kind.elseif.admits xs.length = true
      · rw [hrespell]
        rcases xs with _ | ⟨c, _ | ⟨b, _ | ⟨a, _ | ⟨d, more⟩⟩⟩⟩
        · cases hadmits
        · cases hadmits
        · rw [List.map_cons, List.map_cons, List.map_nil, chain_elseif hspelled,
            chain_elseif hname, statements_respell]
          rfl
        · have hrest := chain_respell a
          rw [List.map_cons, List.map_cons, List.map_cons, List.map_nil,
            chain_elseif_else hspelled, chain_elseif_else hname, statements_respell, hrest]
          rfl
        · have hmost : (c :: b :: a :: d :: more).length ≤ 3 := ((Kind.admits_iff _ _).mp hadmits).2
          simp only [List.length_cons] at hmost
          omega
      · apply chain_respell_of_last
        · exact chain_of_not_elseif fun h => hadmits h.2
        · rw [hrespell]
          apply chain_of_not_elseif
          rw [List.length_map]
          exact fun h => hadmits h.2
    | _ => cases helseif
termination_by sizeOf x

/-! ## The form of a respelled value -/

/-- The form of a quotation of anything but a name. -/
theorem form?_quoted {x : Expr} (h : ∀ name, x ≠ sym name) :
    (quoted x).form? = some (.quotation [x]) := by
  cases x with
  | sym name => exact absurd rfl (h name)
  | _ => rfl

/-- The same for a quotation that is a node. -/
theorem ofNode?_quote {x : Expr} (h : ∀ name, x ≠ sym name) :
    Form.ofNode? .quote [x] = some (.quotation [x]) := by
  cases x with
  | sym name => exact absurd rfl (h name)
  | _ => rfl

/-- Conditionals are respelled part by part. -/
theorem conditional?_respell (word : Keyword) (xs : List Expr) :
    Form.conditional? word (xs.map respell) =
      (Form.conditional? word xs).map (Form.replace respell) := by
  rcases xs with _ | ⟨c, _ | ⟨b, _ | ⟨a, _ | ⟨d, more⟩⟩⟩⟩
  · rfl
  · rfl
  · simp [Form.conditional?, Form.replace, Arm.replace, statements_respell]
  · simp [Form.conditional?, Form.replace, Arm.replace, statements_respell, chain_respell,
      respellChain]
  · rfl

/-- So are definitions. -/
theorem definition?_respell (definer : Definer) (xs : List Expr) :
    Form.definition? definer (xs.map respell) =
      (Form.definition? definer xs).map (Form.replace respell) := by
  rcases xs with _ | ⟨s, _ | ⟨b, _ | ⟨d, more⟩⟩⟩
  · rfl
  · rfl
  · simp [Form.definition?, Form.replace, statements_respell]
  · rfl

/-- So are quotations. -/
theorem quote_respell (xs : List Expr) :
    Form.ofNode? .quote (xs.map respell) =
      (Form.ofNode? .quote xs).map (Form.replace respell) := by
  rcases xs with _ | ⟨x, _ | ⟨y, more⟩⟩
  · rfl
  · by_cases hx : ∃ name, x = sym name
    · obtain ⟨name, rfl⟩ := hx
      rfl
    · have hne : ∀ name, x ≠ sym name := fun name heq => hx ⟨name, heq⟩
      rw [List.map_cons, List.map_nil, ofNode?_quote hne, ofNode?_quote (respell_ne_sym hne)]
      rfl
  · rw [ofNode?_quote_of_many (by simp) (by simp), ofNode?_quote_of_many (by simp) (by simp)]
    rfl

/-- So is every kind that has no spelling of its own for literals. -/
theorem ofNode?_respell {k : Kind} (hcall : k ≠ .call) (hmember : k ≠ .member) (xs : List Expr) :
    Form.ofNode? k (xs.map respell) = (Form.ofNode? k xs).map (Form.replace respell) := by
  cases k with
  | call => exact absurd rfl hcall
  | member => exact absurd rfl hmember
  | conditional => exact conditional?_respell .ifWord xs
  | elseif => exact conditional?_respell .elseifWord xs
  | function => exact definition?_respell .function xs
  | macroDef => exact definition?_respell .macroDef xs
  | quote => exact quote_respell xs
  | letBlock =>
    cases xs with
    | nil => rfl
    | cons body bindings => simp [Form.ofNode?, Form.replace, statements_respell]
  | moduleDef =>
    rcases xs with _ | ⟨x, _ | ⟨y, _ | ⟨z, more⟩⟩⟩
    · rfl
    · rfl
    · simp [Form.ofNode?, Form.replace, statements_respell]
    · rfl
  | _ => rcases xs with _ | ⟨x, _ | ⟨y, _ | ⟨z, more⟩⟩⟩ <;> rfl

/-- A word that names a kind makes nodes of that kind. -/
theorem form?_spelled (k : Kind) (xs : List Expr) :
    (node (.spelled k.name) xs).form? = Form.ofNode? k xs :=
  form?_node rfl xs

/-- A call is respelled as a call, or as a mapping if it is one. -/
theorem form?_respellNode_call {h : Head} (hname : h.name = Kind.call.name) (xs : List Expr) :
    (respellNode h xs (xs.map respell)).form? =
      (Form.ofNode? .call xs).map (Form.replace respell) := by
  cases xs with
  | nil =>
    rw [respellNode, hname]
    exact form?_spelled .call []
  | cons callee arguments =>
    rw [respellNode, hname, List.map_cons, List.head?_cons, Form.ofNode?]
    by_cases hmapping : callee.isMappingName = true
    · rw [if_pos (by simpa using hmapping), if_pos hmapping, form?_spelled]
      rfl
    · have hcall : ¬callee.respell.isMappingName = true := by rwa [isMappingName_respell]
      rw [if_neg (by simpa using hmapping), if_neg (by decide), if_neg hmapping, form?_spelled,
        Form.ofNode?, if_neg hcall]
      rfl

/-- Only the quoted name of a member is kept. -/
theorem keepField_of_ne {xs : List Expr} (h : ∀ owner name, xs ≠ [owner, quoted (sym name)])
    (ys : List Expr) : keepField xs ys = ys := by
  unfold keepField
  split
  · exact absurd rfl (h _ _)
  · rfl

/-- What is no quoted name stands for itself as a member. -/
theorem field_of_ne {x : Expr} (h : ∀ name, x ≠ quoted (sym name)) : x.field = x := by
  unfold field
  split
  · next name => exact absurd rfl (h name)
  · rfl

/-- Nothing but a quoted name is respelled to one. -/
theorem respell_ne_quotedName {x : Expr} (h : ∀ name, x ≠ quoted (sym name)) (name : String) :
    x.respell ≠ quoted (sym name) := by
  intro heq
  cases x with
  | quoted x =>
    have hne : ∀ n, x ≠ sym n := fun n hx => h n (by rw [hx])
    rw [respell_quoted hne] at heq
    exact respell_ne_sym hne name (quoted.inj heq)
  | node head xs =>
    rw [respell_node] at heq
    rcases respellNode_head head xs (xs.map respell) with ⟨zs, hzs⟩ | ⟨_, hzs⟩
    · cases hzs.symm.trans heq
    · cases hzs.symm.trans heq
  | _ => cases heq

/-- An access to a member is respelled as one, and its member is written as before. -/
theorem form?_respellNode_member {h : Head} (hname : h.name = Kind.member.name)
    (xs : List Expr) :
    (respellNode h xs (xs.map respell)).form? =
      (Form.ofNode? .member xs).map (Form.replace respell) := by
  have hnode : respellNode h xs (xs.map respell) =
      node (.spelled Kind.member.name) (keepField xs (xs.map respell)) := by
    rw [respellNode, hname]
    rfl
  rw [hnode, form?_spelled]
  rcases xs with _ | ⟨owner, _ | ⟨x, _ | ⟨y, more⟩⟩⟩
  · rfl
  · rfl
  · by_cases hx : ∃ name, x = quoted (sym name)
    · obtain ⟨name, rfl⟩ := hx
      rfl
    · have hne : ∀ name, x ≠ quoted (sym name) := fun name heq => hx ⟨name, heq⟩
      have hkept : ∀ owner' name, [owner, x] ≠ [owner', quoted (sym name)] :=
        fun _ name heq => hne name (List.cons.inj (List.cons.inj heq).2).1
      rw [keepField_of_ne hkept, List.map_cons, List.map_cons, List.map_nil, Form.ofNode?,
        Form.ofNode?, field_of_ne hne, field_of_ne (respell_ne_quotedName hne)]
      rfl
  · rw [keepField_of_ne (by simp)]
    rfl

/-- The form of a respelled node. -/
theorem form?_respell_node (h : Head) (xs : List Expr) :
    (node h xs).respell.form? = (node h xs).form?.map (Form.replace respell) := by
  rw [respell_node, form?]
  cases hk : h.kind? with
  | none =>
    rw [Head.kind?_eq_ofName?] at hk
    have hne : ∀ k : Kind, h.name ≠ k.name := by
      intro k heq
      rw [heq, Kind.ofName?_name] at hk
      cases hk
    rw [respellNode_of_ne (hne .call) (hne .member), form?, Head.kind?, hk]
    rfl
  | some k =>
    rw [Head.kind?_eq_ofName?] at hk
    have hname : h.name = k.name := (Kind.name_of_ofName? hk).symm
    rw [Option.bind_some]
    by_cases hcall : k = .call
    · subst hcall
      exact form?_respellNode_call hname xs
    · by_cases hmember : k = .member
      · subst hmember
        exact form?_respellNode_member hname xs
      · rw [← respell_node, respell_of_isKind hcall hmember hname, hname, form?_spelled,
          ofNode?_respell hcall hmember]

/-- **The form of a respelled value** is the form of the value with its parts respelled. -/
theorem form?_respell (x : Expr) : x.respell.form? = x.form?.map (Form.replace respell) := by
  cases x with
  | quoted x =>
    by_cases hx : ∃ name, x = sym name
    · obtain ⟨name, rfl⟩ := hx
      exact form?_spelled .quote [sym name]
    · have hne : ∀ name, x ≠ sym name := fun name heq => hx ⟨name, heq⟩
      rw [respell_quoted hne, form?_quoted hne, form?_quoted (respell_ne_sym hne)]
      rfl
  | pair a b => exact form?_spelled .pair _
  | tuple items =>
    rw [respell, respellAll_eq_map, form?_spelled]
    rfl
  | list items =>
    rw [respell, respellAll_eq_map, form?_spelled]
    rfl
  | mapping entries =>
    rw [respell, respellAll_eq_map, form?_spelled]
    rfl
  | node h xs => exact form?_respell_node h xs
  | _ => rfl

/-- A node without a form is respelled child by child. -/
theorem respell_of_gap {h : Head} {xs : List Expr} (hgap : (node h xs).form? = none) :
    (node h xs).respell = node (.spelled h.name) (xs.map respell) := by
  have hunsupported : ∀ k : Kind, h.name = k.name → Form.ofNode? k xs = none := by
    intro k hname
    rw [form?, Head.kind?_eq_ofName?, hname, Kind.ofName?_name, Option.bind_some] at hgap
    exact hgap
  rw [respell_node]
  by_cases hcall : h.name = Kind.call.name
  · -- Only a call without a callee has no form.
    cases xs with
    | nil =>
      rw [respellNode, hcall]
      rfl
    | cons callee arguments =>
      have hnone := hunsupported .call hcall
      rw [Form.ofNode?] at hnone
      split at hnone <;> cases hnone
  · by_cases hmember : h.name = Kind.member.name
    · have hkept : ∀ owner name, xs ≠ [owner, quoted (sym name)] := by
        rintro owner name rfl
        cases hunsupported .member hmember
      rw [respellNode, keepField_of_ne hkept, hmember]
      rfl
    · exact respellNode_of_ne hcall hmember _ _

/-- So respelling is one that the printers do not notice. -/
theorem respelling_respell : Respelling respell where
  sym _ := rfl
  ne_sym := respell_ne_sym
  isKind x c := isKind_respell (by cases c <;> decide) x
  form? := form?_respell
  fallback {x} hgap := by
    cases x with
    | node h xs =>
      have hchildren := Script.replace_flatMap (g := respell) (f := respell)
        (h := fun x => [.text " ", Script.phrase x]) (k := fun x => [.text " ", Script.phrase x])
        (fun _ => rfl) xs
      rw [respell_of_gap hgap]
      simp [Expr.fallback, Head.name, hchildren]
    | quoted x => cases x <;> cases hgap
    | plain d => rfl
    | _ => cases hgap
  sort {x} hgap := by
    cases x with
    | node h xs =>
      rw [respell_of_gap hgap]
      rfl
    | quoted x => cases x <;> cases hgap
    | plain d => rfl
    | _ => cases hgap

end Expr

/-- **Literals are interchangeable with the nodes that spell them.**  Respelling all the literals
in a value, the calls of `Dict` and the heads of all nodes changes nothing in what any renderer puts
out: not the text, not the document, not the markup, not the warnings, and not the failure of a
strict renderer. -/
theorem render_respell (r : Renderer) (x : Expr) (level : Int) :
    r.render x.respell level = r.render x level :=
  Renderer.render_replace level x Expr.respelling_respell r

end ExprPrinter
