import ExprPrinter.Expr.Equality
import ExprPrinter.Proofs.Condition.Text

/-!
# Conditions that print alike

Logical operators are associative as far as the text goes: an operand that has
the operator of its parent is written without brackets, so that its own operands
might as well be operands of the parent.  `Expr.splice` makes them that, all the
way down.  Nothing else is lost in print: the texts of two conditions are equal
if and only if the conditions are the same after splicing.

Splicing does not change how the text reads, `alternatives_splice`.  In a spliced
tree every operand is one factor, so that its operands can be told from the
text, `Spliced.operand_eq`, and the tree as a whole with them,
`Spliced.same_iff`.
-/

namespace ExprPrinter

open Condition

/-! ## Operands that are one factor -/

namespace Condition

/-- A condition as a factor: without brackets if it is one factor anyway. -/
def asFactor : Alternatives → Factor
  | [[f]] => f
  | a => .group a

/-- What is not a single factor becomes a group. -/
theorem asFactor_of_ne {a : Alternatives} (h : ∀ f, a ≠ [[f]]) : asFactor a = .group a := by
  rcases a with _ | ⟨_ | ⟨f, _ | ⟨g, row⟩⟩, _ | ⟨next, a⟩⟩
  case cons.cons.nil.nil => exact absurd rfl (h f)
  all_goals rfl

/-- Conditions with the same factor are equal, unless one of them is just a group. -/
theorem asFactor_inj {a b : Alternatives} (ha : ∀ d, a ≠ [[.group d]]) (hb : ∀ d, b ≠ [[.group d]])
    (h : asFactor a = asFactor b) : a = b := by
  by_cases hfa : ∃ f, a = [[f]]
  · obtain ⟨f, rfl⟩ := hfa
    by_cases hfb : ∃ g, b = [[g]]
    · obtain ⟨g, rfl⟩ := hfb
      exact congrArg (fun f => [[f]]) h
    · rw [asFactor_of_ne (a := b) fun g heq => hfb ⟨g, heq⟩] at h
      exact absurd (congrArg (fun f => [[f]]) h) (ha b)
  · rw [asFactor_of_ne (a := a) fun f heq => hfa ⟨f, heq⟩] at h
    by_cases hfb : ∃ g, b = [[g]]
    · obtain ⟨g, rfl⟩ := hfb
      exact absurd (congrArg (fun f => [[f]]) h.symm) (hb a)
    · rw [asFactor_of_ne (a := b) fun g heq => hfb ⟨g, heq⟩] at h
      exact Factor.group.inj h

end Condition

namespace Connective

/-- A call is no connective. -/
theorem call_name_ne (c : Connective) : Kind.call.name ≠ c.kind.name := by
  cases c <;> decide

/-- The operators have different names. -/
theorem kind_name_inj {c d : Connective} (h : c.kind.name = d.kind.name) : c = d := by
  cases c <;> cases d <;> first | rfl | exact absurd h (by decide)

/-- There are two connectives, so one that is not the other is its opposite. -/
theorem opposite_of_ne {c d : Connective} (h : c ≠ d) : c = d.opposite := by
  cases c <;> cases d <;> first | rfl | exact absurd rfl h

/-- What is joined in groups is joined as a whole. -/
theorem joinAll_flatMap (c : Connective) {α : Type} {g : α → List Alternatives}
    {k : α → Alternatives} {xs : List α} (h : ∀ x ∈ xs, c.joinAll (g x) = k x) :
    c.joinAll (xs.flatMap g) = c.joinAll (xs.map k) := by
  induction xs with
  | nil => rfl
  | cons x xs ih =>
    have hmore := ih fun y hy => h y (List.mem_cons_of_mem _ hy)
    rw [List.flatMap_cons, joinAll_append, h x List.mem_cons_self, hmore, List.map_cons,
      joinAll_cons]

/-- Factors with an operator between them. -/
def rows : Connective → List Factor → Alternatives
  | conjunction, fs => [fs]
  | disjunction, fs => fs.map fun f => [f]

/-- Single factors are joined into rows. -/
theorem joinAll_factors (c : Connective) {fs : List Factor} (hne : fs ≠ []) :
    c.joinAll (fs.map fun f => [[f]]) = c.rows fs := by
  induction fs with
  | nil => exact absurd rfl hne
  | cons f fs ih =>
    rw [List.map_cons, joinAll_cons]
    by_cases hlast : fs = []
    · rw [hlast]
      cases c <;> rfl
    · rw [ih hlast]
      cases c <;> rfl

/-- Two factors or more are not one factor. -/
theorem rows_ne_singleton (c : Connective) {fs : List Factor} (h : 2 ≤ fs.length) (f : Factor) :
    c.rows fs ≠ [[f]] := by
  rcases fs with _ | ⟨g, _ | ⟨next, fs⟩⟩
  · cases h
  · exact absurd h (by simp)
  · cases c <;> simp [rows]

/-- The operator and the factors can be told from two factors or more. -/
theorem rows_inj {c d : Connective} {fs gs : List Factor} (hfs : 2 ≤ fs.length)
    (hgs : 2 ≤ gs.length) (h : c.rows fs = d.rows gs) : c = d ∧ fs = gs := by
  have hone : ∀ {as bs : List Factor}, 2 ≤ bs.length →
      conjunction.rows as ≠ disjunction.rows bs := by
    intro as bs hbs heq
    have hlength := congrArg List.length heq
    rw [rows, rows, List.length_map, List.length_singleton] at hlength
    omega
  cases c with
  | conjunction =>
    cases d with
    | conjunction => exact ⟨rfl, (List.cons.inj h).1⟩
    | disjunction => exact absurd h (hone hgs)
  | disjunction =>
    cases d with
    | conjunction => exact absurd h.symm (hone hfs)
    | disjunction =>
      have hinj : ∀ f g : Factor, [f] = [g] → f = g := fun f g heq => (List.cons.inj heq).1
      exact ⟨rfl, (List.map_inj_right hinj).mp h⟩

end Connective

/-! ## Splicing -/

namespace Expr

/-- Whether a value is an operand that has the operator of its parent. -/
def repeats (h : Head) (x : Expr) : Bool :=
  (h.name == Kind.conjunction.name || h.name == Kind.disjunction.name) && x.hasHead h.name

mutual

/-- A tree in which every operand with the operator of its parent has given way to its operands. -/
def splice : Expr → Expr
  | node h xs => node h (spliceAll h xs)
  | x => x

/-- The children of a node with the given head, spliced. -/
def spliceAll (h : Head) : List Expr → List Expr
  | [] => []
  | x :: xs => (if x.repeats h then (splice x).children else [splice x]) ++ spliceAll h xs

end

/-- What takes the place of a child under a node with the given head. -/
def spliceChild (h : Head) (x : Expr) : List Expr :=
  if x.repeats h then x.splice.children else [x.splice]

/-- Children are spliced one by one. -/
theorem spliceAll_eq_flatMap (h : Head) (xs : List Expr) :
    spliceAll h xs = xs.flatMap (spliceChild h) := by
  induction xs with
  | nil => rfl
  | cons x xs ih => rw [spliceAll, ih, List.flatMap_cons, spliceChild]

/-- A spliced node has the spliced children of the node. -/
theorem splice_node (h : Head) (xs : List Expr) :
    (node h xs).splice = node h (xs.flatMap (spliceChild h)) := by
  rw [splice, spliceAll_eq_flatMap]

/-- Splicing keeps the kind of a tree. -/
theorem isKind_splice (k : Kind) (x : Expr) : x.splice.isKind k = x.isKind k := by
  cases x with
  | node h xs => rw [splice]; rfl
  | _ => rfl

/-- A child repeats a logical node if it has its kind. -/
theorem repeats_logical {h : Head} {c : Connective} (hname : h.name = c.kind.name) (x : Expr) :
    x.repeats h = x.isKind c.kind := by
  rw [repeats, hname, isKind]
  cases c <;> rfl

/-- Nothing is spliced into a call. -/
theorem spliceChild_call {h : Head} (hname : h.name = Kind.call.name) (x : Expr) :
    x.spliceChild h = [x.splice] := by
  rw [spliceChild, if_neg]
  rw [repeats, hname]
  exact Bool.false_ne_true

/-- A call keeps its arguments, each of them spliced. -/
theorem splice_call {h : Head} (hname : h.name = Kind.call.name) (callee : String)
    (xs : List Expr) :
    (node h (sym callee :: xs)).splice = node h (sym callee :: xs.map splice) := by
  have hchildren : ∀ ys : List Expr, ys.flatMap (spliceChild h) = ys.map splice := by
    intro ys
    rw [funext (spliceChild_call hname)]
    exact List.map_eq_flatMap.symm
  rw [splice_node, hchildren]
  rfl

/-- A tree of a kind is a node whose head has the name of the kind. -/
theorem name_of_isKind {k : Kind} {x : Expr} (h : x.isKind k = true) :
    ∃ head xs, x = node head xs ∧ head.name = k.name := by
  cases x with
  | node head xs => exact ⟨head, xs, rfl, beq_iff_eq.mp h⟩
  | _ => cases h

/-- An operand of the same kind keeps its alternatives, without brackets. -/
theorem operandAlternatives_of_isKind {c : Connective} {x : Expr} (h : x.isKind c.kind = true) :
    operandAlternatives c x = x.alternatives := by
  obtain ⟨head, xs, rfl, hname⟩ := name_of_isKind h
  rw [operandAlternatives, bracketed, isKind_node hname]
  cases c <;> rfl

/-- A condition and its spliced form read alike. -/
theorem alternatives_splice {x : Expr} (h : x.IsCondition False) :
    x.splice.alternatives = x.alternatives := by
  induction h with
  | name => rfl
  | @call _ callee xs hname _ _ _ ih =>
    rw [splice_call hname, alternatives_call hname, alternatives_call hname, List.map_map]
    exact congrArg (fun as => [[Factor.call callee as]]) (List.map_congr_left ih)
  | @logical h operands c hname _ _ ih =>
    have hchild : ∀ x ∈ operands,
        c.joinAll ((spliceChild h x).map (operandAlternatives c)) = operandAlternatives c x := by
      intro x hx
      rw [spliceChild, repeats_logical hname]
      split
      · -- the operands of the operand take its place, and it had no brackets around them
        next hkind =>
        rw [operandAlternatives_of_isKind hkind, ← ih x hx]
        obtain ⟨head, xs, rfl, hhead⟩ := name_of_isKind hkind
        rw [splice_node, alternatives_logical hhead]
        rfl
      · rw [operandAlternatives, ← ih x hx, bracketed, ← isKind_splice]
        exact c.join_nil _
    rw [splice_node, alternatives_logical hname, alternatives_logical hname, List.map_flatMap]
    exact c.joinAll_flatMap hchild
  | block hblocks => exact hblocks.elim

/-! ## Spliced trees -/

/-- Conditions in which no operand has the operator of its parent. -/
inductive Spliced : Expr → Prop
  | name (n : String) : Spliced (sym n)
  | call {h : Head} (callee : String) {arguments : List Expr} (hname : h.name = Kind.call.name)
      (harguments : ∀ x ∈ arguments, Spliced x) : Spliced (node h (sym callee :: arguments))
  | logical {h : Head} {operands : List Expr} (c : Connective) (hname : h.name = c.kind.name)
      (hlength : 2 ≤ operands.length) (hoperands : ∀ x ∈ operands, Spliced x)
      (hother : ∀ x ∈ operands, x.isKind c.kind = false) : Spliced (node h operands)

/-- A spliced logical node has two operands or more, all spliced and none of its own kind. -/
theorem Spliced.of_isKind {c : Connective} {x : Expr} (h : Spliced x)
    (hkind : x.isKind c.kind = true) :
    2 ≤ x.children.length ∧ (∀ y ∈ x.children, Spliced y) ∧
      ∀ y ∈ x.children, y.isKind c.kind = false := by
  obtain ⟨head, xs, rfl, hname⟩ := name_of_isKind hkind
  cases h with
  | call callee hcall _ =>
    exact absurd (hcall.symm.trans hname) c.call_name_ne
  | logical d hd hlength hoperands hother =>
    cases Connective.kind_name_inj (hd.symm.trans hname)
    exact ⟨hlength, hoperands, hother⟩

/-- If each member gives one or more, then there are as many as before at least. -/
theorem length_le_flatMap {g : Expr → List Expr} {xs : List Expr}
    (h : ∀ x ∈ xs, 1 ≤ (g x).length) : xs.length ≤ (xs.flatMap g).length := by
  induction xs with
  | nil => exact Nat.le_refl 0
  | cons x xs ih =>
    have hfirst := h x List.mem_cons_self
    have hmore := ih fun y hy => h y (List.mem_cons_of_mem _ hy)
    rw [List.flatMap_cons, List.length_append, List.length_cons]
    omega

/-- **Splicing splices.**  What is spliced has nothing left to splice. -/
theorem spliced_splice {x : Expr} (h : x.IsCondition False) : x.splice.Spliced := by
  induction h with
  | name => exact .name _
  | call hname _ _ _ ih =>
    rw [splice_call hname]
    apply Spliced.call _ hname
    intro y hy
    obtain ⟨x, hx, rfl⟩ := List.mem_map.mp hy
    exact ih x hx
  | @logical h operands c hname hlength _ ih =>
    have hchild : ∀ x ∈ operands, 1 ≤ (x.spliceChild h).length ∧
        ∀ y ∈ x.spliceChild h, y.Spliced ∧ y.isKind c.kind = false := by
      intro x hx
      rw [spliceChild, repeats_logical hname]
      split
      · next hkind =>
        rw [← isKind_splice] at hkind
        obtain ⟨hmany, hspliced, hother⟩ := (ih x hx).of_isKind hkind
        exact ⟨by omega, fun y hy => ⟨hspliced y hy, hother y hy⟩⟩
      · next hkind =>
        refine ⟨Nat.le_refl 1, fun y hy => ?_⟩
        rw [List.mem_singleton.mp hy, isKind_splice]
        exact ⟨ih x hx, Bool.eq_false_iff.mpr hkind⟩
    have hmem : ∀ y ∈ operands.flatMap (spliceChild h), y.Spliced ∧ y.isKind c.kind = false := by
      intro y hy
      obtain ⟨x, hx, hy⟩ := List.mem_flatMap.mp hy
      exact (hchild x hx).2 y hy
    have hmany : operands.length ≤ (operands.flatMap (spliceChild h)).length :=
      length_le_flatMap fun x hx => (hchild x hx).1
    rw [splice_node]
    exact .logical c hname (by omega) (fun y hy => (hmem y hy).1) fun y hy => (hmem y hy).2
  | block hblocks => exact hblocks.elim

/-- The factor that a condition is as an operand of another operator. -/
def factor (x : Expr) : Factor :=
  asFactor x.alternatives

namespace Spliced

/-- Operands that are single factors make rows. -/
theorem alternatives_operands {c : Connective} {xs : List Expr} (hlength : 2 ≤ xs.length)
    (h : ∀ x ∈ xs, operandAlternatives c x = [[x.factor]]) :
    c.joinAll (xs.map (operandAlternatives c)) = c.rows (xs.map factor) := by
  rw [List.map_congr_left h, ← c.joinAll_factors (map_ne_nil hlength), List.map_map]
  rfl

/-- An operand of a spliced tree is one factor. -/
theorem operand_eq {x : Expr} (h : Spliced x) (c : Connective) (hkind : x.isKind c.kind = false) :
    operandAlternatives c x = [[x.factor]] := by
  induction h generalizing c with
  | name n => rfl
  | call callee hname _ _ =>
    rw [operandAlternatives, bracketed, isKind_node hname, factor, alternatives_call hname]
    cases c <;> rfl
  | logical d hname hlength _ hother ih =>
    have hne : d ≠ c := by
      rintro rfl
      rw [isKind_node hname, beq_self_eq_true] at hkind
      cases hkind
    have hrows := alternatives_operands hlength fun x hx => ih x hx d (hother x hx)
    have hopposite : (d.kind.name == c.opposite.kind.name) = true := by
      rw [Connective.opposite_of_ne hne, beq_self_eq_true]
    rw [operandAlternatives, bracketed, isKind_node hname, if_pos hopposite, factor,
      alternatives_logical hname, hrows,
      asFactor_of_ne (d.rows_ne_singleton (by simpa using hlength))]

/-- A spliced logical node reads as rows, with a factor for each of its operands. -/
theorem alternatives_eq_rows {h : Head} {c : Connective} {xs : List Expr}
    (hname : h.name = c.kind.name) (hlength : 2 ≤ xs.length) (hoperands : ∀ x ∈ xs, Spliced x)
    (hother : ∀ x ∈ xs, x.isKind c.kind = false) :
    (node h xs).alternatives = c.rows (xs.map factor) := by
  rw [alternatives_logical hname]
  exact alternatives_operands hlength fun x hx => (hoperands x hx).operand_eq c (hother x hx)

/-- So it does not read as a single factor. -/
theorem alternatives_ne_factor {h : Head} {c : Connective} {xs : List Expr}
    (hname : h.name = c.kind.name) (hlength : 2 ≤ xs.length) (hoperands : ∀ x ∈ xs, Spliced x)
    (hother : ∀ x ∈ xs, x.isKind c.kind = false) (f : Factor) :
    (node h xs).alternatives ≠ [[f]] := by
  rw [alternatives_eq_rows hname hlength hoperands hother]
  exact c.rows_ne_singleton (by simpa using hlength) f

/-- No spliced tree reads as a group alone: a group is an operand always. -/
theorem alternatives_ne_group {x : Expr} (h : Spliced x) (a : Alternatives) :
    x.alternatives ≠ [[.group a]] := by
  cases h with
  | name n => intro heq; cases heq
  | call callee hname _ =>
    rw [alternatives_call hname]
    intro heq
    cases heq
  | logical c hname hlength hoperands hother =>
    exact alternatives_ne_factor hname hlength hoperands hother _

/-- The operands of a spliced tree are told apart by their factors. -/
theorem factor_eq_iff {x y : Expr} (hx : Spliced x) (hy : Spliced y) :
    x.factor = y.factor ↔ x.alternatives = y.alternatives :=
  ⟨asFactor_inj hx.alternatives_ne_group hy.alternatives_ne_group, congrArg asFactor⟩

end Spliced

/-- Lists have the same values if the values at the same place agree in what tells them apart. -/
theorem sameAll_iff_map_eq {α : Type} {g : Expr → α} {xs ys : List Expr}
    (h : ∀ x ∈ xs, ∀ y ∈ ys, (x.same y = true ↔ g x = g y)) :
    sameAll xs ys = true ↔ xs.map g = ys.map g := by
  induction xs generalizing ys with
  | nil => cases ys <;> simp [sameAll]
  | cons x xs ih =>
    cases ys with
    | nil => simp [sameAll]
    | cons y ys =>
      have hfirst := h x List.mem_cons_self y List.mem_cons_self
      have hmore := ih fun z hz w hw =>
        h z (List.mem_cons_of_mem _ hz) w (List.mem_cons_of_mem _ hw)
      rw [sameAll, Bool.and_eq_true, hfirst, hmore, List.map_cons, List.map_cons, List.cons.injEq]

/-- Spliced trees that read alike are the same. -/
theorem Spliced.same_iff {x y : Expr} (hx : Spliced x) (hy : Spliced y) :
    x.same y = true ↔ x.alternatives = y.alternatives := by
  induction hx generalizing y with
  | name n =>
    cases hy with
    | name m => simp [same, alternatives]
    | call callee hname _ =>
      rw [alternatives_call hname]
      simp [same, alternatives]
    | logical d hname hlength hoperands hother =>
      have hne := alternatives_ne_factor hname hlength hoperands hother (.name n)
      exact iff_of_false (by simp [same]) hne.symm
  | @call _ callee xs hname _ ih =>
    cases hy with
    | name m =>
      rw [alternatives_call hname]
      simp [same, alternatives]
    | call callee' hname' harguments =>
      have hall := sameAll_iff_map_eq fun x hx y hy => ih x hx (harguments y hy)
      rw [alternatives_call hname, alternatives_call hname', same, sameAll, same, hname, hname',
        beq_self_eq_true, Bool.true_and, Bool.and_eq_true, hall, beq_iff_eq]
      simp
    | logical d hname' hlength hoperands hother =>
      have hne := alternatives_ne_factor hname' hlength hoperands hother
        (.call callee (xs.map alternatives))
      rw [alternatives_call hname, same, hname, hname', beq_eq_false_iff_ne.mpr d.call_name_ne]
      exact iff_of_false Bool.false_ne_true hne.symm
  | @logical _ xs c hname hlength hoperands hother ih =>
    cases hy with
    | name m =>
      have hne := alternatives_ne_factor hname hlength hoperands hother (.name m)
      exact iff_of_false (by simp [same]) hne
    | call callee hname' _ =>
      have hne := alternatives_ne_factor hname hlength hoperands hother
      rw [alternatives_call hname', same, hname, hname',
        beq_eq_false_iff_ne.mpr c.call_name_ne.symm]
      exact iff_of_false Bool.false_ne_true (hne _)
    | @logical _ ys d hname' hlength' hoperands' hother' =>
      -- operands have the same factor if they read alike, because none of them is just a group
      have hall : sameAll xs ys = true ↔ xs.map factor = ys.map factor :=
        sameAll_iff_map_eq fun x hx y hy =>
          (ih x hx (hoperands' y hy)).trans
            ((hoperands x hx).factor_eq_iff (hoperands' y hy)).symm
      rw [alternatives_eq_rows hname hlength hoperands hother,
        alternatives_eq_rows hname' hlength' hoperands' hother', same, Bool.and_eq_true, beq_iff_eq,
        hname, hname', hall]
      constructor
      · rintro ⟨hnames, hfactors⟩
        rw [Connective.kind_name_inj hnames, hfactors]
      · intro hrows
        obtain ⟨rfl, hfactors⟩ :=
          Connective.rows_inj (by simpa using hlength) (by simpa using hlength') hrows
        exact ⟨rfl, hfactors⟩

/-- Conditions without blocks read alike if and only if they are the same after splicing. -/
theorem splice_same_iff {x y : Expr} (hx : x.IsCondition False) (hy : y.IsCondition False) :
    x.splice.same y.splice = true ↔ x.alternatives = y.alternatives := by
  rw [(spliced_splice hx).same_iff (spliced_splice hy), alternatives_splice hx,
    alternatives_splice hy]

end Expr

/-! ## Texts and trees -/

/-- **Logical operators in print.**  Conditions without blocks have the same text, at any level and
with any width, if and only if they are the same after splicing. -/
theorem text_eq_iff_splice_same {x y : Expr} (hx : x.IsCondition False) (hy : y.IsCondition False)
    (strict : Bool) (width level : Int) :
    ∃ s t : String,
      PlainText.render strict width x level = .ok (s, []) ∧
      PlainText.render strict width y level = .ok (t, []) ∧
      (s = t ↔ x.splice.same y.splice = true) := by
  obtain ⟨s, hs, hsText⟩ := hx.render_eq strict width level
  obtain ⟨t, ht, htText⟩ := hy.render_eq strict width level
  refine ⟨s, t, hs, ht, ?_⟩
  rw [Expr.splice_same_iff hx hy]
  constructor
  · rintro rfl
    have hread := read_spell hx.properAlternatives hsText
    rw [read_spell hy.properAlternatives htText] at hread
    exact (Option.some.inj hread).symm
  · intro halternatives
    rw [← String.toList_inj, hsText, htText, halternatives]

/-- The grouping of three operands to the left and to the right is not to be seen. -/
theorem text_of_regrouped :
    let either := Expr.node (.constant .disjunction) [.sym "c", .node (.spelled "call") [.sym "f"]]
    let left := Expr.node (.spelled "&&")
      [.node (.constant .conjunction) [.sym "a", .sym "b"], either]
    let right := Expr.node (.constant .conjunction)
      [.sym "a", .node (.spelled "&&") [.sym "b", either]]
    (left.IsCondition False ∧ right.IsCondition False ∧ left.splice.same right.splice = true) ∧
    ∃ s t : String,
      PlainText.render true 4 left 2 = .ok (s, []) ∧
      PlainText.render true 4 right 2 = .ok (t, []) ∧
      (s = t ↔ left.splice.same right.splice = true) := by
  intro either left right
  have hname : ∀ n ∈ ["a", "b", "c"], (Expr.sym n).IsCondition False :=
    fun n hn => .name (by revert n; decide)
  have hcall : (Expr.node (.spelled "call") [.sym "f"]).IsCondition False :=
    .call rfl (by decide) (by decide) (by simp)
  have heither : either.IsCondition False := .binary .disjunction rfl (hname "c" (by simp)) hcall
  have hleft : left.IsCondition False :=
    .binary .conjunction rfl
      (.binary .conjunction rfl (hname "a" (by simp)) (hname "b" (by simp))) heither
  have hright : right.IsCondition False :=
    .binary .conjunction rfl (hname "a" (by simp))
      (.binary .conjunction rfl (hname "b" (by simp)) heither)
  have hsame : left.splice.same right.splice = true := by cbv
  exact ⟨⟨hleft, hright, hsame⟩, text_eq_iff_splice_same hleft hright true 4 2⟩

end ExprPrinter
