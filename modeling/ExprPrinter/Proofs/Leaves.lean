import ExprPrinter.Proofs.Rendering
import ExprPrinter.Proofs.Script.Views

/-!
# Every leaf is written once

A tree with a place in it is a context with something in its hole.  Whatever
text stands at a leaf of a tree, the plain-text printer writes it once, and
what it writes before and after that does not depend on it.

The proof goes down the context.  One frame adds fixed text to what is written
for the child in its hole, in the view in which the frame takes the child up:
`shows_fill`.  At the end there is a leaf, in some view: `wraps_leaf`.
-/

namespace ExprPrinter

/-! ## Contexts -/

namespace Expr

/-- A value with a hole in the place of one of its parts, for each place in which a value can have
an expression as its part. -/
inductive Frame where
  | quoted
  | first (second : Expr)
  | second (first : Expr)
  | tuple (left right : List Expr)
  | list (left right : List Expr)
  | mapping (left right : List Expr)
  | node (head : Head) (left right : List Expr)

namespace Frame

/-- A frame with a value in its hole. -/
def fill : Frame → Expr → Expr
  | quoted, x => .quoted x
  | first b, x => .pair x b
  | second a, x => .pair a x
  | tuple left right, x => .tuple (left ++ x :: right)
  | list left right, x => .list (left ++ x :: right)
  | mapping left right, x => .mapping (left ++ x :: right)
  | node h left right, x => .node h (left ++ x :: right)

/-- Whether the hole of a frame is in the place of the callee of a call. -/
def isCallee : Frame → Bool
  | node h [] _ => h.name == Kind.call.name
  | _ => false

/-- What may stand in the hole of a frame so that its form depends on the frame alone: anything,
but in the place of a callee no name that makes a mapping of the call. -/
def Allows (F : Frame) (x : Expr) : Prop :=
  F.isCallee = true → x.isMappingName = false

end Frame

/-- Frames around a hole, the outermost first. -/
abbrev Context := List Frame

namespace Context

/-- A context with a value in its hole. -/
def plug (c : Context) (x : Expr) : Expr :=
  c.foldr Frame.fill x

/-- Whether the hole of a context is in the place of the callee of a call. -/
def isCallee : Context → Bool
  | [] => false
  | [F] => F.isCallee
  | _ :: F :: c => isCallee (F :: c)

end Context

end Expr

/-- The sorts of atoms that are a text. -/
inductive Leaf where
  | sym | str | char
  deriving DecidableEq, Repr

/-- The atom of a sort with the given text. -/
def Leaf.atom : Leaf → String → Expr
  | sym, n => .sym n
  | str, n => .str n
  | char, n => .char n

/-! ## Texts around others -/

/-- The outer text is the inner one between two fixed texts, wherever it is allowed. -/
def Wraps {ι : Type} (allowed : ι → Prop) (outer inner : ι → String) : Prop :=
  ∃ before after : String, ∀ i, allowed i → outer i = before ++ inner i ++ after

namespace Wraps

variable {ι : Type} {allowed : ι → Prop} {r s t : ι → String}

/-- Texts around texts around others are around the others. -/
theorem trans (h : Wraps allowed r s) (g : Wraps allowed s t) : Wraps allowed r t := by
  obtain ⟨before, after, h⟩ := h
  obtain ⟨before', after', g⟩ := g
  refine ⟨before ++ before', after' ++ after, fun i hi => ?_⟩
  rw [h i hi, g i hi]
  simp only [String.append_assoc]

/-- A text is around any that it is equal to. -/
theorem of_eq (h : ∀ i, allowed i → r i = s i) : Wraps allowed r s := by
  refine ⟨"", "", fun i hi => ?_⟩
  rw [h i hi, String.empty_append, String.append_empty]

/-- The same for what a function gives, where that is allowed. -/
theorem comp {κ : Type} {allowed' : κ → Prop} {f : κ → ι} (h : Wraps allowed s t)
    (hf : ∀ k, allowed' k → allowed (f k)) :
    Wraps allowed' (fun k => s (f k)) (fun k => t (f k)) := by
  obtain ⟨before, after, h⟩ := h
  exact ⟨before, after, fun k hk => h (f k) (hf k hk)⟩

end Wraps

open PlainText Script

/-- What is written for a value in a view, at a level. -/
def View.text (width level : Int) (v : View) (x : Expr) : String :=
  written width ((v.script x).place level)

variable (width : Int)

/-- What is written for a script is around what is written for what it holds. -/
theorem wraps_of_holds {ι : Type} {allowed : ι → Prop} {S T : ι → Script} (h : Holds S T)
    (level : Int) :
    Wraps allowed (fun i => written width ((S i).place level))
      (fun i => written width ((T i).place level)) := by
  obtain ⟨left, right, h⟩ := h
  refine ⟨written width (left.place level), written width (right.place level), fun i _ => ?_⟩
  simp only [h i, Script.place, List.map_append, written_append]

/-! ## One frame -/

/-- A node without a form holds its children in its sentinel. -/
theorem holds_sentinel (h : Head) (left right : List Expr) :
    Holds (fun x => (Expr.node h (left ++ x :: right)).sentinel) (View.whole .edge).script := by
  have hchild : Holds (fun x => [.text " ", phrase x]) (View.whole .edge).script :=
    (Holds.refl _).cons (.text " ")
  have hchildren := (holds_flatMap left right fun x => [.text " ", phrase x]).trans hchild
  have hfallback := (hchildren.cons (.text ("(" ++ h.name))).append_right [.text ")"]
  exact (hfallback.cons (.text sentinelOpening)).append_right [.text sentinelClosing]

/-- What is written for a filled frame is a script that holds one view of what fills it. -/
def Expr.Frame.Taken (F : Expr.Frame) : Prop :=
  ∃ (v : View) (S : Expr → Script), Holds S v.script ∧ ∀ x, F.Allows x → ∀ level,
    written width [.slot (.sub (F.fill x) level)] = written width ((S x).place level)

/-- A frame whose form holds a view of what is filled in is taken in that view. -/
theorem taken_of_form {F : Expr.Frame} {v : View} {S : Expr → Script} (hS : Holds S v.script)
    (hF : ∀ x, F.Allows x → (F.fill x).form?.map Form.script = some (S x)) : F.Taken width := by
  refine ⟨v, S, hS, fun x hx level => ?_⟩
  obtain ⟨f, hf, hscript⟩ := Option.map_eq_some_iff.mp (hF x hx)
  rw [written_form width hf, hscript]

/-- Whether a node has a form depends on its head and on the number of its children, and either way
it takes up each of them. -/
theorem taken_node (h : Head) (left right : List Expr) :
    (Expr.Frame.node h left right).Taken width := by
  by_cases hadmits : ∃ k, h.kind? = some k ∧ k.admits (left.length + right.length + 1) = true
  · obtain ⟨k, hk, hadmits⟩ := hadmits
    have hcallee : k = .call → left = [] → ∀ x, (Expr.Frame.node h left right).Allows x →
        x.isMappingName = false := by
      rintro rfl rfl x hx
      apply hx
      rw [Head.kind?_eq_ofName?] at hk
      rw [Expr.Frame.isCallee, Kind.name_of_ofName? hk, beq_self_eq_true]
    obtain ⟨v, S, hS, hscript⟩ := takes_ofNode? k hadmits hcallee
    refine taken_of_form width hS fun x hx => ?_
    rw [Expr.Frame.fill, Expr.form?, hk]
    exact hscript x hx
  · have hnone : ∀ x, (Expr.node h (left ++ x :: right)).form? = none := by
      intro x
      rw [← Option.not_isSome_iff_eq_none, Expr.isSome_form?, Expr.isSupported, length_hole]
      intro hsupported
      exact hadmits (by simpa [Option.any_eq_true] using hsupported)
    exact ⟨_, _, holds_sentinel h left right, fun x _ level =>
      written_sentinel width (hnone x) level⟩

/-- **Every frame is taken in a view.**  Whatever is filled in is written, in this view. -/
theorem taken_frame (F : Expr.Frame) : F.Taken width := by
  cases F with
  | quoted =>
    exact taken_of_form width (Holds.refl View.quotation.script) fun x _ => by cases x <;> rfl
  | first b => exact taken_of_form width (holds_infixed_left " => " b) fun x _ => rfl
  | second a => exact taken_of_form width (holds_infixed_right a " => ") fun x _ => rfl
  | tuple left right =>
    exact taken_of_form width (holds_enclosed left right "(" "," ")") fun x _ => rfl
  | list left right =>
    exact taken_of_form width (holds_enclosed left right "[" "," "]") fun x _ => rfl
  | mapping left right => exact taken_of_form width (holds_entries left right) fun x _ => rfl
  | node h left right => exact taken_node width h left right

/-- A frame is never filled to a name. -/
theorem fill_ne_sym (F : Expr.Frame) (x : Expr) (n : String) : F.fill x ≠ .sym n := by
  cases F <;> exact Expr.noConfusion

/-- The kind of a frame does not depend on what is filled in. -/
theorem isKind_fill (F : Expr.Frame) (k : Kind) (x : Expr) :
    (F.fill x).isKind k = (F.fill .nil).isKind k := by
  cases F <;> rfl

/-- The statements of a filled frame are its children if it is a block, and otherwise it is a
statement itself. -/
theorem statements_fill (F : Expr.Frame) :
    (∃ left right, ∀ x, (F.fill x).statements = left ++ x :: right) ∨
      ∀ x, (F.fill x).statements = [F.fill x] := by
  by_cases hblock : (F.fill .nil).isKind .block = true
  · cases F with
    | node h left right =>
      refine .inl ⟨left, right, fun x => ?_⟩
      rw [Expr.statements, isKind_fill, if_pos hblock]
      rfl
    | _ => cases hblock
  · refine .inr fun x => ?_
    rw [Expr.statements, isKind_fill, if_neg hblock]

/-- A filled frame in an else-position goes on with a chain of conditions, and takes what fills it
up into that, or it ends the chain. -/
theorem chain_fill (F : Expr.Frame) :
    (∃ w : View, Holds (fun x => View.alternative.script (F.fill x)) w.script) ∨
      ∀ x, (F.fill x).chain = ([], some (F.fill x).statements) := by
  cases F with
  | node h left right =>
    by_cases helseif : h.name = Kind.elseif.name ∧
        Kind.elseif.admits (left.length + right.length + 1) = true
    · exact .inl (holds_chain (g := fun xs => View.alternative.script (.node h xs))
        (alternative_elseif helseif.1) (alternative_elseif_else helseif.1) helseif.2)
    · refine .inr fun x => Expr.chain_of_not_elseif ?_
      rwa [length_hole]
  | _ => exact .inr fun x => rfl

/-- A member that is a quoted form, and no quoted name, is written as a quotation. -/
theorem text_quotedField {x : Expr} (h : ∀ n, x ≠ .sym n) (level : Int) :
    View.quotedField.text width level x = View.quotation.text width 0 x := by
  have hfield : (Expr.quoted x).field = .quoted x := by
    cases x with
    | sym n => exact absurd rfl (h n)
    | _ => rfl
  have hform : (Expr.quoted x).form? = some (.quotation [x]) := by
    cases x with
    | sym n => exact absurd rfl (h n)
    | _ => rfl
  rw [View.text, View.script, hfield, View.text, quotation_of_ne_sym h]
  exact written_form width hform 0

/-- Up to fixed text, a text is what is written for a value, in some view and at some level. -/
def Shows (allowed : Expr → Prop) (outer : Expr → String) : Prop :=
  ∃ (w : View) (level : Int), Wraps allowed outer (w.text width level)

section Shows

variable {F : Expr.Frame} {v w : View} {m : Margin}

/-- What is around something that shows its contents shows them as well. -/
theorem Shows.of_wraps {allowed : Expr → Prop} {outer inner : Expr → String}
    (h : Wraps allowed outer inner) (hinner : Shows width allowed inner) :
    Shows width allowed outer := by
  obtain ⟨w, level, hw⟩ := hinner
  exact ⟨w, level, h.trans hw⟩

/-- A view shows what is filled in if it holds another view of that. -/
theorem shows_of_view (h : Holds (fun x => v.script (F.fill x)) w.script) (level : Int) :
    Shows width F.Allows fun x => v.text width level (F.fill x) :=
  ⟨w, level, wraps_of_holds width h level⟩

/-- A view shows what is filled in if it holds the whole. -/
theorem shows_of_whole
    (h : Holds (fun x => v.script (F.fill x)) (fun x => (View.whole m).script (F.fill x)))
    (level : Int) : Shows width F.Allows fun x => v.text width level (F.fill x) := by
  -- The view leaves the frame as it is, so that its form or its sentinel takes up the child.
  obtain ⟨w, S, hS, hF⟩ := taken_frame width F
  have hwhole : Shows width F.Allows
      fun x => written width [.slot (.sub (F.fill x) (m.level level))] := by
    refine ⟨w, m.level level, ?_⟩
    exact (Wraps.of_eq fun x hx => hF x hx _).trans (wraps_of_holds width hS _)
  exact Shows.of_wraps width (wraps_of_holds width h level) hwhole

/-- A frame in a body shows what is filled in. -/
theorem shows_body (F : Expr.Frame) (level : Int) :
    Shows width F.Allows fun x => View.body.text width level (F.fill x) := by
  rcases statements_fill F with ⟨left, right, hblock⟩ | hlone
  · have hbody : Holds (fun x => View.body.script (F.fill x)) (View.whole .deeper).script := by
      simp only [View.script, hblock]
      exact holds_body left right
    exact shows_of_view width hbody level
  · exact shows_of_whole width (holds_statements hlone) level

/-- So does one in the body of a module. -/
theorem shows_moduleBody (F : Expr.Frame) (level : Int) :
    Shows width F.Allows fun x => View.moduleBody.text width level (F.fill x) := by
  rcases statements_fill F with ⟨left, right, hblock⟩ | hlone
  · have hforms : Holds (fun x => View.moduleBody.script (F.fill x))
        (View.whole .deeper).script := by
      simp only [View.script, hblock]
      exact holds_moduleForms left right
    exact shows_of_view width hforms level
  · exact shows_of_whole width (holds_moduleStatements hlone) level

/-- So does one in an else-position. -/
theorem shows_alternative (F : Expr.Frame) (level : Int) :
    Shows width F.Allows fun x => View.alternative.text width level (F.fill x) := by
  rcases chain_fill F with ⟨w, hchain⟩ | hlast
  · exact shows_of_view width hchain level
  · exact Shows.of_wraps width (wraps_of_holds width (holds_lastAlternative hlast) level)
      (shows_body width F level)

/-- So does one in the place of a member. -/
theorem shows_field (F : Expr.Frame) (level : Int) :
    Shows width F.Allows fun x => View.field.text width level (F.fill x) := by
  cases F with
  | quoted => exact shows_of_view width (Holds.refl View.quotedField.script) level
  | _ => exact shows_of_whole width (holds_field fun x => rfl) level

end Shows

/-- **One frame.**  In every view, what is written for a filled frame is, up to fixed text, what is
written for that which fills it, in some view and at some level. -/
theorem shows_fill (F : Expr.Frame) (v : View) (level : Int) :
    Shows width F.Allows fun x => v.text width level (F.fill x) := by
  cases v with
  | whole m => exact shows_of_whole width (Holds.refl _) level
  | body => exact shows_body width F level
  | moduleBody => exact shows_moduleBody width F level
  | alternative => exact shows_alternative width F level
  | field => exact shows_field width F level
  | operand c => exact shows_of_whole width (holds_operand (isKind_fill F c.opposite.kind)) level
  | unquoted => exact shows_of_whole width (holds_unquoted (fill_ne_sym F)) level
  | quotation => exact shows_of_whole width (holds_quotation (fill_ne_sym F)) level
  | quotedField =>
    refine Shows.of_wraps width
      (Wraps.of_eq fun x _ => text_quotedField width (fill_ne_sym F x) level) ?_
    exact shows_of_whole width (holds_quotation (fill_ne_sym F)) 0

/-! ## A leaf -/

/-- What is written for an atom is its text, perhaps in quotes. -/
theorem wraps_atom (a : Leaf) (level : Int) :
    Wraps (fun _ => True) (fun n => written width [.slot (.sub (a.atom n) level)]) id := by
  cases a with
  | sym =>
    refine ⟨"", "", fun n _ => ?_⟩
    rw [String.empty_append, String.append_empty]
    exact written_leaf width rfl level
  | str => exact ⟨"\"", "\"", fun n _ => written_leaf width rfl level⟩
  | char => exact ⟨"'", "'", fun n _ => written_leaf width rfl level⟩

/-- A view of an atom is around its letters if it holds the whole. -/
theorem wraps_of_whole {a : Leaf} {v : View} {m : Margin}
    (h : Holds (fun n => v.script (a.atom n)) (fun n => (View.whole m).script (a.atom n)))
    (level : Int) : Wraps (fun _ => True) (fun n => v.text width level (a.atom n)) id :=
  (wraps_of_holds width h level).trans (wraps_atom width a (m.level level))

/-- An atom that is no symbol is quoted and unquoted as a whole. -/
theorem atom_ne_sym {a : Leaf} (h : a ≠ .sym) (n m : String) : a.atom n ≠ .sym m := by
  cases a with
  | sym => exact absurd rfl h
  | str => exact Expr.noConfusion
  | char => exact Expr.noConfusion

/-- In every view, what is written for an atom is its text between fixed texts. -/
theorem wraps_leaf (a : Leaf) (v : View) (level : Int) :
    Wraps (fun _ => True) (fun n => v.text width level (a.atom n)) id := by
  have hstatements : ∀ n, (a.atom n).statements = [a.atom n] := fun n => by cases a <;> rfl
  have hchain : ∀ n, (a.atom n).chain = ([], some (a.atom n).statements) := fun n => by
    cases a <;> rfl
  cases v with
  | whole m => exact wraps_atom width a (m.level level)
  | body => exact wraps_of_whole width (holds_statements hstatements) level
  | moduleBody => exact wraps_of_whole width (holds_moduleStatements hstatements) level
  | alternative =>
    exact wraps_of_whole width ((holds_lastAlternative hchain).trans (holds_statements hstatements))
      level
  | field =>
    exact wraps_of_whole width (holds_field fun n => by cases a <;> rfl) level
  | operand c =>
    have hkind : ∀ n, (a.atom n).isKind c.opposite.kind = false := fun n => by cases a <;> rfl
    exact wraps_of_whole width (holds_operand hkind) level
  | unquoted =>
    by_cases ha : a = .sym
    · subst ha
      refine ⟨"$", "", fun n _ => ?_⟩
      simp [View.text, View.script, Leaf.atom, Script.unquoted, Script.place, Piece.move]
    · exact wraps_of_whole width (holds_unquoted (atom_ne_sym ha)) level
  | quotation =>
    by_cases ha : a = .sym
    · subst ha
      refine ⟨":", "", fun n _ => ?_⟩
      simp [View.text, View.script, Leaf.atom, Script.place, Piece.move]
    · exact wraps_of_whole width (holds_quotation (atom_ne_sym ha)) level
  | quotedField =>
    by_cases ha : a = .sym
    · subst ha
      exact wraps_atom width .sym 0
    · refine (Wraps.of_eq fun n _ => text_quotedField width (atom_ne_sym ha n) level).trans ?_
      exact wraps_of_whole width (holds_quotation (atom_ne_sym ha)) 0

/-! ## All frames -/

/-- A text may stand at a leaf in a context: any text, but for a symbol in the place of a callee
not the name that makes a mapping of the call. -/
def Expr.Context.Admits (c : Expr.Context) (a : Leaf) (n : String) : Prop :=
  ¬(c.isCallee = true ∧ a = .sym ∧ n = "Dict")

/-- What a context admits is admitted inside its first frame. -/
theorem admits_tail {F : Expr.Frame} {c : Expr.Context} {a : Leaf} {n : String}
    (h : Expr.Context.Admits (F :: c) a n) : c.Admits a n := by
  cases c with
  | nil => exact fun hn => Bool.noConfusion hn.1
  | cons G c => exact h

/-- And the first frame allows what stands inside of it. -/
theorem allows_of_admits {F : Expr.Frame} {c : Expr.Context} {a : Leaf} {n : String}
    (h : Expr.Context.Admits (F :: c) a n) : F.Allows (c.plug (a.atom n)) := by
  intro hF
  cases c with
  | cons G c => cases G <;> rfl
  | nil =>
    cases a with
    | sym =>
      have hn : n ≠ "Dict" := fun heq => h ⟨hF, rfl, heq⟩
      exact beq_eq_false_iff_ne.mpr hn
    | str => rfl
    | char => rfl

/-- **A whole context.**  In every view, what is written for a leaf in a context is the text at the
leaf between texts that do not depend on it. -/
theorem wraps_plug (a : Leaf) (c : Expr.Context) (v : View) (level : Int) :
    Wraps (c.Admits a) (fun n => v.text width level (c.plug (a.atom n))) id := by
  -- From the outside in: each frame hands its hole another view and another level.
  induction c generalizing v level with
  | nil => exact (wraps_leaf width a v level).comp fun _ _ => trivial
  | cons F c ih =>
    obtain ⟨w, level', hF⟩ := shows_fill width F v level
    have houter : Wraps (Expr.Context.Admits (F :: c) a)
        (fun n => v.text width level (F.fill (Expr.Context.plug c (a.atom n))))
        (fun n => w.text width level' (Expr.Context.plug c (a.atom n))) :=
      hF.comp fun n hn => allows_of_admits hn
    have hinner : Wraps (Expr.Context.Admits (F :: c) a)
        (fun n => w.text width level' (Expr.Context.plug c (a.atom n))) id :=
      (ih w level').comp fun n hn => admits_tail hn
    exact houter.trans hinner

/-- **Every leaf is written once.**  For every tree with a symbol, a string or a character at a
place in it, at every level and with every width, there are a text before and a text after, such
that for every text put at that place the printer has a result, and writes the text between these
two.  Only a symbol in the place of the callee of a call must not become `Dict`, which would make a
mapping of the call. -/
theorem leaf_written_once (width level : Int) (c : Expr.Context) (a : Leaf) :
    ∃ before after : String, ∀ n : String, ¬(c.isCallee = true ∧ a = .sym ∧ n = "Dict") →
      ∃ log : List Warning,
        PlainText.render false width (c.plug (a.atom n)) level =
          .ok (before ++ n ++ after, log) := by
  obtain ⟨before, after, hplug⟩ := wraps_plug width a c (.whole .here) level
  refine ⟨indentation width level ++ before, after, fun n hn => ?_⟩
  have hwritten : written width [.slot (.sub (c.plug (a.atom n)) level)] = before ++ n ++ after :=
    hplug n hn
  refine ⟨warned width [.slot (.sub (c.plug (a.atom n)) level)], ?_⟩
  rw [PlainText.render_lenient, hwritten]
  simp only [String.append_assoc]

/-- The callee of a call is such a leaf, for a name other than `Dict`. -/
theorem callee_written_once :
    ¬(Expr.Context.isCallee [.node (.constant .call) [] [.int 1]] = true ∧ Leaf.sym = .sym ∧
        "f" = "Dict") ∧
      ∃ (before after : String) (log : List Warning),
        PlainText.render false 4 (.node (.constant .call) [.sym "f", .int 1]) 0 =
          .ok (before ++ "f" ++ after, log) := by
  have hname : ¬(Expr.Context.isCallee [.node (.constant .call) [] [.int 1]] = true ∧
      Leaf.sym = .sym ∧ "f" = "Dict") := by decide
  obtain ⟨before, after, hcallee⟩ :=
    leaf_written_once 4 0 [.node (.constant .call) [] [.int 1]] .sym
  obtain ⟨log, hrender⟩ := hcallee "f" hname
  exact ⟨hname, before, after, log, hrender⟩

end ExprPrinter
