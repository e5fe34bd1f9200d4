import ExprPrinter.Fault
import ExprPrinter.Proofs.Document.Units
import ExprPrinter.Proofs.Layout.Parts
import ExprPrinter.Proofs.Rendering

/-!
# Everything visible is highlighted

In a document that the markup printer makes, every unit is one of two sorts.  A
leaf has a text and nothing else.  A structural unit holds other units, and the
texts between them are spaces and line breaks, except for the mark in front of a
quoted or unquoted form.  Outside of all units there is only the indentation of the
first line.

This is so in the layout of every form, by what layouts are made of, and it is kept
when slots are filled: what comes into the place of a subexpression is always one
unit, with nothing loose around it, and what comes into the place of an indentation
is spaces.  So whatever else is visible stands in a leaf, and in one leaf only,
because a leaf has no units inside: `settled_of_mem_readingsIn`.
-/

namespace ExprPrinter

/-- Every category has its path in the table. -/
theorem Category.pathOf_key (c : Category) : pathOf c.key = .ok c.path := by
  rw [pathOf, ofKey?_key]

open Document

variable {α β : Type}

/-! ## The two sorts of units -/

/-- Children without the mark in front of them, if they are those of a unit with the given path. -/
def dropMark (path : String) : List (Document α) → List (Document α)
  | .text s :: ds => if frontMark path = some s then ds else .text s :: ds
  | ds => ds

namespace Labelled

/-- Whether a unit has one text in it and nothing else. -/
def isLeaf (u : Labelled α) : Bool :=
  match u.children with
  | [.text _] => true
  | _ => false

/-- The texts directly below the unit, also through runs, are spacing, apart from its mark. -/
def IsStructural (u : Labelled α) : Prop :=
  ∀ s ∈ looseAll (dropMark u.path u.children), IsSpacing s

/-- A unit whose path is that of a category, and which is of one of the two sorts. -/
structure InShape (u : Labelled α) : Prop where
  known : ∃ key : String, Category.pathOf key = .ok u.path
  sort : u.isLeaf = true ∨ u.IsStructural

/-- A leaf has one text for its only child. -/
theorem isLeaf_iff (u : Labelled α) : u.isLeaf = true ↔ ∃ s, u.children = [.text s] := by
  unfold isLeaf
  split
  · next s hs => exact ⟨fun _ => ⟨s, hs⟩, fun _ => rfl⟩
  · next hne =>
    constructor
    · intro h
      cases h
    · rintro ⟨s, hs⟩
      exact absurd hs (hne s)

end Labelled

/-- Without the mark at its front, the rest of a unit remains. -/
theorem dropMark_suffix (path : String) (ds : List (Document α)) : dropMark path ds <:+ ds := by
  unfold dropMark
  split
  · split
    · exact List.suffix_cons _ _
    · exact List.suffix_refl _
  · exact List.suffix_refl _

/-- A loose text among the children of a unit is its mark, or one of those after the mark. -/
theorem mem_looseAll_dropMark (path : String) {s : String} {ds : List (Document α)}
    (h : s ∈ looseAll ds) : s ∈ looseAll (dropMark path ds) ∨ frontMark path = some s := by
  unfold dropMark
  split
  · next t rest =>
    split
    · next hmark =>
      rcases mem_looseAll.mp h with ⟨d, hd, hs⟩
      rcases List.mem_cons.mp hd with rfl | hrest
      · right
        rw [hmark, List.mem_singleton.mp hs]
      · exact .inl (mem_looseAll.mpr ⟨d, hrest, hs⟩)
    · exact .inl h
  · exact .inl h

/-- Behind the mark of a path come the other children. -/
theorem dropMark_append (path : String) (ds : List (Document α)) :
    dropMark path ((frontMark path).toList.map .text ++ ds) = ds := by
  cases hmark : frontMark path with
  | none =>
    show dropMark path ds = ds
    cases ds with
    | nil => rfl
    | cons d rest =>
      cases d with
      | text s =>
        have hne : frontMark path ≠ some s := by simp [hmark]
        exact if_neg hne
      | _ => rfl
  | some m => simp [dropMark, hmark]

/-- If texts are left as they are, then only the same mark is dropped from changed children. -/
theorem mem_dropMark_map {g : Document α → Document β} (htext : ∀ s, g (.text s) = .text s)
    {path : String} {ds : List (Document α)} {d : Document β}
    (hd : d ∈ dropMark path (ds.map g)) : ∃ e ∈ dropMark path ds, g e = d := by
  have hmem : ∃ e ∈ ds, g e = d := List.mem_map.mp ((dropMark_suffix path _).subset hd)
  cases ds with
  | nil => exact hmem
  | cons e rest =>
    cases e with
    | text s =>
      rw [List.map_cons, htext, dropMark] at hd
      rw [dropMark]
      by_cases hmark : frontMark path = some s
      · rw [if_pos hmark] at hd ⊢
        exact List.mem_map.mp hd
      · rw [if_neg hmark]
        exact hmem
    | tagged p es => exact hmem
    | run es => exact hmem
    | slot a => exact hmem

/-- A unit stays in shape if its children are changed in a way that leaves texts as they are and
makes no texts but spacing. -/
theorem Labelled.InShape.map_children {g : Document α → Document β}
    (htext : ∀ s, g (.text s) = .text s)
    (hloose : ∀ d, ∀ s ∈ (g d).loose, s ∈ d.loose ∨ IsSpacing s) {path : String}
    {ds : List (Document α)} (h : InShape ⟨path, ds⟩) : InShape ⟨path, ds.map g⟩ := by
  refine ⟨h.known, ?_⟩
  rcases h.sort with hleaf | hstructural
  · left
    obtain ⟨s, hs⟩ := (isLeaf_iff _).mp hleaf
    have hds : ds = [.text s] := hs
    rw [hds, List.map_cons, List.map_nil, htext]
    rfl
  · right
    intro s hs
    obtain ⟨d, hd, hsd⟩ := mem_looseAll.mp hs
    obtain ⟨e, he, rfl⟩ := mem_dropMark_map htext hd
    rcases hloose e s hsd with hold | hspacing
    · exact hstructural s (mem_looseAll.mpr ⟨e, he, hold⟩)
    · exact hspacing

/-! ## Layouts -/

namespace Layout

/-- A token is a leaf. -/
theorem inShape_token (c : Category) (s : String) : ∀ u ∈ (token c s).units, u.InShape := by
  intro u hu
  have hunit : u = ⟨c.path, [.text s]⟩ := List.mem_singleton.mp hu
  rw [hunit]
  exact ⟨⟨c.key, c.pathOf_key⟩, .inl rfl⟩

/-- All units of a part are in shape, and its loose texts are spacing. -/
theorem inShape_of_isPart {l : Layout} (h : IsPart l) :
    (∀ u ∈ l.units, u.InShape) ∧ ∀ s ∈ l.loose, IsSpacing s := by
  induction h with
  | token _ s =>
    refine ⟨inShape_token _ s, fun t ht => ?_⟩
    cases ht
  | spacing hs =>
    refine ⟨fun u hu => ?_, fun t ht => ?_⟩
    · cases hu
    · rwa [List.mem_singleton.mp ht]
  | slot s =>
    refine ⟨fun u hu => ?_, fun t ht => ?_⟩
    · cases hu
    · cases ht
  | run _ ih =>
    refine ⟨fun u hu => ?_, fun t ht => ?_⟩
    · obtain ⟨l, hl, hul⟩ := mem_unitsAll.mp hu
      exact (ih l hl).1 u hul
    · obtain ⟨l, hl, htl⟩ := mem_looseAll.mp ht
      exact (ih l hl).2 t htl

/-- The units in the layout of a form are in shape. -/
theorem inShape_layout (f : Form) : ∀ u ∈ f.layout.units, u.InShape := by
  rcases f.layout_cases with ⟨c, s, rfl⟩ | ⟨c, parts, hparts⟩
  · exact inShape_token c s
  · intro u hu
    rw [hparts.layout_eq, unit, units] at hu
    rcases List.mem_cons.mp hu with rfl | hinside
    · refine ⟨⟨c.key, c.pathOf_key⟩, .inr fun s hs => ?_⟩
      rw [dropMark_append] at hs
      obtain ⟨l, hl, hsl⟩ := mem_looseAll.mp hs
      exact (inShape_of_isPart (hparts.areParts l hl)).2 s hsl
    · obtain ⟨l, hl, hul⟩ := mem_unitsAll.mp hinside
      rcases List.mem_append.mp hl with hmark | hpart
      · obtain ⟨m, _, rfl⟩ := List.mem_map.mp hmark
        cases hul
      · exact (inShape_of_isPart (hparts.areParts l hpart)).1 u hul

/-- The layout of a form is one unit. -/
theorem exists_layout_eq_tagged (f : Form) : ∃ path ls, f.layout = .tagged path ls := by
  rcases f.layout_cases with ⟨c, s, rfl⟩ | ⟨c, parts, hparts⟩
  · exact ⟨c.path, [.text s], rfl⟩
  · exact ⟨c.path, _, hparts.layout_eq⟩

/-- Layouts remain in shape at every level. -/
theorem inShape_place (f : Form) (level : Int) : ∀ u ∈ (f.layout.place level).units, u.InShape := by
  intro u hu
  rw [place, units_map] at hu
  obtain ⟨v, hv, rfl⟩ := List.mem_map.mp hu
  have hloose : ∀ (d : Layout) (s : String),
      s ∈ (d.map (Slot.move (Margin.level level))).loose → s ∈ d.loose ∨ IsSpacing s := by
    intro d s hs
    rw [loose_map] at hs
    exact .inl hs
  have hshape := (inShape_layout f v hv).map_children (fun _ => rfl) hloose
  rw [← mapAll_eq_map] at hshape
  exact hshape

end Layout

/-! ## Finished documents -/

namespace Markup

variable (width : Int)

/-- In the place of a subexpression comes one unit, and nothing loose around it. -/
theorem loose_finish_sub (x : Expr) (level : Int) :
    (finish width (.slot (.sub x level))).loose = [] := by
  cases hf : x.form? with
  | none => rw [finish_gap width hf, errorUnit, loose]
  | some f =>
    obtain ⟨path, ls, hlayout⟩ := Layout.exists_layout_eq_tagged f
    rw [finish_form width hf, Layout.place, hlayout, Document.map, finish, loose]

mutual

/-- Where slots are filled, no loose texts come in but spacing. -/
theorem mem_loose_finish :
    ∀ (d : Placed), ∀ s ∈ (finish width d).loose, s ∈ d.loose ∨ IsSpacing s
  | .text t, s, hs => by
    rw [finish] at hs
    exact .inl hs
  | .tagged path ds, s, hs => by
    rw [finish] at hs
    cases hs
  | .run ds, s, hs => by
    rw [finish] at hs
    exact mem_looseAll_finishAll ds s hs
  | .slot (.indent level), s, hs => by
    rw [finish] at hs
    rw [List.mem_singleton.mp hs]
    exact .inr (isSpacing_indentation width level)
  | .slot (.sub x level), s, hs => by
    rw [loose_finish_sub] at hs
    cases hs

/-- Finishing adds spacing only to the loose texts of several documents. -/
theorem mem_looseAll_finishAll :
    ∀ (ds : List Placed), ∀ s ∈ looseAll (finishAll width ds), s ∈ looseAll ds ∨ IsSpacing s
  | [], s, hs => by
    rw [finishAll] at hs
    cases hs
  | d :: ds, s, hs => by
    rw [finishAll, looseAll, List.mem_append] at hs
    rw [looseAll, List.mem_append]
    rcases hs with hfirst | hrest
    · exact (mem_loose_finish d s hfirst).imp_left .inl
    · exact (mem_looseAll_finishAll ds s hrest).imp_left .inr

end

/-- The units of a finished document are in shape, if those of its layout are. -/
theorem inShape_finish (d : Placed) (hd : ∀ u ∈ d.units, u.InShape) :
    ∀ u ∈ (finish width d).units, u.InShape := by
  refine finish.induct
    (fun d => (∀ u ∈ d.units, u.InShape) → ∀ u ∈ (finish width d).units, u.InShape)
    (fun ds => (∀ u ∈ unitsAll ds, u.InShape) → ∀ u ∈ unitsAll (finishAll width ds), u.InShape)
    ?text ?tagged ?run ?indent ?form ?gap ?nil ?cons d hd
  case text =>
    intro s _ u hu
    rw [finish] at hu
    cases hu
  case tagged =>
    intro path ds ih hunits u hu
    rw [units, List.forall_mem_cons] at hunits
    rw [finish, units] at hu
    rcases List.mem_cons.mp hu with rfl | hinside
    · rw [finishAll_eq_map]
      exact hunits.1.map_children (fun s => by rw [finish]) (mem_loose_finish width)
    · exact ih hunits.2 u hinside
  case run =>
    intro ds ih hunits u hu
    rw [finish] at hu
    exact ih hunits u hu
  case indent =>
    intro level _ u hu
    rw [finish] at hu
    cases hu
  case form =>
    intro x level f hf ih _ u hu
    rw [finish_form width hf] at hu
    exact ih (Layout.inShape_place f level) u hu
  case gap =>
    intro x level hf _ u hu
    rw [finish_gap width hf] at hu
    rw [List.mem_singleton.mp hu]
    exact ⟨⟨Category.error.key, Category.error.pathOf_key⟩, .inl rfl⟩
  case nil =>
    intro _ u hu
    rw [finishAll] at hu
    cases hu
  case cons =>
    intro d ds hd hds hunits u hu
    rw [unitsAll, List.forall_mem_append] at hunits
    rw [finishAll, unitsAll] at hu
    rcases List.mem_append.mp hu with hfirst | hrest
    · exact hd hunits.1 u hfirst
    · exact hds hunits.2 u hrest

/-- All units of the finished document of an expression are in shape. -/
theorem inShape_finished (level : Int) (x : Expr) :
    ∀ u ∈ (finished width level x).units, u.InShape := by
  apply inShape_finish
  intro u hu
  cases hu

/-- Indentation adds no units. -/
theorem units_indented (level : Int) (d : Markup) : (indented width level d).units = d.units := by
  rw [indented]
  by_cases hempty : (indentation width level).isEmpty = true
  · rw [if_pos hempty]
  · rw [if_neg hempty]
    simp [units, unitsAll]

/-- Outside of all units of a document there is only the indentation in front of it. -/
theorem loose_rendered (level : Int) (x : Expr) :
    (indented width level (finished width level x)).loose = [] ∨
      indented width level (finished width level x) =
          .run [.text (indentation width level), finished width level x] ∧
        (finished width level x).loose = [] := by
  have hfinished : (finished width level x).loose = [] := loose_finish_sub width x level
  rw [indented]
  by_cases hempty : (indentation width level).isEmpty = true
  · rw [if_pos hempty]
    exact .inl hfinished
  · rw [if_neg hempty]
    exact .inr ⟨rfl, hfinished⟩

end Markup

/-! ## Texts and the leaves around them -/

/-- A text that stands in exactly one leaf, or in no leaf and then is spacing or the mark of the
innermost unit around it. -/
def Reading.Settled (r : Reading α) : Prop :=
  r.around.countP Labelled.isLeaf = 1 ∨
    r.around.countP Labelled.isLeaf = 0 ∧
      (IsSpacing r.text ∨ ∃ u outer, r.around = u :: outer ∧ frontMark u.path = some r.text)

mutual

/-- In a document whose units are in shape, inside of units that are no leaves, every text is settled
unless it is loose. -/
theorem settled_of_mem_readingsIn :
    ∀ (d : Document α) (around : List (Labelled α)), (∀ u ∈ d.units, u.InShape) →
      around.countP Labelled.isLeaf = 0 → ∀ r ∈ d.readingsIn around,
        (r.around = around ∧ r.text ∈ d.loose) ∨ r.Settled
  | .text s, around, _, _, r, hr => by
    rw [List.mem_singleton.mp hr]
    exact .inl ⟨rfl, List.mem_singleton_self s⟩
  | .tagged path ds, around, hunits, hnone, r, hr => by
    right
    rw [units, List.forall_mem_cons] at hunits
    rw [readingsIn] at hr
    by_cases hleaf : Labelled.isLeaf ⟨path, ds⟩ = true
    · obtain ⟨s, hs⟩ := (Labelled.isLeaf_iff _).mp hleaf
      have hds : ds = [.text s] := hs
      subst hds
      rw [List.mem_singleton.mp hr]
      left
      rw [List.countP_cons_of_pos hleaf, hnone]
    · have hstill : (⟨path, ds⟩ :: around).countP Labelled.isLeaf = 0 := by
        rw [List.countP_cons_of_neg hleaf, hnone]
      have hstructural := hunits.1.sort.resolve_left hleaf
      rcases settled_of_mem_readingsInAll ds _ hunits.2 hstill r hr with ⟨haround, hloose⟩ | hsettled
      · right
        rw [haround]
        refine ⟨hstill, ?_⟩
        rcases mem_looseAll_dropMark path hloose with hafter | hmark
        · exact .inl (hstructural r.text hafter)
        · exact .inr ⟨_, around, rfl, hmark⟩
      · exact hsettled
  | .run ds, around, hunits, hnone, r, hr => by
    rw [readingsIn] at hr
    exact settled_of_mem_readingsInAll ds around hunits hnone r hr
  | .slot a, around, _, _, r, hr => by
    cases hr

/-- The same for several documents. -/
theorem settled_of_mem_readingsInAll :
    ∀ (ds : List (Document α)) (around : List (Labelled α)), (∀ u ∈ unitsAll ds, u.InShape) →
      around.countP Labelled.isLeaf = 0 → ∀ r ∈ readingsInAll around ds,
        (r.around = around ∧ r.text ∈ looseAll ds) ∨ r.Settled
  | [], around, _, _, r, hr => by
    cases hr
  | d :: ds, around, hunits, hnone, r, hr => by
    rw [unitsAll, List.forall_mem_append] at hunits
    rw [looseAll, List.mem_append]
    rcases List.mem_append.mp hr with hfirst | hrest
    · exact (settled_of_mem_readingsIn d around hunits.1 hnone r hfirst).imp_left
        fun h => ⟨h.1, .inl h.2⟩
    · exact (settled_of_mem_readingsInAll ds around hunits.2 hnone r hrest).imp_left
        fun h => ⟨h.1, .inr h.2⟩

end

/-- Every text of a document is settled, if its units are in shape and its loose texts are
spacing. -/
theorem settled_of_mem_readings {d : Document α} (hunits : ∀ u ∈ d.units, u.InShape)
    (hloose : ∀ s ∈ d.loose, IsSpacing s) : ∀ r ∈ d.readings, r.Settled := by
  intro r hr
  rcases settled_of_mem_readingsIn d [] hunits rfl r hr with ⟨haround, htext⟩ | hsettled
  · right
    rw [haround]
    exact ⟨rfl, .inl (hloose r.text htext)⟩
  · exact hsettled

/-- **Everything visible is highlighted.**  For every expression, at every level and with every width,
the markup printer has a document.  Each unit in it has the path of a category, and is a leaf, with
one text in it and nothing else, or a structural unit, in which the texts directly below it, also
through runs, are spaces and line breaks, apart from a colon at the front of a quoted form and a
dollar sign at the front of an unquoted one.  Outside of all units there is at most the indentation
at the front of a run.  The texts of the document, in reading order, make up what is visible, and
each of them stands in exactly one leaf, or in none, and then it is spacing or such a mark. -/
theorem visible_text_in_leaves (width level : Int) (x : Expr) :
    ∃ (d : Markup) (log : List Warning),
      Markup.render false width x level = .ok (d, log) ∧
      (∀ u ∈ d.units, (∃ key : String, Category.pathOf key = .ok u.path) ∧
        (u.isLeaf = true ∨ u.IsStructural)) ∧
      (d.loose = [] ∨
        ∃ e : Markup, d = .run [.text (indentation width level), e] ∧ e.loose = []) ∧
      d.visible = String.join (d.readings.map Reading.text) ∧
      ∀ r ∈ d.readings,
        r.around.countP Labelled.isLeaf = 1 ∨
          r.around.countP Labelled.isLeaf = 0 ∧
            (IsSpacing r.text ∨
              ∃ u outer, r.around = u :: outer ∧ frontMark u.path = some r.text) := by
  have hunits : ∀ u ∈ (Markup.indented width level (Markup.finished width level x)).units,
      u.InShape := by
    rw [Markup.units_indented]
    exact Markup.inShape_finished width level x
  have houtside := Markup.loose_rendered width level x
  have hloose : ∀ s ∈ (Markup.indented width level (Markup.finished width level x)).loose,
      IsSpacing s := by
    intro s hs
    rcases houtside with hnone | ⟨hrun, hinside⟩
    · rw [hnone] at hs
      cases hs
    · simp only [hrun, loose, looseAll, hinside, List.append_nil, List.mem_singleton] at hs
      rw [hs]
      exact isSpacing_indentation width level
  refine ⟨_, _, Markup.render_lenient width level x, fun u hu => ?_, ?_,
    visible_eq_readings _, settled_of_mem_readings hunits hloose⟩
  · exact ⟨(hunits u hu).known, (hunits u hu).sort⟩
  · exact houtside.imp_right fun h => ⟨_, h.1, h.2⟩

end ExprPrinter
