import ExprPrinter.Document.Html
import ExprPrinter.Document.Visible

/-!
# Reading documents part by part

The visible text and the markup of a document are written by walks that keep a
list of what is still to come.  Here they are given by equations, one for each
sort of document: a run is its children one after the other, and so is a unit,
with the tags of its element around them unless it is left out.

The equations rest on what a walk makes of a list: it adds, for each item in
turn, what it would make of that item alone.  For markup the list may mix
documents and the closing tags of elements begun before, so that an element is
closed right after its last child, whatever comes behind it.
-/

namespace ExprPrinter.Document

variable {α : Type}

/-! ## Visible text -/

/-- The walk adds to what is there what it makes of its list by itself. -/
theorem appendVisible_out (ds : List (Document α)) (out : String) :
    appendVisible ds out = out ++ appendVisible ds "" := by
  -- The induction goes along one run of the walk; the statement is for any other start.
  have general : ∀ _ out : String, appendVisible ds out = out ++ appendVisible ds "" := by
    intro u
    induction ds, u using appendVisible.induct with
    | case1 u =>
      intro out
      rw [appendVisible, appendVisible, String.append_empty]
    | case2 s rest u ih =>
      intro out
      rw [appendVisible, appendVisible, ih (out ++ s), ih ("" ++ s), String.empty_append,
        String.append_assoc]
    | case3 path ds rest u ih =>
      intro out
      rw [appendVisible, appendVisible, ih out]
    | case4 ds rest u ih =>
      intro out
      rw [appendVisible, appendVisible, ih out]
    | case5 a rest u ih =>
      intro out
      rw [appendVisible, appendVisible, ih out]
  exact general "" out

/-- Visible text may be appended part by part. -/
theorem appendVisible_append (ds es : List (Document α)) (out : String) :
    appendVisible (ds ++ es) out = appendVisible es (appendVisible ds out) := by
  induction ds, out using appendVisible.induct with
  | case1 out => rw [List.nil_append, appendVisible]
  | case2 s rest out ih => rw [List.cons_append, appendVisible, appendVisible, ih]
  | case3 path ds rest out ih =>
    rw [List.append_assoc] at ih
    rw [List.cons_append, appendVisible, appendVisible, ih]
  | case4 ds rest out ih =>
    rw [List.append_assoc] at ih
    rw [List.cons_append, appendVisible, appendVisible, ih]
  | case5 a rest out ih => rw [List.cons_append, appendVisible, appendVisible, ih]

/-- The walk adds the visible text of each document to what is there. -/
theorem appendVisible_eq_join (ds : List (Document α)) (out : String) :
    appendVisible ds out = out ++ String.join (ds.map visible) := by
  induction ds generalizing out with
  | nil => rw [appendVisible, List.map_nil, String.join_nil, String.append_empty]
  | cons d ds ih =>
    have hsplit := appendVisible_append [d] ds out
    rw [List.singleton_append] at hsplit
    rw [hsplit, ih, appendVisible_out [d], ← visible, List.map_cons, String.join_cons,
      String.append_assoc]

@[simp] theorem visible_text (s : String) : (text s : Document α).visible = s := by
  rw [visible, appendVisible, appendVisible, String.empty_append]

@[simp] theorem visible_slot (a : α) : (slot a).visible = "" := by
  rw [visible, appendVisible, appendVisible]

@[simp] theorem visible_run (ds : List (Document α)) :
    (run ds).visible = String.join (ds.map visible) := by
  rw [visible, appendVisible, List.append_nil, appendVisible_eq_join, String.empty_append]

@[simp] theorem visible_tagged (path : String) (ds : List (Document α)) :
    (tagged path ds).visible = String.join (ds.map visible) := by
  rw [visible, appendVisible, List.append_nil, appendVisible_eq_join, String.empty_append]

/-! ## Markup -/

variable (escaped : Bool)

/-- The walk adds to what is there what it makes of its list by itself. -/
theorem appendHtml_out (pending : List (Pending α)) (out : String) :
    appendHtml escaped pending out = out ++ appendHtml escaped pending "" := by
  have general : ∀ _ out : String,
      appendHtml escaped pending out = out ++ appendHtml escaped pending "" := by
    intro u
    induction pending, u using appendHtml.induct escaped with
    | case1 u =>
      intro out
      rw [appendHtml, appendHtml, String.append_empty]
    | case2 name rest u ih =>
      intro out
      rw [appendHtml, appendHtml, ih (out ++ _), ih ("" ++ _), String.empty_append,
        String.append_assoc]
    | case3 s rest u ih =>
      intro out
      rw [appendHtml, appendHtml, ih (out ++ _), ih ("" ++ _), String.empty_append,
        String.append_assoc]
    | case4 a rest u ih =>
      intro out
      rw [appendHtml, appendHtml, ih out]
    | case5 ds rest u ih =>
      intro out
      rw [appendHtml, appendHtml, ih out]
    | case6 path ds rest u hblank ih =>
      intro out
      rw [appendHtml, appendHtml, if_pos hblank, if_pos hblank, ih out]
    | case7 path ds rest u hblank tag ih =>
      intro out
      rw [appendHtml, appendHtml, if_neg hblank, if_neg hblank]
      rw [ih (out ++ tag.opening), ih ("" ++ tag.opening), String.empty_append,
        String.append_assoc]
  exact general "" out

/-- So may markup. -/
theorem appendHtml_append (first second : List (Pending α)) (out : String) :
    appendHtml escaped (first ++ second) out =
      appendHtml escaped second (appendHtml escaped first out) := by
  induction first, out using appendHtml.induct escaped with
  | case1 out => rw [List.nil_append, appendHtml]
  | case2 name rest out ih => rw [List.cons_append, appendHtml, appendHtml, ih]
  | case3 s rest out ih =>
    rw [List.cons_append, appendHtml, appendHtml]
    exact ih
  | case4 a rest out ih => rw [List.cons_append, appendHtml, appendHtml, ih]
  | case5 ds rest out ih =>
    rw [List.append_assoc] at ih
    rw [List.cons_append, appendHtml, appendHtml, ih]
  | case6 path ds rest out hblank ih =>
    rw [List.cons_append, appendHtml, appendHtml, if_pos hblank, if_pos hblank, ih]
  | case7 path ds rest out hblank tag ih =>
    rw [List.append_assoc, List.cons_append] at ih
    rw [List.cons_append, appendHtml, appendHtml, if_neg hblank, if_neg hblank]
    exact ih

/-- The markup of an item by itself. -/
def Pending.markup : Pending α → String
  | .doc d => d.html escaped
  | .close name => TagPath.closing name

/-- Documents that are pending are written as documents. -/
theorem map_markup_docs (ds : List (Document α)) :
    (pendingDocs ds).map (Pending.markup escaped) = ds.map (html escaped) := by
  rw [pendingDocs, List.map_map]
  rfl

/-- The walk adds the markup of each item to what is there, be it a document or a closing tag. -/
theorem appendHtml_eq_join (pending : List (Pending α)) (out : String) :
    appendHtml escaped pending out =
      out ++ String.join (pending.map (Pending.markup escaped)) := by
  induction pending generalizing out with
  | nil => rw [appendHtml, List.map_nil, String.join_nil, String.append_empty]
  | cons item rest ih =>
    have hitem : appendHtml escaped [item] out = out ++ item.markup escaped := by
      cases item with
      | doc d => rw [appendHtml_out, Pending.markup, html]
      | close name => rw [appendHtml, appendHtml, Pending.markup]
    have hsplit := appendHtml_append escaped [item] rest out
    rw [List.singleton_append] at hsplit
    rw [hsplit, ih, hitem, List.map_cons, String.join_cons, String.append_assoc]

@[simp] theorem html_text (s : String) :
    (text s : Document α).html escaped = if escaped then Text.escape s else s := by
  rw [html, appendHtml, appendHtml, String.empty_append]

@[simp] theorem html_slot (a : α) : (slot a).html escaped = "" := by
  rw [html, appendHtml, appendHtml]

@[simp] theorem html_run (ds : List (Document α)) :
    (run ds).html escaped = String.join (ds.map (html escaped)) := by
  rw [html, appendHtml, List.append_nil, appendHtml_eq_join, map_markup_docs,
    String.empty_append]

/-- The markup of a unit, which is left out if it has nothing but empty texts. -/
theorem html_tagged (path : String) (ds : List (Document α)) :
    (tagged path ds).html escaped =
      if blank ds then ""
      else (TagPath.parse path).opening ++ String.join (ds.map (html escaped)) ++
        TagPath.closing (TagPath.parse path).name := by
  rw [html, appendHtml]
  by_cases hblank : blank ds = true
  · rw [if_pos hblank, if_pos hblank, appendHtml]
  · rw [if_neg hblank, if_neg hblank]
    simp only [String.empty_append]
    rw [appendHtml_eq_join, List.map_append, map_markup_docs, List.map_cons, List.map_nil,
      Pending.markup, String.join_append, String.join_cons, String.join_nil, String.append_empty,
      String.append_assoc]

/-! ## By parts -/

/-- Only the empty text is an empty text. -/
theorem isEmptyText_iff {d : Document α} : d.isEmptyText = true ↔ d = text "" := by
  cases d <;> simp [isEmptyText]

/-- Documents are blank if all of them are empty texts. -/
theorem blank_iff {ds : List (Document α)} : blank ds = true ↔ ∀ d ∈ ds, d = text "" := by
  simp only [blank, List.all_eq_true, isEmptyText_iff]

/-- Two ways to write documents agree if they agree on every document on whose children they
agree. -/
theorem eq_of_parts {F G : Document α → String} (htext : ∀ s, F (text s) = G (text s))
    (htagged : ∀ path ds, ds.map F = ds.map G → F (tagged path ds) = G (tagged path ds))
    (hrun : ∀ ds, ds.map F = ds.map G → F (run ds) = G (run ds))
    (hslot : ∀ a, F (slot a) = G (slot a)) : F = G := by
  funext d
  refine @Document.rec α (fun d => F d = G d) (fun ds => ds.map F = ds.map G)
    htext htagged hrun hslot rfl ?cons d
  intro d ds hd hds
  rw [List.map_cons, hd, hds, List.map_cons]

/-- A way to write markup that goes by parts.  A unit of empty texts is left out, and every other
unit is the element that its path names around its children, closed by the name it is opened with. -/
structure WrittenByParts (F : Document α → String) : Prop where
  text (s : String) : F (.text s) = if escaped then Text.escape s else s
  slot (a : α) : F (.slot a) = ""
  run (ds : List (Document α)) : F (.run ds) = String.join (ds.map F)
  leftOut (path : String) (ds : List (Document α)) (h : ∀ d ∈ ds, d = .text "") :
    F (.tagged path ds) = ""
  element (path : String) (ds : List (Document α)) (h : ∃ d ∈ ds, d ≠ .text "") :
    F (.tagged path ds) = (TagPath.parse path).opening ++ String.join (ds.map F) ++
      TagPath.closing (TagPath.parse path).name

/-- A way to read texts that goes by parts and does not tell units from runs. -/
structure ReadByParts (F : Document α → String) : Prop where
  text (s : String) : F (.text s) = s
  slot (a : α) : F (.slot a) = ""
  run (ds : List (Document α)) : F (.run ds) = String.join (ds.map F)
  tagged (path : String) (ds : List (Document α)) : F (.tagged path ds) = String.join (ds.map F)

/-- Markup is written by parts. -/
theorem writtenByParts_html : WrittenByParts escaped (html escaped : Document α → String) where
  text s := html_text escaped s
  slot a := html_slot escaped a
  run ds := html_run escaped ds
  leftOut path ds h := by rw [html_tagged, if_pos (blank_iff.mpr h)]
  element path ds h := by
    have hblank : ¬ blank ds = true := by
      rw [blank_iff]
      obtain ⟨d, hd, hne⟩ := h
      exact fun hall => hne (hall d hd)
    rw [html_tagged, if_neg hblank]

/-- Visible text is read by parts. -/
theorem readByParts_visible : ReadByParts (visible : Document α → String) where
  text := visible_text
  slot := visible_slot
  run := visible_run
  tagged := visible_tagged

/-- There is only one way to write markup by parts. -/
theorem WrittenByParts.eq_html {F : Document α → String} (hF : WrittenByParts escaped F) :
    F = html escaped := by
  have hhtml : WrittenByParts escaped (html escaped : Document α → String) :=
    writtenByParts_html escaped
  apply eq_of_parts
  case htext =>
    intro s
    rw [hF.text, hhtml.text]
  case htagged =>
    intro path ds ih
    by_cases h : ∀ d ∈ ds, d = .text ""
    · rw [hF.leftOut path ds h, hhtml.leftOut path ds h]
    · have hchild : ∃ d ∈ ds, d ≠ .text "" := by
        simpa only [Classical.not_forall, exists_prop] using h
      rw [hF.element path ds hchild, hhtml.element path ds hchild, ih]
  case hrun =>
    intro ds ih
    rw [hF.run, hhtml.run, ih]
  case hslot =>
    intro a
    rw [hF.slot, hhtml.slot]

/-- There is only one way to read visible text by parts. -/
theorem ReadByParts.eq_visible {F : Document α → String} (hF : ReadByParts F) : F = visible := by
  apply eq_of_parts
  case htext =>
    intro s
    rw [hF.text, visible_text]
  case htagged =>
    intro path ds ih
    rw [hF.tagged, visible_tagged, ih]
  case hrun =>
    intro ds ih
    rw [hF.run, visible_run, ih]
  case hslot =>
    intro a
    rw [hF.slot, visible_slot]

/-- What is interposed is written between any two of the others. -/
theorem join_map_interpose {β : Type} (f : β → String) (separator items : List β) :
    String.join ((interpose separator items).map f) =
      (String.join (separator.map f)).intercalate (items.map f) := by
  fun_induction interpose separator items with
  | case1 => rw [List.map_nil, String.join_nil, String.intercalate_nil]
  | case2 x =>
    rw [List.map_cons, List.map_nil, String.join_cons, String.join_nil, String.append_empty,
      String.intercalate_singleton]
  | case3 x y rest ih =>
    rw [List.map_cons, List.map_append, String.join_cons, String.join_append, ih,
      ← String.append_assoc]
    simp only [List.map_cons, String.intercalate_cons_cons]

/-- **The walks go by parts.**  Whatever is still to be written, documents and closing tags in any
order, the walk adds the markup of each item by itself to what is there.  So markup is written by
parts, and there is only one way to do that.  The same holds for the walk over visible text, and
documents with a separator between them show their texts joined by the text of the separator. -/
theorem walks_go_by_parts :
    (∀ (pending : List (Pending α)) (out : String),
      appendHtml escaped pending out =
        out ++ String.join (pending.map (Pending.markup escaped))) ∧
    WrittenByParts escaped (html escaped : Document α → String) ∧
    (∀ F : Document α → String, WrittenByParts escaped F → F = html escaped) ∧
    (∀ (ds : List (Document α)) (out : String),
      appendVisible ds out = out ++ String.join (ds.map visible)) ∧
    ReadByParts (visible : Document α → String) ∧
    (∀ F : Document α → String, ReadByParts F → F = visible) ∧
    ∀ separator items : List (Document α),
      (run (interpose separator items)).visible =
        (run separator).visible.intercalate (items.map visible) := by
  refine ⟨appendHtml_eq_join escaped, writtenByParts_html escaped, fun F hF => hF.eq_html,
    appendVisible_eq_join, readByParts_visible, fun F hF => hF.eq_visible, ?_⟩
  intro separator items
  rw [visible_run, visible_run]
  exact join_map_interpose visible separator items

/-- A unit around a unit of empty texts leaves an element with nothing in it. -/
theorem element_around_left_out_unit :
    (∃ d ∈ [tagged "b" [text ""]], d ≠ (text "" : Document Unit)) ∧
    (∀ d ∈ [text ""], d = (text "" : Document Unit)) ∧
      (tagged "i" [tagged "b" [text ""]] : Document Unit).html false = "<i></i>" := by
  have hunit : ∃ d ∈ [tagged "b" [text ""]], d ≠ (text "" : Document Unit) := by simp
  have hempty : ∀ d ∈ [text ""], d = (text "" : Document Unit) := by simp
  have hhtml : WrittenByParts false (html false : Document Unit → String) :=
    (walks_go_by_parts false).2.1
  refine ⟨hunit, hempty, ?_⟩
  rw [hhtml.element "i" _ hunit, List.map_cons, List.map_nil, hhtml.leftOut "b" _ hempty]
  decide

end ExprPrinter.Document
