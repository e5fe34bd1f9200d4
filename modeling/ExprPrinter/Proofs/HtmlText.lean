import ExprPrinter.Proofs.Document.Paths
import ExprPrinter.Proofs.Document.Tags
import ExprPrinter.Proofs.ModeConsistency

/-!
# The text that HTML carries

Markup is read back by deleting its tags and then decoding its entities.  What
a reader gets from the markup of an expression is its plain text.

The markup of a document is read from left to right, one part after the other.
Its tags go because no path of a category has a greater sign, and what stands
between them stays as long as it has no less sign.  Escaped text has none, and
other text has none if the visible text of the document has none.
-/

namespace ExprPrinter

namespace Text

/-- A text as it stands in markup, escaped or not. -/
def spelling (escaped : Bool) (s : String) : String :=
  if escaped then escape s else s

/-- Nothing is spelled as nothing. -/
theorem spelling_empty (escaped : Bool) : spelling escaped "" = "" := by
  cases escaped <;> rfl

/-- Escaped text is spelled with entities. -/
theorem spelling_true (s : String) : spelling true s = escape s := rfl

/-- Text that is not escaped is spelled as it is. -/
theorem spelling_false (s : String) : spelling false s = s := rfl

/-- Texts may be spelled part by part. -/
theorem spelling_append (escaped : Bool) (s t : String) :
    spelling escaped (s ++ t) = spelling escaped s ++ spelling escaped t := by
  cases escaped with
  | false => rfl
  | true => exact escape_append s t

end Text

namespace Document

open Text

variable {α : Type} (escaped : Bool)

/-- A unit that leaves no element shows nothing. -/
theorem join_visible_of_blank {ds : List (Document α)} (h : blank ds = true) :
    String.join (ds.map visible) = "" := by
  rw [blank_iff] at h
  induction ds with
  | nil => rfl
  | cons d ds ih =>
    have hrest := ih fun e he => h e (List.mem_cons_of_mem _ he)
    rw [List.map_cons, String.join_cons, h d List.mem_cons_self, visible_text, hrest,
      String.empty_append]

/-- No path of the document has a greater sign. -/
abbrev Readable (d : Document α) : Prop :=
  EveryPath (fun path => '>' ∉ path.toList) d

/-- No path of the documents has a greater sign. -/
abbrev ReadableAll (ds : List (Document α)) : Prop :=
  EveryPathAll (fun path => '>' ∉ path.toList) ds

mutual

/-- Without its tags, the markup of a document is its visible text, if that has no less sign as it
stands in markup. -/
theorem strip_html (rest : List Char) :
    ∀ d : Document α, Readable d → '<' ∉ (spelling escaped d.visible).toList →
      strip ((d.html escaped).toList ++ rest) =
        (spelling escaped d.visible).toList ++ strip rest
  | text s => by
    intro _ hlt
    rw [visible_text] at hlt ⊢
    rw [html_text, ← spelling]
    exact strip_text hlt rest
  | tagged path ds => by
    intro hd hlt
    rw [Readable, EveryPath] at hd
    rw [visible_tagged] at hlt ⊢
    rw [html_tagged]
    by_cases hblank : blank ds = true
    · rw [if_pos hblank, join_visible_of_blank hblank, spelling_empty]
      rfl
    · rw [if_neg hblank, String.toList_append, String.toList_append, List.append_assoc,
        List.append_assoc, TagPath.strip_opening hd.1]
      rw [strip_join_html _ ds hd.2 hlt, TagPath.strip_closing hd.1]
  | run ds => by
    intro hd hlt
    rw [Readable, EveryPath] at hd
    rw [visible_run] at hlt ⊢
    rw [html_run]
    exact strip_join_html rest ds hd hlt
  | slot a => by
    intro _ _
    rw [html_slot, visible_slot, spelling_empty]
    rfl

/-- The same for several documents. -/
theorem strip_join_html (rest : List Char) :
    ∀ ds : List (Document α), ReadableAll ds →
      '<' ∉ (spelling escaped (String.join (ds.map visible))).toList →
      strip ((String.join (ds.map (html escaped))).toList ++ rest) =
        (spelling escaped (String.join (ds.map visible))).toList ++ strip rest
  | [] => by
    intro _ _
    rw [List.map_nil, List.map_nil, String.join_nil, spelling_empty]
    rfl
  | d :: ds => by
    intro hds hlt
    rw [ReadableAll, EveryPathAll] at hds
    simp only [List.map_cons, String.join_cons, spelling_append, String.toList_append] at hlt ⊢
    rw [List.mem_append, not_or] at hlt
    rw [List.append_assoc, List.append_assoc]
    rw [strip_html _ d hds.1 hlt.1, strip_join_html rest ds hds.2 hlt.2]

end

/-- Deleting the tags leaves the visible text, as it stands in markup. -/
theorem stripTags_html {d : Document α} (hd : Readable d)
    (hlt : '<' ∉ (spelling escaped d.visible).toList) :
    stripTags (d.html escaped) = spelling escaped d.visible := by
  have hstrip := strip_html escaped [] d hd hlt
  rw [List.append_nil] at hstrip
  rw [stripTags, hstrip, strip, List.append_nil, String.ofList_toList]

end Document

namespace Markup

open Document

variable (width level : Int) (x : Expr)

/-- No path of what the markup printer puts out has a greater sign. -/
theorem readable_indented : Readable (indented width level (finished width level x)) := by
  apply everyPath_indented
  apply everyPath_mono _ _ (everyPath_finished width level x)
  rintro path ⟨c, rfl⟩
  exact c.not_mem_path

end Markup

/-- **HTML carries the plain text.**  For every expression, at every level and with every width,
the plain text is what remains of the escaped markup when its tags are deleted and its entities
decoded.  If the text has no less sign, it is also what remains of the markup that is not escaped
when its tags are deleted. -/
theorem text_of_html (width level : Int) (x : Expr) :
    ∃ (s escaped plain : String) (textLog log : List Warning),
      PlainText.render false width x level = .ok (s, textLog) ∧
      Renderer.render ⟨.html, width, false, true⟩ x level = .ok (.text escaped, log) ∧
      Renderer.render ⟨.html, width, false, false⟩ x level = .ok (.text plain, log) ∧
      Text.unescape (Text.stripTags escaped) = s ∧
      ('<' ∉ s.toList → Text.stripTags plain = s) := by
  have hreadable := Markup.readable_indented width level x
  have hvisible := Markup.visible_rendered width level x
  refine ⟨_, _, _, _, _, PlainText.render_lenient width level x,
    Renderer.render_html_lenient width level x true,
    Renderer.render_html_lenient width level x false, ?_, ?_⟩
  · have hescaped := Document.stripTags_html true hreadable
    rw [Text.spelling_true, hvisible] at hescaped
    rw [hescaped (Text.not_mem_escape _), Text.unescape_escape]
  · have hplain := Document.stripTags_html false hreadable
    rw [Text.spelling_false, hvisible] at hplain
    exact hplain

/-- An assignment with a character that would be escaped is read back from markup that is not: the
units of its operands are in the unit of the assignment. -/
theorem text_of_plain_html :
    '<' ∉ "a&b = (c,d)".toList ∧
      ∃ (plain : String) (log : List Warning),
        Renderer.render ⟨.html, 4, false, false⟩
          (.node (.spelled "=") [.sym "a&b", .tuple [.sym "c", .sym "d"]]) 0 =
            .ok (.text plain, log) ∧
        Text.stripTags plain = "a&b = (c,d)" := by
  have hlt : '<' ∉ "a&b = (c,d)".toList := by decide
  obtain ⟨s, _, plain, _, log, htext, _, hplain, _, hread⟩ :=
    text_of_html 4 0 (.node (.spelled "=") [.sym "a&b", .tuple [.sym "c", .sym "d"]])
  have hs : s = "a&b = (c,d)" := by
    have hform : (Expr.node (.spelled "=") [.sym "a&b", .tuple [.sym "c", .sym "d"]]).form? =
        some (.assignment (.sym "a&b") (.tuple [.sym "c", .sym "d"])) := rfl
    have hsym (name : String) (rest : Agenda) :
        PlainText.written 4 (.slot (.sub (.sym name) 0) :: rest) =
          name ++ PlainText.written 4 rest := by
      rw [PlainText.written_cons, PlainText.written_leaf 4 (x := .sym name) rfl]
    have htuple : PlainText.written 4 [.slot (.sub (.tuple [.sym "c", .sym "d"]) 0)] = "(c,d)" := by
      rw [PlainText.written_form 4 (f := .tuple [.sym "c", .sym "d"]) rfl]
      show PlainText.written 4 [.text "(", .slot (.sub (.sym "c") 0), .text ",",
        .slot (.sub (.sym "d") 0), .text ")"] = _
      simp [hsym]
    have hwritten : PlainText.written 4
        [.slot (.sub (.node (.spelled "=") [.sym "a&b", .tuple [.sym "c", .sym "d"]]) 0)] =
          "a&b = (c,d)" := by
      rw [PlainText.written_form 4 hform]
      show PlainText.written 4 [.slot (.sub (.sym "a&b") 0), .text " = ",
        .slot (.sub (.tuple [.sym "c", .sym "d"]) 0)] = _
      simp [hsym, htuple]
    rw [PlainText.render_lenient, hwritten] at htext
    exact (congrArg Prod.fst (Except.ok.inj htext)).symm
  rw [hs] at hread
  exact ⟨hlt, plain, log, hplain, hread hlt⟩

end ExprPrinter
