import ExprPrinter.Proofs.Document.Composition
import ExprPrinter.Proofs.Document.Paths
import ExprPrinter.Proofs.Document.PlainTags

/-!
# The normal form of a document

Different documents can have the same markup: a run leaves no trace, nor does
an empty text or a unit that has nothing but empty texts, and two texts next to
each other are written as one.  The normal form of a document is what remains
when all this is undone.

Markup is written from the normal form alone: `toList_html`.  In the other
direction it can be read, because texts are not empty and have an element
between them, and because a text, a tag that opens an element and a tag that
closes one begin differently: `markupAll_inj`.
-/

namespace ExprPrinter

/-- A document in normal form is a list of texts and elements. -/
inductive Normal where
  | text (s : String)
  | element (tag : TagPath) (children : List Normal)

namespace Normal

/-- An item before others, joined to the first of them if both are texts. -/
def join : Normal → List Normal → List Normal
  | text s, text t :: rest => text (s ++ t) :: rest
  | n, ns => n :: ns

/-- Items with all texts joined that stand next to each other. -/
def merge (ns : List Normal) : List Normal :=
  ns.foldr join []

mutual

/-- The escaped markup of an item. -/
def markup : Normal → List Char
  | text s => (Text.escape s).toList
  | element tag ns => tag.opening.toList ++ markupAll ns ++ (TagPath.closing tag.name).toList

/-- The escaped markup of several items. -/
def markupAll : List Normal → List Char
  | [] => []
  | n :: ns => markup n ++ markupAll ns

end

/-- The markup of normal forms goes one after the other. -/
theorem markupAll_append (ns ms : List Normal) :
    markupAll (ns ++ ms) = markupAll ns ++ markupAll ms := by
  induction ns with
  | nil => rfl
  | cons n ns ih => rw [List.cons_append, markupAll, markupAll, ih, List.append_assoc]

/-- A text is written escaped, in front of the rest. -/
theorem markupAll_text (s : String) (ns : List Normal) (rest : List Char) :
    markupAll (text s :: ns) ++ rest = (Text.escape s).toList ++ (markupAll ns ++ rest) := by
  rw [markupAll, markup, List.append_assoc]

/-- An element is written between its tags, in front of the rest. -/
theorem markupAll_element (tag : TagPath) (cs ns : List Normal) (rest : List Char) :
    markupAll (element tag cs :: ns) ++ rest =
      tag.opening.toList ++ (markupAll cs ++ ((TagPath.closing tag.name).toList ++
        (markupAll ns ++ rest))) := by
  rw [markupAll, markup]
  simp only [List.append_assoc]

/-- It makes no difference to the markup whether two texts are joined. -/
theorem markupAll_join (n : Normal) (ns : List Normal) :
    markupAll (join n ns) = markup n ++ markupAll ns := by
  unfold join
  split
  · simp [markupAll, markup, Text.escape_append]
  · rw [markupAll]

/-- Texts next to each other are written as one. -/
theorem markupAll_merge (ns : List Normal) : markupAll (merge ns) = markupAll ns := by
  induction ns with
  | nil => rfl
  | cons n ns ih =>
    have hcons : merge (n :: ns) = join n (merge ns) := rfl
    rw [hcons, markupAll_join, ih, markupAll]

end Normal

namespace Document

open ExprPrinter.Normal

variable {α : Type}

mutual

/-- The texts and elements of a document, from left to right.  Runs are dissolved, and empty texts
and units that have nothing but empty texts are left out. -/
def items : Document α → List Normal
  | text s => if s.isEmpty then [] else [.text s]
  | tagged path ds =>
    if blank ds then [] else [.element (TagPath.parse path) (merge (itemsAll ds))]
  | run ds => itemsAll ds
  | slot _ => []

/-- The texts and elements of several documents. -/
def itemsAll : List (Document α) → List Normal
  | [] => []
  | d :: ds => items d ++ itemsAll ds

end

/-- The normal form of a document. -/
def norm (d : Document α) : List Normal :=
  merge d.items

mutual

/-- The markup of a document is that of its items. -/
theorem toList_html_items :
    ∀ d : Document α, (d.html true).toList = markupAll d.items
  | text s => by
    rw [html_text, if_pos rfl, items]
    by_cases hs : s.isEmpty = true
    · rw [if_pos hs, String.isEmpty_iff.mp hs]
      rfl
    · simp [hs, markupAll, markup]
  | tagged path ds => by
    rw [html_tagged, items]
    by_cases hblank : blank ds = true
    · rw [if_pos hblank, if_pos hblank]
      rfl
    · rw [if_neg hblank, if_neg hblank, String.toList_append, String.toList_append,
        toList_html_itemsAll ds]
      simp [markupAll, markup, markupAll_merge]
  | run ds => by rw [html_run, items, toList_html_itemsAll ds]
  | slot a => by
    rw [html_slot, items]
    rfl

/-- The same for several documents. -/
theorem toList_html_itemsAll :
    ∀ ds : List (Document α), (String.join (ds.map (html true))).toList = markupAll (itemsAll ds)
  | [] => rfl
  | d :: ds => by
    rw [List.map_cons, String.join_cons, String.toList_append, toList_html_items d,
      toList_html_itemsAll ds, itemsAll, markupAll_append]

end

/-- The markup of a document is that of its normal form. -/
theorem toList_html (d : Document α) : (d.html true).toList = markupAll d.norm := by
  rw [toList_html_items, norm, markupAll_merge]

end Document

/-! ## Normal forms are merged -/

namespace Normal

/-- Whether the first item is a text. -/
def startsWithText : List Normal → Bool
  | text _ :: _ => true
  | _ => false

/-- Texts are not empty and do not stand next to each other, and elements are those of plain
paths. -/
def Merged : List Normal → Prop
  | [] => True
  | text s :: ns => s ≠ "" ∧ startsWithText ns = false ∧ Merged ns
  | element tag cs :: ns =>
    (∃ path, TagPath.IsPlain path ∧ tag = TagPath.parse path) ∧ Merged cs ∧ Merged ns

/-- A text at the front is merged if it is not empty, no text follows, and the rest is merged. -/
theorem merged_text (s : String) (ns : List Normal) :
    Merged (text s :: ns) ↔ s ≠ "" ∧ startsWithText ns = false ∧ Merged ns := by
  rw [Merged]

/-- An element at the front is merged if it has a plain path, and what is inside it and the rest are
merged. -/
theorem merged_element (tag : TagPath) (cs ns : List Normal) :
    Merged (element tag cs :: ns) ↔
      (∃ path, TagPath.IsPlain path ∧ tag = TagPath.parse path) ∧ Merged cs ∧ Merged ns := by
  rw [Merged]

/-- Joining keeps what is merged. -/
theorem merged_join {n : Normal} {ns : List Normal} (hn : Merged [n]) (hns : Merged ns) :
    Merged (join n ns) := by
  cases n with
  | element tag cs =>
    rw [merged_element] at hn
    rw [join, merged_element]
    · exact ⟨hn.1, hn.2.1, hns⟩
    · simp
  | text s =>
    rw [merged_text] at hn
    cases ns with
    | nil => exact (merged_text s []).mpr hn
    | cons m ms =>
      cases m with
      | text t =>
        rw [merged_text] at hns
        rw [join, merged_text]
        exact ⟨by simp [hn.1], hns.2⟩
      | element tag cs => exact (merged_text s _).mpr ⟨hn.1, rfl, hns⟩

/-- Merging merges. -/
theorem merged_merge {ns : List Normal} (h : ∀ n ∈ ns, Merged [n]) : Merged (merge ns) := by
  induction ns with
  | nil =>
    rw [merge, List.foldr_nil, Merged]
    trivial
  | cons n ns ih =>
    have hcons : merge (n :: ns) = join n (merge ns) := rfl
    rw [hcons]
    exact merged_join (h n List.mem_cons_self) (ih fun m hm => h m (List.mem_cons_of_mem _ hm))

end Normal

namespace Document

open ExprPrinter.Normal

variable {α : Type}

mutual

/-- Every item of a document with plain paths is merged by itself. -/
theorem merged_items :
    ∀ d : Document α, EveryPath TagPath.IsPlain d → ∀ n ∈ d.items, Merged [n]
  | text s => by
    intro _ n hn
    rw [items] at hn
    by_cases hs : s.isEmpty = true
    · rw [if_pos hs] at hn
      cases hn
    · rw [if_neg hs, List.mem_singleton] at hn
      rw [hn, merged_text, Merged]
      exact ⟨fun heq => hs (String.isEmpty_iff.mpr heq), rfl, trivial⟩
  | tagged path ds => by
    intro hd n hn
    rw [EveryPath] at hd
    rw [items] at hn
    by_cases hblank : blank ds = true
    · rw [if_pos hblank] at hn
      cases hn
    · rw [if_neg hblank, List.mem_singleton] at hn
      rw [hn, merged_element, Merged]
      exact ⟨⟨path, hd.1, rfl⟩, merged_merge (merged_itemsAll ds hd.2), trivial⟩
  | run ds => by
    intro hd
    rw [EveryPath] at hd
    rw [items]
    exact merged_itemsAll ds hd
  | slot a => by
    intro _ n hn
    rw [items] at hn
    cases hn

/-- The same for several documents. -/
theorem merged_itemsAll :
    ∀ ds : List (Document α), EveryPathAll TagPath.IsPlain ds → ∀ n ∈ itemsAll ds, Merged [n]
  | [] => by
    intro _ n hn
    rw [itemsAll] at hn
    cases hn
  | d :: ds => by
    intro hds n hn
    rw [EveryPathAll] at hds
    rw [itemsAll] at hn
    rcases List.mem_append.mp hn with hn | hn
    · exact merged_items d hds.1 n hn
    · exact merged_itemsAll ds hds.2 n hn

end

/-- The normal form of a document with plain paths is merged. -/
theorem merged_norm {d : Document α} (h : EveryPath TagPath.IsPlain d) : Merged d.norm :=
  merged_merge (merged_items d h)

end Document

/-! ## Reading markup -/

namespace Normal

/-- Nothing, or a tag that closes an element. -/
def Closes (cs : List Char) : Prop :=
  cs = [] ∨ ∃ rest, cs = '<' :: '/' :: rest

/-- Where an element closes there is the end, or a less sign. -/
theorem Closes.ends {cs : List Char} (h : Closes cs) : Ends '<' cs := by
  rcases h with rfl | ⟨rest, rfl⟩
  · exact ends_nil '<'
  · exact ends_cons '<' _

/-- A closing tag closes. -/
theorem closes_closing (name : String) (rest : List Char) :
    Closes ((TagPath.closing name).toList ++ rest) := by
  refine Or.inr ⟨name.toList ++ '>' :: rest, ?_⟩
  simp [TagPath.closing]

/-- Escaped text that is not empty begins with a character that begins no tag. -/
theorem escape_cons {s : String} (h : s ≠ "") :
    ∃ c cs, (Text.escape s).toList = c :: cs ∧ c ≠ '<' := by
  cases hcs : (Text.escape s).toList with
  | nil =>
    have hempty : Text.escape s = "" := String.toList_inj.mp hcs
    have hs := Text.unescape_escape s
    rw [hempty] at hs
    exact absurd hs.symm h
  | cons c cs =>
    refine ⟨c, cs, rfl, ?_⟩
    rintro rfl
    exact Text.not_mem_escape s (hcs ▸ List.mem_cons_self)

/-- A tag that opens an element is not one that closes an element. -/
theorem opening_cons {path : String} (h : TagPath.IsPlain path) (rest : List Char) :
    ∃ c cs, (TagPath.parse path).opening.toList ++ rest = '<' :: c :: cs ∧ c ≠ '/' := by
  have hword := TagPath.isWord_name h
  obtain ⟨c, cs, hname⟩ := List.exists_cons_of_ne_nil hword.1
  refine ⟨c, cs ++ (TagPath.parse path).idAttribute.toList ++
    (TagPath.parse path).classAttribute.toList ++ '>' :: rest, ?_, ?_⟩
  · simp [TagPath.opening, hname]
  · rintro rfl
    exact hword.not_mem (by decide) (hname ▸ List.mem_cons_self)

/-- What follows a text in merged items ends it. -/
theorem ends_markupAll {ns : List Normal} (h : Merged ns) (hfirst : startsWithText ns = false)
    {rest : List Char} (hrest : Closes rest) : Ends '<' (markupAll ns ++ rest) := by
  cases ns with
  | nil => exact hrest.ends
  | cons n ns =>
    cases n with
    | text s => cases hfirst
    | element tag cs =>
      rw [merged_element] at h
      obtain ⟨⟨path, hpath, rfl⟩, _⟩ := h
      obtain ⟨c, ds, hopening, _⟩ := opening_cons hpath
        (markupAll cs ++ ((TagPath.closing (TagPath.parse path).name).toList ++
          (markupAll ns ++ rest)))
      rw [markupAll_element, hopening]
      exact ends_cons '<' _

/-- Merged items are no items, if what they write is nothing or closes an element. -/
theorem eq_nil_of_closes {ns : List Normal} (h : Merged ns) {rest : List Char}
    (hcloses : Closes (markupAll ns ++ rest)) : ns = [] := by
  cases ns with
  | nil => rfl
  | cons n ns =>
    exfalso
    cases n with
    | text s =>
      rw [merged_text] at h
      obtain ⟨c, cs, hcs, hc⟩ := escape_cons h.1
      rw [markupAll_text, hcs] at hcloses
      rcases hcloses with hnil | ⟨_, heq⟩
      · cases hnil
      · exact hc (List.cons.inj heq).1
    | element tag cs =>
      rw [merged_element] at h
      obtain ⟨⟨path, hpath, rfl⟩, _⟩ := h
      obtain ⟨c, ds, hopening, hc⟩ := opening_cons hpath
        (markupAll cs ++ ((TagPath.closing (TagPath.parse path).name).toList ++
          (markupAll ns ++ rest)))
      rw [markupAll_element, hopening] at hcloses
      rcases hcloses with hnil | ⟨_, heq⟩
      · cases hnil
      · exact hc (List.cons.inj (List.cons.inj heq).2).1

/-- A text is not an element. -/
theorem text_ne_element {s : String} (hs : s ≠ "") {path : String} (hpath : TagPath.IsPlain path)
    (cs ds : List Char) :
    (Text.escape s).toList ++ cs ≠ (TagPath.parse path).opening.toList ++ ds := by
  obtain ⟨c, more, hescape, hc⟩ := escape_cons hs
  obtain ⟨d, others, hopening, _⟩ := opening_cons hpath ds
  rw [hescape, hopening]
  intro heq
  exact hc (List.cons.inj heq).1

/-- Texts that are escaped alike are alike, because escaping can be undone. -/
theorem escape_inj {s t : String} (h : (Text.escape s).toList = (Text.escape t).toList) :
    s = t := by
  have hescape : Text.escape s = Text.escape t := String.toList_inj.mp h
  rw [← Text.unescape_escape s, hescape, Text.unescape_escape]

/-- **Markup can be read back.**  Merged items are determined by what they write, in front of
nothing or of a tag that closes an element. -/
theorem markupAll_inj : ∀ (ns ms : List Normal) {cs ds : List Char}, Merged ns → Merged ms →
    Closes cs → Closes ds → markupAll ns ++ cs = markupAll ms ++ ds → ns = ms ∧ cs = ds
  | [], ms, cs, ds => by
    intro _ hms hcs _ heq
    rw [markupAll, List.nil_append] at heq
    rw [heq] at hcs
    obtain rfl := eq_nil_of_closes hms hcs
    exact ⟨rfl, heq⟩
  | n :: ns, [], cs, ds => by
    intro hns _ _ hds heq
    rw [markupAll, List.nil_append] at heq
    rw [← heq] at hds
    cases eq_nil_of_closes hns hds
  | text s :: ns, text t :: ms, cs, ds => by
    intro hns hms hcs hds heq
    rw [merged_text] at hns hms
    rw [markupAll_text, markupAll_text] at heq
    obtain ⟨hescape, hrest⟩ := append_inj_of_ends (Text.not_mem_escape s) (Text.not_mem_escape t)
      (ends_markupAll hns.2.2 hns.2.1 hcs) (ends_markupAll hms.2.2 hms.2.1 hds) heq
    obtain ⟨rfl, hafter⟩ := markupAll_inj ns ms hns.2.2 hms.2.2 hcs hds hrest
    exact ⟨by rw [escape_inj hescape], hafter⟩
  | text s :: ns, element u es :: ms, cs, ds => by
    intro hns hms _ _ heq
    rw [merged_text] at hns
    rw [merged_element] at hms
    obtain ⟨⟨path, hpath, rfl⟩, _⟩ := hms
    rw [markupAll_text, markupAll_element] at heq
    exact absurd heq (text_ne_element hns.1 hpath _ _)
  | element t bs :: ns, text s :: ms, cs, ds => by
    intro hns hms _ _ heq
    rw [merged_text] at hms
    rw [merged_element] at hns
    obtain ⟨⟨path, hpath, rfl⟩, _⟩ := hns
    rw [markupAll_text, markupAll_element] at heq
    exact absurd heq.symm (text_ne_element hms.1 hpath _ _)
  | element t bs :: ns, element u es :: ms, cs, ds => by
    intro hns hms hcs hds heq
    rw [merged_element] at hns hms
    obtain ⟨⟨path, hpath, rfl⟩, hbs, hns⟩ := hns
    obtain ⟨⟨path', hpath', rfl⟩, hes, hms⟩ := hms
    rw [markupAll_element, markupAll_element] at heq
    obtain ⟨htag, hinside⟩ := TagPath.opening_inj hpath hpath' heq
    rw [htag] at hinside
    -- Inside of the element, what follows its items is the tag that closes it.
    obtain ⟨rfl, hclosing⟩ := markupAll_inj bs es hbs hes
      (closes_closing _ _) (closes_closing _ _) hinside
    obtain ⟨rfl, hafter⟩ := markupAll_inj ns ms hns hms hcs hds (List.append_cancel_left hclosing)
    exact ⟨by rw [htag], hafter⟩
termination_by ns => sizeOf ns

end Normal

/-- **Markup determines the document**, up to what leaves no trace in it.  For documents with plain
paths, the escaped markup is the same exactly if the normal form is. -/
theorem html_eq_iff_norm_eq {α : Type} (d₁ d₂ : Document α)
    (h₁ : d₁.EveryPath TagPath.IsPlain) (h₂ : d₂.EveryPath TagPath.IsPlain) :
    d₁.html true = d₂.html true ↔ d₁.norm = d₂.norm := by
  constructor
  · intro hhtml
    have hmarkup : Normal.markupAll d₁.norm ++ [] = Normal.markupAll d₂.norm ++ [] := by
      rw [List.append_nil, List.append_nil, ← Document.toList_html, hhtml, Document.toList_html]
    exact (Normal.markupAll_inj d₁.norm d₂.norm (Document.merged_norm h₁) (Document.merged_norm h₂)
      (Or.inl rfl) (Or.inl rfl) hmarkup).1
  · intro hnorm
    rw [← String.toList_inj, Document.toList_html, hnorm, Document.toList_html]

/-- A unit with an empty run in it is an element, and one with an empty text in it leaves no trace:
the markup is different for the first and the same for the second if the unit is taken away. -/
theorem html_of_empty_units :
    (Document.run [.text "a<", .tagged "em#x.y" [.run []], .text "b"] : Markup).EveryPath
        TagPath.IsPlain ∧
      (Document.run [.text "a<", .tagged "em#x.y" [.text ""], .text "b"] : Markup).EveryPath
        TagPath.IsPlain ∧
      (Document.run [.text "a<", .tagged "em#x.y" [.run []], .text "b"] : Markup).html true ≠
        (.text "a<b" : Markup).html true ∧
      (Document.run [.text "a<", .tagged "em#x.y" [.text ""], .text "b"] : Markup).html true =
        (.text "a<b" : Markup).html true := by
  have hpath : TagPath.IsPlain "em#x.y" := by decide
  have hrun : (Document.run [.text "a<", .tagged "em#x.y" [.run []], .text "b"] :
      Markup).EveryPath TagPath.IsPlain := by
    simp [Document.EveryPath, Document.EveryPathAll, hpath]
  have hempty : (Document.run [.text "a<", .tagged "em#x.y" [.text ""], .text "b"] :
      Markup).EveryPath TagPath.IsPlain := by
    simp [Document.EveryPath, Document.EveryPathAll, hpath]
  have htext : (.text "a<b" : Markup).EveryPath TagPath.IsPlain := by
    simp [Document.EveryPath]
  refine ⟨hrun, hempty, ?_, ?_⟩
  · rw [ne_eq, html_eq_iff_norm_eq _ _ hrun htext]
    intro hnorm
    have hlength := congrArg List.length hnorm
    revert hlength
    decide
  · rw [html_eq_iff_norm_eq _ _ hempty htext]
    rfl

end ExprPrinter
