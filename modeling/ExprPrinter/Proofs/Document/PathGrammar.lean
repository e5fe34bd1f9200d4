import ExprPrinter.Proofs.Document.PathSplitting
import Mathlib.Logic.Function.Defs

/-!
# The grammar of tag paths

Every text is a tag path, and it can be taken apart in one way only: a name, and
then segments, each of them a marker and a word that has no marker inside.  The
reader of paths finds just these parts: `split_text`.  What a path says about an
element is therefore said in terms of its parts, and most of them do not count:
empty words, and all ids after the first.

A path without the parts that do not count is in order.  The element has all
that is needed to spell this path, so it can be spelled and read again.
-/

namespace ExprPrinter.TagPath

/-- What begins a segment: the marker of an id, or of a class. -/
inductive Marker where
  | id | cls
  deriving DecidableEq, Repr

/-- The character of a marker. -/
def Marker.char : Marker → Char
  | id => '#'
  | cls => '.'

/-- The character of a marker is a marker. -/
theorem Marker.isMarker_char (m : Marker) : isMarker m.char = true := by
  cases m <;> decide

/-- The two markers have different characters. -/
theorem Marker.char_inj {m n : Marker} : m.char = n.char ↔ m = n := by
  cases m <;> cases n <;> decide

/-- There are no other markers. -/
theorem Marker.exists_char {c : Char} (h : isMarker c = true) : ∃ m : Marker, m.char = c := by
  rw [isMarker, Bool.or_eq_true, beq_iff_eq, beq_iff_eq] at h
  rcases h with rfl | rfl
  · exact ⟨id, rfl⟩
  · exact ⟨cls, rfl⟩

/-- A text without markers. -/
structure Word where
  text : String
  unmarked : ∀ c ∈ text.toList, isMarker c = false

namespace Word

/-- A word is known by its text. -/
theorem ext {v w : Word} (h : v.text = w.text) : v = w := by
  cases v
  cases w
  cases h
  rfl

/-- The word of no letters. -/
def empty : Word := ⟨"", by simp⟩

/-- A word with one letter more in front. -/
def cons (c : Char) (hc : isMarker c = false) (w : Word) : Word where
  text := String.ofList (c :: w.text.toList)
  unmarked := by
    rw [String.toList_ofList]
    exact List.forall_mem_cons.mpr ⟨hc, w.unmarked⟩

/-- The name of an element without a name. -/
def span : Word := ⟨"span", by simp [isMarker]⟩

end Word

/-- A marker and the word behind it. -/
structure Segment where
  marker : Marker
  word : Word

/-- A segment as the reader of paths gives it. -/
def Segment.letters (s : Segment) : Char × List Char :=
  (s.marker.char, s.word.text.toList)

/-- Whether a segment counts for a marker: it has this marker, and its word is not empty. -/
def Segment.counts (m : Marker) (s : Segment) : Bool :=
  s.marker = m ∧ s.word.text ≠ ""

/-- The parts of a path: its name, and its segments. -/
structure Parts where
  name : Word
  segments : List Segment

namespace Parts

/-- The segments of a path, written one after the other. -/
def spell : List Segment → String
  | [] => ""
  | s :: rest => String.singleton s.marker.char ++ s.word.text ++ spell rest

/-- The path with the given parts. -/
def text (p : Parts) : String :=
  p.name.text ++ spell p.segments

/-- What the parts say about the element: the name, if there is one, the first id that counts, and
all classes that count. -/
def element (p : Parts) : TagPath where
  name := if p.name.text = "" then "span" else p.name.text
  id := (p.segments.find? (Segment.counts .id)).map fun s => s.word.text
  classes := (p.segments.filter (Segment.counts .cls)).map fun s => s.word.text

/-- The parts that count, with the id before the classes. -/
def inOrder (p : Parts) : Parts where
  name := if p.name.text = "" then .span else p.name
  segments := (p.segments.find? (Segment.counts .id)).toList ++
    p.segments.filter (Segment.counts .cls)

end Parts

/-- The path that an element is named by: its name, its id and its classes. -/
def respelled (t : TagPath) : String :=
  t.name ++ (t.id.elim "" fun id => "#" ++ id) ++ String.join (t.classes.map fun c => "." ++ c)

/-! ## Taking a path apart -/

/-- Letters at the front belong to the name. -/
theorem split_unmarked_append {cs : List Char} (h : ∀ c ∈ cs, isMarker c = false)
    (rest : List Char) : split (cs ++ rest) = (cs ++ (split rest).1, (split rest).2) := by
  induction cs with
  | nil => rfl
  | cons c cs ih =>
    obtain ⟨hc, hcs⟩ := List.forall_mem_cons.mp h
    rw [List.cons_append, split, ih hcs]
    simp [hc]

/-- A path of segments only has no name, and the reader finds the segments. -/
theorem split_spell (segments : List Segment) :
    split (Parts.spell segments).toList = ([], segments.map Segment.letters) := by
  induction segments with
  | nil => rfl
  | cons s rest ih =>
    have hspell : (Parts.spell (s :: rest)).toList =
        s.marker.char :: (s.word.text.toList ++ (Parts.spell rest).toList) := by
      simp [Parts.spell]
    rw [hspell, split, split_unmarked_append s.word.unmarked, ih]
    simp [s.marker.isMarker_char, Segment.letters]

/-- The reader finds the parts that a path was made of. -/
theorem split_text (p : Parts) :
    split p.text.toList = (p.name.text.toList, p.segments.map Segment.letters) := by
  rw [Parts.text, String.toList_append, split_unmarked_append p.name.unmarked, split_spell]
  simp

/-- A segment is known by its letters. -/
theorem Segment.letters_inj {s t : Segment} (h : s.letters = t.letters) : s = t := by
  obtain ⟨m, v⟩ := s
  obtain ⟨n, w⟩ := t
  obtain ⟨hmarker, hword⟩ := Prod.mk.inj h
  cases Marker.char_inj.mp hmarker
  cases Word.ext (String.toList_inj.mp hword)
  rfl

/-- A path has one list of parts only, because the reader finds them. -/
theorem text_injective : Function.Injective Parts.text := by
  rintro ⟨v, ss⟩ ⟨w, ts⟩ h
  have hsplit := split_text ⟨v, ss⟩
  rw [h, split_text ⟨w, ts⟩] at hsplit
  obtain ⟨hname, hsegments⟩ := Prod.mk.inj hsplit
  have hword : w = v := Word.ext (String.toList_inj.mp hname)
  have hlist : ts = ss := (List.map_inj_right fun _ _ => Segment.letters_inj).mp hsegments
  rw [hword, hlist]

/-- Every text has parts.  The letters are taken up from the right: a marker ends the word in front
of it, and any other letter belongs to the word that has been begun. -/
theorem text_surjective : Function.Surjective Parts.text := by
  intro t
  have hparts : ∀ cs : List Char, ∃ p : Parts, p.text.toList = cs := by
    intro cs
    induction cs with
    | nil => exact ⟨⟨.empty, []⟩, rfl⟩
    | cons c cs ih =>
      obtain ⟨⟨w, ss⟩, hp⟩ := ih
      cases hc : isMarker c with
      | true =>
        obtain ⟨m, rfl⟩ := Marker.exists_char hc
        refine ⟨⟨.empty, ⟨m, w⟩ :: ss⟩, ?_⟩
        rw [← hp]
        simp [Parts.text, Parts.spell, Word.empty]
      | false =>
        refine ⟨⟨.cons c hc w, ss⟩, ?_⟩
        rw [← hp]
        simp [Parts.text, Word.cons]
  obtain ⟨p, hp⟩ := hparts t.toList
  exact ⟨p, String.toList_inj.mp hp⟩

/-! ## What a path says -/

/-- The words that the reader keeps for a marker are those of the segments that count for it. -/
theorem words_segments (m : Marker) (segments : List Segment) :
    words m.char (segments.map Segment.letters) =
      (segments.filter (Segment.counts m)).map fun s => s.word.text := by
  have hcounts : (fun u : Char × List Char => u.1 == m.char && !u.2.isEmpty) ∘ Segment.letters =
      Segment.counts m := by
    funext s
    rw [Bool.eq_iff_iff]
    simp [Segment.letters, Segment.counts, Marker.char_inj]
  rw [words, List.filter_map, hcounts, List.map_map]
  congr 1
  funext s
  exact String.ofList_toList

/-- A path is read by its parts. -/
theorem parse_text (p : Parts) : parse p.text = p.element := by
  have hname : p.name.text.toList.isEmpty = decide (p.name.text = "") := by
    rw [Bool.eq_iff_iff]
    simp
  have hid : words '#' (p.segments.map Segment.letters) = _ := words_segments .id p.segments
  have hclasses : words '.' (p.segments.map Segment.letters) = _ := words_segments .cls p.segments
  simp only [parse_eq, split_text, hid, hclasses, hname, String.ofList_toList, Parts.element,
    List.head?_map, List.head?_filter, decide_eq_true_eq]

/-! ## Spelling an element again -/

/-- Segments are spelled one after the other. -/
theorem spell_append (ss ts : List Segment) :
    Parts.spell (ss ++ ts) = Parts.spell ss ++ Parts.spell ts := by
  induction ss with
  | nil => simp [Parts.spell]
  | cons s ss ih => simp [Parts.spell, ih, String.append_assoc]

/-- Segments that count as classes are spelled with points. -/
theorem spell_classes {ss : List Segment} (h : ∀ s ∈ ss, s.counts .cls = true) :
    Parts.spell ss = String.join ((ss.map fun s => s.word.text).map fun c => "." ++ c) := by
  induction ss with
  | nil => rfl
  | cons s ss ih =>
    obtain ⟨hs, hss⟩ := List.forall_mem_cons.mp h
    have hmarker : s.marker = .cls := by
      simp only [Segment.counts, decide_eq_true_eq] at hs
      exact hs.1
    rw [Parts.spell, ih hss, hmarker, List.map_cons, List.map_cons, String.join_cons]
    rfl

/-- An element is spelled by the parts that count. -/
theorem respelled_element (p : Parts) : p.element.respelled = p.inOrder.text := by
  have hname : p.inOrder.name.text = p.element.name := by
    rw [Parts.inOrder, Parts.element]
    dsimp only
    split <;> rfl
  have hid : Parts.spell (p.segments.find? (Segment.counts .id)).toList =
      p.element.id.elim "" fun id => "#" ++ id := by
    rw [Parts.element]
    cases hfind : p.segments.find? (Segment.counts .id) with
    | none => rfl
    | some s =>
      have hs := List.find?_some hfind
      simp only [Segment.counts, decide_eq_true_eq] at hs
      simp [Parts.spell, hs.1, Marker.char]
  have hclasses := spell_classes fun s (hs : s ∈ p.segments.filter (Segment.counts .cls)) =>
    (List.mem_filter.mp hs).2
  rw [respelled, Parts.text, hname, Parts.inOrder, spell_append, hid, hclasses,
    String.append_assoc]
  rfl

/-- A segment counts for one marker only. -/
theorem counts_cls_of_counts_id {s : Segment} (h : s.counts .id = true) :
    s.counts .cls = false := by
  simp only [Segment.counts, decide_eq_true_eq] at h
  simp [Segment.counts, h.1]

/-- The parts that count have the same first id. -/
theorem find?_inOrder (p : Parts) :
    p.inOrder.segments.find? (Segment.counts .id) = p.segments.find? (Segment.counts .id) := by
  rw [Parts.inOrder]
  cases hfind : p.segments.find? (Segment.counts .id) with
  | some s => exact List.find?_cons_of_pos (List.find?_some hfind)
  | none =>
    rw [Option.toList_none, List.nil_append, List.find?_eq_none]
    intro s hs
    exact List.find?_eq_none.mp hfind s (List.mem_filter.mp hs).1

/-- The parts that count have the same classes. -/
theorem filter_inOrder (p : Parts) :
    p.inOrder.segments.filter (Segment.counts .cls) =
      p.segments.filter (Segment.counts .cls) := by
  have hid : (p.segments.find? (Segment.counts .id)).toList.filter (Segment.counts .cls) = [] := by
    rw [List.filter_eq_nil_iff]
    intro s hs
    have hcounts := List.find?_some (Option.mem_toList.mp hs)
    simp [counts_cls_of_counts_id hcounts]
  rw [Parts.inOrder, List.filter_append, hid, List.nil_append, List.filter_filter]
  simp only [Bool.and_self]

/-- Nothing is lost with the parts that do not count. -/
theorem element_inOrder (p : Parts) : p.inOrder.element = p.element := by
  have hname : (if p.inOrder.name.text = "" then "span" else p.inOrder.name.text) =
      if p.name.text = "" then "span" else p.name.text := by
    by_cases hempty : p.name.text = ""
    · simp [Parts.inOrder, hempty, Word.span]
    · simp [Parts.inOrder, hempty]
  rw [Parts.element, hname, find?_inOrder, filter_inOrder, Parts.element]

/-- **The grammar of tag paths.**  Every text is spelled by exactly one name and list of segments.
Reading it gives the element that these parts say, and the path that is spelled from the element
reads as the same element. -/
theorem paths_by_their_parts :
    Function.Bijective Parts.text ∧ (∀ p : Parts, parse p.text = p.element) ∧
      ∀ t : String, parse (parse t).respelled = parse t := by
  refine ⟨⟨text_injective, text_surjective⟩, parse_text, fun t => ?_⟩
  obtain ⟨p, rfl⟩ := text_surjective t
  rw [parse_text, respelled_element, parse_text, element_inOrder]

end ExprPrinter.TagPath
