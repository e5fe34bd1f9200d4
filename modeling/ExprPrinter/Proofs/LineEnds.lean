import ExprPrinter.Proofs.Form.Containment
import ExprPrinter.Proofs.Rendering
import ExprPrinter.Proofs.Script.Endings

/-!
# Whether a text ends with a line break

The texts of a tree may have no line break in them, and still the text that is written
for the tree can end with one.  It takes several items at the top level, without
indentation, the last of which writes nothing: then its line is begun, and nothing is
put on it.  From there the line break comes through to the end of every form that ends
with such a part.  `Expr.LeavesLine` says this by going along the last parts, and
`ends_line_iff_leavesLine` that there is no other way.
-/

namespace ExprPrinter

open Shortest

/-! ## Numbers are written without line breaks -/

/-- No digit is a line break. -/
theorem unbroken_toDigits {b : Nat} (hb : 1 < b) (n : Nat) : '\n' ∉ Nat.toDigits b n := by
  induction n using Nat.strongRecOn with
  | ind n ih =>
    rw [Nat.toDigits_eq_if hb]
    split
    · simp
    · have hlt : n / b < n := Nat.div_lt_self (by omega) hb
      exact List.not_mem_append (ih (n / b) hlt) (by simp)

/-- Nor is there one in an integer. -/
theorem unbroken_toString (n : Int) : '\n' ∉ (toString n).toList := by
  have hnat : ∀ k : Nat, '\n' ∉ k.repr.toList := by
    intro k
    rw [Nat.repr_eq_ofList_toDigits, String.toList_ofList]
    exact unbroken_toDigits (by omega) k
  cases n with
  | ofNat k => exact hnat k
  | negSucc k => simpa [toString, Int.repr] using hnat (k + 1)

/-- Nor in a hexadecimal number. -/
theorem unbroken_hexText (n : Int) : '\n' ∉ (hexText n).toList := by
  have hdigits := unbroken_toDigits (b := 16) (by omega) n.natAbs
  have hsign : '\n' ∉ (if n < 0 then "-" else "").toList := by split <;> decide
  simp [hexText, hdigits, hsign]

namespace Shortest.Decimal

/-- Nor in digits with a point. -/
theorem unbroken_positional {digits : List Char} (h : '\n' ∉ digits) (e : Int) :
    '\n' ∉ positional digits e := by
  unfold positional
  split
  · simp [h]
  · refine List.not_mem_append (List.not_mem_append ?_ (by simp)) ?_
    · exact fun hmem => h (List.mem_of_mem_take hmem)
    · apply List.not_mem_cons_of_ne_of_not_mem (by decide)
      split
      · decide
      · exact fun hmem => h (List.mem_of_mem_drop hmem)

/-- Nor in an exponent. -/
theorem unbroken_exponentText (e : Int) : '\n' ∉ exponentText e := by
  have hdigits := unbroken_toDigits (b := 10) (by omega) e.natAbs
  have hsign : '\n' ≠ (if e < 0 then '-' else '+') := by split <;> decide
  simp [exponentText, hdigits, hsign]

/-- Nor in digits with an exponent. -/
theorem unbroken_scientific {digits : List Char} (h : '\n' ∉ digits) (e : Int) :
    '\n' ∉ scientific digits e := by
  refine List.not_mem_append (List.not_mem_append ?_ ?_) ?_
  · exact fun hmem => h (List.mem_of_mem_take hmem)
  · split
    · decide
    · apply List.not_mem_cons_of_ne_of_not_mem (by decide)
      exact fun hmem => h (List.mem_of_mem_drop hmem)
  · exact List.not_mem_cons_of_ne_of_not_mem (by decide) (unbroken_exponentText e)

/-- Nor in a decimal number, however it is written. -/
theorem unbroken_text (d : Decimal) : '\n' ∉ d.text := by
  have hdigits : '\n' ∉ d.normalized.1 := by
    intro hmem
    have hkept := (List.dropWhile_suffix _).mem (List.mem_reverse.mp hmem)
    exact unbroken_toDigits (by omega) d.digits (List.mem_reverse.mp hkept)
  simp only [text]
  split
  · exact unbroken_positional hdigits _
  · exact unbroken_scientific hdigits _

end Shortest.Decimal

/-- Nor in a floating-point number, the words for what is no number included. -/
theorem Binary64.unbroken_text (x : Binary64) : '\n' ∉ (x.text outputWords).toList := by
  have hsign (negative : Bool) : '\n' ∉ (if negative then "-" else "").toList := by
    cases negative <;> decide
  unfold text
  cases x.decode with
  | nan => decide
  | infinite negative =>
    have hword : '\n' ∉ outputWords.infinity.toList := by decide
    simp only [String.toList_append, List.mem_append, hsign, hword, or_self, not_false_eq_true]
  | finite negative significand exponent =>
    have hsize : '\n' ∉ (if significand = 0 then ['0', '.', '0']
        else (shortest significand exponent).text) := by
      split
      · decide
      · exact Decimal.unbroken_text _
    simp only [String.toList_append, List.mem_append, String.toList_ofList, hsign, hsize, or_self,
      not_false_eq_true]

/-! ## Trees without line breaks -/

namespace Expr

/-- The letters that a value brings itself: the text of an atom, or the head word of a node. -/
def letters : Expr → String
  | char s => s
  | str s => s
  | sym name => name
  | node h _ => h.name
  | _ => ""

/-- A tree of expressions in which no text and no head word has a line break. -/
def IsUnbroken (x : Expr) : Prop :=
  ∀ y : Expr, y.IsWithin x → y.isPlain = false ∧ '\n' ∉ y.letters.toList

/-- A tree has no line break if neither its own letters nor its components have one. -/
theorem isUnbroken_iff (x : Expr) :
    x.IsUnbroken ↔ (x.isPlain = false ∧ '\n' ∉ x.letters.toList) ∧
      ∀ y ∈ x.components, y.IsUnbroken := by
  constructor
  · intro h
    exact ⟨h x .refl, fun y hy z hz => h z (hz.tail hy)⟩
  · rintro ⟨hown, hcomponents⟩ y hy
    rcases Relation.ReflTransGen.cases_tail hy with rfl | ⟨z, hz, hzx⟩
    · exact hown
    · exact hcomponents z hzx y hz

/-- A name without a line break makes such a tree. -/
theorem isUnbroken_sym {name : String} (h : '\n' ∉ name.toList) : (sym name).IsUnbroken := by
  rw [isUnbroken_iff]
  exact ⟨⟨rfl, h⟩, by simp [components]⟩

/-- So does a word over such trees. -/
theorem isUnbroken_node {head : Head} {xs : List Expr} (h : '\n' ∉ head.name.toList)
    (hxs : ∀ x ∈ xs, x.IsUnbroken) : (node head xs).IsUnbroken := by
  rw [isUnbroken_iff]
  exact ⟨⟨rfl, h⟩, hxs⟩

/-- What is inside a tree without line breaks has none. -/
theorem IsUnbroken.of_isInside {x y : Expr} (h : x.IsUnbroken) (hy : y.IsInside x) :
    y.IsUnbroken :=
  fun z hz => h z (hz.trans hy.to_reflTransGen)

/-- In particular, no name inside has one. -/
theorem IsUnbroken.sym {x : Expr} {name : String} (h : x.IsUnbroken)
    (hname : (Expr.sym name).IsInside x) : '\n' ∉ name.toList :=
  (h.of_isInside hname (.sym name) .refl).2

end Expr

/-- The only nodes that are written as atoms are quoted names. -/
theorem Form.sym_mem_of_leaf {k : Kind} {xs : List Expr} {c : Category} {s : String}
    (h : ofNode? k xs = some (.leaf c s)) :
    ∃ name : String, .sym name ∈ xs ∧ s = ":" ++ name := by
  cases k
  case conditional | elseif =>
    simp only [ofNode?, conditional?] at h
    split at h <;> cases h
  case function | macroDef =>
    simp only [ofNode?, definition?] at h
    split at h <;> cases h
  case quote =>
    simp only [ofNode?] at h
    split at h
    · cases h
    · next name =>
      cases h
      exact ⟨name, by simp, rfl⟩
    · cases h
  case call =>
    simp only [ofNode?] at h
    split at h
    · split at h <;> cases h
    · cases h
  all_goals
    simp only [ofNode?] at h
    first
      | cases h
      | split at h <;> cases h

namespace Expr

/-- No leaf of such a tree is written with a line break. -/
theorem IsUnbroken.leaf {x : Expr} {c : Category} {s : String} (h : x.IsUnbroken)
    (hf : x.form? = some (.leaf c s)) : '\n' ∉ s.toList := by
  have hown : '\n' ∉ x.letters.toList := (h x .refl).2
  cases x with
  | nil => cases hf; decide
  | bool b => cases hf; cases b <;> decide
  | int n => cases hf; exact unbroken_toString n
  | uint n => cases hf; exact unbroken_hexText n
  | float y => cases hf; exact y.unbroken_text
  | ratio n d =>
    cases hf
    have hn := unbroken_toString n
    have hd := unbroken_toString d
    simpa using ⟨hn, hd⟩
  | char t => cases hf; simpa [letters] using hown
  | str t => cases hf; simpa [letters] using hown
  | sym name => cases hf; exact hown
  | quoted y =>
    cases y with
    | sym name =>
      cases hf
      simpa using h.sym (.single (by simp [components]))
    | _ => cases hf
  | node head xs =>
    obtain ⟨k, _, hf⟩ := Option.bind_eq_some_iff.mp hf
    obtain ⟨name, hname, rfl⟩ := Form.sym_mem_of_leaf hf
    simpa using h.sym (.single hname)
  | _ => cases hf

/-- No other text of its form has one. -/
theorem IsUnbroken.ownTexts {x : Expr} {f : Form} (h : x.IsUnbroken) (hf : x.form? = some f) :
    ∀ t ∈ f.ownTexts, '\n' ∉ t.toList := by
  intro t ht
  unfold Form.ownTexts at ht
  split at ht
  · cases List.mem_singleton.mp ht
    exact h.leaf hf
  · cases List.mem_singleton.mp ht
    exact h.sym (isInside_of_mem_exprs hf (by simp [Form.exprs]))
  · cases ht

/-! ## Along the last parts -/

/-- What the text of an expression ends with.  A sentinel ends with words of its own. -/
def ending (x : Expr) : Ending :=
  match x.form? with
  | some f => f.ending
  | none => .word

/-- An expression for which nothing is written. -/
inductive IsBlank : Expr → Prop
  | nothing {x : Expr} (hx : x.ending = .nothing) : IsBlank x
  | alone {x y : Expr} {m : Margin} (hx : x.ending = .alone y m) (hy : IsBlank y) : IsBlank x

/-- An expression whose text leaves the last line empty: that line is begun without indentation
for a part for which nothing is written, or the last part leaves its last line empty. -/
inductive LeavesLine (width : Int) : Expr → Int → Prop
  | blankLine {x y : Expr} {level : Int} (hx : x.ending = .line y) (hy : y.IsBlank)
      (hlevel : indentation width level = "") : LeavesLine width x level
  | last {x y : Expr} {m : Margin} {level : Int} (hx : x.ending.last? = some (y, m))
      (hy : LeavesLine width y (m.level level)) : LeavesLine width x level

/-- An expression is blank if nothing is at the end of it, or another blank one alone. -/
theorem isBlank_iff (x : Expr) :
    x.IsBlank ↔ x.ending = .nothing ∨
      ∃ (y : Expr) (m : Margin), x.ending = .alone y m ∧ y.IsBlank := by
  constructor
  · rintro (hx | ⟨hx, hy⟩)
    · exact .inl hx
    · exact .inr ⟨_, _, hx, hy⟩
  · rintro (hx | ⟨y, m, hx, hy⟩)
    · exact .nothing hx
    · exact .alone hx hy

/-- A line is left behind right here, before a blank item, or along the last part. -/
theorem leavesLine_iff (width : Int) (x : Expr) (level : Int) :
    x.LeavesLine width level ↔
      (∃ y : Expr, x.ending = .line y ∧ y.IsBlank ∧ indentation width level = "") ∨
      ∃ (y : Expr) (m : Margin), x.ending.last? = some (y, m) ∧
        y.LeavesLine width (m.level level) := by
  constructor
  · rintro (⟨hx, hy, hlevel⟩ | ⟨hx, hy⟩)
    · exact .inl ⟨_, hx, hy, hlevel⟩
    · exact .inr ⟨_, _, hx, hy⟩
  · rintro (⟨y, hx, hy, hlevel⟩ | ⟨y, m, hx, hy⟩)
    · exact .blankLine hx hy hlevel
    · exact .last hx hy

/-- What takes the place of such an expression ends as its ending says. -/
theorem IsUnbroken.endsAs {x : Expr} (h : x.IsUnbroken) : x.expansion.EndsAs x.ending := by
  cases hf : x.form? with
  | some f =>
    rw [expansion_of_form hf, ending, hf]
    exact Script.endsAs_script (h.ownTexts hf)
  | none =>
    have hclosing : Inline sentinelClosing := by decide
    rw [expansion_of_gap hf, ending, hf]
    exact .word _ hclosing

/-- The last part of such an expression takes its place, and has no line breaks. -/
theorem IsUnbroken.last {x y : Expr} {m : Margin} (h : x.IsUnbroken)
    (hlast : x.ending.last? = some (y, m)) : y ∈ x.expansion.parts ∧ y.IsUnbroken := by
  have hmem : y ∈ x.expansion.parts := h.endsAs.mem_parts hlast
  exact ⟨hmem, h.of_isInside (isInside_of_mem_expansion hmem)⟩

end Expr

/-! ## What is written -/

/-- A text ends with a line break if its last part that is not empty does. -/
theorem endsLine_append_iff (s t : String) :
    endsLine (s ++ t) = true ↔ endsLine t = true ∨ t = "" ∧ endsLine s = true := by
  by_cases ht : t = ""
  · have hempty : endsLine "" = false := by decide
    simp [ht, hempty]
  · have hne : t.toList ≠ [] := by simpa using ht
    simp [endsLine, List.getLast?_eq_some_getLast hne, ht]

/-- Indentation does not end with a line break. -/
theorem endsLine_indentation (width level : Int) : endsLine (indentation width level) = false :=
  endsLine_of_unbroken (by simp [indentation])

/-- A text ends inside a line if its last part does. -/
theorem Inline.append_left (s : String) {t : String} (ht : Inline t) : Inline (s ++ t) :=
  ⟨by simp [ht.1], by simp [Bool.eq_false_iff, endsLine_append_iff, ht.1, ht.2]⟩

namespace PlainText

open Script (EndsAs)

variable (width level : Int)

/-- What is written for the part that comes last. -/
def writtenPart (x : Expr) (m : Margin) : String :=
  written width [.slot (.sub x (m.level level))]

/-- The text of a script with the given ending. -/
def HasEnding (text : String) : Ending → Prop
  | .nothing => text = ""
  | .word => Inline text
  | .alone x m => text = writtenPart width level x m
  | .part x m => ∃ t : String, Inline t ∧ text = t ++ writtenPart width level x m
  | .line x => ∃ t : String,
      text = t ++ "\n" ++ indentation width level ++ writtenPart width level x .here

/-- A script that ends in some way is written with such an ending. -/
theorem hasEnding_written {s : Script} {e : Ending} (h : EndsAs s e) :
    HasEnding width level (written width (s.place level)) e := by
  induction h with
  | nothing => exact written_nil width
  | word before ht =>
    rw [place_append, written_append]
    exact Inline.append_left _ (by simpa [Script.place, Piece.move] using ht)
  | alone x m => rfl
  | part before ht x m =>
    refine ⟨written width (before.place level) ++ _, ht.append_left _, ?_⟩
    rw [place_append, written_append, String.append_assoc]
    exact congrArg _ (written_text width _ _)
  | line before x =>
    refine ⟨written width (before.place level), ?_⟩
    have hline :
        written width (Script.place level (Script.newline .here ++ [.slot (.sub x .here)])) =
          "\n" ++ (indentation width level ++ writtenPart width level x .here) :=
      (written_text width _ _).trans (congrArg _ (written_indent width _ _))
    rw [List.append_assoc, place_append, written_append, hline]
    simp only [String.append_assoc]
  | blank _ ih =>
    rw [place_append, written_append]
    simpa [Script.place, Piece.move] using ih

variable {x : Expr}

/-- An expression without line breaks is written with its ending. -/
theorem hasEnding_expr (h : x.IsUnbroken) :
    HasEnding width level (written width [.slot (.sub x level)]) x.ending := by
  rw [written_expansion]
  exact hasEnding_written width level h.endsAs

/-- Nothing is written exactly for the blank expressions. -/
theorem written_eq_empty_iff (h : x.IsUnbroken) :
    written width [.slot (.sub x level)] = "" ↔ x.IsBlank := by
  induction x using Expr.expansion_induction generalizing level with
  | step x ih =>
    have htext := hasEnding_expr width level h
    rw [Expr.isBlank_iff]
    cases hending : x.ending with
    | nothing =>
      rw [hending] at htext
      exact iff_of_true htext (.inl rfl)
    | word =>
      rw [hending] at htext
      simpa using htext.1
    | alone y m =>
      rw [hending] at htext
      have hlast : x.ending.last? = some (y, m) := by rw [hending]; rfl
      obtain ⟨hmem, hy⟩ := h.last hlast
      rw [htext, writtenPart, ih y hmem _ hy]
      simp
    | part y m =>
      rw [hending] at htext
      obtain ⟨t, ht, htext⟩ := htext
      simp [htext, ht.1]
    | line y =>
      rw [hending] at htext
      obtain ⟨t, htext⟩ := htext
      simp [htext]

/-- The last line is left empty exactly by the expressions that leave it so. -/
theorem endsLine_written_iff (h : x.IsUnbroken) :
    endsLine (written width [.slot (.sub x level)]) = true ↔ x.LeavesLine width level := by
  induction x using Expr.expansion_induction generalizing level with
  | step x ih =>
    have htext := hasEnding_expr width level h
    have hlast : ∀ (y : Expr) (m : Margin), x.ending.last? = some (y, m) →
        (endsLine (writtenPart width level y m) = true ↔ y.LeavesLine width (m.level level)) := by
      intro y m hy
      obtain ⟨hmem, hunbroken⟩ := h.last hy
      exact ih y hmem _ hunbroken
    rw [Expr.leavesLine_iff]
    cases hending : x.ending with
    | nothing =>
      rw [hending] at htext
      have hempty : endsLine "" = false := by decide
      rw [htext, hempty]
      simp [Ending.last?]
    | word =>
      rw [hending] at htext
      rw [htext.2]
      simp [Ending.last?]
    | alone y m =>
      rw [hending] at htext hlast
      rw [htext, hlast y m rfl]
      simp [Ending.last?, and_assoc]
    | part y m =>
      rw [hending] at htext hlast
      obtain ⟨t, ht, htext⟩ := htext
      rw [htext, endsLine_append_iff, hlast y m rfl, ht.2]
      simp [Ending.last?, and_assoc]
    | line y =>
      -- Either the last item ends with a line break, or it and its indentation are empty.
      rw [hending] at htext hlast
      obtain ⟨t, htext⟩ := htext
      have hblank : writtenPart width level y .here = "" ↔ y.IsBlank :=
        written_eq_empty_iff width _ (h.last (by rw [hending]; rfl)).2
      rw [htext, endsLine_append_iff, endsLine_append_iff, hlast y .here rfl, hblank,
        endsLine_indentation, endsLine_append_iff]
      have hbreak : endsLine "\n" = true := by decide
      simp [Ending.last?, hbreak, or_comm, and_assoc]

end PlainText

/-- **When a text ends with a line break.**  A printer that is not strict has a text for every tree
without line breaks, and the text ends with one exactly if the tree leaves the last line empty. -/
theorem ends_line_iff_leavesLine {x : Expr} (h : x.IsUnbroken) (width level : Int) :
    ∃ (text : String) (log : List Warning),
      PlainText.render false width x level = .ok (text, log) ∧
      (endsLine text = true ↔ x.LeavesLine width level) := by
  refine ⟨_, _, PlainText.render_lenient width level x, ?_⟩
  rw [endsLine_append_iff, endsLine_indentation, ← PlainText.endsLine_written_iff width level h]
  simp

/-- A line is begun for a range without bounds, and then the value of the assignment is over. -/
theorem assignment_ends_with_begun_line :
    let value := Expr.node (.constant .toplevel) [.sym "a", .node (.spelled ":") []]
    let tree := Expr.node (.constant .assignment) [.sym "x", value]
    (tree.IsUnbroken ∧ tree.LeavesLine 4 3) ∧
    ∃ (text : String) (log : List Warning),
      PlainText.render false 4 tree 3 = .ok (text, log) ∧
      (endsLine text = true ↔ tree.LeavesLine 4 3) := by
  intro value tree
  have hname : ∀ n ∈ ["a", "x"], (Expr.sym n).IsUnbroken :=
    fun n hn => Expr.isUnbroken_sym (by revert n; decide)
  have hrange : (Expr.node (.spelled ":") []).IsUnbroken :=
    Expr.isUnbroken_node (by decide) (by simp)
  have hvalue : value.IsUnbroken :=
    Expr.isUnbroken_node (by decide) (by simp [hname, hrange])
  have htree : tree.IsUnbroken :=
    Expr.isUnbroken_node (by decide) (by simp [hname, hvalue])
  have hleaves : tree.LeavesLine 4 3 :=
    .last (m := .edge) rfl (.blankLine rfl (.nothing rfl) (by decide))
  exact ⟨⟨htree, hleaves⟩, ends_line_iff_leavesLine htree 4 3⟩

/-- An item at the top level that is itself empty leaves a line break at the end of the text. -/
theorem line_break_before_empty_item :
    let tree := Expr.node (.constant .toplevel) [.sym "a", .node (.constant .toplevel) []]
    tree.IsUnbroken ∧ PlainText.render false 2 tree 0 = .ok ("a\n", []) := by
  intro tree
  have hname : (Expr.sym "a").IsUnbroken := Expr.isUnbroken_sym (by decide)
  have hempty : (Expr.node (.constant .toplevel) []).IsUnbroken :=
    Expr.isUnbroken_node (by decide) (by simp)
  have htranscript : PlainText.transcript false 2 tree 0 = { text := "a\n" } := by
    simp [tree, PlainText.transcript, PlainText.run, Expr.form?, Head.kind?, Form.ofNode?,
      Form.symbol, Form.script, Script.newline, Script.place, Piece.move, Slot.move, Margin.level,
      Transcript.write, indentation]
  refine ⟨Expr.isUnbroken_node (by decide) (by simp [hname, hempty]), ?_⟩
  rw [PlainText.render, htranscript]

end ExprPrinter
