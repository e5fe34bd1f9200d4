import ExprPrinter.Proofs.Script.LineStarts
import ExprPrinter.Proofs.Script.Parts

/-!
# How scripts end

A form ends with a text of its own, or with one of its parts.  A part may be all that
there is, as in a block of one statement; it may stand behind a text, as the value of
an assignment does; or it stands on a line of its own, as the last of several items at
the top level.  `Form.ending` says which of these it is, and `endsAs_script` that the
script of the form ends in this way.

The texts before a last part are never empty, and apart from the line breaks at the top
level they do not end their line.
-/

namespace ExprPrinter

/-- A text that is not empty and does not end its line. -/
def Inline (s : String) : Prop :=
  s ≠ "" ∧ endsLine s = false

instance (s : String) : Decidable (Inline s) :=
  inferInstanceAs (Decidable (_ ∧ _))

/-- A text without line breaks does not end with one. -/
theorem endsLine_of_unbroken {s : String} (h : '\n' ∉ s.toList) : endsLine s = false := by
  rw [Bool.eq_false_iff]
  intro hends
  obtain ⟨t, rfl⟩ := eq_append_of_endsLine hends
  exact h (by simp)

/-- A text without line breaks that is not empty ends inside a line. -/
theorem inline_append {s t : String} (hs : s ≠ "") (hbreak : '\n' ∉ (s ++ t).toList) :
    Inline (s ++ t) :=
  ⟨by simp [hs], endsLine_of_unbroken hbreak⟩

/-- What the text of a form ends with. -/
inductive Ending where
  /-- Nothing, as the text is empty. -/
  | nothing
  /-- A text of the form itself. -/
  | word
  /-- A part, which is all that is written. -/
  | alone (x : Expr) (m : Margin)
  /-- A part behind a text of the form itself. -/
  | part (x : Expr) (m : Margin)
  /-- A part on a new line. -/
  | line (x : Expr)

namespace Ending

/-- The part that comes last, if it is a part. -/
def last? : Ending → Option (Expr × Margin)
  | alone x m => some (x, m)
  | part x m => some (x, m)
  | line x => some (x, .here)
  | _ => none

/-- The ending of the same behind a text that does not end its line. -/
def behind : Ending → Ending
  | nothing => word
  | alone x m => part x m
  | e => e

/-- The ending of several things with such texts between them. -/
def series (g : Expr → Ending) : List Expr → Ending
  | [] => nothing
  | [x] => g x
  | _ :: x :: xs => (series g (x :: xs)).behind

/-- The ending of parts inside a line. -/
def phrases (xs : List Expr) : Ending :=
  series (alone · .edge) xs

/-- The ending of parts that are each on a line. -/
def lines : List Expr → Ending
  | [] => nothing
  | [x] => alone x .here
  | _ :: x :: xs => line (xs.getLastD x)

/-- The ending of an operand. -/
def operand (c : Connective) (x : Expr) : Ending :=
  if x.isKind c.opposite.kind then word else alone x .edge

end Ending

namespace Form

/-- How a form ends. -/
def ending : Form → Ending
  | leaf _ s => if s = "" then .nothing else .word
  | ratio _ x => .part x .edge
  | pair _ x => .part x .edge
  | block [x] => .alone x .here
  | lambda _ x => .part x .edge
  | assignment _ x => .part x .edge
  | range items => .phrases items
  | importing _ names => (Ending.phrases names).behind
  | exporting names => (Ending.phrases names).behind
  | member _ x => .part x .edge
  | typed _ x => .part x .edge
  | logical c operands => .series (.operand c) operands
  | toplevel items => .lines items
  | _ => .word

/-- The texts of the tree that a form writes itself, and not through a part. -/
def ownTexts : Form → List String
  | leaf _ s => [s]
  | unquote (.sym name) => [name]
  | _ => []

end Form

namespace Script

/-- A script with the given ending. -/
inductive EndsAs : Script → Ending → Prop
  | nothing : EndsAs [] .nothing
  | word (before : Script) {t : String} (ht : Inline t) : EndsAs (before ++ [.text t]) .word
  | alone (x : Expr) (m : Margin) : EndsAs [.slot (.sub x m)] (.alone x m)
  | part (before : Script) {t : String} (ht : Inline t) (x : Expr) (m : Margin) :
      EndsAs (before ++ [.text t, .slot (.sub x m)]) (.part x m)
  | line (before : Script) (x : Expr) :
      EndsAs (before ++ newline .here ++ [.slot (.sub x .here)]) (.line x)
  /-- A text without letters changes nothing. -/
  | blank {s : Script} {e : Ending} (h : EndsAs s e) : EndsAs (s ++ [.text ""]) e

/-- The last of several items at the top level begins behind a line break. -/
theorem exists_last_line (x y : Expr) (more : List Expr) :
    ∃ before : Script, (Form.toplevel (x :: y :: more)).script =
      before ++ newline .here ++ [.slot (.sub (more.getLastD y) .here)] := by
  induction more generalizing x y with
  | nil => exact ⟨[.slot (.sub x .here)], by simp [Form.script]⟩
  | cons z more ih =>
    obtain ⟨before, hbefore⟩ := ih y z
    refine ⟨.slot (.sub x .here) :: newline .here ++ before, ?_⟩
    simp only [Form.script, List.map_cons] at hbefore
    rw [List.getLastD_cons, Form.script, List.map_cons, List.map_cons,
      List.intercalate_cons_cons, List.map_cons, hbefore]
    simp

namespace EndsAs

/-- A text that does not end its line, and anything before it, only keep a part from being all
that there is. -/
theorem behind (before : Script) {t : String} (ht : Inline t) {s : Script} {e : Ending}
    (h : EndsAs s e) : EndsAs (before ++ .text t :: s) e.behind := by
  have hassoc : ∀ inner tail : Script,
      before ++ .text t :: (inner ++ tail) = (before ++ .text t :: inner) ++ tail := by simp
  induction h with
  | nothing => exact .word before ht
  | word inner hword =>
    rw [hassoc]
    exact .word _ hword
  | alone x m => exact .part before ht x m
  | part inner hpart x m =>
    rw [hassoc]
    exact .part _ hpart x m
  | line inner x =>
    rw [hassoc, hassoc]
    exact .line _ x
  | blank _ ih =>
    rw [hassoc]
    exact .blank ih

/-- Things with a text between them that does not end its line. -/
theorem intercalate {separator : String} (hseparator : Inline separator) {g : Expr → Script}
    {e : Expr → Ending} (hg : ∀ x, EndsAs (g x) (e x)) (xs : List Expr) :
    EndsAs ([.text separator].intercalate (xs.map g)) (.series e xs) := by
  induction xs with
  | nil => exact .nothing
  | cons x xs ih =>
    cases xs with
    | nil => simpa [Ending.series] using hg x
    | cons y ys =>
      rw [List.map_cons] at ih
      rw [List.map_cons, List.map_cons, List.intercalate_cons_cons, List.append_assoc]
      exact ih.behind (g x) hseparator

/-- Joined expressions end as the last of them does. -/
theorem joined {separator : String} (hseparator : Inline separator) (xs : List Expr) :
    EndsAs (joined separator xs) (.phrases xs) :=
  intercalate hseparator (fun x => .alone x .edge) xs

/-- An operator between two expressions ends as the second does. -/
theorem infixed (x : Expr) {operator : String} (hoperator : Inline operator) (y : Expr) :
    EndsAs (infixed x operator y) (.part y .edge) :=
  .part [phrase x] hoperator y .edge

/-- An operand ends as itself, or with a bracket. -/
theorem operand (c : Connective) (x : Expr) : EndsAs (operand c x) (.operand c x) := by
  unfold Script.operand Ending.operand
  split
  · exact .word [.text "(", phrase x] (by decide)
  · exact .alone x .edge

/-- What is unquoted ends with a word or a bracket. -/
theorem unquoted {x : Expr} (h : ∀ t ∈ (Form.unquote x).ownTexts, '\n' ∉ t.toList) :
    EndsAs (unquoted x) .word := by
  cases x with
  | sym name =>
    have hname : '\n' ∉ name.toList := h name (by simp [Form.ownTexts])
    exact .word [] (inline_append (by decide) (by simpa using hname))
  | _ => exact .word [.text "$(", phrase _] (by decide)

/-- What has a last line of its own ends with the word on it. -/
theorem ending (before : Script) : EndsAs (before ++ ending) .word := by
  rw [Script.ending, ← List.append_assoc]
  exact .word _ (by decide)

/-- A definition ends with a word. -/
theorem definitionBody (before : Script) (xs : Option (List Expr)) :
    EndsAs (before ++ definitionBody xs) .word := by
  cases xs with
  | none => exact .word before (by decide)
  | some xs =>
    rw [Script.definitionBody, ← List.append_assoc]
    exact .ending _

/-- A block of one statement ends as this does, and any other with a word. -/
theorem block (xs : List Expr) : EndsAs (block xs) (Form.block xs).ending := by
  rcases xs with _ | ⟨x, _ | ⟨y, more⟩⟩
  · exact .ending _
  · exact .alone x .here
  · exact .ending _

/-- Toplevel forms end as the last of them does, behind a line break. -/
theorem lines (xs : List Expr) : EndsAs (Form.toplevel xs).script (.lines xs) := by
  rcases xs with _ | ⟨x, _ | ⟨y, more⟩⟩
  · exact .nothing
  · simpa [Form.script, Ending.lines] using alone x .here
  · obtain ⟨before, hbefore⟩ := exists_last_line x y more
    rw [hbefore]
    exact .line before _

/-- The part that comes last is one of the parts. -/
theorem mem_parts {s : Script} {e : Ending} (h : EndsAs s e) {x : Expr} {m : Margin}
    (hlast : e.last? = some (x, m)) : x ∈ s.parts := by
  induction h with
  | nothing => cases hlast
  | word before ht => cases hlast
  | alone y m' => cases hlast; simp
  | part before ht y m' => cases hlast; simp
  | line before y => cases hlast; simp
  | blank _ ih => simp [ih hlast]

end EndsAs

/-- **The script of every form ends as the form does**, if no text of the tree has a line break. -/
theorem endsAs_script {f : Form} (h : ∀ t ∈ f.ownTexts, '\n' ∉ t.toList) :
    EndsAs f.script f.ending := by
  cases f with
  | leaf c s =>
    by_cases hs : s = ""
    · rw [Form.ending, if_pos hs, hs]
      exact .blank .nothing
    · rw [Form.ending, if_neg hs]
      exact .word [] ⟨hs, endsLine_of_unbroken (h s (by simp [Form.ownTexts]))⟩
  | ratio x y => exact .infixed x (by decide) y
  | pair x y => exact .infixed x (by decide) y
  | lambda x y => exact .infixed x (by decide) y
  | assignment x y => exact .infixed x (by decide) y
  | member x y => exact .infixed x (by decide) y
  | typed x y => exact .part (x.map phrase).toList (by decide) y .edge
  | block xs => exact .block xs
  | range xs => exact .joined (by decide) xs
  | importing word xs => exact .behind [] (by cases word <;> decide) (.joined (by decide) xs)
  | exporting xs => exact .behind [] (by decide) (.joined (by decide) xs)
  | logical c xs => exact .intercalate (by cases c <;> decide) (.operand c) xs
  | toplevel xs => exact .lines xs
  | unquote x => exact .unquoted h
  | definition definer x xs => exact .definitionBody [_, _] xs
  | splat x => exact .word [_] (by decide)
  | tuple xs => exact .word _ (by decide)
  | vector xs => exact .word _ (by decide)
  | mapping xs => exact .word _ (by decide)
  | comparison xs => exact .word _ (by decide)
  | quotation xs => exact .word (.text ":" :: _) (by decide)
  | index x xs => exact .word (phrase x :: _) (by decide)
  | generic x xs => exact .word (phrase x :: _) (by decide)
  | call x xs => exact .word (phrase x :: _) (by decide)
  | macroCall x xs => exact .word (phrase x :: _) (by decide)
  | conditional word first more last => exact .ending _
  | letBlock places xs => exact .ending _
  | moduleDef x xs => exact .ending _

end Script

end ExprPrinter
