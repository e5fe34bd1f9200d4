import ExprPrinter.Proofs.PlainText.Expansion
import ExprPrinter.Proofs.Rendering
import ExprPrinter.Proofs.Script.LineStarts

/-!
# What level and width can do to a text

The text of an expression is an outline that does not know of any level or
width, filled in.  An outline consists of literal texts and of marks for the
indentation, each mark so many steps to the right of the whole expression, or
so many steps to the right of the left edge.  It is found by the same run as
the text, with depths instead of levels: `written_realise`.

Marks stand only where a line starts, because that is so in the script of every
form.  Hence level and width can only change how far the lines of a text are
indented, and without its leading spaces each line is the same for all of them:
`unindent_filled`.
-/

namespace ExprPrinter

/-- How far something stands to the right: so many steps from the whole expression, or from the left
edge. -/
inductive Depth where
  | relative (steps : Nat)
  | absolute (steps : Nat)
  deriving DecidableEq, Repr

namespace Depth

/-- One step more to the right. -/
def deeper : Depth → Depth
  | relative n => relative (n + 1)
  | absolute n => absolute (n + 1)

/-- The depth of a margin, for a form at the given depth. -/
def ofMargin (base : Depth) : Margin → Depth
  | .here => base
  | .deeper => base.deeper
  | .edge => absolute 0

/-- The nesting level of a depth, if the whole expression is at the given level. -/
def level (whole : Int) : Depth → Int
  | relative n => whole + n
  | absolute n => n

/-- A margin at a depth has the level of the margin at the level of the depth. -/
theorem level_ofMargin (whole : Int) (base : Depth) (m : Margin) :
    (base.ofMargin m).level whole = m.level (base.level whole) := by
  cases m with
  | here => rfl
  | deeper => cases base <;> simp [ofMargin, deeper, level, Margin.level, Int.add_assoc]
  | edge => rfl

end Depth

/-- A piece of an outline: a literal text, or a mark for the indentation of a line. -/
inductive Stroke where
  | literal (s : String)
  | mark (d : Depth)
  deriving DecidableEq, Repr

namespace Stroke

/-- What a stroke comes to, with the given width and the whole expression at the given level. -/
def fill (width level : Int) : Stroke → String
  | literal s => s
  | mark d => String.ofList (List.replicate (d.level level * width).toNat ' ')

/-- What an outline comes to. -/
def fillAll (width level : Int) (outline : List Stroke) : String :=
  String.join (outline.map (fill width level))

/-- Every mark comes directly after a literal that ends a line. -/
def MarksStartLines (outline : List Stroke) : Prop :=
  ∀ before d after, outline = before ++ mark d :: after →
    ∃ earlier s, before = earlier ++ [literal (s ++ "\n")]

/-- The same, told from left to right.  The flag says whether a literal that ends a line stands
before the first stroke. -/
def StartsLines : Bool → List Stroke → Prop
  | _, [] => True
  | _, literal s :: rest => StartsLines (endsLine s) rest
  | fresh, mark _ :: rest => fresh = true ∧ StartsLines false rest

/-- What stands directly before a mark is a literal that ends a line, or nothing at all, if the flag
allows that. -/
theorem literal_before_mark {fresh : Bool} {outline : List Stroke} (h : StartsLines fresh outline)
    {before : List Stroke} {d : Depth} {after : List Stroke}
    (hsplit : outline = before ++ mark d :: after) :
    (before = [] ∧ fresh = true) ∨ ∃ earlier s, before = earlier ++ [literal (s ++ "\n")] := by
  induction outline generalizing fresh before with
  | nil => simp at hsplit
  | cons stroke rest ih =>
    cases before with
    | nil =>
      obtain ⟨rfl, rfl⟩ := List.cons.inj hsplit
      rw [StartsLines] at h
      exact Or.inl ⟨rfl, h.1⟩
    | cons first before =>
      obtain ⟨rfl, hrest⟩ := List.cons.inj hsplit
      right
      cases stroke with
      | literal s =>
        rw [StartsLines] at h
        rcases ih h hrest with ⟨rfl, hends⟩ | ⟨earlier, t, rfl⟩
        · obtain ⟨t, rfl⟩ := eq_append_of_endsLine hends
          exact ⟨[], t, rfl⟩
        · exact ⟨literal s :: earlier, t, rfl⟩
      | mark e =>
        rw [StartsLines] at h
        rcases ih h.2 hrest with ⟨_, hfalse⟩ | ⟨earlier, t, rfl⟩
        · cases hfalse
        · exact ⟨mark e :: earlier, t, rfl⟩

/-- A mark that begins a line stands right behind a line break. -/
theorem StartsLines.marksStartLines {outline : List Stroke} (h : StartsLines false outline) :
    MarksStartLines outline := by
  intro before d after hsplit
  rcases literal_before_mark h hsplit with ⟨_, hfalse⟩ | hliteral
  · cases hfalse
  · exact hliteral

end Stroke

/-! ## Outlines -/

namespace Expr

open Script

/-- Whatever takes the place of an expression begins its lines with marks. -/
theorem startsLines_expansion (x : Expr) : StartsLines false x.expansion := by
  unfold expansion
  split
  · exact startsLines_script _
  · exact x.startsLines_sentinel

end Expr

/-- The outline of pieces at depths, from left to right. -/
def outline : List (Piece Depth) → List Stroke
  | [] => []
  | .text s :: rest => .literal s :: outline rest
  | .slot (.indent d) :: rest => .mark d :: outline rest
  | .slot (.sub x d) :: rest => outline (x.expansion.map (Piece.move d.ofMargin) ++ rest)
termination_by agenda => (Script.weigh agenda, agenda.length)
decreasing_by
  · apply Prod.Lex.right' <;> simp
  · apply Prod.Lex.right' <;> simp
  · apply Prod.Lex.left
    simpa using x.weigh_expansion_lt d.ofMargin

/-- The marks of an outline start lines if the indentations in the pieces do. -/
theorem startsLines_outline {fresh : Bool} (agenda : List (Piece Depth))
    (h : Script.StartsLines fresh agenda) : Stroke.StartsLines fresh (outline agenda) := by
  fun_induction outline agenda generalizing fresh with
  | case1 => rw [Stroke.StartsLines]; trivial
  | case2 s rest ih =>
    rw [Script.startsLines_text] at h
    rw [Stroke.StartsLines]
    exact ih h
  | case3 d rest ih =>
    rw [Script.startsLines_indent] at h
    rw [Stroke.StartsLines]
    exact ⟨h.1, ih h.2⟩
  | case4 x d rest ih =>
    rw [Script.startsLines_sub] at h
    have hexpansion : Script.StartsLines fresh (x.expansion.map (Piece.move d.ofMargin)) :=
      (Script.startsLines_move _ _ _).mpr (x.startsLines_expansion.weaken fresh)
    exact ih (hexpansion.append h)

/-- Pieces at depths, put at levels. -/
def realise (level : Int) (agenda : List (Piece Depth)) : Agenda :=
  agenda.map (Piece.move (Depth.level level))

/-- Pieces are put at their levels one by one. -/
theorem realise_append (level : Int) (first second : List (Piece Depth)) :
    realise level (first ++ second) = realise level first ++ realise level second :=
  List.map_append

/-- A script put at a depth and then at a level is at the level of that depth. -/
theorem realise_move (level : Int) (d : Depth) (s : Script) :
    realise level (s.map (Piece.move d.ofMargin)) = s.place (d.level level) := by
  rw [realise, Script.place, List.map_map]
  apply List.map_congr_left
  intro p _
  cases p with
  | text s => rfl
  | slot s => cases s <;> simp [Piece.move, Slot.move, Depth.level_ofMargin]

namespace PlainText

/-- **Outlines.**  What is written for pieces at depths is their outline, filled in. -/
theorem written_realise (width level : Int) (agenda : List (Piece Depth)) :
    written width (realise level agenda) = Stroke.fillAll width level (outline agenda) := by
  fun_induction outline agenda with
  | case1 => simp [realise, Stroke.fillAll]
  | case2 s rest ih =>
    have hcons : realise level (.text s :: rest) = .text s :: realise level rest := rfl
    rw [hcons, written_text, ih]
    simp [Stroke.fillAll, Stroke.fill]
  | case3 d rest ih =>
    have hcons : realise level (.slot (.indent d) :: rest) =
        .slot (.indent (d.level level)) :: realise level rest := rfl
    rw [hcons, written_indent, ih]
    simp [Stroke.fillAll, Stroke.fill, indentation]
  | case4 x d rest ih =>
    have hcons : realise level (.slot (.sub x d) :: rest) =
        .slot (.sub x (d.level level)) :: realise level rest := rfl
    rw [realise_append, realise_move, written_append] at ih
    rw [hcons, written_cons, written_expansion, ih]

end PlainText

/-! ## Without leading spaces -/

/-- Characters without the spaces at the start of each line.  The flag says whether a line starts
here. -/
def unindentFrom : Bool → List Char → List Char
  | _, [] => []
  | start, c :: cs =>
    if start && c == ' ' then unindentFrom true cs else c :: unindentFrom (c == '\n') cs

/-- A text without the spaces at the start of each line. -/
def unindent (s : String) : String :=
  String.ofList (unindentFrom true s.toList)

/-- Spaces at the start of a line are dropped. -/
theorem unindentFrom_spaces (count : Nat) (cs : List Char) :
    unindentFrom true ((String.ofList (List.replicate count ' ')).toList ++ cs) =
      unindentFrom true cs := by
  rw [String.toList_ofList]
  induction count with
  | zero => rfl
  | succ n ih => simpa [List.replicate_succ, unindentFrom] using ih

/-- Two texts that agree after a common beginning agree with it, if they do wherever a line may
start.  After a beginning that ends a line, a line starts. -/
theorem unindentFrom_append_congr {cs ds es : List Char} (start : Bool)
    (h : ∀ flag, (cs.getLast? = some '\n' → flag = true) →
      unindentFrom flag ds = unindentFrom flag es) :
    unindentFrom start (cs ++ ds) = unindentFrom start (cs ++ es) := by
  induction cs generalizing start with
  | nil => exact h start (by simp)
  | cons c cs ih =>
    -- Only if nothing of the beginning is left does it matter that a line ends with `c`.
    have hrest : ∀ flag, (c = '\n' → flag = true) →
        unindentFrom flag (cs ++ ds) = unindentFrom flag (cs ++ es) := by
      intro flag hflag
      cases cs with
      | nil => exact h flag fun hlast => hflag (by simpa using hlast)
      | cons d rest => exact ih flag fun other hother => h other (by simpa using hother)
    rw [List.cons_append, List.cons_append, unindentFrom, unindentFrom]
    split
    · exact hrest true fun _ => rfl
    · rw [hrest (c == '\n') fun hc => by simp [hc]]

/-- Without its leading spaces, what a filled outline says does not depend on level and width, if
its marks start lines. -/
theorem unindentFrom_fillAll (width level width' level' : Int) {fresh start : Bool}
    (outline : List Stroke) (h : Stroke.StartsLines fresh outline)
    (hstart : fresh = true → start = true) :
    unindentFrom start (Stroke.fillAll width level outline).toList =
      unindentFrom start (Stroke.fillAll width' level' outline).toList := by
  induction outline generalizing fresh start with
  | nil => rfl
  | cons stroke rest ih =>
    cases stroke with
    | literal s =>
      rw [Stroke.StartsLines] at h
      simp only [Stroke.fillAll, List.map_cons, String.join_cons, Stroke.fill,
        String.toList_append]
      apply unindentFrom_append_congr
      intro flag hflag
      exact ih h fun hends => hflag (by simpa [endsLine] using hends)
    | mark d =>
      rw [Stroke.StartsLines] at h
      have hstart := hstart h.1
      subst hstart
      simp only [Stroke.fillAll, List.map_cons, String.join_cons, Stroke.fill,
        String.toList_append]
      rw [unindentFrom_spaces, unindentFrom_spaces]
      exact ih h.2 fun hfalse => by cases hfalse

/-- Without leading spaces, neither width nor level can be told. -/
theorem unindent_filled (width level width' level' : Int) {outline : List Stroke}
    (h : Stroke.StartsLines true outline) :
    unindent (Stroke.fillAll width level outline) =
      unindent (Stroke.fillAll width' level' outline) := by
  rw [unindent, unindent, unindentFrom_fillAll width level width' level' outline h fun _ => rfl]

/-- The outline of an expression, behind the mark of its first line. -/
def Expr.strokes (x : Expr) : List Stroke :=
  outline [.slot (.sub x (.relative 0))]

/-- The outline of an expression begins its lines with marks. -/
theorem Expr.startsLines_strokes (x : Expr) : Stroke.StartsLines false x.strokes :=
  startsLines_outline _ (by simp)

/-- The text of an expression is its outline, filled in. -/
theorem PlainText.text_eq_fillAll (width level : Int) (x : Expr) :
    indentation width level ++ written width [.slot (.sub x level)] =
      Stroke.fillAll width level (.mark (.relative 0) :: x.strokes) := by
  have hrealise : realise level [.slot (.sub x (.relative 0))] = [.slot (.sub x level)] := by
    simp [realise, Piece.move, Slot.move, Depth.level]
  have hwritten := written_realise width level [.slot (.sub x (.relative 0))]
  rw [hrealise, ← Expr.strokes] at hwritten
  rw [hwritten]
  simp [Stroke.fillAll, Stroke.fill, Depth.level, indentation]

/-- **Level and width are indentation, and nothing else.**  For every expression there is an
outline, which begins with the mark for the whole expression and has marks only at the start of a
line.  The text at any level and with any width, negative ones included, is that outline filled
in, and without leading spaces it is always the same. -/
theorem text_is_filled_outline (x : Expr) :
    ∃ (rest : List Stroke) (bare : String),
      Stroke.MarksStartLines rest ∧
      ∀ width level : Int, ∃ (text : String) (log : List Warning),
        PlainText.render false width x level = .ok (text, log) ∧
        text = Stroke.fillAll width level (.mark (.relative 0) :: rest) ∧
        unindent text = bare := by
  have hwhole : Stroke.StartsLines true (.mark (.relative 0) :: x.strokes) := by
    rw [Stroke.StartsLines]
    exact ⟨rfl, x.startsLines_strokes⟩
  refine ⟨x.strokes, unindent (Stroke.fillAll 0 0 (.mark (.relative 0) :: x.strokes)),
    x.startsLines_strokes.marksStartLines, fun width level =>
    ⟨_, _, PlainText.render_lenient width level x, PlainText.text_eq_fillAll width level x, ?_⟩⟩
  rw [PlainText.text_eq_fillAll]
  exact unindent_filled width level 0 0 hwhole

end ExprPrinter
