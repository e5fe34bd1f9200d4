import ExprPrinter.Proofs.Form.Chains
import ExprPrinter.Proofs.Rendering

/-!
# The lines of statements

Conditionals, blocks, `let` forms, definitions and modules take several lines.
The text of such a form is put together here from the texts of its parts: header
lines and the closing `end` at the level of the form, statements one step deeper,
and what stands inside a line at level zero.

A conditional is nested in the tree and flat in the text: the branches of its
chain of conditions follow one another at one level, with one `end` after them.
-/

namespace ExprPrinter

namespace PlainText

variable (width : Int)

/-! ## Texts of parts -/

/-- The text of an expression at a level, as a printer writes it that is not strict. -/
def textAt (x : Expr) (level : Int) : String :=
  (transcript false width x level).text

/-- The statements of a body, each on a new line at the given level. -/
def bodyAt (body : Expr) (level : Int) : String :=
  String.join (body.statements.map fun s => "\n" ++ textAt width s level)

/-- A new line at the given level. -/
def lineAt (level : Int) (s : String) : String :=
  "\n" ++ indentedLine width level s

/-- A word and a condition, and the branch under them, for a conditional at the given level. -/
def branchAt (level : Int) (word : String) (branch : Expr × Expr) : String :=
  word ++ " " ++ textAt width branch.1 0 ++ bodyAt width branch.2 (level + 1)

/-- A text at a level begins with the indentation of the level. -/
theorem textAt_eq (x : Expr) (level : Int) :
    textAt width x level = indentation width level ++ written width [.slot (.sub x level)] := by
  rw [textAt, transcript_eq, Transcript.append_of_running rfl]
  rfl

/-- It is what the printer gives that is not strict. -/
theorem render_eq_textAt (x : Expr) (level : Int) :
    ∃ log : List Warning, render false width x level = .ok (textAt width x level, log) := by
  rw [textAt_eq]
  exact ⟨_, render_lenient width level x⟩

/-- Inside a line nothing is indented. -/
theorem textAt_zero (x : Expr) : textAt width x 0 = written width [.slot (.sub x 0)] := by
  have hedge : indentation width 0 = "" := by simp [indentation]
  rw [textAt_eq, hedge, String.empty_append]

/-- The text of an expression with a form is that of its script. -/
theorem textAt_form {x : Expr} {f : Form} (h : x.form? = some f) (level : Int) :
    textAt width x level =
      indentation width level ++ written width (f.script.place level) := by
  rw [textAt_eq, written_form width h]

/-! ## Scripts put at a level -/

section Pieces

variable (level : Int)

/-- A text is written as it is. -/
theorem written_place_text (s : String) (rest : Script) :
    written width (Script.place level (.text s :: rest)) =
      s ++ written width (rest.place level) :=
  written_text width s _

/-- A subexpression in a line is written as at level zero. -/
theorem written_place_phrase (x : Expr) (rest : Script) :
    written width (Script.place level (Script.phrase x :: rest)) =
      textAt width x 0 ++ written width (rest.place level) := by
  rw [textAt_zero]
  exact written_cons width _ _

/-- Scripts are written part by part. -/
theorem written_place_append (s t : Script) :
    written width (Script.place level (s ++ t)) =
      written width (s.place level) ++ written width (t.place level) := by
  rw [place_append, written_append]

/-- Nothing is written for an empty script. -/
theorem written_place_nil : written width (Script.place level []) = "" :=
  written_nil width

/-- A new line begins with its indentation. -/
theorem written_newline (m : Margin) (rest : Script) :
    written width (Script.place level (Script.newline m ++ rest)) =
      "\n" ++ indentation width (m.level level) ++ written width (rest.place level) := by
  have hplace : Script.place level (Script.newline m ++ rest) =
      .text "\n" :: .slot (.indent (m.level level)) :: rest.place level := rfl
  rw [hplace, written_text, written_indent, String.append_assoc]

/-- A statement stands on a line of its own, one step deeper. -/
theorem written_statement (x : Expr) :
    written width (Script.place level (Script.statement x)) =
      "\n" ++ textAt width x (level + 1) := by
  rw [Script.statement, written_newline, textAt_eq, String.append_assoc]
  rfl

/-- What is written for scripts one after the other. -/
theorem written_flatMap {ι : Type} (g : ι → Script) (is : List ι) :
    written width (Script.place level (is.flatMap g)) =
      String.join (is.map fun i => written width (Script.place level (g i))) := by
  induction is with
  | nil => exact written_nil width
  | cons i is ih =>
    rw [List.flatMap_cons, written_place_append, ih, List.map_cons, String.join_cons]

/-- A body has its statements in lines. -/
theorem written_body (xs : List Expr) :
    written width (Script.place level (Script.body xs)) =
      String.join (xs.map fun s => "\n" ++ textAt width s (level + 1)) := by
  rw [Script.body, written_flatMap]
  exact congrArg String.join (List.map_congr_left fun x _ => written_statement width level x)

/-- The end of a form stands on a line of its own. -/
theorem written_ending :
    written width (Script.place level Script.ending) = lineAt width level "end" := by
  rw [Script.ending, written_newline, written_place_text, written_place_nil, String.append_empty,
    lineAt, indentedLine, String.append_assoc]
  rfl

/-- An arm is its word with the condition, and its body below. -/
theorem written_arm (word : Keyword) (condition body : Expr) :
    written width (Script.place level (Script.arm word ⟨condition, body.statements⟩)) =
      branchAt width level word.word (condition, body) := by
  rw [Script.arm, written_place_text, written_place_phrase, written_body, branchAt, bodyAt]
  simp only [String.append_assoc]

/-- The last alternative is below the line of its word, if there is one. -/
theorem written_otherwise (last : Option Expr) :
    written width (Script.place level (Script.otherwise (last.map Expr.statements))) =
      last.elim "" fun e => lineAt width level "else" ++ bodyAt width e (level + 1) := by
  cases last with
  | none => exact written_place_nil width level
  | some e =>
    rw [Option.map_some, Script.otherwise, written_newline, written_place_text, written_body,
      Option.elim_some, lineAt, indentedLine, bodyAt]
    simp only [Margin.level, String.append_assoc]

/-- Joined expressions have the separator between any two of them. -/
theorem written_joined (separator : String) (xs : List Expr) :
    written width (Script.place level (Script.joined separator xs)) =
      separator.intercalate (xs.map fun x => textAt width x 0) := by
  have hphrase : ∀ x : Expr,
      written width (Script.place level [Script.phrase x]) = textAt width x 0 := by
    intro x
    rw [written_place_phrase, written_place_nil, String.append_empty]
  rw [Script.joined, written_intercalate]
  exact congrArg separator.intercalate (List.map_congr_left fun x _ => hphrase x)

/-- Bindings are separated by commas, behind a blank if there are any. -/
theorem written_bindings (xs : List Expr) :
    written width (Script.place level (Script.bindings xs)) =
      if xs.isEmpty then "" else " " ++ ", ".intercalate (xs.map fun x => textAt width x 0) := by
  cases xs with
  | nil => exact written_place_nil width level
  | cons x xs =>
    rw [Script.bindings, written_place_text, written_joined]
    · rfl
    · simp

/-- A separator between any two is a separator before all but the first. -/
theorem intercalate_cons_eq_join (separator s : String) (ts : List String) :
    separator.intercalate (s :: ts) = s ++ String.join (ts.map fun t => separator ++ t) := by
  induction ts generalizing s with
  | nil => simp
  | cons t ts ih =>
    rw [String.intercalate_cons_cons, ih, List.map_cons, String.join_cons]
    simp only [String.append_assoc]

/-- The forms of a module stand on lines of their own, with an empty line between them. -/
theorem written_moduleForms (xs : List Expr) :
    written width (Script.place level (Script.moduleForms xs)) =
      "\n".intercalate (xs.map fun s => "\n" ++ textAt width s (level + 1)) := by
  cases xs with
  | nil => exact written_place_nil width level
  | cons x xs =>
    have hlater : ∀ y : Expr,
        written width (Script.place level (.text "\n" :: Script.statement y)) =
          "\n" ++ ("\n" ++ textAt width y (level + 1)) := by
      intro y
      rw [written_place_text, written_statement]
    rw [Script.moduleForms, written_place_append, written_statement, written_flatMap,
      List.map_cons, intercalate_cons_eq_join, List.map_map]
    simp only [hlater, Function.comp_def]

end Pieces

end PlainText

/-! ## Conditionals -/

namespace PlainText

open ExprPrinter.Expr

variable (width level : Int)

/-- **A conditional is written branch by branch**, along its chain. -/
theorem written_conditional {rest last : Option Expr} {branches : List (Expr × Expr)}
    (h : Continues rest branches last) (word : Keyword) (c b : Expr) :
    written width (Script.place level
        (Script.conditional word ⟨c, b.statements⟩ (chainFrom rest).1 (chainFrom rest).2)) =
      branchAt width level word.word (c, b) ++
        String.join (branches.map fun branch =>
          lineAt width level (branchAt width level "elseif" branch)) ++
        (last.elim "" fun e => lineAt width level "else" ++ bodyAt width e (level + 1)) ++
        lineAt width level "end" := by
  have helseif : ∀ branch : Expr × Expr,
      written width (Script.place level
          (Script.newline .here ++ Script.arm .elseifWord ⟨branch.1, branch.2.statements⟩)) =
        lineAt width level (branchAt width level "elseif" branch) := by
    intro branch
    rw [written_newline, written_arm, lineAt, indentedLine, String.append_assoc]
    rfl
  rw [h.chain_eq, Script.conditional, written_place_append, written_place_append,
    written_place_append, written_arm, written_flatMap, written_otherwise, written_ending,
    List.map_map]
  simp only [Function.comp_def, helseif]

/-- The text of a conditional, with all branches of its chain on the same level. -/
theorem textAt_conditional {h : Head} {rest last : Option Expr} {branches : List (Expr × Expr)}
    (hname : h.name = Kind.conditional.name ∨ h.name = Kind.elseif.name)
    (hrest : Continues rest branches last) (c b : Expr) :
    textAt width (node h (c :: b :: rest.toList)) level =
      indentedLine width level (branchAt width level h.name (c, b)) ++
        String.join (branches.map fun branch =>
          lineAt width level (branchAt width level "elseif" branch)) ++
        (last.elim "" fun e => lineAt width level "else" ++ bodyAt width e (level + 1)) ++
        lineAt width level "end" := by
  -- the head word of either kind is the keyword that is written
  obtain ⟨word, hword, hform⟩ : ∃ word : Keyword, word.word = h.name ∧
      (node h (c :: b :: rest.toList)).form? =
        some (.conditional word ⟨c, b.statements⟩ (chainFrom rest).1 (chainFrom rest).2) := by
    rcases hname with hname | hname
    · exact ⟨.ifWord, hname.symm, (form?_node hname _).trans (conditional?_rest .ifWord c b rest)⟩
    · exact ⟨.elseifWord, hname.symm,
        (form?_node hname _).trans (conditional?_rest .elseifWord c b rest)⟩
  rw [textAt_form width hform, Form.script, written_conditional width level hrest, hword,
    indentedLine]
  simp only [String.append_assoc]

/-! ## Other forms with a body -/

/-- A block with more than one statement, or with none, has a first and a last line. -/
theorem textAt_block {h : Head} (hname : h.name = Kind.block.name) {xs : List Expr}
    (hlength : xs.length ≠ 1) :
    textAt width (node h xs) level =
      indentedLine width level "begin" ++ bodyAt width (node h xs) (level + 1) ++
        lineAt width level "end" := by
  have hstatements : (node h xs).statements = xs := if_pos (beq_iff_eq.mpr hname)
  have hscript : (Form.block xs).script = .text "begin" :: (Script.body xs ++ Script.ending) := by
    rcases xs with _ | ⟨x, _ | ⟨y, more⟩⟩
    · rfl
    · exact absurd rfl hlength
    · rfl
  rw [textAt_form width (form?_node hname xs), hscript, written_place_text, written_place_append,
    written_body, written_ending, bodyAt, hstatements, indentedLine]
  simp only [String.append_assoc]

/-- A block of bindings has them in its first line and its statements below. -/
theorem textAt_letBlock {h : Head} (hname : h.name = Kind.letBlock.name) (body : Expr)
    (bindings : List Expr) :
    textAt width (node h (body :: bindings)) level =
      indentedLine width level "let" ++
        (if bindings.isEmpty then ""
          else " " ++ ", ".intercalate (bindings.map fun x => textAt width x 0)) ++
        bodyAt width body (level + 1) ++ lineAt width level "end" := by
  rw [textAt_form width (form?_node hname _), Form.script, List.cons_append, List.cons_append,
    written_place_text, written_place_append, written_place_append, written_bindings,
    written_body, written_ending, bodyAt, indentedLine]
  simp only [String.append_assoc]

/-- A definition has its signature in its first line and its statements below. -/
theorem textAt_definition {h : Head}
    (hname : h.name = Kind.function.name ∨ h.name = Kind.macroDef.name) (signature body : Expr) :
    textAt width (node h [signature, body]) level =
      indentedLine width level (h.name ++ " " ++ textAt width signature 0) ++
        bodyAt width body (level + 1) ++ lineAt width level "end" := by
  obtain ⟨definer, hword, hform⟩ : ∃ definer : Definer, definer.word.word = h.name ∧
      (node h [signature, body]).form? =
        some (.definition definer signature (some body.statements)) := by
    rcases hname with hname | hname
    · exact ⟨.function, hname.symm, form?_node hname _⟩
    · exact ⟨.macroDef, hname.symm, form?_node hname _⟩
  rw [textAt_form width hform, Form.script, written_place_text, written_place_phrase, hword,
    Script.definitionBody, written_place_append, written_body, written_ending, indentedLine, bodyAt]
  simp only [String.append_assoc]

/-- A module has its name in its first line and its forms below, with empty lines between them. -/
theorem textAt_moduleDef {h : Head} (hname : h.name = Kind.moduleDef.name) (name : Expr)
    (body : Option Expr) :
    textAt width (node h (name :: body.toList)) level =
      indentedLine width level ("module " ++ textAt width name 0) ++
        "\n".intercalate ((body.elim [] statements).map fun s =>
          "\n" ++ textAt width s (level + 1)) ++
        lineAt width level "end" := by
  have hform : (node h (name :: body.toList)).form? =
      some (.moduleDef name (body.elim [] statements)) := by
    rw [form?_node hname]
    cases body <;> rfl
  rw [textAt_form width hform, Form.script, List.cons_append, List.cons_append,
    written_place_text, written_place_phrase, written_place_append, written_moduleForms,
    written_ending, indentedLine]
  simp only [String.append_assoc]

end PlainText

open PlainText ExprPrinter.Expr in
/-- **Statements in lines.**  At every level and with every width a printer that is not strict has a
text for every expression.

The text of a conditional is its keyword with the first condition, behind the indentation of the
level, and its branch one step deeper; the same with `elseif` for each `elseif` node that continues
it; the alternative that is no well-formed `elseif` node, if there is one, as a body under `else`;
and one `end`.  Every conditional that is supported is of this form.

A block with other than one statement, a `let`, a function or macro with a body, and a module are
their header line, their statements one step deeper, and `end`.  Between the forms of a module there
are empty lines. -/
theorem statements_in_lines (width level : Int) :
    (∀ (x : Expr) (l : Int), ∃ log : List Warning,
      PlainText.render false width x l = .ok (textAt width x l, log)) ∧
    (∀ (h : Head) (c b : Expr) (rest last : Option Expr) (branches : List (Expr × Expr)),
      h.name = Kind.conditional.name ∨ h.name = Kind.elseif.name →
      Continues rest branches last →
      textAt width (node h (c :: b :: rest.toList)) level =
        indentedLine width level (branchAt width level h.name (c, b)) ++
          String.join (branches.map fun branch =>
            lineAt width level (branchAt width level "elseif" branch)) ++
          (last.elim "" fun e => lineAt width level "else" ++ bodyAt width e (level + 1)) ++
          lineAt width level "end") ∧
    (∀ (h : Head) (xs : List Expr),
      h.name = Kind.conditional.name ∨ h.name = Kind.elseif.name →
      (node h xs).isSupported = true →
      ∃ (c b : Expr) (rest last : Option Expr) (branches : List (Expr × Expr)),
        xs = c :: b :: rest.toList ∧ Continues rest branches last) ∧
    (∀ (h : Head) (xs : List Expr), h.name = Kind.block.name → xs.length ≠ 1 →
      textAt width (node h xs) level =
        indentedLine width level "begin" ++ bodyAt width (node h xs) (level + 1) ++
          lineAt width level "end") ∧
    (∀ (h : Head) (body : Expr) (bindings : List Expr), h.name = Kind.letBlock.name →
      textAt width (node h (body :: bindings)) level =
        indentedLine width level "let" ++
          (if bindings.isEmpty then ""
            else " " ++ ", ".intercalate (bindings.map fun x => textAt width x 0)) ++
          bodyAt width body (level + 1) ++ lineAt width level "end") ∧
    (∀ (h : Head) (signature body : Expr),
      h.name = Kind.function.name ∨ h.name = Kind.macroDef.name →
      textAt width (node h [signature, body]) level =
        indentedLine width level (h.name ++ " " ++ textAt width signature 0) ++
          bodyAt width body (level + 1) ++ lineAt width level "end") ∧
    (∀ (h : Head) (name : Expr) (body : Option Expr), h.name = Kind.moduleDef.name →
      textAt width (node h (name :: body.toList)) level =
        indentedLine width level ("module " ++ textAt width name 0) ++
          "\n".intercalate ((body.elim [] statements).map fun s =>
            "\n" ++ textAt width s (level + 1)) ++
          lineAt width level "end") := by
  refine ⟨render_eq_textAt width, ?conditional, ?chain, ?block, ?letBlock, ?definition,
    ?moduleDef⟩
  case conditional =>
    intro h c b rest last branches hname hrest
    exact textAt_conditional width level hname hrest c b
  case chain =>
    intro h xs hname hsupported
    obtain ⟨c, b, rest, hxs⟩ := exists_of_isSupported hname hsupported
    obtain ⟨branches, last, hrest⟩ := exists_continues rest
    exact ⟨c, b, rest, last, branches, hxs, hrest⟩
  case block =>
    intro h xs hname hlength
    exact textAt_block width level hname hlength
  case letBlock =>
    intro h body bindings hname
    exact textAt_letBlock width level hname body bindings
  case definition =>
    intro h signature body hname
    exact textAt_definition width level hname signature body
  case moduleDef =>
    intro h name body hname
    exact textAt_moduleDef width level hname name body

open PlainText ExprPrinter.Expr in
/-- An `elseif` node with too few children does not continue a chain, and is the body under `else`. -/
theorem malformed_elseif_under_else :
    Continues
      (some (node (.constant .elseif)
        [sym "p", sym "q", node (.constant .elseif) [sym "r"]]))
      [(sym "p", sym "q")] (some (node (.constant .elseif) [sym "r"])) ∧
    textAt 2
      (node (.constant .conditional) [sym "a", sym "b", node (.constant .elseif)
        [sym "p", sym "q", node (.constant .elseif) [sym "r"]]]) 1 =
      indentedLine 2 1 (branchAt 2 1 "if" (sym "a", sym "b")) ++
        lineAt 2 1 (branchAt 2 1 "elseif" (sym "p", sym "q")) ++
        (lineAt 2 1 "else" ++ bodyAt 2 (node (.constant .elseif) [sym "r"]) 2) ++
        lineAt 2 1 "end" := by
  have hlast : Continues (some (node (.constant .elseif) [sym "r"])) []
      (some (node (.constant .elseif) [sym "r"])) :=
    .alternative (by decide)
  have hchain : Continues
      (some (node (.constant .elseif)
        [sym "p", sym "q", node (.constant .elseif) [sym "r"]]))
      [(sym "p", sym "q")] (some (node (.constant .elseif) [sym "r"])) :=
    .elseif rfl hlast
  refine ⟨hchain, ?_⟩
  have hlines := (statements_in_lines 2 1).2.1 (.constant .conditional) (sym "a") (sym "b") _ _ _
    (.inl rfl) hchain
  rw [List.map_cons, List.map_nil, String.join_cons, String.join_nil, String.append_empty] at hlines
  exact hlines

end ExprPrinter
