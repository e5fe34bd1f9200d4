import ExprPrinter.Printer
import ExprPrinter.Proofs.Demands
import ExprPrinter.Proofs.Rendering

/-!
# What printers do where they are used

Where a printer is used, two things could show in what it does: the host, and
the configuration that is active.  The host shows in one way only: if it does
all that is asked for, then the printer does what a renderer with its settings
does, and otherwise the printer fails with the first refusal.  The configuration
does not show at all, because the width of a step and the escaping are given
wherever they could be taken from it.

This is shown of the loops first, by going along their runs: `runAt_eq` and
`buildAt_eq`.  There the width is still optional, and where it is not given,
the configuration does show.
-/

namespace ExprPrinter

/-- The given result, if the host does all that is asked for.  Otherwise the first refusal. -/
def Host.granting {α : Type} (h : Host) (demands : List Demand) (result : Except Fault α) :
    Except Fault α :=
  match demands.findSome? h.refusal? with
  | some b => .error (.breakdown b)
  | none => result

namespace Host

variable {α β : Type} (h : Host)

@[simp] theorem granting_nil (result : Except Fault α) : h.granting [] result = result := rfl

/-- Demands are made one after the other. -/
theorem granting_append (first second : List Demand) (result : Except Fault α) :
    h.granting (first ++ second) result = h.granting first (h.granting second result) := by
  unfold granting
  rw [List.findSome?_append]
  cases first.findSome? h.refusal? <;> rfl

/-- One demand comes before all others. -/
theorem granting_cons (d : Demand) (rest : List Demand) (result : Except Fault α) :
    h.granting (d :: rest) result = h.granting [d] (h.granting rest result) :=
  h.granting_append [d] rest result

/-- What is done after a result is done after it has been granted. -/
theorem granting_bind (demands : List Demand) (result : Except Fault α)
    (next : α → Except Fault β) :
    h.granting demands result >>= next = h.granting demands (result >>= next) := by
  unfold granting
  cases demands.findSome? h.refusal? <;> rfl

/-- What is made of a result is made of it after it has been granted. -/
theorem map_granting (demands : List Demand) (result : Except Fault α) (g : α → β) :
    (h.granting demands result).map g = h.granting demands (result.map g) := by
  unfold granting
  cases demands.findSome? h.refusal? <;> rfl

/-- A host that refuses nothing does not show. -/
theorem granting_of_forall {demands : List Demand} (hall : ∀ d ∈ demands, h.refusal? d = none)
    (result : Except Fault α) : h.granting demands result = result := by
  have hnone : demands.findSome? h.refusal? = none := List.findSome?_eq_none_iff.mpr hall
  rw [granting, hnone]

/-- The first refusal decides. -/
theorem granting_of_first {before after : List Demand} {d : Demand} {b : Breakdown}
    (hbefore : ∀ e ∈ before, h.refusal? e = none) (hd : h.refusal? d = some b)
    (result : Except Fault α) :
    h.granting (before ++ d :: after) result = .error (.breakdown b) := by
  rw [granting_append, granting_of_forall h hbefore, granting, List.findSome?_cons, hd]

/-- A result that is granted is the result, unless something is refused. -/
theorem granting_cases (demands : List Demand) (result : Except Fault α) :
    (∀ d ∈ demands, h.refusal? d = none) ∧ h.granting demands result = result ∨
      ∃ (before : List Demand) (d : Demand) (after : List Demand) (b : Breakdown),
        demands = before ++ d :: after ∧ (∀ e ∈ before, h.refusal? e = none) ∧
          h.refusal? d = some b ∧ h.granting demands result = .error (.breakdown b) := by
  cases hfind : demands.findSome? h.refusal? with
  | none =>
    have hall := List.findSome?_eq_none_iff.mp hfind
    exact .inl ⟨hall, h.granting_of_forall hall result⟩
  | some b =>
    obtain ⟨before, d, after, hsplit, hd, hbefore⟩ := List.findSome?_eq_some_iff.mp hfind
    refine .inr ⟨before, d, after, b, hsplit, hbefore, hd, ?_⟩
    rw [hsplit, h.granting_of_first hbefore hd]

end Host

/-! ## Plain text -/

namespace PlainText

open Transcript

/-- What a printer that has come to the end of its run has for a result. -/
def conclude (width : Int) (t : Transcript) : Except Fault Transcript :=
  match t.stop with
  | none => .ok t
  | some y => .error (.unsupported (failure width t.log y))

/-- A run that is not strict has its transcript for a result. -/
theorem conclude_lenient (width : Int) (agenda : Agenda) {t : Transcript} (ht : t.stop = none) :
    conclude width (run false width agenda t) = .ok (run false width agenda t) := by
  have hstop : (run false width agenda t).stop = none := by
    rw [run_eq_append false width agenda ht, append_of_running ht]
    exact outcome_lenient_stop width agenda
  rw [conclude, hstop]

variable (site : Site) (width : Option Int)

/-- At an expression with a form, its demands come before its script. -/
theorem runAt_form (strict : Bool) {x : Expr} {f : Form} (h : x.form? = some f) (level : Int)
    (rest : Agenda) (t : Transcript) :
    runAt site strict width (.slot (.sub x level) :: rest) t =
      site.host.granting (x.demands .plainText (site.active.stepWidth width) level)
        (runAt site strict width (f.script.place level ++ rest) t) := by
  rw [runAt]
  refine congrArg (site.host.granting _) ?_
  split
  · next g hg => rw [Option.some.inj (hg.symm.trans h)]
  · next hnone => cases hnone.symm.trans h

/-- At a value without a form, a strict printer spells it and fails. -/
theorem runAt_gap_strict {x : Expr} (h : x.form? = none) (level : Int) (rest : Agenda)
    (t : Transcript) :
    runAt site true width (.slot (.sub x level) :: rest) t =
      site.host.granting (x.demands .plainText (site.active.stepWidth width) level)
        (runAt site false width (x.fallback.place 0) {} >>= fun spelled =>
          .error (.unsupported ⟨x.sort, spelled.text, (t.log ++ spelled.log).toList⟩)) := by
  rw [runAt]
  refine congrArg (site.host.granting _) ?_
  split
  · next g hg => cases h.symm.trans hg
  · cases runAt site false width (x.fallback.place 0) {} <;> rfl

/-- At a value without a form, any other printer warns and goes on with the sentinel. -/
theorem runAt_gap_lenient {x : Expr} (h : x.form? = none) (level : Int) (rest : Agenda)
    (t : Transcript) :
    runAt site false width (.slot (.sub x level) :: rest) t =
      site.host.granting (x.demands .plainText (site.active.stepWidth width) level)
        (runAt site false width (x.sentinel.place level ++ rest)
          (t.warn ⟨.plainText, x.sort⟩)) := by
  rw [runAt]
  refine congrArg (site.host.granting _) ?_
  split
  · next g hg => cases h.symm.trans hg
  · rfl

/-- A run that is not strict asks for its demands, and then writes what a run with the width in
force writes. -/
theorem runAt_lenient (agenda : Agenda) {t : Transcript} (ht : t.stop = none) :
    runAt site false width agenda t =
      site.host.granting (asked .plainText false (site.active.stepWidth width) agenda)
        (.ok (run false (site.active.stepWidth width) agenda t)) := by
  induction agenda using agenda_induction generalizing t with
  | nil => rw [runAt, asked_nil, run, Host.granting_nil]
  | text s rest ih => rw [runAt, asked_text, run, ih (t := t.write s) ht]
  | indent level rest ih =>
    rw [runAt, asked_indent, run, ih (t := t.write _) ht]
    rfl
  | form x level rest f hf ih =>
    rw [runAt_form site width false hf, ih ht, asked_form_cons _ _ _ hf, run_form _ _ hf,
      Host.granting_append]
  | gap x level rest hf _ ih =>
    rw [runAt_gap_lenient site width hf, ih (t := t.warn _) ht, asked_sentinel_append,
      asked_gap_cons _ _ _ hf, run_gap_lenient _ hf, if_neg Bool.false_ne_true]
    simp only [Host.granting_append]

/-- The spelling of a value, where it is asked for. -/
theorem runAt_fallback (x : Expr) :
    runAt site false width (x.fallback.place 0) {} =
      site.host.granting
        (asked .plainText false (site.active.stepWidth width) (x.fallback.place 0))
        (.ok (fallback (site.active.stepWidth width) x)) :=
  runAt_lenient site width _ rfl

/-- **Runs where they are made.**  A run asks for its demands, and then comes to the conclusion of a
run with the width in force. -/
theorem runAt_eq (strict : Bool) (agenda : Agenda) {t : Transcript} (ht : t.stop = none) :
    runAt site strict width agenda t =
      site.host.granting (asked .plainText strict (site.active.stepWidth width) agenda)
        (conclude (site.active.stepWidth width)
          (run strict (site.active.stepWidth width) agenda t)) := by
  cases strict with
  | false => rw [runAt_lenient site width agenda ht, conclude_lenient _ agenda ht]
  | true =>
    induction agenda using agenda_induction generalizing t with
    | nil =>
      rw [runAt, asked_nil, run, Host.granting_nil, conclude, ht]
    | text s rest ih => rw [runAt, asked_text, run, ih (t := t.write s) ht]
    | indent level rest ih =>
      rw [runAt, asked_indent, run, ih (t := t.write _) ht]
      rfl
    | form x level rest f hf ih =>
      rw [runAt_form site width true hf, ih ht, asked_form_cons _ _ _ hf, run_form _ _ hf,
        Host.granting_append]
    | gap x level rest hf _ _ =>
      rw [runAt_gap_strict site width hf, runAt_fallback, Host.granting_bind,
        asked_gap_cons _ _ _ hf, run_gap_strict _ hf, Host.granting_append, if_pos rfl,
        List.append_nil]
      rfl

end PlainText

/-- The spelling of a value by a plain-text printer, which tells its width. -/
theorem TextPrinter.spellAt_eq (p : TextPrinter) (site : Site) (x : Expr) :
    p.spellAt site x =
      site.host.granting (PlainText.asked .plainText false p.width (x.fallback.place 0))
        (.ok (PlainText.fallback p.width x)) :=
  PlainText.runAt_fallback site (some p.width) x

/-! ## Markup -/

namespace Markup

open Document PlainText

/-- What a printer that has come to the end of its run has for a result. -/
def conclude (width : Int) (o : Outcome) : Except Fault (Markup × Array Warning) :=
  match o.document with
  | .ok d => .ok (d, o.log)
  | .error y => .error (.unsupported (failure width o.log y))

/-- What is still to come of the part that the printer is at. -/
def Control.letters : Control → Agenda
  | part d => d.letters
  | made _ => []

/-- What is still to come in all frames, the innermost first. -/
def framesLetters : List Frame → Agenda
  | [] => []
  | f :: fs => lettersAll f.rest ++ framesLetters fs

variable (site : Site) (width : Option Int) (text : TextPrinter)

/-- At an expression with a form, its demands come before its layout. -/
theorem buildAt_form (strict : Bool) {x : Expr} {f : Form} (h : x.form? = some f) (level : Int)
    (fs : List Frame) (log : Array Warning) :
    buildAt site strict width text (.part (.slot (.sub x level))) fs log =
      site.host.granting (x.demands .markup (site.active.stepWidth width) level)
        (buildAt site strict width text (.part (f.layout.place level)) fs log) := by
  rw [buildAt]
  refine congrArg (site.host.granting _) ?_
  split
  · next g hg => rw [Option.some.inj (hg.symm.trans h)]
  · next hnone => cases hnone.symm.trans h

/-- At a value without a form, the plain-text printer spells it first; then a strict printer fails,
and any other one warns and goes on with an error unit. -/
theorem buildAt_gap (strict : Bool) {x : Expr} (h : x.form? = none) (level : Int)
    (fs : List Frame) (log : Array Warning) :
    buildAt site strict width text (.part (.slot (.sub x level))) fs log =
      site.host.granting (x.demands .markup (site.active.stepWidth width) level)
        (text.spellAt site x >>= fun spelled =>
          if strict then .error (.unsupported ⟨x.sort, spelled.text, (log ++ spelled.log).toList⟩)
          else buildAt site strict width text (.made (errorUnit spelled.text)) fs
            ((log ++ spelled.log).push ⟨.markup, x.sort⟩)) := by
  rw [buildAt]
  refine congrArg (site.host.granting _) ?_
  split
  · next g hg => cases h.symm.trans hg
  · cases text.spellAt site x <;> rfl

/-- **The machine where it is used.**  It asks for the demands of all that is still to come, and then
comes to the conclusion of the machine with the width in force, if its plain-text printer has that
width, too. -/
theorem buildAt_eq (strict : Bool) (htext : text.width = site.active.stepWidth width) (c : Control)
    (fs : List Frame) (log : Array Warning) :
    buildAt site strict width text c fs log =
      site.host.granting
        (asked .markup strict (site.active.stepWidth width) (c.letters ++ framesLetters fs))
        (conclude (site.active.stepWidth width)
          (build strict (site.active.stepWidth width) c fs log)) := by
  fun_induction build strict (site.active.stepWidth width) c fs log with
  | case1 d log =>
    rw [buildAt, Control.letters, framesLetters, List.nil_append, asked_nil, Host.granting_nil]
    rfl
  | case2 d path done fs log ih =>
    rw [buildAt, ih]
    rfl
  | case3 d path done p rest fs log ih =>
    rw [buildAt, ih, Control.letters, Control.letters, framesLetters, framesLetters, lettersAll,
      List.nil_append, List.append_assoc]
  | case4 s fs log ih =>
    rw [buildAt, ih, Control.letters, Control.letters, letters, asked_letters_text_append,
      List.nil_append]
  | case5 path fs log ih =>
    rw [buildAt, ih]
    rfl
  | case6 path d ds fs log ih =>
    rw [buildAt, ih, Control.letters, Control.letters, framesLetters, letters, lettersAll,
      List.append_assoc]
  | case7 fs log ih =>
    rw [buildAt, ih]
    rfl
  | case8 d ds fs log ih =>
    rw [buildAt, ih, Control.letters, Control.letters, framesLetters, letters, lettersAll,
      List.append_assoc]
  | case9 level fs log ih =>
    have hindent : site.active.indentation width level =
        indentation (site.active.stepWidth width) level := rfl
    rw [buildAt, hindent, ih, Control.letters, Control.letters, letters, List.singleton_append,
      asked_indent, List.nil_append]
  | case10 x level fs log f hf ih =>
    rw [buildAt_form site width text strict hf, ih, Control.letters, Control.letters, letters,
      List.singleton_append, asked_form_cons _ _ _ hf, asked_layout_append, Host.granting_append]
  | case11 x level fs log hf hstrict =>
    subst hstrict
    rw [buildAt_gap site width text true hf, TextPrinter.spellAt_eq, htext, Host.granting_bind,
      Control.letters, letters, List.singleton_append, asked_gap_cons _ _ _ hf,
      Host.granting_append, if_pos rfl, List.append_nil]
    rfl
  | case12 x level fs log hf hstrict spelled ih =>
    cases Bool.eq_false_iff.mpr hstrict
    rw [buildAt_gap site width text false hf, TextPrinter.spellAt_eq, htext, Host.granting_bind,
      Control.letters, letters, List.singleton_append, asked_gap_cons _ _ _ hf,
      Host.granting_append, Host.granting_append]
    exact congrArg _ (congrArg _ ih)

end Markup

/-! ## Printers -/

/-- What is made of a result is made of it whatever a failure is turned into. -/
theorem map_mapError_unsupported {α β : Type} (g : α → β) (result : Except Failure α) :
    (result.mapError Fault.unsupported).map g = (result.map g).mapError .unsupported := by
  cases result <;> rfl

/-- A finished run of the plain-text printer has the text and the warnings that are rendered. -/
theorem PlainText.conclude_transcript (strict : Bool) (width : Int) (x : Expr) (level : Int) :
    (conclude width (transcript strict width x level) >>= fun t => .ok (t.text, t.log.toList)) =
      (render strict width x level).mapError .unsupported := by
  rw [conclude, render]
  cases (transcript strict width x level).stop <;> rfl

/-- What the plain-text printer gives: the text of the renderer with its settings, if all is granted,
the indentation of the first line before anything else. -/
theorem TextPrinter.renderAt_eq (p : TextPrinter) (site : Site) (x : Expr) (level : Int) :
    p.renderAt site x level =
      site.host.granting
        (.spaces (level * p.width) ::
          PlainText.asked .plainText p.strict p.width [.slot (.sub x level)])
        ((PlainText.render p.strict p.width x level).mapError .unsupported) := by
  have hrun : PlainText.runAt site p.strict (some p.width)
      [.text (indentation p.width level), .slot (.sub x level)] {} =
      site.host.granting (PlainText.asked .plainText p.strict p.width [.slot (.sub x level)])
        (PlainText.conclude p.width (PlainText.transcript p.strict p.width x level)) := by
    rw [PlainText.runAt_eq site (some p.width) p.strict _ rfl, PlainText.asked_text,
      PlainText.transcript, PlainText.run, PlainText.run]
    rfl
  rw [Host.granting_cons, ← PlainText.conclude_transcript, ← Host.granting_bind, ← hrun]
  exact Host.granting_bind _ _ _ _

/-- The machine of the markup printer has no document for an expression alone exactly if it is
strict and the expression has a gap. -/
theorem Markup.exists_build_error_iff (strict : Bool) (width : Int) (x : Expr) (level : Int) :
    (∃ y, (build strict width (.part (.slot (.sub x level))) [] #[]).document = .error y) ↔
      strict = true ∧ x.gaps level ≠ [] := by
  rw [build_expr]
  cases x.gaps level with
  | nil => simp [settle]
  | cons y more => cases strict <;> simp [settle]

/-- What the markup printer gives: the document of the renderer with its settings, if all is granted,
the indentation of the first line at last, unless the printer has failed before. -/
theorem MarkupPrinter.renderAt_eq (p : MarkupPrinter) (site : Site) (x : Expr) (level : Int) :
    p.renderAt site x level =
      site.host.granting
        (PlainText.asked .markup p.strict p.width [.slot (.sub x level)] ++
          if p.strict = true ∧ x.gaps level ≠ [] then [] else [.spaces (level * p.width)])
        ((Markup.render p.strict p.width x level).mapError .unsupported) := by
  have hfails := Markup.exists_build_error_iff p.strict p.width x level
  rw [renderAt, Markup.buildAt_eq site (some p.width) p.text p.strict p.width_text,
    Host.granting_bind, Host.granting_append]
  refine congrArg (site.host.granting _) ?_
  show Markup.conclude p.width (Markup.build p.strict p.width _ [] #[]) >>= _ = _
  rw [Markup.render, Markup.conclude]
  cases hdocument : (Markup.build p.strict p.width (.part (.slot (.sub x level))) [] #[]).document with
  | error y =>
    rw [if_pos (hfails.mp ⟨y, hdocument⟩)]
    rfl
  | ok d =>
    have hgoes : ¬(p.strict = true ∧ x.gaps level ≠ []) := by
      rw [← hfails, hdocument]
      rintro ⟨y, hy⟩
      cases hy
    rw [if_neg hgoes]
    exact Host.granting_bind _ _ _ _

/-- What the printer of HTML gives: the document of its markup printer, written out. -/
theorem HtmlPrinter.renderAt_eq (p : HtmlPrinter) (site : Site) (x : Expr) (level : Int) :
    p.renderAt site x level =
      (p.markup.renderAt site x level).map fun (d, log) => (d.html p.escape, log) := by
  rw [renderAt]
  cases p.markup.renderAt site x level <;> rfl

/-! ## Renderers on hosts -/

/-- All that a renderer asks of its host for an expression at a level, in its order.  The indentation
of the first line comes first in plain text, and last in markup. -/
def Renderer.asked (r : Renderer) (x : Expr) (level : Int) : List Demand :=
  match r.mode with
  | .text =>
    .spaces (level * r.width) :: PlainText.asked .plainText r.strict r.width [.slot (.sub x level)]
  | .markup | .html =>
    PlainText.asked .markup r.strict r.width [.slot (.sub x level)] ++
      if r.strict = true ∧ x.gaps level ≠ [] then [] else [.spaces (level * r.width)]

/-- All that a renderer asks for is due to the expression. -/
theorem Renderer.isDue_of_mem_asked {r : Renderer} {x : Expr} {level : Int} {d : Demand}
    (h : d ∈ r.asked x level) : d.IsDue r.width x level := by
  have hfirst : (Demand.spaces (level * r.width)).IsDue r.width x level :=
    .inr (.inr ⟨0, Nat.zero_le _, .inl (by simp)⟩)
  unfold asked at h
  split at h
  · rcases List.mem_cons.mp h with rfl | hrun
    · exact hfirst
    · exact PlainText.isDue_of_mem_asked_sub hrun
  all_goals
    rcases List.mem_append.mp h with hrun | hline
    · exact PlainText.isDue_of_mem_asked_sub hrun
    · split at hline
      · cases hline
      · cases List.mem_singleton.mp hline
        exact hfirst

/-- What a renderer puts out on a host. -/
def Renderer.renderOn (r : Renderer) (host : Host) (x : Expr) (level : Int) :
    Except Fault (Output × List Warning) :=
  host.granting (r.asked x level) ((r.render x level).mapError .unsupported)

/-- A renderer fails on a host with the first refusal of what it asks for.  If nothing is refused,
then it does what it does without a host. -/
theorem Renderer.renderOn_cases (r : Renderer) (host : Host) (x : Expr) (level : Int) :
    (∀ d ∈ r.asked x level, host.refusal? d = none) ∧
        r.renderOn host x level = (r.render x level).mapError .unsupported ∨
      ∃ (before : List Demand) (d : Demand) (after : List Demand) (b : Breakdown),
        r.asked x level = before ++ d :: after ∧ (∀ e ∈ before, host.refusal? e = none) ∧
          host.refusal? d = some b ∧ r.renderOn host x level = .error (.breakdown b) :=
  host.granting_cases _ _

/-- **Printers go by their settings.**  A printer that was built under one configuration and is used
under another one does what the renderer with its settings does on the host. -/
theorem Config.renderAt_printer (c : Config) (mode : Mode) (choices : Choices) (site : Site)
    (x : Expr) (level : Int) :
    (c.printer mode choices).renderAt site x level =
      (c.renderer mode choices).renderOn site.host x level := by
  cases mode with
  | text =>
    rw [printer, Printer.renderAt, TextPrinter.renderAt_eq, Host.map_granting,
      map_mapError_unsupported]
    rfl
  | markup =>
    rw [printer, Printer.renderAt, MarkupPrinter.renderAt_eq, Host.map_granting,
      map_mapError_unsupported]
    rfl
  | html =>
    rw [printer, Printer.renderAt, HtmlPrinter.renderAt_eq, MarkupPrinter.renderAt_eq,
      Host.map_granting, Host.map_granting, map_mapError_unsupported, map_mapError_unsupported]
    refine congrArg (site.host.granting _) (congrArg (Except.mapError _) ?_)
    have hwrite (result : Except Failure (Markup × List Warning)) :
        (result.map fun r => (r.1.html (choices.escape.getD c.escapeText), r.2)).map
            (fun r => (Output.text r.1, r.2)) =
          result.map fun r => (.text (r.1.html (choices.escape.getD c.escapeText)), r.2) := by
      cases result <;> rfl
    exact hwrite _

end ExprPrinter
