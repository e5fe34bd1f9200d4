import ExprPrinter.Proofs.AtWork
import ExprPrinter.Proofs.Session.Printers

/-!
# Printers are snapshots

A printer goes by the settings that it was built with, and by nothing else: the
configuration that is active where it is used, and the thread it is used in,
make no difference.  Along a run the active configuration could be asked for the
width of a step at every line, and for the escaping at the end, but the printer
always tells its own.

So the workers that render a batch may be threads in which nothing has been
configured.  What they give is what would be given without them, one expression
after the other, up to the first failure.
-/

namespace ExprPrinter

/-! ## Along the runs -/

/-- A run of the plain-text printer knows the active configuration by the width of a step only, and
only if it is not told one. -/
theorem PlainText.runAt_active (host : Host) (active : Config) (strict : Bool) (width : Option Int)
    (agenda : Agenda) {t : Transcript} (ht : t.stop = none) :
    runAt ⟨host, active⟩ strict width agenda t =
      runAt ⟨host, {}⟩ strict (some (width.getD active.indentWidth)) agenda t := by
  rw [runAt_eq _ _ strict agenda ht, runAt_eq _ _ strict agenda ht]
  rfl

/-- A run of the markup printer, which tells its width, does not know the active configuration. -/
theorem MarkupPrinter.buildAt_active (p : MarkupPrinter) (host : Host) (active : Config)
    (control : Markup.Control) (frames : List Markup.Frame) (log : Array Warning) :
    Markup.buildAt ⟨host, active⟩ p.strict (some p.width) p.text control frames log =
      Markup.buildAt ⟨host, {}⟩ p.strict (some p.width) p.text control frames log := by
  have hbuild (config : Config) :=
    Markup.buildAt_eq ⟨host, config⟩ (some p.width) p.text p.strict p.width_text control frames log
  rw [hbuild, hbuild]
  rfl

/-! ## Batches -/

namespace Config

/-- Rendering under a configuration is rendering with its settings. -/
theorem render_eq (c : Config) (host : Host) (mode : Mode) (x : Expr) (level : Int) :
    c.render host mode x level =
      Renderer.renderOn ⟨mode, c.indentWidth, c.strict, c.escapeText⟩ host x level :=
  c.renderAt_printer mode {} ⟨host, c⟩ x level

/-- How rendering under a configuration fails: at a value without a form, if the configuration is
strict, or because the host gives up. -/
theorem render_error_cases {c : Config} {host : Host} {mode : Mode} {x : Expr} {level : Int}
    {e : Fault} (h : c.render host mode x level = .error e) :
    (c.strict = true ∧ ∃ f, e = .unsupported f) ∨ ∃ b, e = .breakdown b := by
  rw [render_eq] at h
  rcases Renderer.renderOn_cases ⟨mode, c.indentWidth, c.strict, c.escapeText⟩ host x level with
    ⟨_, hgranted⟩ | ⟨_, _, _, b, _, _, _, hrefused⟩
  · left
    rw [hgranted] at h
    cases hstrict : c.strict with
    | true =>
      rw [hstrict] at h
      cases hrender : Renderer.render ⟨mode, c.indentWidth, true, c.escapeText⟩ x level with
      | ok result =>
        rw [hrender] at h
        cases h
      | error f =>
        rw [hrender] at h
        cases h
        exact ⟨rfl, f, rfl⟩
    | false =>
      -- without strictness no expression fails
      obtain ⟨output, log, hrender⟩ :=
        Renderer.exists_render_lenient c.indentWidth level x mode c.escapeText
      rw [hstrict, hrender] at h
      cases h
  · right
    rw [hrefused] at h
    cases h
    exact ⟨b, rfl⟩

/-- Rendering one expression after the other gives all the outputs, or stops at the first that
fails. -/
theorem mapM_batched (render : Expr → Except Fault (Output × List Warning)) (xs : List Expr) :
    (∃ results : List (Output × List Warning), xs.map render = results.map .ok ∧
      xs.mapM (fun x => batched (render x)) = .ok (results.map Prod.fst)) ∨
    ∃ (before : List Expr) (x : Expr) (after : List Expr) (results : List (Output × List Warning))
        (e : Fault), xs = before ++ x :: after ∧
      before.map render = results.map .ok ∧ render x = .error e ∧
      xs.mapM (fun x => batched (render x)) = .error e.inBatch := by
  induction xs with
  | nil => exact .inl ⟨[], rfl, rfl⟩
  | cons x xs ih =>
    rw [List.mapM_cons]
    cases hx : render x with
    | error e => exact .inr ⟨[], x, xs, [], e, rfl, rfl, hx, rfl⟩
    | ok result =>
      obtain ⟨output, log⟩ := result
      rcases ih with ⟨results, hall, hrun⟩ | ⟨before, y, after, results, e, rfl, hall, hy, hrun⟩
      · refine .inl ⟨(output, log) :: results, ?_, ?_⟩
        · rw [List.map_cons, hx, hall, List.map_cons]
        · rw [hrun]
          rfl
      · refine .inr ⟨x :: before, y, after, (output, log) :: results, e, rfl, ?_, hy, ?_⟩
        · rw [List.map_cons, hx, hall, List.map_cons]
        · rw [hrun]
          rfl

/-- The workers of a batch give what is given under the configuration itself. -/
theorem renderMany_eq (c : Config) (host : Host) {modeName : String} {mode : Mode}
    {workers : Option Int} (hmode : Mode.ofName? modeName = some mode)
    (hworkers : ∀ n ∈ workers, 0 < n) (xs : List Expr) :
    c.renderMany host modeName workers xs =
      xs.mapM fun x => batched (c.render host mode x 0) := by
  have hsome : workers.any (· ≤ 0) = false := by
    cases workers with
    | none => rfl
    | some n =>
      have hn := hworkers n rfl
      exact decide_eq_false (by omega)
  have hrender : ∀ x, (c.printer mode {}).renderAt ⟨host, {}⟩ x 0 = c.render host mode x 0 := by
    intro x
    rw [render, renderAt_printer, renderAt_printer]
  rw [renderMany, hmode]
  simp only [hsome, hrender]
  rfl

end Config

open Session

/-- **Printers are snapshots.**  A printer built while a configuration was active goes by the
settings given for it and, where none was given, by those of that configuration.  This is so on every
host, whatever configuration is active where it is used, and at every later moment of a session, in
any block and in any thread.

It is so along the runs.  From every point of a run of plain text the active configuration matters by
the width of a step only, and only if none is told; from every point of a run of a markup printer it
does not matter.

Consequently, a batch in a known mode and with a positive number of workers, if one is given, has
the outputs of its expressions rendered under the configuration, in their order.  Or else the fault
is that of the first expression that fails: it is a value without a form, and the configuration is
strict, or the host gave up. -/
theorem printers_are_snapshots {α : Type} (c : Config) (mode : Mode) (choices : Choices)
    (host : Host) :
    (∀ (active : Config) (x : Expr) (level : Int),
      (c.printer mode choices).renderAt ⟨host, active⟩ x level =
        Renderer.renderOn ⟨mode, choices.width.getD c.indentWidth, choices.strict.getD c.strict,
          choices.escape.getD c.escapeText⟩ host x level) ∧
    (∀ (active : Config) (strict : Bool) (width : Option Int) (agenda : Agenda)
        (t : Transcript), t.stop = none →
      PlainText.runAt ⟨host, active⟩ strict width agenda t =
        PlainText.runAt ⟨host, {}⟩ strict (some (width.getD active.indentWidth)) agenda t) ∧
    (∀ (active : Config) (p : MarkupPrinter) (control : Markup.Control)
        (frames : List Markup.Frame) (log : Array Warning),
      Markup.buildAt ⟨host, active⟩ p.strict (some p.width) p.text control frames log =
        Markup.buildAt ⟨host, {}⟩ p.strict (some p.width) p.text control frames log) ∧
    (∀ (name : String) (s t : State), s.active = c →
      Later name (perform s (.build name mode choices : Step α)).2 t →
      ∀ (report : Except Fault (Output × List Warning) → Except Fault α) (x : Expr) (level : Int),
        (perform t (.use name fun active p => report (p.renderAt ⟨host, active⟩ x level))).1 =
          .ofExcept (report (Renderer.renderOn ⟨mode, choices.width.getD c.indentWidth,
            choices.strict.getD c.strict, choices.escape.getD c.escapeText⟩ host x level))) ∧
    (∀ (modeName : String) (workers : Option Int) (xs : List Expr),
      Mode.ofName? modeName = some mode → (∀ n ∈ workers, 0 < n) →
      (∃ results : List (Output × List Warning),
        xs.map (fun x => c.render host mode x 0) = results.map .ok ∧
        c.renderMany host modeName workers xs = .ok (results.map Prod.fst)) ∨
      ∃ (before : List Expr) (x : Expr) (after : List Expr)
          (results : List (Output × List Warning)) (e : Fault),
        xs = before ++ x :: after ∧
        before.map (fun x => c.render host mode x 0) = results.map .ok ∧
        c.render host mode x 0 = .error e ∧
        (c.strict = true ∧ (∃ f, e = .unsupported f ∧
            c.renderMany host modeName workers xs = .error (.unsupportedInBatch f)) ∨
          ∃ b, e = .breakdown b ∧
            c.renderMany host modeName workers xs = .error (.breakdown b))) := by
  refine ⟨?_, ?_, ?_, ?_, ?_⟩
  · intro active x level
    exact c.renderAt_printer mode choices ⟨host, active⟩ x level
  · intro active strict width agenda t ht
    exact PlainText.runAt_active host active strict width agenda ht
  · intro active p control frames log
    exact p.buildAt_active host active control frames log
  · rintro name s t rfl hlater report x level
    rw [perform_use_of_later hlater, Config.renderAt_printer]
    rfl
  · intro modeName workers xs hmode hworkers
    rw [Config.renderMany_eq c host hmode hworkers]
    rcases Config.mapM_batched (fun x => c.render host mode x 0) xs with
      hall | ⟨before, x, after, results, e, hxs, hbefore, hx, hrun⟩
    · exact .inl hall
    · refine .inr ⟨before, x, after, results, e, hxs, hbefore, hx, ?_⟩
      rcases Config.render_error_cases hx with ⟨hstrict, f, rfl⟩ | ⟨b, rfl⟩
      · exact .inl ⟨hstrict, f, rfl, hrun⟩
      · exact .inr ⟨b, rfl, hrun⟩

/-- A printer built under a configuration that escapes, with a width of its own, is used in a thread
after another configuration was set, from the middle of its runs as well, and a batch of a name and a
value of unknown kind is rendered by two workers. -/
theorem snapshot_used_in_threads :
    (∃ s t : State, s.active = ⟨4, true, false⟩ ∧ t.active = {} ∧
      Later "out" (perform s (.build "out" .html { width := some 3 } : Step Output)).2 t ∧
      (perform t (.use "out" fun active p =>
          (p.renderAt ⟨{}, active⟩ (.sym "a<b") 1).map Prod.fst)).1 =
        .ofExcept ((Renderer.renderOn ⟨.html, 3, false, true⟩ {} (.sym "a<b") 1).map Prod.fst)) ∧
    PlainText.runAt ⟨{}, ⟨8, false, true⟩⟩ false none [.slot (.indent 1)] { text := "a" } =
      PlainText.runAt ⟨{}, {}⟩ false (some 8) [.slot (.indent 1)] { text := "a" } ∧
    ∃ results : List (Output × List Warning),
      [.sym "a<b", .node (.spelled "riddle") []].map
        (fun x => Config.render ⟨4, true, false⟩ {} .html x 0) = results.map .ok ∧
      Config.renderMany ⟨4, true, false⟩ {} "html" (some 2)
        [.sym "a<b", .node (.spelled "riddle") []] = .ok (results.map Prod.fst) := by
  obtain ⟨_, hruns, _, hsession, hbatch⟩ :=
    printers_are_snapshots (α := Output) ⟨4, true, false⟩ .html { width := some 3 } {}
  refine ⟨?_, hruns ⟨8, false, true⟩ false none _ _ rfl, ?_⟩
  · let s : State := { active := ⟨4, true, false⟩ }
    let u : State := (perform s (.build "out" .html { width := some 3 } : Step Output)).2
    have hset : Later "out" u (perform u (.set ⟨8, false, true⟩ : Step Output)).2 :=
      .step .now _ rfl
    have hlater := hset.turn {}
    exact ⟨s, _, rfl, rfl, hlater, hsession "out" s _ rfl hlater
      (fun result => result.map Prod.fst) (.sym "a<b") 1⟩
  · have hname : PlainText.asked .markup false 4 [.slot (.sub (.sym "a<b") 0)] = [] := by
      have hform : (Expr.sym "a<b").form? = some (.leaf (.ofSymbol "a<b") "a<b") := rfl
      rw [PlainText.asked_form_cons _ _ _ hform, Expr.demands, hform]
      simp [Expr.decimals, Form.margins, Form.script, Piece.margin?, Script.place, Piece.move]
    have hriddle : PlainText.asked .markup false 4
        [.slot (.sub (.node (.spelled "riddle") []) 0)] = [] := by
      have hform : (Expr.node (.spelled "riddle") []).form? = none := by decide
      rw [PlainText.asked_gap_cons _ _ _ hform, Expr.demands, hform]
      simp [Expr.isPlain, Expr.fallback, Script.place, Piece.move]
    have hworkers : ∀ n ∈ some (2 : Int), 0 < n := by decide
    rcases hbatch "html" (some 2) _ (by decide) hworkers with
      hall | ⟨before, x, after, _, e, hxs, _, hx, hfails⟩
    · exact hall
    · rcases hfails with ⟨hstrict, _⟩ | ⟨b, rfl, _⟩
      · cases hstrict
      · -- the host is asked for the indentation of the first lines only
        have hasked : Renderer.asked ⟨.html, 4, false, true⟩ x 0 = [.spaces 0] := by
          have hmem : x ∈ [.sym "a<b", .node (.spelled "riddle") []] := by simp [hxs]
          rcases List.mem_cons.mp hmem with rfl | hmem
          · rw [Renderer.asked, hname]
            rfl
          · cases List.mem_singleton.mp hmem
            rw [Renderer.asked, hriddle]
            rfl
        obtain ⟨output, log, hrender⟩ := Renderer.exists_render_lenient 4 0 x .html true
        rw [Config.render_eq, Renderer.renderOn, hasked, hrender] at hx
        cases hx

end ExprPrinter
