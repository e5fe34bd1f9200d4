import ExprPrinter.Session

/-!
# What a session remembers of its printers

A printer stays known under its name until another one is built under that
name.  No other step touches it: not a change of the configuration, not a block
that is entered or left, and not a thread.  `lookup_perform` is that for one
step, with all the steps inside it, and `Later.lookup_eq` for any number of
them.
-/

namespace ExprPrinter.Session

variable {α : Type}

/-! ## Named values -/

/-- Without the entries of another name, the same is found. -/
theorem lookup_filter_of_ne {β : Type} {name other : String} (h : name ≠ other)
    (entries : List (String × β)) :
    (entries.filter fun e => e.1 != other).lookup name = entries.lookup name := by
  induction entries with
  | nil => rfl
  | cons e entries ih =>
    obtain ⟨key, b⟩ := e
    by_cases hkey : key = other
    · have hname : (name == key) = false := by
        rw [hkey]
        exact beq_eq_false_iff_ne.mpr h
      rw [List.filter_cons_of_neg (by simpa using hkey), ih, List.lookup_cons, hname]
    · rw [List.filter_cons_of_pos (by simpa using hkey), List.lookup_cons, List.lookup_cons, ih]

/-- What is bound to a name is found under it. -/
theorem lookup_bind_self {β : Type} (name : String) (b : β) (entries : List (String × β)) :
    (bind name b entries).lookup name = some b := by
  rw [bind, List.lookup_cons, beq_self_eq_true]

/-- Under another name the same is found as before. -/
theorem lookup_bind_of_ne {β : Type} {name other : String} (h : name ≠ other) (b : β)
    (entries : List (String × β)) :
    (bind other b entries).lookup name = entries.lookup name := by
  rw [bind, List.lookup_cons, beq_eq_false_iff_ne.mpr h]
  exact lookup_filter_of_ne h entries

/-! ## Steps -/

mutual

/-- Whether a step builds a printer of that name, by itself or by a step inside it. -/
def Step.builds (name : String) : Step α → Bool
  | .build other _ _ => name == other
  | .within _ _ steps => buildsAny name steps
  | .thread steps => buildsAny name steps
  | .get | .set _ | .reset | .enter _ _ | .exit _ | .use _ _ | .ask _ => false

/-- Whether one of some steps builds a printer of that name. -/
def Step.buildsAny (name : String) : List (Step α) → Bool
  | [] => false
  | step :: steps => step.builds name || buildsAny name steps

end

/-- What is remembered after some steps: what is remembered after the first, if it fails and
failures end them, and otherwise what is remembered after the others. -/
theorem performAll_cons_state (ends : Bool) (s : State) (step : Step α)
    (steps : List (Step α)) :
    (performAll ends s (step :: steps)).2 =
      if ends && (perform s step).1.isFailure then (perform s step).2
      else (performAll ends (perform s step).2 steps).2 := by
  rw [performAll]
  obtain ⟨answer, t⟩ := perform s step
  by_cases hstop : (ends && answer.isFailure) = true
  · rw [if_pos hstop]
    exact congrArg Prod.snd (if_pos hstop)
  · rw [if_neg hstop]
    exact (congrArg Prod.snd (if_neg hstop)).trans rfl

mutual

/-- A step keeps every printer of whose name it builds none. -/
theorem lookup_perform (name : String) (s : State) :
    (step : Step α) → step.builds name = false →
      (perform s step).2.printers.lookup name = s.printers.lookup name
  | .get, _ => by rw [perform]
  | .set _, _ => by rw [perform]
  | .reset, _ => by rw [perform]
  | .within c guard steps, h => by
    rw [Step.builds] at h
    rw [perform]
    exact lookup_performAll name guard.ends { s with active := c } steps h
  | .enter _ _, _ => by rw [perform]
  | .exit other, _ => by
    rw [perform]
    cases s.saved.lookup other <;> rfl
  | .thread steps, h => by
    rw [Step.builds] at h
    rw [perform]
    exact lookup_performAll name false { s with active := {} } steps h
  | .build other _ _, h => by
    rw [Step.builds] at h
    rw [perform]
    exact lookup_bind_of_ne (beq_eq_false_iff_ne.mp h) _ _
  | .use other _, _ => by
    rw [perform]
    cases s.printers.lookup other <;> rfl
  | .ask _, _ => by rw [perform]

/-- Steps keep every printer of whose name they build none, even if they end early. -/
theorem lookup_performAll (name : String) (ends : Bool) (s : State) :
    (steps : List (Step α)) → Step.buildsAny name steps = false →
      (performAll ends s steps).2.printers.lookup name = s.printers.lookup name
  | [], _ => by rw [performAll]
  | step :: steps, h => by
    rw [Step.buildsAny, Bool.or_eq_false_iff] at h
    have hstep := lookup_perform name s step h.1
    have hsteps := lookup_performAll name ends (perform s step).2 steps h.2
    rw [performAll_cons_state]
    split
    · exact hstep
    · exact hsteps.trans hstep

end

/-! ## Later moments -/

/-- A later moment of a session, up to which no printer of that name is built anew.  In between,
steps are performed, and blocks and threads are entered and left, upon which any configuration may
be the active one. -/
inductive Later (name : String) (s : State) : State → Prop
  | now : Later name s s
  | step {β : Type} {t : State} (h : Later name s t) (step : Step β)
      (hstep : step.builds name = false) : Later name s (perform t step).2
  | turn {t : State} (h : Later name s t) (c : Config) : Later name s { t with active := c }

/-- **Persistence.**  At every later moment the printer is the one it was. -/
theorem Later.lookup_eq {name : String} {s t : State} (h : Later name s t) :
    t.printers.lookup name = s.printers.lookup name := by
  induction h with
  | now => rfl
  | step _ step hstep ih => exact (lookup_perform name _ step hstep).trans ih
  | turn _ _ ih => exact ih

/-- A printer built under a configuration is used as it was built. -/
theorem perform_use_of_later {name : String} {s t : State} {mode : Mode} {choices : Choices}
    (h : Later name (perform s (.build name mode choices : Step α)).2 t)
    (act : Config → Printer → Except Fault α) :
    (perform t (.use name act)).1 = .ofExcept (act t.active (s.active.printer mode choices)) := by
  have hbuilt : (perform s (.build name mode choices : Step α)).2.printers.lookup name =
      some (s.active.printer mode choices) := by
    rw [perform]
    exact lookup_bind_self _ _ _
  have hfound := h.lookup_eq.trans hbuilt
  rw [perform, hfound]

end ExprPrinter.Session
