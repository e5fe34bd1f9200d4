import ExprPrinter.Proofs.Session.Printers

/-!
# Where a configuration is active

A session answers each step with the configuration that is active after it,
also for the steps inside of blocks and threads.  `momentsAll` puts all these
steps into the order in which they were done, each with the configuration right
before it and the one right after it.

From this record alone one can tell what every configuration has to be, and
`Moment.Scoped` says how.  An exit is the only step that looks back: it brings
back what was active right before its own entry, however many others have been
entered or left in between.  The session does not keep the record.  It only has
what the pending entries have saved, and `Remembers` is what ties the two
together, from step to step.
-/

namespace ExprPrinter.Session

variable {α : Type}

/-! ## The record of a session -/

/-- A step that was done, with the configurations active right before and right after it. -/
structure Moment (α : Type) where
  step : Step α
  before : Config
  after : Config

mutual

/-- The record of a step, from its answer: that of the steps inside it, and then the step itself.
A block starts under its own configuration, and a thread under the default one. -/
def Step.moments (before after : Config) : Step α → Answer α → List (Moment α)
  | .within c guard steps, .block answers | .within c guard steps, .broken answers =>
    momentsAll c steps answers ++ [⟨.within c guard steps, before, after⟩]
  | .thread steps, .block answers =>
    momentsAll {} steps answers ++ [⟨.thread steps, before, after⟩]
  | step, _ => [⟨step, before, after⟩]

/-- The record of steps that were done one after the other, from their answers. -/
def momentsAll (before : Config) :
    List (Step α) → List (Answer α × Config) → List (Moment α)
  | step :: steps, (answer, after) :: answers =>
    step.moments before after answer ++ momentsAll after steps answers
  | _, _ => []

end

/-- Steps that have not been answered have no moments. -/
theorem momentsAll_of_unanswered (before : Config) (steps : List (Step α)) :
    momentsAll before steps [] = [] := by
  cases steps <;> rfl

mutual

/-- Whether an answer is of the sort that a step has, and covers all that is done in it. -/
def Step.Answered : Step α → Answer α → Prop
  | .within _ guard steps, .block answers =>
    AnsweredAll guard.ends steps answers ∧ guard.fails answers = false
  | .within _ guard steps, .broken answers =>
    AnsweredAll guard.ends steps answers ∧ guard.fails answers = true
  | .thread steps, .block answers => AnsweredAll false steps answers
  | .within _ _ _, _ => False
  | .thread _, _ => False
  | _, _ => True

/-- Whether there is an answer for each of some steps, up to the first failure if failures end
them. -/
def AnsweredAll (ends : Bool) : List (Step α) → List (Answer α × Config) → Prop
  | [], answers => answers = []
  | _ :: _, [] => False
  | step :: steps, (answer, _) :: answers =>
    step.Answered answer ∧
      if ends && answer.isFailure then answers = [] else AnsweredAll ends steps answers

end

/-- The name of the context that a step enters. -/
def Step.entered? : Step α → Option String
  | .enter name _ => some name
  | _ => none

/-- The name of the context that a step leaves. -/
def Step.exited? : Step α → Option String
  | .exit name => some name
  | _ => none

/-- No context is entered twice, and none is left twice. -/
def DistinctContexts (moments : List (Moment α)) : Prop :=
  (moments.filterMap fun m => m.step.entered?).Nodup ∧
    (moments.filterMap fun m => m.step.exited?).Nodup

instance (moments : List (Moment α)) : Decidable (DistinctContexts moments) :=
  inferInstanceAs (Decidable (_ ∧ _))

/-- The entry is the last one of that name, and there has been no exit since. -/
def Pending (name : String) (earlier : List (Moment α)) (entry : Moment α) : Prop :=
  entry.step.entered? = some name ∧ ∃ past since : List (Moment α),
    earlier = past ++ entry :: since ∧
      ∀ m ∈ since, m.step.entered? ≠ some name ∧ m.step.exited? ≠ some name

/-- The configuration after a step is the one that it should be, given what was done earlier. -/
def Moment.Scoped (earlier : List (Moment α)) (m : Moment α) : Prop :=
  match m.step with
  | .set c => m.after = c
  | .enter _ c => m.after = c
  | .reset => m.after = {}
  | .exit name =>
    (∀ entry, Pending name earlier entry → m.after = entry.before) ∧
      ((∀ entry, ¬Pending name earlier entry) → m.after = m.before)
  | _ => m.after = m.before

/-! ## Pending entries -/

section Pending

variable {name : String} {earlier : List (Moment α)} {entry m : Moment α}

/-- One more step is the pending entry itself, or else it leaves the pending entry as it is, unless
it enters or leaves a context of that name. -/
theorem pending_concat :
    Pending name (earlier ++ [m]) entry ↔
      m.step.entered? = some name ∧ entry = m ∨
        Pending name earlier entry ∧ m.step.entered? ≠ some name ∧ m.step.exited? ≠ some name := by
  constructor
  · rintro ⟨hentry, past, since, hsplit, hsince⟩
    rcases List.eq_nil_or_concat since with rfl | ⟨since', last, hconcat⟩
    · obtain ⟨_, hlast⟩ := List.append_inj' hsplit rfl
      obtain rfl : m = entry := (List.cons.inj hlast).1
      exact .inl ⟨hentry, rfl⟩
    · rw [List.concat_eq_append] at hconcat
      subst hconcat
      rw [← List.cons_append, ← List.append_assoc] at hsplit
      obtain ⟨hearlier, hlast⟩ := List.append_inj' hsplit rfl
      obtain rfl : m = last := (List.cons.inj hlast).1
      have hkept : ∀ n ∈ since', n.step.entered? ≠ some name ∧ n.step.exited? ≠ some name :=
        fun n hn => hsince n (List.mem_append_left _ hn)
      exact .inr ⟨⟨hentry, past, since', hearlier, hkept⟩, hsince m (by simp)⟩
  · rintro (⟨hm, rfl⟩ | ⟨⟨hentry, past, since, rfl, hsince⟩, hm⟩)
    · exact ⟨hm, earlier, [], rfl, by simp⟩
    · refine ⟨hentry, past, since ++ [m], by simp, ?_⟩
      intro n hn
      rcases List.mem_append.mp hn with hold | hnew
      · exact hsince n hold
      · rwa [List.mem_singleton.mp hnew]

/-- In a session with distinct contexts, an entry is pending until its own exit. -/
theorem pending_of_distinct {later : List (Moment α)}
    (hdistinct : DistinctContexts (earlier ++ m :: later)) (hm : m.step.exited? = some name)
    (hmem : entry ∈ earlier) (hentry : entry.step.entered? = some name) :
    Pending name earlier entry := by
  obtain ⟨past, since, rfl⟩ := List.append_of_mem hmem
  refine ⟨hentry, past, since, rfl, fun n hn => ⟨fun hagain => ?_, fun hagain => ?_⟩⟩
  · have hnodup := hdistinct.1
    simp only [List.filterMap_append, List.filterMap_cons, hentry, List.append_assoc,
      List.cons_append] at hnodup
    have hfresh := (List.nodup_cons.mp (List.nodup_append.mp hnodup).2.1).1
    exact hfresh (List.mem_append_left _ (List.mem_filterMap.mpr ⟨n, hn, hagain⟩))
  · have hnodup := hdistinct.2
    rw [List.filterMap_append] at hnodup
    have hapart := (List.nodup_append.mp hnodup).2.2
    refine hapart name ?_ name ?_ rfl
    · exact List.mem_filterMap.mpr ⟨n, by simp [hn], hagain⟩
    · exact List.mem_filterMap.mpr ⟨m, List.mem_cons_self, hm⟩

end Pending

/-! ## What a session remembers of its entries -/

/-- What is saved under a name is what was active before the pending entry of that name. -/
def Remembers (s : State) (history : List (Moment α)) : Prop :=
  ∀ name c, s.saved.lookup name = some c ↔ ∃ entry, Pending name history entry ∧ entry.before = c

section Remembers

variable {s t : State} {history : List (Moment α)} {m : Moment α}

/-- At the beginning there is nothing to remember. -/
theorem remembers_nil : Remembers {} ([] : List (Moment α)) := by
  intro name c
  constructor
  · intro h
    cases h
  · rintro ⟨entry, ⟨_, past, since, hsplit, _⟩, _⟩
    simp at hsplit

/-- A step that enters and leaves nothing changes nothing in what is remembered. -/
theorem Remembers.quiet (h : Remembers s history) (hsaved : t.saved = s.saved)
    (hentered : m.step.entered? = none) (hexited : m.step.exited? = none) :
    Remembers t (history ++ [m]) := by
  intro name c
  rw [hsaved, h name c]
  simp [pending_concat, hentered, hexited]

/-- Entering a block remembers the configuration before it. -/
theorem Remembers.enter {name : String} {c : Config} (h : Remembers s history)
    (hm : m.step = .enter name c) (hbefore : m.before = s.active)
    (hsaved : t.saved = bind name s.active s.saved) : Remembers t (history ++ [m]) := by
  intro other d
  rw [hsaved]
  have hexited : m.step.exited? = none := by rw [hm]; rfl
  by_cases hname : other = name
  · subst hname
    have hentered : m.step.entered? = some other := by rw [hm]; rfl
    rw [lookup_bind_self]
    simp [pending_concat, hentered, hbefore]
  · have hentered : m.step.entered? ≠ some other := by
      rw [hm]
      exact fun heq => hname (Option.some.inj heq).symm
    rw [lookup_bind_of_ne hname, h other d]
    simp [pending_concat, hentered, hexited]

/-- Leaving a block forgets its own entry, and no other. -/
theorem Remembers.exit {name : String} (h : Remembers s history) (hm : m.step = .exit name)
    (hgone : t.saved.lookup name = none)
    (hkept : ∀ other, other ≠ name → t.saved.lookup other = s.saved.lookup other) :
    Remembers t (history ++ [m]) := by
  intro other c
  have hentered : m.step.entered? = none := by rw [hm]; rfl
  by_cases hname : other = name
  · subst hname
    have hexited : m.step.exited? = some other := by rw [hm]; rfl
    rw [hgone]
    simp [pending_concat, hentered, hexited]
  · have hexited : m.step.exited? ≠ some other := by
      rw [hm]
      exact fun heq => hname (Option.some.inj heq).symm
    rw [hkept other hname, h other c]
    simp [pending_concat, hentered, hexited]

end Remembers

/-- What is removed is not found. -/
theorem lookup_filter_self {β : Type} (name : String) (entries : List (String × β)) :
    (entries.filter fun e => e.1 != name).lookup name = none := by
  rw [List.lookup_eq_none_iff]
  intro e he
  have hne : e.1 ≠ name := by simpa using (List.mem_filter.mp he).2
  exact bne_iff_ne.mpr hne.symm

/-! ## One step, and all steps -/

/-- Every configuration of a record is the one that it should be, after what was done before. -/
def ScopedFrom (history : List (Moment α)) : List (Moment α) → Prop
  | [] => True
  | m :: ms => m.Scoped history ∧ ScopedFrom (history ++ [m]) ms

/-- A history is scoped if both its parts are, the second one after the first. -/
theorem scopedFrom_append (history first second : List (Moment α)) :
    ScopedFrom history (first ++ second) ↔
      ScopedFrom history first ∧ ScopedFrom (history ++ first) second := by
  induction first generalizing history with
  | nil => simp [ScopedFrom]
  | cons m first ih => simp [ScopedFrom, ih, and_assoc]

/-- Every moment of a scoped history is scoped by what was before it. -/
theorem ScopedFrom.scoped {history earlier later : List (Moment α)} {m : Moment α}
    (h : ScopedFrom history (earlier ++ m :: later)) : m.Scoped (history ++ earlier) :=
  ((scopedFrom_append history earlier (m :: later)).mp h).2.1

/-- The record of a step, after the given history, has the right configurations in it, and leads
from a state that remembers the history to one that remembers the record as well. -/
def KeepsScope (history record : List (Moment α)) (t : State) : Prop :=
  ScopedFrom history record ∧ Remembers t (history ++ record)

/-- One moment keeps the scope if it is scoped and remembered. -/
theorem keepsScope_single {history : List (Moment α)} {m : Moment α} {t : State}
    (hm : m.Scoped history) (ht : Remembers t (history ++ [m])) : KeepsScope history [m] t :=
  ⟨⟨hm, trivial⟩, ht⟩

/-- What keeps the scope in two parts keeps it in all. -/
theorem KeepsScope.append {history first second : List (Moment α)} {t u : State}
    (h : KeepsScope history first t) (g : KeepsScope (history ++ first) second u) :
    KeepsScope history (first ++ second) u :=
  ⟨(scopedFrom_append history first second).mpr ⟨h.1, g.1⟩, List.append_assoc _ _ _ ▸ g.2⟩

/-- An exit brings back what was active before its own entry. -/
theorem keepsScope_exit {s : State} {history : List (Moment α)} (h : Remembers s history)
    (name : String) :
    KeepsScope history
      [⟨.exit name, s.active, (perform s (.exit name : Step α)).2.active⟩]
      (perform s (.exit name : Step α)).2 := by
  rw [perform]
  cases hfound : s.saved.lookup name with
  | none =>
    refine keepsScope_single ⟨?_, fun _ => rfl⟩ (h.exit rfl hfound fun _ _ => rfl)
    intro entry hentry
    have hsaved := (h name entry.before).mpr ⟨entry, hentry, rfl⟩
    rw [hfound] at hsaved
    cases hsaved
  | some c =>
    obtain ⟨entry, hentry, rfl⟩ := (h name c).mp hfound
    refine keepsScope_single ⟨?_, fun hnone => absurd hentry (hnone entry)⟩
      (h.exit rfl (lookup_filter_self name s.saved) fun other hne =>
        lookup_filter_of_ne hne s.saved)
    intro entry' hentry'
    have hsame := (h name entry'.before).mpr ⟨entry', hentry', rfl⟩
    exact Option.some.inj (hfound.symm.trans hsame)

/-- Some steps are performed one by one, up to a failure if failures end them. -/
theorem performAll_cons (ends : Bool) (s : State) (step : Step α) (steps : List (Step α)) :
    performAll ends s (step :: steps) =
      if ends && (perform s step).1.isFailure then
        ([((perform s step).1, (perform s step).2.active)], (perform s step).2)
      else
        (((perform s step).1, (perform s step).2.active) ::
            (performAll ends (perform s step).2 steps).1,
          (performAll ends (perform s step).2 steps).2) := by
  rw [performAll]

mutual

/-- **One step.**  A step, with all the steps inside it, leaves every configuration as it should
be. -/
theorem keepsScope_perform {s : State} {history : List (Moment α)} (h : Remembers s history) :
    (step : Step α) →
      KeepsScope history
        (step.moments s.active (perform s step).2.active (perform s step).1) (perform s step).2
  | .get => keepsScope_single rfl (h.quiet rfl rfl rfl)
  | .set c => keepsScope_single rfl (h.quiet rfl rfl rfl)
  | .reset => keepsScope_single rfl (h.quiet rfl rfl rfl)
  | .within c guard steps => by
    have hinner := keepsScope_performAll guard.ends (s := { s with active := c }) h steps
    rw [perform]
    dsimp only
    split <;> exact hinner.append (keepsScope_single rfl (hinner.2.quiet rfl rfl rfl))
  | .enter name c => keepsScope_single rfl (h.enter rfl rfl rfl)
  | .exit name => keepsScope_exit h name
  | .thread steps => by
    have hinner := keepsScope_performAll false (s := { s with active := {} }) h steps
    rw [perform]
    exact hinner.append (keepsScope_single rfl (hinner.2.quiet rfl rfl rfl))
  | .build name mode choices => keepsScope_single rfl (h.quiet rfl rfl rfl)
  | .use name act => by
    rw [perform]
    cases s.printers.lookup name <;> exact keepsScope_single rfl (h.quiet rfl rfl rfl)
  | .ask act => keepsScope_single rfl (h.quiet rfl rfl rfl)

/-- **All steps.**  So do steps one after the other, also if they end early. -/
theorem keepsScope_performAll (ends : Bool) {s : State} {history : List (Moment α)}
    (h : Remembers s history) :
    (steps : List (Step α)) →
      KeepsScope history (momentsAll s.active steps (performAll ends s steps).1)
        (performAll ends s steps).2
  | [] => by
    rw [performAll, momentsAll_of_unanswered]
    exact ⟨trivial, by rwa [List.append_nil]⟩
  | step :: steps => by
    have hstep := keepsScope_perform h step
    rw [performAll_cons]
    split
    · rw [momentsAll, momentsAll_of_unanswered, List.append_nil]
      exact hstep
    · exact hstep.append (keepsScope_performAll ends hstep.2 steps)

end

mutual

/-- Every step that is performed is answered, with all the steps inside it. -/
theorem answered_perform (s : State) : (step : Step α) → step.Answered (perform s step).1
  | .within c guard steps => by
    have hinner := answeredAll_performAll guard.ends { s with active := c } steps
    rw [perform]
    dsimp only
    split
    · next hfails => exact ⟨hinner, hfails⟩
    · next hfails => exact ⟨hinner, Bool.eq_false_iff.mpr hfails⟩
  | .thread steps => answeredAll_performAll false { s with active := {} } steps
  | .get | .set _ | .reset | .enter _ _ | .exit _ | .build _ _ _ | .use _ _ | .ask _ => by
    rw [Step.Answered] <;> simp

/-- Every step gets its answer, up to the first failure if failures end them. -/
theorem answeredAll_performAll (ends : Bool) (s : State) :
    (steps : List (Step α)) → AnsweredAll ends steps (performAll ends s steps).1
  | [] => rfl
  | step :: steps => by
    have hstep := answered_perform s step
    have hrest := answeredAll_performAll ends (perform s step).2 steps
    rw [performAll_cons]
    by_cases hstop : (ends && (perform s step).1.isFailure) = true
    · rw [if_pos hstop, AnsweredAll, if_pos hstop]
      exact ⟨hstep, rfl⟩
    · rw [if_neg hstop, AnsweredAll, if_neg hstop]
      exact ⟨hstep, hrest⟩

end

/-! ## Sessions -/

/-- **Scoping.**  In a session every step is answered, and the configuration that is active after a
step, in whatever block or thread, is the given one after a set or an entry, the default one after a
reset, and the same as before after any other step but an exit.  An exit brings back what was active
right before the pending entry of its name.  If no context is entered or left twice, that is the one
entry of its name, whatever was done since, and in whatever order others were left.

In particular a block leaves the configuration as it was, however it ends, and so does a thread,
which starts from the default one. -/
theorem configuration_is_scoped (steps : List (Step α)) :
    AnsweredAll false steps (answers steps) ∧
    (∀ (earlier : List (Moment α)) (m : Moment α) (later : List (Moment α)),
      momentsAll {} steps (answers steps) = earlier ++ m :: later →
        m.Scoped earlier ∧
        (DistinctContexts (momentsAll {} steps (answers steps)) → ∀ (name : String),
          m.step = .exit name → ∀ entry ∈ earlier, ∀ c : Config, entry.step = .enter name c →
            m.after = entry.before)) ∧
    ∀ s : State,
      (∀ (c : Config) (guard : Guard) (inner : List (Step α)),
        (perform s (.within c guard inner)).2.active = s.active) ∧
      ∀ inner : List (Step α), (perform s (.thread inner)).2.active = s.active ∧
        ∃ rest, (perform s (.thread (.get :: inner))).1 = .block ((.done, {}) :: rest) := by
  refine ⟨answeredAll_performAll false {} steps, ?_, ?_⟩
  · intro earlier m later hsplit
    have hsession := (keepsScope_performAll false remembers_nil steps).1
    have hscoped : m.Scoped earlier := by
      rw [← List.nil_append earlier]
      exact ScopedFrom.scoped (hsplit ▸ hsession)
    refine ⟨hscoped, ?_⟩
    intro hdistinct name hexit entry hmem c henter
    rw [hsplit] at hdistinct
    have hpending : Pending name earlier entry :=
      pending_of_distinct hdistinct (by rw [hexit]; rfl) hmem (by rw [henter]; rfl)
    rw [Moment.Scoped, hexit] at hscoped
    exact hscoped.1 entry hpending
  · intro s
    refine ⟨fun c guard inner => by rw [perform], fun inner => ⟨by rw [perform], ?_⟩⟩
    rw [perform, performAll_cons]
    exact ⟨_, rfl⟩

/-- Two contexts overlap: the second is entered in a block, in which the first is left and a step
fails, and left after the block and a thread.  The failure crosses the block and ends the one around
it as well.  The exit brings back the configuration of the inner block. -/
theorem context_left_after_its_block :
    ∃ (steps : List (Step Unit)) (earlier : List (Moment Unit)) (m : Moment Unit),
      steps = [.enter "a" ⟨4, false, false⟩,
        .within ⟨6, false, false⟩ .caught
          [.within ⟨8, true, false⟩ .uncaught
            [.enter "b" ⟨1, false, true⟩, .exit "a", .ask fun _ => .error .noWorkers, .reset],
          .enter "c" ⟨9, false, false⟩],
        .thread [.set ⟨3, false, false⟩], .exit "b"] ∧
      momentsAll {} steps (answers steps) = earlier ++ [m] ∧
      DistinctContexts (momentsAll {} steps (answers steps)) ∧
      m.step = .exit "b" ∧ m.before = ⟨4, false, false⟩ ∧ m.after = ⟨8, true, false⟩ := by
  let inner : Step Unit := .within ⟨8, true, false⟩ .uncaught
    [.enter "b" ⟨1, false, true⟩, .exit "a", .ask fun _ => .error .noWorkers, .reset]
  let outer : Step Unit := .within ⟨6, false, false⟩ .caught [inner, .enter "c" ⟨9, false, false⟩]
  let steps : List (Step Unit) :=
    [.enter "a" ⟨4, false, false⟩, outer, .thread [.set ⟨3, false, false⟩], .exit "b"]
  let earlier : List (Moment Unit) :=
    [⟨.enter "a" ⟨4, false, false⟩, {}, ⟨4, false, false⟩⟩,
      ⟨.enter "b" ⟨1, false, true⟩, ⟨8, true, false⟩, ⟨1, false, true⟩⟩,
      ⟨.exit "a", ⟨1, false, true⟩, {}⟩, ⟨.ask fun _ => .error .noWorkers, {}, {}⟩,
      ⟨inner, ⟨6, false, false⟩, ⟨6, false, false⟩⟩, ⟨outer, ⟨4, false, false⟩, ⟨4, false, false⟩⟩,
      ⟨.set ⟨3, false, false⟩, {}, ⟨3, false, false⟩⟩,
      ⟨.thread [.set ⟨3, false, false⟩], ⟨4, false, false⟩, ⟨4, false, false⟩⟩]
  have hsplit : momentsAll {} steps (answers steps) =
      earlier ++ [⟨.exit "b", ⟨4, false, false⟩, ⟨8, true, false⟩⟩] := rfl
  have hdistinct : DistinctContexts (momentsAll {} steps (answers steps)) := by
    rw [hsplit]
    decide
  have hrestored := ((configuration_is_scoped steps).2.1 _ _ _ hsplit).2 hdistinct "b" rfl
    _ (.tail _ (.head _)) _ rfl
  exact ⟨steps, earlier, _, rfl, hsplit, hdistinct, rfl, rfl, hrestored⟩

end ExprPrinter.Session
