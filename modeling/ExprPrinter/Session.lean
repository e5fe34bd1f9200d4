import ExprPrinter.Printer

/-!
# Sessions

A session is a sequence of steps under an active configuration.  Steps change
the configuration for good, for a block of steps, or from an entry to its
exit; they build printers and use them later; and they ask for anything that
can be computed under the active configuration.

A failure can end the block that it happens in, and then either is caught
there, or is the failure of the block as well and goes on to the block around
it.

An entry saves the configuration that was active, under a name, and its exit
brings that one back, whatever was done in between.  A thread starts from the
default configuration and leaves that of its parent alone.  Printers and
entries are known to all threads.
-/

namespace ExprPrinter.Session

/-- What a session remembers: the active configuration, what each entry saved, and the printers
built so far. -/
structure State where
  active : Config := {}
  saved : List (String × Config) := []
  printers : List (String × Printer) := []

/-- A list of named values with one more, which takes the place of another of that name. -/
def bind {α : Type} (name : String) (a : α) (entries : List (String × α)) : List (String × α) :=
  (name, a) :: entries.filter fun e => e.1 != name

/-- What becomes of a block when a step of it fails. -/
inductive Guard where
  /-- Nothing: the other steps are performed all the same. -/
  | stepwise
  /-- It ends, and the failure is caught right outside of it. -/
  | caught
  /-- It ends, and fails itself. -/
  | uncaught
  deriving DecidableEq, Repr

/-- Whether a failure ends the block. -/
def Guard.ends : Guard → Bool
  | stepwise => false
  | caught | uncaught => true

/-- One step of a session whose answers are in `α`. -/
inductive Step (α : Type) where
  /-- Looks at the active configuration. -/
  | get
  /-- Makes a configuration the active one. -/
  | set (c : Config)
  /-- Makes the default configuration the active one. -/
  | reset
  /-- Performs steps under a configuration, and brings the previous one back after them, also if
  they end with a failure. -/
  | within (c : Config) (guard : Guard) (steps : List (Step α))
  /-- Makes a configuration the active one until the exit of that name. -/
  | enter (name : String) (c : Config)
  /-- Brings back the configuration that was active before the entry of that name. -/
  | exit (name : String)
  /-- Performs steps in a thread of their own. -/
  | thread (steps : List (Step α))
  /-- Builds a printer under the active configuration. -/
  | build (name : String) (mode : Mode) (choices : Choices)
  /-- Uses the printer of that name under the active configuration. -/
  | use (name : String) (act : Config → Printer → Except Fault α)
  /-- Asks for something under the active configuration. -/
  | ask (act : Config → Except Fault α)

/-- The answer to a step. -/
inductive Answer (α : Type) where
  | done
  | value (a : α)
  | failed (f : Fault)
  /-- The answers to the steps of a block, each with the configuration active after it. -/
  | block (answers : List (Answer α × Config))
  /-- The same for a block that has failed, up to the step that it failed with. -/
  | broken (answers : List (Answer α × Config))

namespace Answer

variable {α : Type}

/-- Whether a step failed. -/
def isFailure : Answer α → Bool
  | failed _ | broken _ => true
  | _ => false

/-- The answer for a result. -/
def ofExcept : Except Fault α → Answer α
  | .ok a => value a
  | .error f => failed f

end Answer

variable {α : Type}

/-- Whether a block with the given answers to its steps fails. -/
def Guard.fails (answers : List (Answer α × Config)) : Guard → Bool
  | uncaught => answers.any fun a => a.1.isFailure
  | stepwise | caught => false

mutual

/-- Performs a step. -/
def perform (s : State) : Step α → Answer α × State
  | .get => (.done, s)
  | .set c => (.done, { s with active := c })
  | .reset => (.done, { s with active := {} })
  | .within c guard steps =>
    let (answers, t) := performAll guard.ends { s with active := c } steps
    (if guard.fails answers then .broken answers else .block answers, { t with active := s.active })
  | .enter name c => (.done, { s with active := c, saved := bind name s.active s.saved })
  | .exit name =>
    match s.saved.lookup name with
    | some c => (.done, { s with active := c, saved := s.saved.filter fun e => e.1 != name })
    | none => (.failed (.missing name), s)
  | .thread steps =>
    let (answers, t) := performAll false { s with active := {} } steps
    (.block answers, { t with active := s.active })
  | .build name mode choices =>
    (.done, { s with printers := bind name (s.active.printer mode choices) s.printers })
  | .use name act =>
    match s.printers.lookup name with
    | some p => (.ofExcept (act s.active p), s)
    | none => (.failed (.missing name), s)
  | .ask act => (.ofExcept (act s.active), s)

/-- Performs steps one after the other, up to the first failure if failures end them. -/
def performAll (ends : Bool) (s : State) : List (Step α) → List (Answer α × Config) × State
  | [] => ([], s)
  | step :: steps =>
    let (answer, t) := perform s step
    if ends && answer.isFailure then ([(answer, t.active)], t)
    else
      let (answers, u) := performAll ends t steps
      ((answer, t.active) :: answers, u)

end

/-- The answers to the steps of a session, each with the configuration active after it. -/
def answers (steps : List (Step α)) : List (Answer α × Config) :=
  (performAll false {} steps).1

end ExprPrinter.Session
