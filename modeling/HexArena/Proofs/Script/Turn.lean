import HexArena.Proofs.Script.Change
import HexArena.Script.Interpreter

/-!
# Turns by their runs

A turn loads its script and runs it; what it reports is read off where the run
stops.  A script that cannot be loaded changes nothing.

Main results:

- Definition {lit}`Interpreter.start`: the running script a turn starts with.
- Definition {lit}`Interpreter.report`: the report of a run that stopped.
- Definition {lit}`Interpreter.refusal`: the report of a script that cannot be
  loaded.
- Theorem {lit}`Interpreter.runTurn_eq_ok`: every report is one of the two.
- Theorem {lit}`Interpreter.runTurn_stable`: a turn keeps what every elementary
  change of the machine keeps.
- Theorems {lit}`Interpreter.runTurn_reaches` and
  {lit}`Interpreter.runTurn_overflows`: what a turn reports, and where it
  overflows, is reached by elementary changes.
-/

namespace HexArena

/-- The identifier of a piece. -/
def PieceId.ada : PieceId :=
  ⟨"ada", by decide, by decide, by decide⟩

/-- The identifier of another piece. -/
def PieceId.bob : PieceId :=
  ⟨"bob", by decide, by decide, by decide⟩

namespace Script

/-- The turn of a scout that is alone in the middle of its board. -/
def TurnContext.lone : TurnContext where
  piece := .spawn .ada ⟨"red"⟩ .scout .origin 0
  board := ⟨2, []⟩
  mailboxes := .empty

/-- Once its tokens are read, a script is loaded if their structure is in order. -/
theorem load_of_tokenize {d : Dictionary} {script : String} {tokens : List Token}
    (htokens : tokenize script = .ok tokens) :
    load d script = (checkStructure d tokens).map fun _ => tokens := by
  simp only [load, htokens]
  rfl

namespace Interpreter

/-! ## Reports -/

/-- The machine a turn starts with. -/
def startMachine (context : TurnContext) (commands : List Command) : Machine :=
  ⟨[], context.piece, context.mailboxes, commands, []⟩

/-- The running script a turn starts with. -/
def start (i : Interpreter) (tokens : List Token) (context : TurnContext)
    (commands : List Command) : Execution :=
  ⟨i.dictionary, Pending.ofTokens tokens 0, startMachine context commands⟩

/-- What stays the same during a turn. -/
def scene (i : Interpreter) (context : TurnContext) : Scene :=
  ⟨context.board, i.limits.stackLimit⟩

/-- The run of a turn. -/
def run (i : Interpreter) (tokens : List Token) (context : TurnContext)
    (commands : List Command) : Checked (Outcome × Execution) :=
  (i.start tokens context commands).run (i.scene context) i.limits i.limits.stepLimit

/-- The report of a run that stopped. -/
def report (i : Interpreter) (commands : List Command) (outcome : Outcome) (stop : Execution) :
    TurnReport where
  outcome := outcome
  interpreter :=
    { i with
      dictionary := if outcome.isFault then i.dictionary else stop.dictionary
      stack := stop.machine.stack }
  piece := stop.machine.piece
  mailboxes := stop.machine.mailboxes
  commands := if outcome.isFault then commands else stop.machine.commands
  log := stop.machine.log

/-- The report of a script that cannot be loaded. -/
def refusal (i : Interpreter) (context : TurnContext) (commands : List Command) (error : Error) :
    TurnReport where
  outcome := .faulted error
  interpreter := i
  piece := context.piece
  mailboxes := context.mailboxes
  commands := commands
  log := []

section Turns

variable {i : Interpreter} {script : String} {context : TurnContext} {commands : List Command}

theorem runTurn_of_refused {error : Error} (hload : load i.dictionary script = .error error) :
    i.runTurn script context commands = .ok (i.refusal context commands error) := by
  rw [runTurn, hload]
  rfl

theorem runTurn_of_stopped {tokens : List Token} {outcome : Outcome} {stop : Execution}
    (hload : load i.dictionary script = .ok tokens)
    (hrun : i.run tokens context commands = .ok (outcome, stop)) :
    i.runTurn script context commands = .ok (i.report commands outcome stop) := by
  rw [run, start, startMachine, scene] at hrun
  rw [runTurn, hload]
  simp only [runTokens, hrun]
  rfl

theorem runTurn_of_overflowed {tokens : List Token} {cause : Overflow}
    (hload : load i.dictionary script = .ok tokens)
    (hrun : i.run tokens context commands = .error cause) :
    i.runTurn script context commands = .error cause := by
  rw [run, start, startMachine, scene] at hrun
  rw [runTurn, hload]
  simp only [runTokens, hrun]
  rfl

/-- The report of a turn is a refusal or that of a run. -/
theorem runTurn_eq_ok {report : TurnReport} (h : i.runTurn script context commands = .ok report) :
    (∃ error, load i.dictionary script = .error error ∧ report = i.refusal context commands error) ∨
      ∃ tokens outcome stop, load i.dictionary script = .ok tokens ∧
        i.run tokens context commands = .ok (outcome, stop) ∧
        report = i.report commands outcome stop := by
  cases hload : load i.dictionary script with
  | error error =>
    rw [runTurn_of_refused hload] at h
    cases h
    exact Or.inl ⟨error, rfl, rfl⟩
  | ok tokens =>
    cases hrun : i.run tokens context commands with
    | error cause =>
      rw [runTurn_of_overflowed hload hrun] at h
      cases h
    | ok result =>
      obtain ⟨outcome, stop⟩ := result
      rw [runTurn_of_stopped hload hrun] at h
      cases h
      exact Or.inr ⟨tokens, outcome, stop, rfl, hrun, rfl⟩

/-! ## What a turn keeps -/

/-- The report tells of a machine: its commands are those of the machine, unless
the turn faulted. -/
structure Reports (report : TurnReport) (commands : List Command) (m : Machine) : Prop where
  piece : report.piece = m.piece
  mailboxes : report.mailboxes = m.mailboxes
  log : report.log = m.log
  commands : report.commands = if report.outcome.isFault then commands else m.commands

/-- The only overflow that stops a turn is that of a component. -/
theorem run_eq_error {tokens : List Token} {cause : Overflow}
    (hrun : i.run tokens context commands = .error cause) : cause = .component := by
  have hstable : Machine.Stable (i.scene context) (fun _ => True) := fun _ _ _ _ => trivial
  have hstop := Execution.run_stable (e := i.start tokens context commands) hstable trivial
    i.limits i.limits.stepLimit
  rw [run] at hrun
  rw [hrun] at hstop
  obtain ⟨m, -, hoverflows⟩ := hstop
  exact hoverflows.component

/-- A turn keeps what every elementary change keeps. -/
theorem runTurn_stable {kept : Machine → Prop} (h : Machine.Stable (i.scene context) kept)
    (hm : kept (startMachine context commands)) {report : TurnReport}
    (hturn : i.runTurn script context commands = .ok report) :
    ∃ m, kept m ∧ Reports report commands m := by
  rcases runTurn_eq_ok hturn with ⟨error, -, rfl⟩ | ⟨tokens, outcome, stop, -, hrun, rfl⟩
  · exact ⟨startMachine context commands, hm, rfl, rfl, rfl, rfl⟩
  · have hstop := Execution.run_stable (e := i.start tokens context commands) h hm i.limits
      i.limits.stepLimit
    rw [run] at hrun
    rw [hrun] at hstop
    exact ⟨stop.machine, hstop, rfl, rfl, rfl, rfl⟩

/-- A turn reports a machine that is reached by elementary changes. -/
theorem runTurn_reaches {report : TurnReport}
    (h : i.runTurn script context commands = .ok report) :
    ∃ m, (startMachine context commands).Reaches (i.scene context) m ∧
      Reports report commands m :=
  runTurn_stable (Machine.Reaches.stable (i.scene context) (startMachine context commands)) .refl h

/-- A turn that overflows does so in a computation on such a machine. -/
theorem runTurn_overflows {cause : Overflow}
    (h : i.runTurn script context commands = .error cause) :
    ∃ m, (startMachine context commands).Reaches (i.scene context) m ∧
      m.Overflows (i.scene context) cause := by
  cases hload : load i.dictionary script with
  | error error =>
    rw [runTurn_of_refused hload] at h
    cases h
  | ok tokens =>
    have hstop := Execution.run_stable (e := i.start tokens context commands)
      (Machine.Reaches.stable (i.scene context) (startMachine context commands)) .refl i.limits
      i.limits.stepLimit
    cases hrun : i.run tokens context commands with
    | ok result =>
      rw [runTurn_of_stopped hload hrun] at h
      cases h
    | error cause' =>
      rw [runTurn_of_overflowed hload hrun] at h
      cases h
      rw [run] at hrun
      rw [hrun] at hstop
      exact hstop

end Turns

end Interpreter

end Script

end HexArena
