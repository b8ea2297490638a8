import HexArena.Proofs.Script.Definitions

/-!
# What a faulted turn leaves

A turn that faults leaves no definition behind, only the stack on which it
stopped.  The next turn starts with an empty stack, so whatever is done with the
interpreter later goes as if the faulted turn had never been.

Main results:

- Definition {lit}`Interpreter.Alike`: two interpreters differ at most in the
  stack that was left.
- Theorem {lit}`Interpreter.alike_of_faulted`: a faulted turn leaves an
  interpreter like the one before it.
- Theorem {lit}`Interpreter.runTurn_alike`: turns of such interpreters agree.
- Theorem {lit}`Interpreter.later_alike`: so do turns after any further uses.
-/

namespace HexArena

namespace Script

/-- The interpreters differ at most in the stack the last turn left. -/
def Interpreter.Alike (i i' : Interpreter) : Prop :=
  i' = { i with stack := i'.stack }

/-- The turns of one script agree: they end alike and leave the same, and also
the same stack if the script can be loaded with the reserved names of a dictionary. -/
structure TurnReport.Agrees (d : Dictionary) (script : String) (report report' : TurnReport) :
    Prop where
  outcome : report'.outcome = report.outcome
  interpreter : report.interpreter.Alike report'.interpreter
  piece : report'.piece = report.piece
  mailboxes : report'.mailboxes = report.mailboxes
  commands : report'.commands = report.commands
  log : report'.log = report.log
  stack : (∃ tokens, load d script = .ok tokens) →
    report'.interpreter.stack = report.interpreter.stack

namespace Interpreter

variable {i i' : Interpreter}

/-- A faulted turn leaves an interpreter like the one before it. -/
theorem alike_of_faulted {script : String} {context : TurnContext} {commands : List Command}
    {report : TurnReport} (h : i.runTurn script context commands = .ok report) {error : Error}
    (hfault : report.outcome = .faulted error) : i.Alike report.interpreter := by
  rcases runTurn_eq_ok h with ⟨error, -, rfl⟩ | ⟨tokens, outcome, stop, -, -, rfl⟩
  · rfl
  · have houtcome : outcome = .faulted error := hfault
    subst houtcome
    rfl

/-- Turns of interpreters that are alike agree, also in what they leave on the stack if a
dictionary from which as much can be loaded is asked whether the script can be. -/
theorem runTurn_alike (h : i.Alike i') {d : Dictionary} {script : String}
    (hd : load i.dictionary script = load d script) (context : TurnContext)
    (commands : List Command) :
    Checked.Both (TurnReport.Agrees d script) (i.runTurn script context commands)
      (i'.runTurn script context commands) := by
  have hdictionary : i'.dictionary = i.dictionary := by rw [h]
  cases hload : load i.dictionary script with
  | error error =>
    have hload' : load i'.dictionary script = .error error := by rw [hdictionary, hload]
    rw [runTurn_of_refused hload, runTurn_of_refused hload']
    refine ⟨rfl, h, rfl, rfl, rfl, rfl, ?_⟩
    rintro ⟨tokens, htokens⟩
    rw [← hd, hload] at htokens
    cases htokens
  | ok tokens =>
    have hload' : load i'.dictionary script = .ok tokens := by rw [hdictionary, hload]
    -- A run reads the dictionary and the limits, and the stack it leaves is its own.
    have hsame : i'.run tokens context commands = i.run tokens context commands := by
      rw [h]
      rfl
    cases hrun : i.run tokens context commands with
    | error cause =>
      rw [runTurn_of_overflowed hload hrun, runTurn_of_overflowed hload' (hsame.trans hrun)]
      exact rfl
    | ok result =>
      obtain ⟨outcome, stop⟩ := result
      rw [runTurn_of_stopped hload hrun, runTurn_of_stopped hload' (hsame.trans hrun), h]
      exact ⟨rfl, rfl, rfl, rfl, rfl, rfl, fun _ => rfl⟩

/-- A definition does not look at the stack. -/
theorem define_stack (i : Interpreter) (stack : List Value) (word : UserWord) :
    Interpreter.define { i with stack := stack } word =
      match i.define word with
      | .ok () defined => .ok () { defined with stack := stack }
      | .error error left => .error error { left with stack := stack } := by
  unfold define
  cases checkWord i.dictionary word with
  | error error => rfl
  | ok checked =>
    dsimp only
    cases i.dictionary.define word with
    | error error left => rfl
    | ok checked defined => rfl

/-- Interpreters that are alike stay so. -/
theorem use_alike (h : i.Alike i') (use : Use) :
    Checked.Both Alike (i.use use) (i'.use use) := by
  cases use with
  | define word =>
    rw [h, Interpreter.use, Interpreter.use, define_stack i i'.stack word]
    cases i.define word with
    | ok _ defined => exact rfl
    | error error left => exact rfl
  | turn script context commands =>
    have hturn := runTurn_alike h (Eq.refl (load i.dictionary script)) context commands
    exact hturn.map fun _ _ hreport => hreport.interpreter

theorem useAll_alike (h : i.Alike i') (uses : List Use) :
    Checked.Both Alike (i.useAll uses) (i'.useAll uses) := by
  induction uses generalizing i i' with
  | nil => exact h
  | cons first rest ih => exact (use_alike h first).bind fun _ _ hnext => ih hnext

/-- The turn of a script after some uses. -/
def later (i : Interpreter) (uses : List Use) (script : String) (context : TurnContext)
    (commands : List Command) : Checked TurnReport := do
  let i ← i.useAll uses
  i.runTurn script context commands

/-- Later turns of interpreters that are alike agree.  The uses between do not change what
can be loaded. -/
theorem later_alike (h : i.Alike i') (uses : List Use) (script : String) (context : TurnContext)
    (commands : List Command) :
    Checked.Both (TurnReport.Agrees i.dictionary script) (i.later uses script context commands)
      (i'.later uses script context commands) := by
  refine (useAll_alike h uses).with_eq.bind ?_
  rintro next next' ⟨huses, hnext⟩
  exact runTurn_alike hnext (load_useAll huses script) context commands

end Interpreter

end Script

end HexArena
