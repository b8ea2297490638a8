import HexArena.Script.Execution
import HexArena.Script.Lexer

/-!
# The interpreter

Every piece has an interpreter that keeps its dictionary from turn to turn.  A
turn starts with an empty stack.  A script that faults leaves neither commands
nor definitions behind.

Main results:

- Definition {lit}`Interpreter.check`: load a script without running it.
- Definition {lit}`Interpreter.define`: bind a user word ahead of any turn.
- Definition {lit}`Interpreter.runTurn`: run a script as the turn of a piece.
-/

namespace HexArena.Script

/-- The interpreter of a piece. -/
structure Interpreter where
  owner : PieceId
  limits : Limits
  dictionary : Dictionary
  /-- The stack as the last turn left it, top first. -/
  stack : List Value
deriving DecidableEq, Repr

/-- What a turn works on. -/
structure TurnContext where
  piece : Piece
  board : Board
  mailboxes : Directory
deriving DecidableEq, Repr

/-- What a turn leaves. -/
structure TurnReport where
  outcome : Outcome
  interpreter : Interpreter
  piece : Piece
  mailboxes : Directory
  /-- The commands queued before the turn, and after them those of the turn. -/
  commands : List Command
  log : List Notice
deriving DecidableEq, Repr

/-- The tokens of a script whose structure is in order. -/
def load (d : Dictionary) (script : String) : Except Error (List Token) := do
  let tokens ← tokenize script
  checkStructure d tokens
  return tokens

namespace Interpreter

/-- An interpreter without user words. -/
def fresh (owner : PieceId) (limits : Limits) : Interpreter :=
  ⟨owner, limits, .standard, []⟩

/-- Bind a user word ahead of any turn; the interpreter is left in either case. -/
def define (i : Interpreter) (word : UserWord) : EStateM.Result Error Interpreter Unit :=
  match checkWord i.dictionary word with
  | .error error => .error error i
  | .ok () =>
    match i.dictionary.define word with
    | .error error d => .error error { i with dictionary := d }
    | .ok () d => .ok () { i with dictionary := d }

/-- The number of tokens of a script whose structure is in order. -/
def check (i : Interpreter) (script : String) : Except Error Nat := do
  let tokens ← load i.dictionary script
  return tokens.length

/-- The user word a name means. -/
def userWord? (i : Interpreter) (name : String) : Option UserWord :=
  i.dictionary.userWord? name

/-- Run the tokens of a script as the turn of a piece. -/
def runTokens (i : Interpreter) (tokens : List Token) (context : TurnContext)
    (commands : List Command) : Checked TurnReport := do
  let start : Execution :=
    { dictionary := i.dictionary
      pending := Pending.ofTokens tokens 0
      machine := ⟨[], context.piece, context.mailboxes, commands, []⟩ }
  let scene : Scene := ⟨context.board, i.limits.stackLimit⟩
  let (outcome, stop) ← start.run scene i.limits i.limits.stepLimit
  let m := stop.machine
  return {
    outcome := outcome
    interpreter :=
      { i with
        dictionary := if outcome.isFault then i.dictionary else stop.dictionary
        stack := m.stack }
    piece := m.piece
    mailboxes := m.mailboxes
    commands := if outcome.isFault then commands else m.commands
    log := m.log }

/-- Run a script as the turn of a piece; a script that cannot be loaded changes
nothing. -/
def runTurn (i : Interpreter) (script : String) (context : TurnContext)
    (commands : List Command) : Checked TurnReport :=
  match load i.dictionary script with
  | .ok tokens => i.runTokens tokens context commands
  | .error error =>
    .ok {
      outcome := .faulted error
      interpreter := i
      piece := context.piece
      mailboxes := context.mailboxes
      commands := commands
      log := [] }

end Interpreter

end HexArena.Script
