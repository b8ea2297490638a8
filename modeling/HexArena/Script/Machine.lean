import HexArena.Board
import HexArena.Mail.Directory
import HexArena.Script.Value
import HexArena.World.Command

/-!
# The stack machine

What a running script works on: its stack, the piece it drives, the mailboxes,
the commands it queues and the notices it leaves.  The board it sees and the
limit of its stack are fixed for the turn.

Main results:

- Definition {lit}`Machine`: the state a word changes.
- Definition {lit}`Action`: a change of the machine that may stop, in which case
  the machine stays as it was when it stopped.
- Definitions {lit}`push`, {lit}`pop`, {lit}`popPair`, {lit}`peek`: the
  elementary actions on the stack.
-/

namespace HexArena.Script

/-- What a script works on. -/
structure Machine where
  /-- The stack, top first. -/
  stack : List Value
  piece : Piece
  mailboxes : Directory
  /-- The queued commands, first one first. -/
  commands : List Command
  log : List Notice
deriving DecidableEq, Repr

/-- What stays the same during a turn. -/
structure Scene where
  board : Board
  stackLimit : Nat
deriving DecidableEq, Repr

/-- Why an action stops. -/
inductive Stop where
  /-- A word raised a fault. -/
  | fault (fault : WordFault)
  /-- A coordinate overflowed. -/
  | overflow (cause : Overflow)
deriving DecidableEq, Repr

/-- A change of the machine that may stop. -/
abbrev Action := EStateM Stop Machine

/-- Whether the script goes on after a word. -/
inductive Flow where
  | proceed
  | halt
deriving DecidableEq, Repr

namespace Action

/-- Stop with a fault. -/
def raise {α : Type} (fault : WordFault) : Action α :=
  throw (.fault fault)

/-- Take the value of a computation with coordinates, or stop. -/
def ofChecked {α : Type} : Checked α → Action α
  | .ok a => pure a
  | .error cause => throw (.overflow cause)

/-- Take the value of a computation inside a word, or stop. -/
def ofResult {α : Type} : Except WordFault α → Action α
  | .ok a => pure a
  | .error fault => raise fault

end Action

/-! ## The stack -/

/-- Put a value on top of the stack. -/
def push (scene : Scene) (value : Value) : Action Unit := do
  let m ← get
  if m.stack.length < scene.stackLimit then
    set { m with stack := value :: m.stack }
  else Action.raise (.stackOverflow scene.stackLimit)

/-- Put an integer on top of the stack. -/
def pushInt (scene : Scene) (n : Int) : Action Unit :=
  push scene (.int n)

/-- Put a flag on top of the stack. -/
def pushFlag (scene : Scene) (b : Bool) : Action Unit :=
  push scene (.flag b)

/-- Take the top of the stack. -/
def pop : Action Value := do
  let m ← get
  match m.stack with
  | [] => Action.raise .stackUnderflow
  | value :: stack =>
    set { m with stack := stack }
    return value

/-- Take the top of the stack, which must be an integer. -/
def popInt : Action Int := do
  let value ← pop
  Action.ofResult value.toInt

/-- Take the text form of the top of the stack. -/
def popText : Action String := do
  let value ← pop
  return value.toText

/-- Take the two topmost values, the lower one first; nothing is taken when
there are fewer. -/
def popPair : Action (Value × Value) := do
  let m ← get
  match m.stack with
  | second :: first :: stack =>
    set { m with stack := stack }
    return (first, second)
  | _ => Action.raise .stackUnderflow

/-- Take the two topmost values, which must be integers. -/
def popIntPair : Action (Int × Int) := do
  let (first, second) ← popPair
  let first ← Action.ofResult first.toInt
  let second ← Action.ofResult second.toInt
  return (first, second)

/-- The value {lit}`depth` places below the top. -/
def peek (depth : Nat) : Action Value := do
  let m ← get
  match m.stack[depth]? with
  | some value => return value
  | none => Action.raise .stackUnderflow

/-! ## What the piece sees -/

/-- The first piece on a hex of the board, unless it is the acting piece
itself. -/
def otherOccupant (scene : Scene) (self : PieceId) (cell : Coord) :
    Checked (Option Snapshot) := do
  let found ← scene.board.occupant cell
  return found.filter (·.id ≠ self)

end HexArena.Script
