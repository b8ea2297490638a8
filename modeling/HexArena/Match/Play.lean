import HexArena.Match.Roster
import HexArena.World.Apply

/-!
# Playing a match

The pieces take their turns in the order they were put on the board.  A turn is
begun, run and ended, and what its script queued is applied only if it did not
fault.  A round ends with the death of the downed, and a match when at most one
team lives or its rounds run out.

Main results:

- Definition {lit}`Match.takeTurn`: the turn of one piece.
- Definition {lit}`Match.playRound`: the turns of all active pieces.
- Definition {lit}`Match.play`: rounds until the match is over.
-/

namespace HexArena

/-- A match in progress. -/
structure Match where
  roster : Roster
  world : World
deriving DecidableEq, Repr

/-- What came of playing a number of rounds. -/
structure Score where
  roundsPlayed : Nat
  concluded : Bool
  winner : Option Team
deriving DecidableEq, Repr

namespace Match

/-- Put a setup on the board of a fresh world. -/
def ofSetup (s : Setup) : Checked (Match × Transcript) := do
  let (world, transcript) ← World.fresh.applyAll s.commands
  return (⟨.ofSetup s, world⟩, transcript)

/-! ## Turns -/

/-- Run the script of an entrant against a world in which its turn has begun. -/
def runScript (m : Match) (entrant : Entrant) (piece : Piece) :
    Checked (Match × Transcript) := do
  let id := piece.id
  let report ← entrant.interpreter.runTurn entrant.script
    ⟨piece, m.world.boardView, m.world.mailboxes⟩ []
  let roster := m.roster.update id fun e => { e with interpreter := report.interpreter }
  let world := m.world.settle id report.piece report.mailboxes
  let printed : Transcript := ⟨[], report.log⟩
  match report.outcome with
  | .faulted error =>
    let (world, aborted) ← world.apply (.abortTurn id error.message)
    return (⟨roster, world⟩, printed ++ .ofNotice (.faulted id error.message) ++ aborted)
  | _ =>
    let (world, applied) ← world.applyAll (report.commands ++ [.endTurn id])
    return (⟨roster, world⟩, printed ++ applied)

/-- The turn of one piece; a piece without a script skips it. -/
def takeTurn (m : Match) (id : PieceId) : Checked (Match × Transcript) := do
  match m.roster.find? id with
  | none => return (m, .ofNotice (.unscripted id))
  | some entrant =>
    let (world, begun) ← m.world.apply (.beginTurn id)
    match world.piece? id with
    | none => return ({ m with world := world }, begun)
    | some piece =>
      let (m, done) ← { m with world := world }.runScript entrant piece
      return (m, begun ++ done)

/-! ## Rounds -/

/-- The turns of those pieces that are still active when their place comes. -/
def takeTurns (m : Match) : List PieceId → Checked (Match × Transcript)
  | [] => .ok (m, .empty)
  | id :: rest => do
    if m.world.isActive id then
      let (m, turn) ← m.takeTurn id
      let (m, later) ← m.takeTurns rest
      return (m, turn ++ later)
    else m.takeTurns rest

/-- One round. -/
def playRound (m : Match) : Checked (Match × Transcript) := do
  let (m, turns) ← m.takeTurns m.world.turnOrder
  let (world, finished) ← m.world.apply .finishRound
  return ({ m with world := world }, turns ++ finished)

/-- Rounds until the match is concluded or {lit}`rounds` are played, and the
number that was played. -/
def playRounds (m : Match) : Nat → Checked (Nat × Match × Transcript)
  | 0 => .ok (0, m, .empty)
  | rounds + 1 => do
    if m.world.concluded then return (0, m, .empty)
    let (m, round) ← m.playRound
    let (played, m, later) ← m.playRounds rounds
    return (played + 1, m, round ++ later)

/-- The team that lives alone in a concluded match. -/
def winner? (w : World) : Option Team :=
  match w.concluded, w.livingTeams with
  | true, [team] => some team
  | _, _ => none

/-- Play at most {lit}`rounds` rounds. -/
def play (m : Match) (rounds : Nat) : Checked (Score × Match × Transcript) := do
  let (played, m, transcript) ← m.playRounds rounds
  return (⟨played, m.world.concluded, winner? m.world⟩, m, transcript)

end Match

end HexArena
