import HexArena.Board
import HexArena.Lookup
import HexArena.Mail.Directory
import HexArena.World.Command

/-!
# The world

The state of a match: the pieces in the order they were put on the board, their
mailboxes, the round, and the checkpoint a turn falls back to when its script
faults.

Main results:

- Definitions {lit}`World.boardView`, {lit}`World.turnOrder` and
  {lit}`World.livingTeams`: what the rest of the arena asks of a world.
- Definition {lit}`World.updatePiece`: change the piece with an identifier.
-/

namespace HexArena

/-- What a faulted turn goes back to: the piece and all mailboxes as they were
when the turn began. -/
structure Checkpoint where
  piece : Piece
  mailboxes : Directory
deriving DecidableEq, Repr

/-- The state of a match. -/
structure World where
  radius : Nat
  mailboxCapacity : Nat
  /-- The pieces, in the order they were put on the board. -/
  pieces : List Piece
  mailboxes : Directory
  /-- The number of finished rounds. -/
  round : Nat
  concluded : Bool
  checkpoint : Option Checkpoint
deriving DecidableEq, Repr

namespace World

/-- The radius of a board nobody has configured. -/
def defaultRadius : Nat := 5

/-- The capacity of a mailbox nobody has configured. -/
def defaultCapacity : Nat := 8

/-- A world before anything happened in it. -/
def fresh : World where
  radius := defaultRadius
  mailboxCapacity := defaultCapacity
  pieces := []
  mailboxes := .empty
  round := 0
  concluded := false
  checkpoint := none

/-! ## Queries -/

/-- The piece with an identifier. -/
def piece? (w : World) (id : PieceId) : Option Piece :=
  w.pieces.find? (·.id = id)

/-- The piece with an identifier exists and is active. -/
def isActive (w : World) (id : PieceId) : Bool :=
  (w.piece? id).any (·.isActive)

/-- The board as it is seen now: every living piece is on it. -/
def boardView (w : World) : Board :=
  .ofSnapshots w.radius ((w.pieces.filter (·.alive)).map (·.snapshot))

/-- The active pieces, in the order they take their turns. -/
def turnOrder (w : World) : List PieceId :=
  (w.pieces.filter (·.isActive)).map (·.id)

/-- Insert a team into a list that is ordered by name and has no team twice. -/
def insertTeam (team : Team) : List Team → List Team
  | [] => [team]
  | other :: rest =>
    if team.name < other.name then team :: other :: rest
    else if team = other then other :: rest
    else other :: insertTeam team rest

/-- The teams of living pieces, each once, by name. -/
def livingTeams (w : World) : List Team :=
  ((w.pieces.filter (·.alive)).map (·.team)).foldr insertTeam []

/-! ## Changes -/

/-- Change the piece with an identifier. -/
def updatePiece (w : World) (id : PieceId) (f : Piece → Piece) : World :=
  { w with pieces := updateFirst (·.id = id) f w.pieces }

/-- Put the piece with an identifier and all mailboxes into a new state. -/
def settle (w : World) (id : PieceId) (piece : Piece) (mailboxes : Directory) : World :=
  { w.updatePiece id (fun _ => piece) with mailboxes := mailboxes }

end World

end HexArena
