import HexArena.Script.Execution
import HexArena.World.Command

/-!
# Match setups

The board, the limits and the pieces of a match before it starts.

Main results:

- Definition {lit}`Setup.commands`: the commands that put a setup on the board.
-/

namespace HexArena

/-- A piece that takes part and the script that drives it. -/
structure Contestant where
  placement : Placement
  script : String
deriving DecidableEq, Repr

/-- A match before it starts. -/
structure Setup where
  boardRadius : Nat
  mailboxCapacity : Nat
  limits : Script.Limits
  contestants : List Contestant
deriving DecidableEq, Repr

/-- The commands that put a setup on the board: the board first, then the
mailboxes, then the pieces in order. -/
def Setup.commands (s : Setup) : List Command :=
  .configureBoard s.boardRadius :: .configureMailboxes s.mailboxCapacity ::
    s.contestants.map (.spawnPiece ·.placement)

end HexArena
