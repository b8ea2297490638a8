import HexArena.Piece.Basic

/-!
# The board

What a piece can see in its turn: the radius of the board and a snapshot of
every piece on it, in the order of their identifiers.

Main results:

- Definition {lit}`Board.ofSnapshots`: the board with given snapshots; those
  with one identifier keep their order.
- Definition {lit}`Board.contains`: a hex lies within the radius.
- Definition {lit}`Board.occupant`: the first piece on a hex.
- Definition {lit}`Board.within`: the pieces within a distance of a hex.
-/

namespace HexArena

/-- What others can see of a piece. -/
structure Snapshot where
  id : PieceId
  team : Team
  kind : Kind
  position : Coord
  health : Nat
  active : Bool
deriving DecidableEq, Repr

/-- The visible part of a piece. -/
def Piece.snapshot (p : Piece) : Snapshot where
  id := p.id
  team := p.team
  kind := p.kind
  position := p.position
  health := p.health
  active := p.isActive

/-- A board and the pieces on it, by identifier. -/
structure Board where
  radius : Nat
  snapshots : List Snapshot
deriving DecidableEq, Repr

namespace Board

/-- Put a snapshot behind all whose identifiers are not greater. -/
def place (s : Snapshot) : List Snapshot → List Snapshot
  | [] => [s]
  | t :: rest => if s.id.name < t.id.name then s :: t :: rest else t :: place s rest

/-- The board with given snapshots. -/
def ofSnapshots (radius : Nat) (snapshots : List Snapshot) : Board :=
  ⟨radius, snapshots.foldl (fun placed s => place s placed) []⟩

/-- The hex lies within the radius of the board. -/
def contains (b : Board) (cell : Coord) : Checked Bool := do
  let steps ← Coord.origin.distance cell
  return decide (steps ≤ b.radius)

/-- The first of some snapshots that stands on a hex. -/
def firstOn (cell : Coord) : List Snapshot → Checked (Option Snapshot)
  | [] => .ok none
  | s :: rest => do
    if ← s.position.sameHex cell then return some s
    firstOn cell rest

/-- The first piece on a hex, by identifier. -/
def occupant (b : Board) (cell : Coord) : Checked (Option Snapshot) :=
  firstOn cell b.snapshots

/-- The snapshot of a piece. -/
def piece? (b : Board) (id : PieceId) : Option Snapshot :=
  b.snapshots.find? (·.id = id)

/-- Those of some snapshots that are at most {lit}`range` steps from a hex. -/
def nearTo (center : Coord) (range : Nat) : List Snapshot → Checked (List Snapshot)
  | [] => .ok []
  | s :: rest => do
    let steps ← center.distance s.position
    let others ← nearTo center range rest
    return if steps ≤ range then s :: others else others

/-- The pieces at most {lit}`range` steps from a hex, by identifier. -/
def within (b : Board) (center : Coord) (range : Nat) : Checked (List Snapshot) :=
  nearTo center range b.snapshots

end Board

end HexArena
