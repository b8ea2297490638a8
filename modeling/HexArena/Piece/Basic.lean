import HexArena.Hex.Direction
import HexArena.Piece.Id
import HexArena.Piece.Kind

/-!
# Pieces

The state of one piece: where it stands and faces, what is left of its health
and of its turn, and what it has done so far.  A piece whose health runs out is
downed at once and destroyed at the end of the round.

Main results:

- Definition {lit}`Piece.spawn`: a fresh piece of a kind.
- Definitions {lit}`Piece.move`, {lit}`Piece.shoot`, {lit}`Piece.rotate`: what a
  piece does in its turn, and why it may be refused.
- Definition {lit}`Piece.takeDamage`: what a hit does to a piece.
- Definition {lit}`Piece.commitDeath`: a downed piece is destroyed.
-/

namespace HexArena

/-- The side a piece plays for. -/
structure Team where
  name : String
deriving DecidableEq, Repr, Inhabited

/-- One piece and its history. -/
structure Piece where
  id : PieceId
  team : Team
  kind : Kind
  stats : Stats
  position : Coord
  /-- The direction the piece faces. -/
  facing : Direction
  health : Nat
  /-- The spaces left to move in this turn. -/
  movement : Nat
  alive : Bool
  /-- The piece lost its last health and is destroyed when the round ends. -/
  deathFlag : Bool
  /-- The shot of this turn is spent. -/
  hasShot : Bool
  turnFinished : Bool
  damageDealt : Nat
  damageTaken : Nat
  spacesMoved : Nat
  enemiesDefeated : Nat
  turnsTaken : Nat
  /-- The spaces left to move are a component of a coordinate. -/
  movement_le : movement ≤ maxComponent
  /-- So are the spaces of a whole turn and the range. -/
  stats_le : stats.movement ≤ maxComponent ∧ stats.range ≤ maxComponent
deriving DecidableEq, Repr

/-! ## Refusals -/

/-- Why a piece cannot act at all. -/
inductive Blocked where
  | inactive
  | turnFinished
deriving DecidableEq, Repr

/-- Why a move is refused. -/
inductive MoveError where
  | blocked (cause : Blocked)
  | insufficientMovement (requested available : Nat)
deriving DecidableEq, Repr

/-- Why a shot is refused. -/
inductive ShootError where
  | blocked (cause : Blocked)
  | alreadyShot
deriving DecidableEq, Repr

/-- The wording of a block. -/
def Blocked.message : Blocked → String
  | .inactive => "piece is not active"
  | .turnFinished => "piece already finished its turn"

/-- The wording of a refused move. -/
def MoveError.message : MoveError → String
  | .blocked cause => cause.message
  | .insufficientMovement requested available =>
    "requested " ++ toString requested ++ " spaces with only " ++ toString available ++
      " movement left"

/-- The wording of a refused shot. -/
def ShootError.message : ShootError → String
  | .blocked cause => cause.message
  | .alreadyShot => "piece already fired this turn"

/-- What a hit did. -/
structure Damage where
  /-- The health that was lost. -/
  applied : Nat
  /-- The hit took the last health. -/
  downed : Bool
deriving DecidableEq, Repr

/-- The movement and the range of every kind are components of coordinates. -/
theorem Kind.stats_le (kind : Kind) :
    kind.stats.movement ≤ maxComponent ∧ kind.stats.range ≤ maxComponent := by
  cases kind <;> decide

namespace Piece

/-! ## Queries -/

/-- A fresh piece that faces the direction of an index. -/
def spawn (id : PieceId) (team : Team) (kind : Kind) (position : Coord) (rotation : Nat) :
    Piece where
  id := id
  team := team
  kind := kind
  stats := kind.stats
  position := position
  facing := .ofIndex rotation
  health := kind.stats.health
  movement := kind.stats.movement
  alive := true
  deathFlag := false
  hasShot := false
  turnFinished := false
  damageDealt := 0
  damageTaken := 0
  spacesMoved := 0
  enemiesDefeated := 0
  turnsTaken := 0
  movement_le := kind.stats_le.1
  stats_le := kind.stats_le

/-- The piece is neither downed nor destroyed. -/
def isActive (p : Piece) : Bool :=
  p.alive && !p.deathFlag

/-- The direction that is {lit}`relative` sixths of a circle from the facing. -/
def heading (p : Piece) (relative : Int) : Direction :=
  p.facing.rotated relative

/-- The reason the piece cannot act, if there is one. -/
def blocked? (p : Piece) : Option Blocked :=
  if !p.isActive then some .inactive
  else if p.turnFinished then some .turnFinished
  else none

/-! ## A turn -/

/-- The piece at the start of its turn: its movement and shot are restored. -/
def beginTurn (p : Piece) : Piece :=
  { p with
    movement := p.stats.movement
    hasShot := false
    turnFinished := false
    turnsTaken := addCount p.turnsTaken 1
    movement_le := p.stats_le.1 }

/-- The piece at the end of its turn. -/
def finishTurn (p : Piece) : Piece :=
  { p with turnFinished := true }

/-- The piece on another hex, for which it has paid with some spaces. -/
def moved (p : Piece) (position : Coord) (spaces : Nat) : Piece :=
  { p with
    position := position
    movement := p.movement - spaces
    spacesMoved := addCount p.spacesMoved spaces
    movement_le := Nat.le_trans (Nat.sub_le _ _) p.movement_le }

/-- Move the piece in an absolute direction, unless it is refused. -/
def move (p : Piece) (spaces : Nat) (d : Direction) : Checked (Except MoveError Piece) :=
  match p.blocked? with
  | some cause => .ok (.error (.blocked cause))
  | none =>
    if p.movement < spaces then
      .ok (.error (.insufficientMovement spaces p.movement))
    else do
      let position ← p.position.offset d ((toComponent? spaces).getD maxComponent)
      return .ok (p.moved position spaces)

/-- Spend the shot of the turn, unless it is refused; the result is the damage
of the shot and the piece after it. -/
def shoot (p : Piece) : Except ShootError (Nat × Piece) :=
  match p.blocked? with
  | some cause => .error (.blocked cause)
  | none =>
    if p.hasShot then .error .alreadyShot
    else .ok (p.stats.attack, { p with hasShot := true })

/-- Turn the piece by {lit}`steps` sixths of a circle. -/
def rotate (p : Piece) (steps : Int) : Piece :=
  { p with facing := p.heading steps }

/-! ## Hits -/

/-- What a hit does to the piece; an inactive piece takes no damage. -/
def takeDamage (p : Piece) (amount : Nat) : Damage × Piece :=
  if p.isActive then
    let applied := min amount p.health
    let health := p.health - applied
    let downed := health == 0
    (⟨applied, downed⟩,
      { p with
        health := health
        damageTaken := addCount p.damageTaken applied
        deathFlag := p.deathFlag || downed })
  else (⟨0, false⟩, p)

/-- Credit the piece with a hit, and with a defeated enemy if it was one. -/
def recordHit (p : Piece) (damage : Nat) (defeated : Bool) : Piece :=
  { p with
    damageDealt := addCount p.damageDealt damage
    enemiesDefeated := if defeated then addCount p.enemiesDefeated 1 else p.enemiesDefeated }

/-- The piece is downed and not yet destroyed. -/
def isDying (p : Piece) : Bool :=
  p.deathFlag && p.alive

/-- A downed piece is destroyed, any other stays as it is. -/
def commitDeath (p : Piece) : Piece :=
  if p.isDying then { p with alive := false } else p

end Piece

end HexArena
