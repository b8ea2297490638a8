import HexArena.Script.Machine

/-!
# Words of the piece

The words by which a script asks about its own piece and makes it move, shoot
and turn.  An action that is refused is no fault: it leaves a zero the script
can branch on.

Main results:

- Definition {lit}`Word.freeSteps`: how far the way ahead is free.
- Definition {lit}`Word.move`: walk as far as the way is free.
- Definition {lit}`Word.shoot`: spend the shot of the turn on a hex.
-/

namespace HexArena.Script.Word

/-! ## The piece itself -/

/-- Push a number of the piece. -/
def ask (scene : Scene) (number : Piece → Int) : Action Unit := do
  let m ← get
  pushInt scene (number m.piece)

/-- Push whether the shot of the turn is spent. -/
def hasShot (scene : Scene) : Action Unit := do
  let m ← get
  pushFlag scene m.piece.hasShot

/-- Push the identifier of the piece. -/
def myId (scene : Scene) : Action Unit := do
  let m ← get
  push scene (.text m.piece.id.name)

/-! ## Moving -/

/-- The hex lies on the board and nobody else stands on it. -/
def isFree (scene : Scene) (self : PieceId) (cell : Coord) : Checked Bool := do
  if ← scene.board.contains cell then
    let other ← otherOccupant scene self cell
    return other.isNone
  else return false

/-- The number of free hexes in a row from a place, of which {lit}`walked` are
known to be free and {lit}`budget` more are looked at. -/
def freeSteps (scene : Scene) (self : PieceId) (start : Coord) (d : Direction) (walked : Nat) :
    Nat → Checked Nat
  | 0 => .ok walked
  | budget + 1 => do
    let cell ← start.offset d (wrap32 (walked + 1))
    if ← isFree scene self cell then freeSteps scene self start d (walked + 1) budget
    else return walked

/-- Walk in a relative direction: {lit}`( spaces direction -- moved )`.  The
piece stops before the edge of the board, before an occupied hex, and when its
movement runs out. -/
def move (scene : Scene) : Action Unit := do
  let (spaces, relative) ← popIntPair
  let m ← get
  let piece := m.piece
  let d := piece.heading relative
  let budget := min ((toCount? (max spaces 0)).getD maxCount) piece.movement
  let walked ← Action.ofChecked (freeSteps scene piece.id piece.position d 0 budget)
  if walked = 0 then pushInt scene 0
  else
    match ← Action.ofChecked (piece.move walked d) with
    | .ok moved =>
      modify fun m => { m with piece := moved }
      pushInt scene walked
    | .error _ => pushInt scene 0

/-! ## Shooting -/

/-- Shoot at a hex: {lit}`( distance direction -- hit )`.  A shot out of range
is not spent; a shot at a hex without an active piece is spent and hits
nothing. -/
def shoot (scene : Scene) : Action Unit := do
  let (distance, relative) ← popIntPair
  let m ← get
  let piece := m.piece
  if distance < 1 ∨ (piece.stats.range : Int) < distance then pushInt scene 0
  else
    match piece.shoot with
    | .error _ => pushInt scene 0
    | .ok (damage, spent) =>
      modify fun m => { m with piece := spent }
      let heading := piece.heading relative
      let cell ← Action.ofChecked (piece.position.offset heading (wrap32 distance))
      let other ← Action.ofChecked (otherOccupant scene piece.id cell)
      match other.filter (·.active) with
      | some target =>
        modify fun m =>
          { m with commands := m.commands ++ [.resolveShot piece.id target.id damage] }
        pushInt scene 1
      | none => pushInt scene 0

/-! ## Turning -/

/-- Turn the piece by sixths of a circle: {lit}`( steps -- )`. -/
def turn : Action Unit := do
  let steps ← popInt
  modify fun m => { m with piece := m.piece.rotate steps }

end HexArena.Script.Word
