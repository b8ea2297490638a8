import HexArena.World.Basic

/-!
# Applying commands

What each command does to a world, and the events and notices it leaves.  Only
putting a piece on the board computes with coordinates and opens a mailbox, so
it is the only command that can overflow.

Main results:

- Definition {lit}`World.spawn`: put a piece on the board, or say why not.
- Definition {lit}`World.apply`: the effect of one command.
- Definition {lit}`World.applyAll`: the effect of commands in order.
-/

namespace HexArena.World

/-! ## Putting pieces on the board -/

/-- The hex lies on the board. -/
def isOnBoard (w : World) (cell : Coord) : Checked Bool := do
  let steps ← Coord.origin.distance cell
  return decide (steps ≤ w.radius)

/-- One of some pieces is alive and stands on a hex. -/
def anyAliveOn (cell : Coord) : List Piece → Checked Bool
  | [] => .ok false
  | p :: rest => do
    if p.alive then
      if ← p.position.sameHex cell then return true
    anyAliveOn cell rest

/-- A living piece stands on the hex. -/
def isOccupied (w : World) (cell : Coord) : Checked Bool :=
  anyAliveOn cell w.pieces

/-- Put a piece on the board and open its mailbox; the refusals are tried in the
order duplicate, out of bounds, occupied. -/
def spawn (w : World) (new : Placement) : Checked (Except SpawnError World) := do
  if w.pieces.any (·.id.answersTo new.id.name) then return .error .duplicateId
  if !(← w.isOnBoard new.position) then return .error .outOfBounds
  if ← w.isOccupied new.position then return .error .occupied
  match ← w.mailboxes.openBox new.id w.mailboxCapacity with
  | .error _ => return .error .duplicateId
  | .ok mailboxes =>
    let piece := Piece.spawn new.id new.team new.kind new.position new.rotation
    return .ok { w with pieces := w.pieces ++ [piece], mailboxes := mailboxes }

/-! ## Turns -/

/-- Begin the turn of an active piece and keep a checkpoint of it. -/
def beginTurn (w : World) (id : PieceId) : World × List Event :=
  match w.piece? id with
  | none => (w, [])
  | some piece =>
    if piece.isActive then
      let piece := piece.beginTurn
      ({ w.updatePiece id (fun _ => piece) with
          checkpoint := some ⟨piece, w.mailboxes⟩ },
        [.turnStarted id piece.turnsTaken])
    else (w, [])

/-- Resolve a shot at an active piece. -/
def resolveShot (w : World) (attacker target : PieceId) (damage : Nat) : World × List Event :=
  match w.piece? attacker, w.piece? target with
  | some shooter, some victim =>
    if victim.isActive then
      let (hit, hurt) := victim.takeDamage damage
      let defeated := hit.downed && decide (victim.team ≠ shooter.team)
      let w := w.updatePiece target fun _ => hurt
      let w := w.updatePiece attacker fun p => p.recordHit hit.applied defeated
      (w, .shotResolved attacker target hit.applied ::
        if hit.downed then [.pieceDowned target attacker] else [])
    else (w, [])
  | _, _ => (w, [])

/-- The checkpoint, if it is one of a given piece. -/
def checkpointOf? (w : World) (id : PieceId) : Option Checkpoint :=
  w.checkpoint.filter (·.piece.id = id)

/-- The event of a move since a checkpoint, if there was one. -/
def movedSince (checkpoint : Checkpoint) (piece : Piece) : List Event :=
  let spaces := piece.spacesMoved - checkpoint.piece.spacesMoved
  if 0 < spaces then
    [.pieceMoved checkpoint.piece.id checkpoint.piece.position piece.position spaces]
  else []

/-- End the turn of a piece and drop the checkpoint. -/
def endTurn (w : World) (id : PieceId) : World × List Event :=
  let checkpoint := w.checkpointOf? id
  let w := { w with checkpoint := none }
  match w.piece? id with
  | none => (w, [])
  | some piece =>
    let moved := (checkpoint.map (movedSince · piece)).getD []
    (w.updatePiece id Piece.finishTurn, moved ++ [.turnEnded id])

/-- Abort the turn of a piece: it and all mailboxes go back to the checkpoint. -/
def abortTurn (w : World) (id : PieceId) (reason : String) : World × Transcript :=
  let checkpoint := w.checkpointOf? id
  let w := { w with checkpoint := none }
  match checkpoint with
  | some saved =>
    (w.settle id saved.piece.finishTurn saved.mailboxes, .ofEvents [.turnFaulted id reason])
  | none => (w, ⟨[.turnFaulted id reason], [.notRestored id]⟩)

/-! ## Rounds -/

/-- The events of the deaths that the end of the round brings, in the order the
pieces were put on the board. -/
def deaths (w : World) : List Event :=
  (w.pieces.filter (·.isDying)).map fun p => .pieceDestroyed p.id

/-- The world in which the downed are destroyed and the round is counted. -/
def closeRound (w : World) : World :=
  { w with pieces := w.pieces.map Piece.commitDeath, round := addCount w.round 1 }

/-- Conclude the match when at most one team lives, unless it is concluded
already. -/
def conclude (w : World) : World × List Event :=
  if w.concluded then (w, [])
  else
    match w.livingTeams with
    | [] => ({ w with concluded := true }, [.matchConcluded none])
    | [team] => ({ w with concluded := true }, [.matchConcluded (some team)])
    | _ => (w, [])

/-- Finish a round: downed pieces are destroyed, and the match is concluded when
at most one team lives. -/
def finishRound (w : World) : World × List Event :=
  let closed := w.closeRound
  let (final, concluded) := closed.conclude
  (final, w.deaths ++ .roundFinished closed.round :: concluded)

/-! ## Commands -/

/-- The effect of one command. -/
def apply (w : World) : Command → Checked (World × Transcript)
  | .configureBoard radius =>
    .ok ({ w with radius := radius }, .ofEvents [.boardConfigured radius])
  | .configureMailboxes capacity =>
    .ok ({ w with mailboxCapacity := capacity }, .empty)
  | .spawnPiece new => do
    match ← w.spawn new with
    | .ok w => return (w, .ofEvents [.pieceSpawned new.id new.team new.position])
    | .error reason => return (w, .ofEvents [.pieceSpawnRejected new.id reason])
  | .beginTurn piece => .ok ((w.beginTurn piece).map id .ofEvents)
  | .resolveShot attacker target damage =>
    .ok ((w.resolveShot attacker target damage).map id .ofEvents)
  | .endTurn piece => .ok ((w.endTurn piece).map id .ofEvents)
  | .abortTurn piece reason => .ok (w.abortTurn piece reason)
  | .finishRound => .ok (w.finishRound.map id .ofEvents)

/-- The effect of commands in order. -/
def applyAll (w : World) : List Command → Checked (World × Transcript)
  | [] => .ok (w, .empty)
  | command :: rest => do
    let (w, first) ← w.apply command
    let (w, later) ← w.applyAll rest
    return (w, first ++ later)

end HexArena.World
