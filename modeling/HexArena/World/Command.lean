import HexArena.Piece.Basic

/-!
# Commands, events and notices

A world changes only by commands.  What a command did is told by events, and
what a spectator should be told besides is a notice.

Main results:

- Definition {lit}`Command`: the requests a world understands.
- Definition {lit}`Event`: the facts a world reports.
- Definition {lit}`Notice`: the lines of the log.
- Definition {lit}`Transcript`: the events and notices of a stretch of play.
-/

namespace HexArena

/-- A piece to put on the board; the rotation is the index of its facing. -/
structure Placement where
  id : PieceId
  team : Team
  kind : Kind
  position : Coord
  rotation : Nat
deriving DecidableEq, Repr

/-- A request to the world. -/
inductive Command where
  | configureBoard (radius : Nat)
  | configureMailboxes (capacity : Nat)
  | spawnPiece (placement : Placement)
  | beginTurn (piece : PieceId)
  | resolveShot (attacker target : PieceId) (damage : Nat)
  | endTurn (piece : PieceId)
  | abortTurn (piece : PieceId) (reason : String)
  | finishRound
deriving DecidableEq, Repr

/-- Why a piece is not put on the board. -/
inductive SpawnError where
  | duplicateId
  | outOfBounds
  | occupied
deriving DecidableEq, Repr

namespace SpawnError

/-- The wording of a refusal. -/
def message : SpawnError → String
  | duplicateId => "identifier already in use"
  | outOfBounds => "position outside the board"
  | occupied => "position already occupied"

/-- The written name of a refusal. -/
def name : SpawnError → String
  | duplicateId => "DuplicateId"
  | outOfBounds => "OutOfBounds"
  | occupied => "Occupied"

/-- The refusal with a written name. -/
def ofName? (s : String) : Option SpawnError :=
  [duplicateId, outOfBounds, occupied].find? (·.name == s)

end SpawnError

/-- A fact about the world. -/
inductive Event where
  | boardConfigured (radius : Nat)
  | pieceSpawned (piece : PieceId) (team : Team) (position : Coord)
  | pieceSpawnRejected (piece : PieceId) (reason : SpawnError)
  | turnStarted (piece : PieceId) (turn : Nat)
  | pieceMoved (piece : PieceId) (start stop : Coord) (spaces : Nat)
  | shotResolved (attacker target : PieceId) (damage : Nat)
  | pieceDowned (piece shooter : PieceId)
  | turnEnded (piece : PieceId)
  | turnFaulted (piece : PieceId) (reason : String)
  | pieceDestroyed (piece : PieceId)
  | roundFinished (round : Nat)
  | matchConcluded (winner : Option Team)
deriving DecidableEq, Repr

/-- An entry of the log. -/
inductive Notice where
  /-- A script printed a value. -/
  | printed (piece : PieceId) (text : String)
  /-- A script faulted. -/
  | faulted (piece : PieceId) (reason : String)
  /-- A piece has no script. -/
  | unscripted (piece : PieceId)
  /-- A turn was aborted that had not begun. -/
  | notRestored (piece : PieceId)
deriving DecidableEq, Repr

/-- The line of the log: its level and its text. -/
def Notice.line : Notice → String
  | printed piece text => "INFO " ++ piece.name ++ ": " ++ text
  | faulted piece reason => "WARN " ++ piece.name ++ " faulted: " ++ reason
  | unscripted piece => "WARN " ++ piece.name ++ " has no script and skips its turn"
  | notRestored piece => "WARN " ++ piece.name ++ " faulted without a checkpoint to restore"

/-- The events and notices of a stretch of play, in order. -/
structure Transcript where
  events : List Event
  log : List Notice
deriving DecidableEq, Repr

namespace Transcript

/-- A stretch in which nothing happened. -/
def empty : Transcript := ⟨[], []⟩

/-- A stretch of events alone. -/
def ofEvents (events : List Event) : Transcript := ⟨events, []⟩

/-- A stretch of one notice. -/
def ofNotice (notice : Notice) : Transcript := ⟨[], [notice]⟩

instance : Append Transcript :=
  ⟨fun first second => ⟨first.events ++ second.events, first.log ++ second.log⟩⟩

end Transcript

end HexArena
