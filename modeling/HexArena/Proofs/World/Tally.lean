import HexArena.Proofs.World.Pieces
import Mathlib.Algebra.GroupWithZero.Nat

/-!
# What a log tells about a piece

A log of events is read for one piece: the shots at it and by it, its victims,
its turns and its moves.  The reading of a log that goes on is the reading of its
first part, continued by that of the rest.

Main results:

- Definition {lit}`tally`: what a log tells about the piece with an identifier.
- Theorem {lit}`tally_append`: a log that goes on is read part by part.
- Definition {lit}`Chained`: every move starts where the one before it stopped.
-/

namespace HexArena

/-! ## Moves -/

/-- A reported move. -/
structure Move where
  start : Coord
  stop : Coord
  spaces : Nat
deriving DecidableEq, Repr

/-- The moves lead from one place to another, each from where the one before it
stopped. -/
def Chained : Coord → List Move → Coord → Prop
  | start, [], stop => start = stop
  | start, move :: rest, stop => move.start = start ∧ Chained move.stop rest stop

/-- Moves that lead on from where others stop are one chain with them. -/
theorem Chained.append {a b c : Coord} {moves later : List Move} (h : Chained a moves b)
    (h' : Chained b later c) : Chained a (moves ++ later) c := by
  induction moves generalizing a with
  | nil =>
    cases h
    exact h'
  | cons move rest ih => exact ⟨h.1, ih h.2⟩

/-! ## Events -/

namespace Event

/-- The team and the place of a piece that is put on the board. -/
def placed? (id : PieceId) : Event → Option (Team × Coord)
  | .pieceSpawned piece team position => if piece = id then some (team, position) else none
  | _ => none

/-- The damage of a shot at a piece. -/
def damageTo (id : PieceId) : Event → Nat
  | .shotResolved _ target damage => if target = id then damage else 0
  | _ => 0

/-- The damage of a shot by a piece. -/
def damageBy (id : PieceId) : Event → Nat
  | .shotResolved attacker _ damage => if attacker = id then damage else 0
  | _ => 0

/-- Whom a piece has downed. -/
def victim? (id : PieceId) : Event → Option PieceId
  | .pieceDowned piece shooter => if shooter = id then some piece else none
  | _ => none

/-- The number of a turn of a piece. -/
def turn? (id : PieceId) : Event → Option Nat
  | .turnStarted piece turn => if piece = id then some turn else none
  | _ => none

/-- A move of a piece. -/
def move? (id : PieceId) : Event → Option Move
  | .pieceMoved piece start stop spaces => if piece = id then some ⟨start, stop, spaces⟩ else none
  | _ => none

/-- The piece is downed. -/
def downs (id : PieceId) : Event → Bool
  | .pieceDowned piece _ => piece = id
  | _ => false

/-- The piece is destroyed. -/
def destroys (id : PieceId) : Event → Bool
  | .pieceDestroyed piece => piece = id
  | _ => false

end Event

/-! ## Tallies -/

/-- What a log tells about a piece. -/
structure Tally where
  /-- The team and the place with which it was put on the board. -/
  entry : Option (Team × Coord)
  damageTaken : Nat
  damageDealt : Nat
  victims : List PieceId
  turns : List Nat
  moves : List Move
  downed : Bool
  destroyed : Bool
deriving DecidableEq, Repr

attribute [ext] Tally

namespace Tally

/-- Nothing is told. -/
def empty : Tally := ⟨none, 0, 0, [], [], [], false, false⟩

instance : Append Tally :=
  ⟨fun s t =>
    { entry := s.entry.or t.entry
      damageTaken := s.damageTaken + t.damageTaken
      damageDealt := s.damageDealt + t.damageDealt
      victims := s.victims ++ t.victims
      turns := s.turns ++ t.turns
      moves := s.moves ++ t.moves
      downed := s.downed || t.downed
      destroyed := s.destroyed || t.destroyed }⟩

variable (s t : Tally)

/-- The first entry counts. -/
@[simp]
theorem append_entry : (s ++ t).entry = s.entry.or t.entry :=
  rfl

/-- The damage that was taken adds up. -/
@[simp]
theorem append_damageTaken : (s ++ t).damageTaken = s.damageTaken + t.damageTaken :=
  rfl

/-- The damage that was dealt adds up. -/
@[simp]
theorem append_damageDealt : (s ++ t).damageDealt = s.damageDealt + t.damageDealt :=
  rfl

/-- The victims of both parts come one after another. -/
@[simp]
theorem append_victims : (s ++ t).victims = s.victims ++ t.victims :=
  rfl

/-- So do the turns. -/
@[simp]
theorem append_turns : (s ++ t).turns = s.turns ++ t.turns :=
  rfl

/-- So do the moves. -/
@[simp]
theorem append_moves : (s ++ t).moves = s.moves ++ t.moves :=
  rfl

/-- A piece is downed in one of the parts. -/
@[simp]
theorem append_downed : (s ++ t).downed = (s.downed || t.downed) :=
  rfl

/-- It is destroyed in one of the parts. -/
@[simp]
theorem append_destroyed : (s ++ t).destroyed = (s.destroyed || t.destroyed) :=
  rfl

/-- An empty tally adds nothing behind another one. -/
@[simp]
theorem append_empty : t ++ empty = t := by
  ext1 <;> simp [empty]

/-- Nor does it add anything in front of one. -/
@[simp]
theorem empty_append : empty ++ t = t := by
  ext1 <;> simp [empty]

/-- Nothing is told but moves. -/
def Quiet (t : Tally) : Prop :=
  t = { empty with moves := t.moves }

/-- A quiet tally has no entry. -/
theorem Quiet.entry {t : Tally} (h : t.Quiet) : t.entry = none := by
  rw [h]
  rfl

end Tally

/-- What a log tells about the piece with an identifier. -/
def tally (id : PieceId) (log : List Event) : Tally where
  entry := log.findSome? (·.placed? id)
  damageTaken := (log.map (·.damageTo id)).sum
  damageDealt := (log.map (·.damageBy id)).sum
  victims := log.filterMap (·.victim? id)
  turns := log.filterMap (·.turn? id)
  moves := log.filterMap (·.move? id)
  downed := log.any (·.downs id)
  destroyed := log.any (·.destroys id)

section

variable {id other : PieceId} {log later : List Event}

/-- A log that goes on is read part by part. -/
theorem tally_append : tally id (log ++ later) = tally id log ++ tally id later := by
  ext1 <;> simp [tally]

/-- The tally of a log starts with that of its first event. -/
theorem tally_cons (e : Event) : tally id (e :: log) = tally id [e] ++ tally id log := by
  rw [← tally_append]
  rfl

/-- The moves of a piece are those of the events that report moves. -/
theorem moves_filter : (tally id (log.filter Event.isMoved)).moves = (tally id log).moves := by
  have hread : (fun e => if Event.isMoved e then e.move? id else none) = (·.move? id) := by
    funext e
    cases e <;> rfl
  show (log.filter Event.isMoved).filterMap (·.move? id) = log.filterMap (·.move? id)
  rw [List.filterMap_filter, hread]

/-! ## Logs of turns and rounds -/

/-- What a single event tells. -/
theorem tally_singleton (e : Event) :
    tally id [e] =
      { entry := e.placed? id
        damageTaken := e.damageTo id
        damageDealt := e.damageBy id
        victims := (e.victim? id).toList
        turns := (e.turn? id).toList
        moves := (e.move? id).toList
        downed := e.downs id
        destroyed := e.destroys id } := by
  have hread : ∀ {β : Type} (read : Event → Option β), [e].filterMap read = (read e).toList := by
    intro β read
    cases hread : read e <;> simp [hread]
  unfold tally
  rw [hread, hread, hread]
  simp

/-- An entry counts for the piece that enters. -/
theorem tally_pieceSpawned (team : Team) (position : Coord) :
    tally other [.pieceSpawned id team position] =
      if id = other then { Tally.empty with entry := some (team, position) } else .empty := by
  rw [tally_singleton]
  by_cases hid : id = other
  · simp only [Event.placed?, if_pos hid]
    rfl
  · simp only [Event.placed?, if_neg hid]
    rfl

/-- The start of a turn counts for the piece whose turn it is. -/
theorem tally_turnStarted (turn : Nat) :
    tally other [.turnStarted id turn] =
      { Tally.empty with turns := if id = other then [turn] else [] } := by
  rw [tally_singleton]
  by_cases hid : id = other
  · simp only [Event.turn?, if_pos hid]
    rfl
  · simp only [Event.turn?, if_neg hid]
    rfl

/-- A shot is told of its target, and of the piece that fired it. -/
theorem tally_shotResolved (attacker target : PieceId) (damage : Nat) :
    tally other [.shotResolved attacker target damage] =
      { Tally.empty with
        damageTaken := if target = other then damage else 0
        damageDealt := if attacker = other then damage else 0 } := by
  rw [tally_singleton]
  rfl

/-- A downed piece counts for itself, and as a victim for the shooter. -/
theorem tally_pieceDowned (piece shooter : PieceId) :
    tally other [.pieceDowned piece shooter] =
      { Tally.empty with
        victims := if shooter = other then [piece] else []
        downed := decide (piece = other) } := by
  rw [tally_singleton]
  by_cases hid : shooter = other
  · simp only [Event.victim?, if_pos hid]
    rfl
  · simp only [Event.victim?, if_neg hid]
    rfl

/-- The end of a turn tells of nothing but a move. -/
theorem quiet_movedSince (saved : Checkpoint) (p : Piece) (id : PieceId) :
    (tally other (World.movedSince saved p ++ [.turnEnded id])).Quiet := by
  have hended : tally other [.turnEnded id] = .empty := rfl
  rw [tally_append, hended, Tally.append_empty]
  unfold World.movedSince
  dsimp only
  split
  · rw [tally_singleton]
    rfl
  · rfl

/-- The destroyed are told by name. -/
theorem tally_destroyed (pieces : List Piece) :
    tally other (pieces.map fun p => .pieceDestroyed p.id) =
      { Tally.empty with destroyed := pieces.any (·.id = other) } := by
  induction pieces with
  | nil => rfl
  | cons p rest ih =>
    rw [List.map_cons, tally_cons, ih, tally_singleton]
    rfl

end

end HexArena
