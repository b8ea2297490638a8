import HexArena.Script.Machine

/-!
# Words of sight

The words by which a script looks at the board.

Main results:

- Definition {lit}`Word.firstSeen`: the number of steps to the first other piece
  along a ray.
- Definitions {lit}`Word.look`, {lit}`Word.identify` and {lit}`Word.enemies`.
-/

namespace HexArena

/-- The number of steps a component can still take in a direction. -/
def Coord.room (c : Coord) : Direction → Nat
  | .positiveX => (2147483647 - c.x).toNat
  | .positiveY => (2147483647 - c.y).toNat
  | .positiveZ => (2147483647 - c.z).toNat
  | .negativeX => (c.x + 2147483648).toNat
  | .negativeY => (c.y + 2147483648).toNat
  | .negativeZ => (c.z + 2147483648).toNat

/-- A step that does not overflow leaves less room. -/
theorem Coord.room_neighbor_lt {c next : Coord} {d : Direction} (h : c.neighbor d = .ok next) :
    next.room d < c.room d := by
  unfold Coord.neighbor Coord.sum Coord.checked at h
  split at h
  · rename_i fits
    obtain ⟨⟨hx, hx'⟩, ⟨hy, hy'⟩, hz, hz'⟩ := fits
    cases h
    cases d <;> simp only [Coord.room, Direction.unit, HAdd.hAdd, Add.add] at * <;>
      simp only [Int.add_def] at * <;> omega
  · cases h

namespace Script.Word

/-- The number of steps to the first other piece along a ray, where the next
hex is {lit}`step` steps away; zero if the ray leaves the board first. -/
def firstSeen (scene : Scene) (self : PieceId) (d : Direction) (step : Int) (cell : Coord) :
    Checked Int :=
  match scene.board.contains cell with
  | .error cause => .error cause
  | .ok false => .ok 0
  | .ok true =>
    match otherOccupant scene self cell with
    | .error cause => .error cause
    | .ok (some _) => .ok step
    | .ok none =>
      match _taken : cell.neighbor d with
      | .error cause => .error cause
      | .ok next => firstSeen scene self d (step + 1) next
termination_by cell.room d
decreasing_by exact Coord.room_neighbor_lt _taken

/-- Look along a ray: {lit}`( direction -- distance )`. -/
def look (scene : Scene) : Action Unit := do
  let relative ← popInt
  let m ← get
  let d := m.piece.heading relative
  let seen ← Action.ofChecked do
    let cell ← m.piece.position.neighbor d
    firstSeen scene m.piece.id d 1 cell
  pushInt scene seen

/-- Name the piece on a hex: {lit}`( distance direction -- id )`, the empty text
if nobody stands there or it is farther than the board is wide. -/
def identify (scene : Scene) : Action Unit := do
  let (distance, relative) ← popIntPair
  let m ← get
  if Fits32 distance ∧ 1 ≤ distance ∧ distance ≤ 2 * scene.board.radius then
    let other ← Action.ofChecked do
      let cell ← m.piece.position.offset (m.piece.heading relative) distance
      otherOccupant scene m.piece.id cell
    push scene (.text ((other.map (·.id.name)).getD ""))
  else push scene (.text "")

/-- Count the active enemies in range: {lit}`( -- n )`. -/
def enemies (scene : Scene) : Action Unit := do
  let m ← get
  let near ← Action.ofChecked (scene.board.within m.piece.position m.piece.stats.range)
  let count := (near.filter fun s => s.active && s.team ≠ m.piece.team).length
  if Fits64 count then pushInt scene count
  else Action.raise .arithmeticOverflow

end Script.Word

end HexArena
