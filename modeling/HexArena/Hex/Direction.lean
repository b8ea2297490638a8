import HexArena.Hex.Coord

/-!
# Directions

The six directions to an adjacent hex, counter-clockwise, so that adding one to
the index turns by sixty degrees.

Main results:

- Definition {lit}`Direction.ofIndex`: every integer names a direction, modulo
  six.
- Definition {lit}`Direction.rotated`: a direction turned by a number of sixths
  of a circle.
- Definitions {lit}`Coord.neighbor` and {lit}`Coord.offset`: one step and many
  steps in a direction.
-/

namespace HexArena

/-- A direction that leads to an adjacent hex. -/
inductive Direction where
  | positiveX
  | positiveY
  | positiveZ
  | negativeX
  | negativeY
  | negativeZ
deriving DecidableEq, Repr, Inhabited

namespace Direction

/-- The place of a direction in counter-clockwise order. -/
def index : Direction → Nat
  | positiveX => 0
  | positiveY => 1
  | positiveZ => 2
  | negativeX => 3
  | negativeY => 4
  | negativeZ => 5

/-- The direction an integer names, modulo six. -/
def ofIndex (i : Int) : Direction :=
  match (i % 6).toNat with
  | 0 => positiveX
  | 1 => positiveY
  | 2 => positiveZ
  | 3 => negativeX
  | 4 => negativeY
  | _ => negativeZ

/-- The direction after a turn by {lit}`steps` sixths of a circle, unless the sum that is
its index overflows; the turn is reduced to less than a circle before it is added. -/
def rotated? (d : Direction) (steps : Int) : Option Direction :=
  (sum64? d.index (steps % 6)).map ofIndex

/-- The sum of an index and a reduced turn never overflows. -/
theorem isSome_rotated? (d : Direction) (steps : Int) : (d.rotated? steps).isSome := by
  have hfits : Fits64 (d.index + steps % 6) := by
    cases d <;> simp only [index, Fits64] <;> omega
  simp [rotated?, sum64?, hfits]

/-- The direction after a turn by {lit}`steps` sixths of a circle. -/
def rotated (d : Direction) (steps : Int) : Direction :=
  (d.rotated? steps).get (d.isSome_rotated? steps)

/-- The triple of a single step. -/
def unit : Direction → Coord
  | positiveX => ⟨1, 0, 0⟩
  | positiveY => ⟨0, 1, 0⟩
  | positiveZ => ⟨0, 0, 1⟩
  | negativeX => ⟨-1, 0, 0⟩
  | negativeY => ⟨0, -1, 0⟩
  | negativeZ => ⟨0, 0, -1⟩

/-- The written name of a direction. -/
def name : Direction → String
  | positiveX => "PositiveX"
  | positiveY => "PositiveY"
  | positiveZ => "PositiveZ"
  | negativeX => "NegativeX"
  | negativeY => "NegativeY"
  | negativeZ => "NegativeZ"

/-- All directions in counter-clockwise order. -/
def all : List Direction :=
  [positiveX, positiveY, positiveZ, negativeX, negativeY, negativeZ]

/-- The direction with a written name. -/
def ofName? (s : String) : Option Direction :=
  all.find? (·.name == s)

/-- The index of a direction names that direction. -/
@[simp] theorem ofIndex_index (d : Direction) : ofIndex d.index = d := by
  cases d <;> rfl

/-- The direction an integer names has the index of its remainder. -/
theorem index_ofIndex (i : Int) : ((ofIndex i).index : Int) = i % 6 := by
  have cases : i % 6 = 0 ∨ i % 6 = 1 ∨ i % 6 = 2 ∨ i % 6 = 3 ∨ i % 6 = 4 ∨ i % 6 = 5 := by omega
  rcases cases with h | h | h | h | h | h <;> simp [ofIndex, h, index]

end Direction

namespace Coord

/-- The adjacent hex in a direction. -/
def neighbor (c : Coord) (d : Direction) : Checked Coord :=
  c.sum d.unit

/-- The hex {lit}`steps` hexes away in a direction: the unit step is multiplied
first, then added. -/
def offset (c : Coord) (d : Direction) (steps : Int) : Checked Coord := do
  let way ← (d.unit.scale steps).checked
  c.sum way

end Coord

end HexArena
