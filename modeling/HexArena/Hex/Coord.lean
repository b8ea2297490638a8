import HexArena.Number

/-!
# Hex coordinates

A hex is addressed by a triple of components along three axes.  One axis is
redundant: a step along {lit}`y` is a step along {lit}`x` and a step along
{lit}`z`, so every hex has many triples.  Addition and subtraction of triples
are plain; the operations a match uses are checked, and report an overflow as
soon as a component they compute leaves the signed 32-bit range.

Main results:

- Definition {lit}`Coord.reduce`: the triple of the same hex with {lit}`y = 0`.
- Definition {lit}`Coord.vector`: the shortest triple of the same hex.
- Definition {lit}`Coord.distance`: the number of steps between two hexes.
- Definition {lit}`Coord.sameHex`: two triples address one hex.
-/

namespace HexArena

/-- A triple that addresses a hex. -/
structure Coord where
  x : Int
  y : Int
  z : Int
deriving DecidableEq, Repr, Inhabited

namespace Coord

/-! ## Plain arithmetic -/

instance : Add Coord :=
  ⟨fun a b => ⟨a.x + b.x, a.y + b.y, a.z + b.z⟩⟩

instance : Sub Coord :=
  ⟨fun a b => ⟨a.x - b.x, a.y - b.y, a.z - b.z⟩⟩

/-- The triple taken {lit}`n` times. -/
def scale (c : Coord) (n : Int) : Coord :=
  ⟨c.x * n, c.y * n, c.z * n⟩

/-- The center of the board. -/
def origin : Coord := ⟨0, 0, 0⟩

/-- The sum of the magnitudes of the components. -/
def size (c : Coord) : Nat :=
  c.x.natAbs + c.y.natAbs + c.z.natAbs

/-- The triple of the same hex with {lit}`y = 0`, over unbounded integers. -/
def reduced (c : Coord) : Coord :=
  ⟨c.x + c.y, 0, c.z + c.y⟩

/-! ## Checked arithmetic -/

/-- Every component is a signed 32-bit number. -/
def Fits (c : Coord) : Prop :=
  Fits32 c.x ∧ Fits32 c.y ∧ Fits32 c.z

instance (c : Coord) : Decidable c.Fits :=
  inferInstanceAs (Decidable (_ ∧ _))

/-- The triple itself, if all its components are in range. -/
def checked (c : Coord) : Checked Coord :=
  if c.Fits then .ok c else .error .component

/-- The checked sum of two triples. -/
def sum (a b : Coord) : Checked Coord :=
  (a + b).checked

/-- The checked difference of two triples. -/
def difference (a b : Coord) : Checked Coord :=
  (a - b).checked

/-- Fold the {lit}`y` component into the other two. -/
def reduce (c : Coord) : Checked Coord :=
  c.reduced.checked

/-- The part two components have in common when they share a strict sign. -/
def common (x z : Int) : Int :=
  if x < 0 ∧ z < 0 then max x z
  else if 0 < x ∧ 0 < z then min x z
  else 0

/-- The shortest triple of the same hex: the common part of the reduced
components moves onto the {lit}`y` axis. -/
def vector (c : Coord) : Checked Coord := do
  let r ← c.reduce
  let shared := common r.x r.z
  checked ⟨r.x - shared, shared, r.z - shared⟩

/-- The number of steps from one hex to another, an unsigned 32-bit number. -/
def distance (a b : Coord) : Checked Nat := do
  let way ← b.difference a
  let shortest ← way.vector
  if shortest.size ≤ maxCount then .ok shortest.size else .error .component

/-- Whether two triples address the same hex. -/
def sameHex (a b : Coord) : Checked Bool := do
  let a ← a.reduce
  let b ← b.reduce
  return a == b

end Coord

end HexArena
