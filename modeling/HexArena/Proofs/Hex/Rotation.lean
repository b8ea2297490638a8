import HexArena.Proofs.Hex.SameHex

/-!
# Turning the grid

The six directions are numbered counter-clockwise, so that the next index is the
direction a sixth of a circle farther.  The same turn of the whole grid around its center
permutes the axes of a triple and negates one component.  It takes every straight way to
the one that starts in the turned hex and leads in the next direction, and it changes
neither which triples address one hex nor how far two hexes are apart.

Main results:

- Theorems {lit}`Direction.rotated?_eq_some` and {lit}`Direction.rotated_eq_ofIndex`: a turn
  never overflows and adds to the index, modulo six.
- Theorems {lit}`Direction.rotated_rotated` and {lit}`Direction.rotated_congr`: turns add
  up, and six sixths are none.
- Definition {lit}`Coord.turned`: the grid turned by a sixth of a circle.
- Theorem {lit}`Coord.unit_rotated_one`: the next direction is the turned one.
- Theorems {lit}`Coord.agree_offset_turned`, {lit}`Coord.agree_sameHex_turned` and
  {lit}`Coord.agree_distance_turned`: ways, hexes and distances on the turned grid.
-/

namespace HexArena

open Checked

/-! ## Directions -/

namespace Direction

variable {s t : Int}

/-- Indices that differ by six name the same direction. -/
theorem ofIndex_congr (h : s % 6 = t % 6) : ofIndex s = ofIndex t := by
  simp only [ofIndex, h]

/-- A turn is defined whatever its number of steps is. -/
theorem rotated?_eq_some (d : Direction) (steps : Int) :
    d.rotated? steps = some (d.rotated steps) :=
  (Option.some_get _).symm

/-- A turn adds to the index over unbounded integers, and six sixths are none. -/
theorem rotated_eq_ofIndex (d : Direction) (steps : Int) :
    d.rotated steps = ofIndex (d.index + steps) := by
  have hturn := d.rotated?_eq_some steps
  unfold rotated? sum64? at hturn
  split at hturn
  · rw [Option.map_some, Option.some_inj] at hturn
    rw [← hturn]
    apply ofIndex_congr
    omega
  · cases hturn

/-- The index after a turn. -/
theorem index_rotated (d : Direction) (steps : Int) :
    ((d.rotated steps).index : Int) = (d.index + steps) % 6 := by
  rw [rotated_eq_ofIndex, index_ofIndex]

/-- Turns that are equal modulo six lead to one direction. -/
theorem rotated_congr (d : Direction) (h : s % 6 = t % 6) : d.rotated s = d.rotated t := by
  rw [rotated_eq_ofIndex, rotated_eq_ofIndex]
  apply ofIndex_congr
  omega

/-- Turning twice is turning by the sum. -/
theorem rotated_rotated (d : Direction) (s t : Int) :
    (d.rotated s).rotated t = d.rotated (s + t) := by
  have hindex := d.index_rotated s
  rw [rotated_eq_ofIndex (d.rotated s), rotated_eq_ofIndex d (s + t)]
  apply ofIndex_congr
  omega

end Direction

/-! ## The turned grid -/

namespace Coord

/-- The triple on the grid that is turned around its center by a sixth of a circle, over
unbounded integers. -/
def turned (c : Coord) : Coord :=
  ⟨-c.z, c.x, c.y⟩

@[simp]
theorem turned_x (c : Coord) : c.turned.x = -c.z :=
  rfl

@[simp]
theorem turned_y (c : Coord) : c.turned.y = c.x :=
  rfl

@[simp]
theorem turned_z (c : Coord) : c.turned.z = c.y :=
  rfl

theorem turned_add (a b : Coord) : (a + b).turned = a.turned + b.turned := by
  ext
  · simp only [turned_x, add_x, add_z]
    omega
  · rfl
  · rfl

theorem turned_sub (a b : Coord) : (a - b).turned = a.turned - b.turned := by
  ext
  · simp only [turned_x, sub_x, sub_z]
    omega
  · rfl
  · rfl

theorem turned_scale (c : Coord) (n : Int) : (c.scale n).turned = c.turned.scale n := by
  ext
  · exact (Int.neg_mul c.z n).symm
  · rfl
  · rfl

/-- A step in the next direction is a step on the turned grid. -/
theorem unit_rotated_one (d : Direction) : (d.rotated 1).unit = d.unit.turned := by
  cases d <;> rfl

/-- Two triples address one hex exactly if they do on the turned grid. -/
theorem same_turned_iff {a b : Coord} : a.turned.Same b.turned ↔ a.Same b := by
  simp only [same_iff, turned_x, turned_y, turned_z]
  omega

/-- A way has as many steps on the turned grid. -/
theorem norm_turned (way : Coord) : way.turned.norm = way.norm := by
  have hx : (-way.z + way.x).natAbs = (way.x - way.z).natAbs := by omega
  have hz : (way.y + way.x).natAbs = (way.x + way.y).natAbs := by omega
  have hy : (-way.z - way.y).natAbs = (way.z + way.y).natAbs := by omega
  simp only [norm, turned_x, turned_y, turned_z, hx, hz, hy]
  omega

/-! ## Computing on the turned grid -/

variable (a b : Coord)

/-- On the turned grid, a way in the next direction leads to the turned hex. -/
theorem agree_offset_turned (d : Direction) (n : Int) :
    Agree (fun c c' => c' = c.turned) (a.offset d n) (a.turned.offset (d.rotated 1) n) := by
  intro c c' hc hc'
  rw [offset_eq_ok hc, offset_eq_ok hc', unit_rotated_one, turned_add, turned_scale]

theorem agree_sameHex_turned : Agree Eq (a.sameHex b) (a.turned.sameHex b.turned) := by
  intro same same' hsame hsame'
  obtain ⟨-, -, rfl⟩ := sameHex_eq_ok.mp hsame
  obtain ⟨-, -, rfl⟩ := sameHex_eq_ok.mp hsame'
  have hturned : b.turned.Same a.turned ↔ b.Same a := same_turned_iff
  exact decide_eq_decide.mpr hturned.symm

theorem agree_distance_turned : Agree Eq (a.distance b) (a.turned.distance b.turned) := by
  intro n n' hn hn'
  rw [distance_eq_ok hn, distance_eq_ok hn', ← turned_sub, norm_turned]

end Coord

end HexArena
