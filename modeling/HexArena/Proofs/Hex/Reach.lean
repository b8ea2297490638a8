import HexArena.Proofs.Hex.Metric

/-!
# How far triples drift

A triple is never reduced when a piece walks, so its components may grow while
the hex it addresses stays on the board.  They grow by one at most with every
step, and as long as they stay below a quarter of the signed 32-bit range no
computation with two triples overflows.

Main results:

- Definition {lit}`Coord.reach`: the largest magnitude of a component.
- Theorem {lit}`Coord.reach_add_scale_le`: a step adds one to it at most.
- Theorems {lit}`Coord.offset_of_reach`, {lit}`Coord.sameHex_of_reach` and
  {lit}`Coord.distance_of_reach`: bounded triples are computed with.
- Theorem {lit}`Coord.steps_le_of_norm`: a straight way between two hexes of a
  board is no longer than the board is wide.
-/

namespace HexArena.Coord

open Checked

/-- The largest magnitude of a component. -/
def reach (c : Coord) : Nat :=
  max (max c.x.natAbs c.y.natAbs) c.z.natAbs

/-- The reach up to which any two triples are computed with. -/
def safeReach : Nat := 536870911

/-- The reach is the largest component, without its sign. -/
theorem reach_le {c : Coord} {n : Nat} :
    c.reach ≤ n ↔ c.x.natAbs ≤ n ∧ c.y.natAbs ≤ n ∧ c.z.natAbs ≤ n := by
  simp only [reach, Nat.max_le, and_assoc]

/-! ## Reaches of results -/

/-- The reach of a sum is at most the sum of the reaches. -/
theorem reach_add_le (a b : Coord) : (a + b).reach ≤ a.reach + b.reach := by
  obtain ⟨hax, hay, haz⟩ := reach_le.mp (Nat.le_refl a.reach)
  obtain ⟨hbx, hby, hbz⟩ := reach_le.mp (Nat.le_refl b.reach)
  refine reach_le.mpr ⟨?_, ?_, ?_⟩
  · exact Nat.le_trans (Int.natAbs_add_le a.x b.x) (Nat.add_le_add hax hbx)
  · exact Nat.le_trans (Int.natAbs_add_le a.y b.y) (Nat.add_le_add hay hby)
  · exact Nat.le_trans (Int.natAbs_add_le a.z b.z) (Nat.add_le_add haz hbz)

/-- So is the reach of a difference. -/
theorem reach_sub_le (a b : Coord) : (a - b).reach ≤ a.reach + b.reach := by
  obtain ⟨hax, hay, haz⟩ := reach_le.mp (Nat.le_refl a.reach)
  obtain ⟨hbx, hby, hbz⟩ := reach_le.mp (Nat.le_refl b.reach)
  refine reach_le.mpr ⟨?_, ?_, ?_⟩
  · exact Nat.le_trans (Int.natAbs_sub_le a.x b.x) (Nat.add_le_add hax hbx)
  · exact Nat.le_trans (Int.natAbs_sub_le a.y b.y) (Nat.add_le_add hay hby)
  · exact Nat.le_trans (Int.natAbs_sub_le a.z b.z) (Nat.add_le_add haz hbz)

/-- Steps in one direction reach as far as there are steps. -/
theorem reach_scale_unit (d : Direction) (steps : Nat) : (d.unit.scale steps).reach = steps := by
  cases d with
  | _ => simp [reach, scale, Direction.unit]

/-- A straight way adds as much as it has steps at most. -/
theorem reach_add_scale_le (c : Coord) (d : Direction) (steps : Nat) :
    (c + d.unit.scale steps).reach ≤ c.reach + steps := by
  have hsum := reach_add_le c (d.unit.scale steps)
  rw [reach_scale_unit] at hsum
  exact hsum

/-- Folding one axis into the others doubles the reach at most. -/
theorem reach_reduced_le (c : Coord) : c.reduced.reach ≤ 2 * c.reach := by
  obtain ⟨hx, hy, hz⟩ := reach_le.mp (Nat.le_refl c.reach)
  refine reach_le.mpr ⟨?_, ?_, ?_⟩
  · simp only [reduced]
    omega
  · simp only [reduced]
    omega
  · simp only [reduced]
    omega

/-- Moving the common part of two components onto a third axis leaves no larger
component. -/
theorem natAbs_common_le {x z : Int} {n : Nat} (hx : x.natAbs ≤ n) (hz : z.natAbs ≤ n) :
    (x - common x z).natAbs ≤ n ∧ (common x z).natAbs ≤ n ∧ (z - common x z).natAbs ≤ n := by
  unfold common
  split
  · omega
  · split
    · omega
    · omega

/-- A way has at most two steps for each unit of its reach. -/
theorem norm_le_reach (c : Coord) : c.norm ≤ 2 * c.reach := by
  obtain ⟨hx, hy, hz⟩ := reach_le.mp (Nat.le_refl c.reach)
  refine norm_le.mpr ⟨?_, ?_, ?_⟩
  · omega
  · omega
  · omega

/-! ## Computing with bounded triples -/

variable {a b c : Coord}

/-- A triple fits if its reach does. -/
theorem fits_of_reach (h : c.reach ≤ 2147483647) : c.Fits := by
  obtain ⟨hx, hy, hz⟩ := reach_le.mp h
  refine ⟨⟨?_, ?_⟩, ⟨?_, ?_⟩, ?_, ?_⟩ <;> omega

/-- Such a triple passes its check. -/
theorem checked_of_reach (h : c.reach ≤ 2147483647) : c.checked = .ok c :=
  checked_eq_ok_iff.mpr ⟨fits_of_reach h, rfl⟩

/-- A way is taken if its end is in reach. -/
theorem offset_of_reach (d : Direction) (steps : Nat) (h : c.reach + steps ≤ 2147483647) :
    c.offset d steps = .ok (c + d.unit.scale steps) := by
  have hway : (d.unit.scale steps).reach ≤ 2147483647 := by
    rw [reach_scale_unit]
    omega
  have hplace := Nat.le_trans (reach_add_scale_le c d steps) h
  exact bind_eq_ok.mpr ⟨_, checked_of_reach hway, checked_of_reach hplace⟩

/-- A single step is not scaled. -/
theorem scale_one (c : Coord) : c.scale (1 : Nat) = c := by
  ext
  · exact Int.mul_one c.x
  · exact Int.mul_one c.y
  · exact Int.mul_one c.z

/-- A step does not overflow if the reach leaves room for it. -/
theorem neighbor_of_reach (d : Direction) (h : c.reach + 1 ≤ 2147483647) :
    c.neighbor d = .ok (c + d.unit) := by
  have hplace := Nat.le_trans (reach_add_scale_le c d 1) h
  rw [scale_one] at hplace
  exact checked_of_reach hplace

/-- One more step of a straight way. -/
theorem add_scale_succ (c : Coord) (d : Direction) (steps : Nat) :
    c + d.unit.scale steps + d.unit = c + d.unit.scale (steps + 1 : Nat) := by
  ext
  · simp only [add_x, scale, Int.natCast_succ, Int.mul_add, Int.mul_one, Int.add_assoc]
  · simp only [add_y, scale, Int.natCast_succ, Int.mul_add, Int.mul_one, Int.add_assoc]
  · simp only [add_z, scale, Int.natCast_succ, Int.mul_add, Int.mul_one, Int.add_assoc]

/-- Hexes near the middle are compared without overflow. -/
theorem sameHex_of_reach (ha : a.reach ≤ safeReach) (hb : b.reach ≤ safeReach) :
    Defined (a.sameHex b) := by
  have ha' := reach_reduced_le a
  have hb' := reach_reduced_le b
  unfold safeReach at ha hb
  exact ⟨_, sameHex_eq_ok.mpr ⟨fits_of_reach (by omega), fits_of_reach (by omega), rfl⟩⟩

/-- The shortest triple of a hex is found if the hex can be reduced. -/
theorem vector_of_reach (h : 2 * c.reach ≤ 2147483647) : Defined c.vector := by
  have hreduced := Nat.le_trans (reach_reduced_le c) h
  obtain ⟨hx, -, hz⟩ := reach_le.mp hreduced
  have hshortest := natAbs_common_le hx hz
  exact ⟨_, bind_eq_ok.mpr
    ⟨_, checked_of_reach hreduced, checked_of_reach (reach_le.mpr hshortest)⟩⟩

/-- Distances near the middle are computed without overflow. -/
theorem distance_of_reach (ha : a.reach ≤ safeReach) (hb : b.reach ≤ safeReach) :
    Defined (a.distance b) := by
  have hway := reach_sub_le b a
  unfold safeReach at ha hb
  refine Defined.bind ⟨_, checked_of_reach (by omega)⟩ fun way hdifference => ?_
  rw [checked_eq_ok hdifference]
  refine (vector_of_reach (by omega)).bind fun shortest hvector => ?_
  have hsize : shortest.size ≤ maxCount := by
    have hnorm := norm_le_reach (b - a)
    rw [size_of_vector hvector]
    unfold maxCount
    omega
  rw [if_pos hsize]
  exact .ok _

/-! ## Straight ways on a board -/

/-- A straight way between two hexes of a board is no longer than the board is
wide, whatever the triples of its ends. -/
theorem steps_le_of_norm {d : Direction} {steps radius : Nat} (hstart : c.norm ≤ radius)
    (hstop : (c + d.unit.scale steps).norm ≤ radius) : steps ≤ 2 * radius := by
  have hback : (origin - c).norm ≤ radius := by
    obtain ⟨hx, hz, hy⟩ := norm_le.mp hstart
    refine norm_le.mpr ⟨?_, ?_, ?_⟩ <;> simp only [origin, sub_x, sub_y, sub_z]
    · omega
    · omega
    · omega
  have hway := norm_sub_le c origin (c + d.unit.scale steps)
  rw [add_sub_cancel_start, norm_scale_unit, sub_origin] at hway
  omega

end HexArena.Coord
