import HexArena.Proofs.Hex.SameHex
import Mathlib.Order.Bounds.Defs

/-!
# Shortest paths

A path is a list of directions, and each of them is one step.  The distance of two
hexes is the length of the shortest path between them: a path changes the number of
steps that are missing by one at most with every step, and the shortest triple of the
way spells out a path that wastes none.

Main results:

- Definition {lit}`Coord.walk`: where a path leads.
- Definition {lit}`Coord.legs`: the path a triple spells out.
- Theorem {lit}`Coord.norm_le_length`: no path is shorter than the number of steps
  of its way.
- Theorem {lit}`Coord.isLeast_pathLengths`: the distance is the length of a shortest
  path.
- Theorem {lit}`Coord.size_le_of_vector`: no triple of a hex is shorter than its
  vector.
- Theorem {lit}`Coord.distance_isMetric`: both, and what follows for distances.
-/

namespace HexArena.Coord

variable {a b c start : Coord} {d : Direction} {path : List Direction} {n : Nat}

/-! ## Paths -/

/-- The triple a path leads to, over unbounded integers. -/
def walk (start : Coord) : List Direction → Coord
  | [] => start
  | d :: path => (start + d.unit).walk path

@[simp]
theorem walk_nil (start : Coord) : start.walk [] = start :=
  rfl

@[simp]
theorem walk_cons (start : Coord) (d : Direction) (path : List Direction) :
    start.walk (d :: path) = (start + d.unit).walk path :=
  rfl

@[simp]
theorem walk_append (start : Coord) (path later : List Direction) :
    start.walk (path ++ later) = (start.walk path).walk later := by
  induction path generalizing start with
  | nil => rfl
  | cons d path ih => exact ih (start + d.unit)

theorem norm_unit (d : Direction) : d.unit.norm = 1 := by
  cases d <;> rfl

/-- No path is shorter than the number of steps of its way. -/
theorem norm_walk_sub_le (start : Coord) (path : List Direction) :
    (start.walk path - start).norm ≤ path.length := by
  induction path generalizing start with
  | nil => simp [norm_sub_self]
  | cons d path ih =>
    have hrest := ih (start + d.unit)
    have hstep : (start + d.unit - start).norm = 1 := by
      rw [add_sub_cancel_start, norm_unit]
    have hdetour := norm_sub_le start (start + d.unit) ((start + d.unit).walk path)
    simp only [walk_cons, List.length_cons]
    omega

/-- The lengths of the paths from a triple to a hex. -/
def pathLengths (a b : Coord) : Set Nat :=
  { n | ∃ path : List Direction, path.length = n ∧ (a.walk path).Same b }

/-- No path between two hexes is shorter than the number of steps between them. -/
theorem norm_le_length (h : (a.walk path).Same b) : (b - a).norm ≤ path.length := by
  rw [(Same.refl a).norm_sub h]
  exact norm_walk_sub_le a path

/-! ## The path a triple spells out -/

/-- As many steps as an integer tells, one way or the other. -/
def leg (forward backward : Direction) (n : Int) : List Direction :=
  List.replicate n.natAbs (if 0 ≤ n then forward else backward)

/-- The path a triple spells out, axis by axis. -/
def legs (way : Coord) : List Direction :=
  leg .positiveX .negativeX way.x ++ leg .positiveY .negativeY way.y ++
    leg .positiveZ .negativeZ way.z

/-- The path has as many steps as the triple has in all components. -/
@[simp]
theorem length_legs (way : Coord) : way.legs.length = way.size := by
  simp [legs, leg, size, Nat.add_assoc]

theorem walk_replicate (start : Coord) (d : Direction) (n : Nat) :
    start.walk (List.replicate n d) = start + d.unit.scale n := by
  induction n generalizing start with
  | zero => ext <;> simp [scale]
  | succ n ih =>
    rw [List.replicate_succ, walk_cons, ih]
    ext <;> simp only [add_x, add_y, add_z, scale, Int.natCast_succ, Int.mul_add, Int.mul_one] <;>
      omega

/-- Steps one way or the other along an axis add up to the component they spell
out. -/
theorem walk_leg {forward backward : Direction}
    (hback : backward.unit = forward.unit.scale (-1)) (start : Coord) (n : Int) :
    start.walk (leg forward backward n) = start + forward.unit.scale n := by
  unfold leg
  rw [walk_replicate]
  by_cases hn : 0 ≤ n
  · rw [if_pos hn, Int.natAbs_of_nonneg hn]
  · have habs : (n.natAbs : Int) = -n := by omega
    rw [if_neg hn, hback, habs]
    ext <;> simp only [add_x, add_y, add_z, scale, Int.mul_neg, Int.neg_mul, Int.mul_one,
      Int.neg_neg]

/-- The path a triple spells out leads as far as the triple. -/
@[simp]
theorem walk_legs (start way : Coord) : start.walk way.legs = start + way := by
  unfold legs
  rw [walk_append, walk_append, walk_leg rfl, walk_leg rfl, walk_leg rfl]
  ext <;> simp [scale, Direction.unit]

/-! ## Vectors -/

/-- The vector of a triple is a triple of the same hex. -/
theorem same_of_vector {shortest : Coord} (h : c.vector = .ok shortest) : shortest.Same c := by
  unfold vector at h
  obtain ⟨r, hreduce, hvector⟩ := bind_eq_ok.mp h
  rw [checked_eq_ok hreduce] at hvector
  rw [checked_eq_ok hvector]
  apply same_iff.mpr
  simp only [reduced]
  omega

/-- The components of a triple are steps. -/
theorem norm_le_size (c : Coord) : c.norm ≤ c.size := by
  apply norm_le.mpr
  unfold size
  omega

/-- No triple of a hex is shorter than its vector. -/
theorem size_le_of_vector {shortest other : Coord} (h : c.vector = .ok shortest)
    (hother : other.Same c) : shortest.size ≤ other.size := by
  have hnorm : c.norm = other.norm := by
    simpa only [sub_origin] using (Same.refl origin).norm_sub hother
  rw [size_of_vector h, hnorm]
  exact norm_le_size other

/-! ## Distances -/

/-- The distance is the size of the vector of the way. -/
theorem exists_vector_of_distance (h : a.distance b = .ok n) :
    ∃ shortest, (b - a).vector = .ok shortest ∧ shortest.size = n := by
  unfold distance at h
  obtain ⟨way, hway, hrest⟩ := bind_eq_ok.mp h
  obtain ⟨shortest, hvector, hsize⟩ := bind_eq_ok.mp hrest
  rw [checked_eq_ok hway] at hvector
  refine ⟨shortest, hvector, ?_⟩
  rw [size_of_vector hvector, distance_eq_ok h]

/-- The distance of two hexes is the length of a shortest path between them. -/
theorem isLeast_pathLengths (h : a.distance b = .ok n) : IsLeast (a.pathLengths b) n := by
  constructor
  · obtain ⟨shortest, hvector, hsize⟩ := exists_vector_of_distance h
    refine ⟨shortest.legs, (length_legs shortest).trans hsize, ?_⟩
    have hsame := same_iff.mp (same_of_vector hvector)
    rw [walk_legs]
    apply same_iff.mpr
    simp only [add_x, add_y, add_z, sub_x, sub_y, sub_z] at hsame ⊢
    omega
  · rintro _ ⟨path, rfl, hpath⟩
    rw [distance_eq_ok h]
    exact norm_le_length hpath

/-- The way back has as many steps. -/
theorem norm_sub_comm (a b : Coord) : (a - b).norm = (b - a).norm := by
  have hx : (a.x - b.x + (a.y - b.y)).natAbs = (b.x - a.x + (b.y - a.y)).natAbs := by omega
  have hz : (a.z - b.z + (a.y - b.y)).natAbs = (b.z - a.z + (b.y - a.y)).natAbs := by omega
  have hy : (a.x - b.x - (a.z - b.z)).natAbs = (b.x - a.x - (b.z - a.z)).natAbs := by omega
  simp only [norm, sub_x, sub_y, sub_z, hx, hz, hy]

/-- A number of steps is the distance of two hexes. -/
structure IsDistance (a b : Coord) (n : Nat) : Prop where
  /-- A path of that many steps leads from one to the other, and none of fewer. -/
  shortest : IsLeast (a.pathLengths b) n
  /-- There are no steps exactly between triples of one hex. -/
  eq_zero : n = 0 ↔ a.Same b
  sameHex : ∀ same, a.sameHex b = .ok same → (n = 0 ↔ same = true)
  symm : ∀ back, b.distance a = .ok back → back = n
  /-- A detour is no shorter. -/
  triangle : ∀ c first second, a.distance c = .ok first → c.distance b = .ok second →
    n ≤ first + second
  /-- The triples by which the hexes are addressed do not count. -/
  triples : ∀ a' b' n', a.Same a' → b.Same b' → a'.distance b' = .ok n' → n' = n

/-- No steps lead nowhere else. -/
theorem eq_zero_iff_of_isLeast (h : IsLeast (a.pathLengths b) n) : n = 0 ↔ a.Same b := by
  constructor
  · rintro rfl
    obtain ⟨path, hlength, hpath⟩ := h.1
    rw [List.length_eq_zero_iff.mp hlength] at hpath
    exact hpath
  · intro hsame
    exact Nat.le_zero.mp (h.2 ⟨[], rfl, hsame⟩)

/-- What is computed as a distance is one. -/
theorem isDistance_of_distance (h : a.distance b = .ok n) : a.IsDistance b n where
  shortest := isLeast_pathLengths h
  eq_zero := eq_zero_iff_of_isLeast (isLeast_pathLengths h)
  sameHex := by
    intro same hsame
    obtain ⟨-, -, rfl⟩ := sameHex_eq_ok.mp hsame
    rw [decide_eq_true_iff, eq_comm (a := a.reduced)]
    exact eq_zero_iff_of_isLeast (isLeast_pathLengths h)
  symm := by
    intro back hback
    rw [distance_eq_ok hback, distance_eq_ok h, norm_sub_comm]
  triangle := by
    intro c first second hfirst hsecond
    have hdetour := norm_sub_le a c b
    rw [← distance_eq_ok h, ← distance_eq_ok hfirst, ← distance_eq_ok hsecond] at hdetour
    omega
  triples := by
    intro a' b' n' ha hb hn'
    rw [distance_eq_ok hn', distance_eq_ok h, ha.norm_sub hb]

/-- What is computed as the distance of two triples is the distance of their hexes,
and what is computed as the vector of a triple is the shortest triple of its hex. -/
theorem distance_isMetric :
    (∀ (a b : Coord) (n : Nat), a.distance b = .ok n → a.IsDistance b n) ∧
      ∀ c shortest : Coord, c.vector = .ok shortest →
        shortest.Same c ∧ ∀ other : Coord, other.Same c → shortest.size ≤ other.size := by
  refine ⟨fun a b n h => isDistance_of_distance h, ?_⟩
  intro c shortest h
  exact ⟨same_of_vector h, fun other hother => size_le_of_vector h hother⟩

/-- The distance from the center to the edge of the range, which overflows the other
way, and the vector of a triple that is a step too long. -/
theorem distance_isMetric_edge :
    origin.distance ⟨-2147483648, 0, 0⟩ = .ok 2147483648 ∧
      origin.IsDistance ⟨-2147483648, 0, 0⟩ 2147483648 ∧
      vector ⟨-1, 3, 5⟩ = .ok ⟨0, 2, 6⟩ ∧
      ∀ other : Coord, other.Same ⟨-1, 3, 5⟩ → 8 ≤ other.size := by
  have hdistance : origin.distance ⟨-2147483648, 0, 0⟩ = .ok 2147483648 := by
    decide
  have hvector : vector ⟨-1, 3, 5⟩ = .ok ⟨0, 2, 6⟩ := by
    decide
  exact ⟨hdistance, distance_isMetric.1 _ _ _ hdistance, hvector,
    (distance_isMetric.2 _ _ hvector).2⟩

end HexArena.Coord
