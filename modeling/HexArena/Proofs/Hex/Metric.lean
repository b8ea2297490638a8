import HexArena.Hex.Direction
import HexArena.Proofs.Checked

/-!
# Steps between hexes

How many steps a way needs, computed over unbounded integers from the two
components that are left when one axis is folded into the others.  The checked
distance is this number wherever it does not overflow.

Main results:

- Definition {lit}`Coord.norm`: the number of steps of a way.
- Theorem {lit}`Coord.norm_add_le`: a detour is no shorter.
- Theorem {lit}`Coord.norm_scale_unit`: a straight way has as many steps as it
  was scaled by.
- Theorem {lit}`Coord.distance_eq_ok`: the distance is the number of steps of
  the way from one hex to the other.
- Definitions {lit}`Coord.Within` and {lit}`Coord.Apart`: a hex lies on a board,
  and two hexes are different.
-/

namespace HexArena.Coord

/-! ## Components -/

attribute [ext] Coord

@[simp]
theorem add_x (a b : Coord) : (a + b).x = a.x + b.x :=
  rfl

@[simp]
theorem add_y (a b : Coord) : (a + b).y = a.y + b.y :=
  rfl

@[simp]
theorem add_z (a b : Coord) : (a + b).z = a.z + b.z :=
  rfl

@[simp]
theorem sub_x (a b : Coord) : (a - b).x = a.x - b.x :=
  rfl

@[simp]
theorem sub_y (a b : Coord) : (a - b).y = a.y - b.y :=
  rfl

@[simp]
theorem sub_z (a b : Coord) : (a - b).z = a.z - b.z :=
  rfl

/-- The way to a third hex is the way to the second and on from there. -/
theorem sub_add_sub (a b c : Coord) : (c - b) + (b - a) = c - a := by
  ext
  · simp only [add_x, sub_x]
    omega
  · simp only [add_y, sub_y]
    omega
  · simp only [add_z, sub_z]
    omega

/-- The way from a triple to the end of a way is that way. -/
theorem add_sub_cancel_start (a way : Coord) : a + way - a = way := by
  ext
  · simp only [add_x, sub_x]
    omega
  · simp only [add_y, sub_y]
    omega
  · simp only [add_z, sub_z]
    omega

/-! ## Checked results -/

/-- A triple passes its check exactly if it fits, and stays as it is. -/
theorem checked_eq_ok_iff {c c' : Coord} : c.checked = .ok c' ↔ c.Fits ∧ c' = c := by
  unfold checked
  split
  · rename_i hfits
    constructor
    · intro h
      cases h
      exact ⟨hfits, rfl⟩
    · rintro ⟨-, rfl⟩
      rfl
  · rename_i hfits
    constructor
    · intro h
      cases h
    · rintro ⟨hfits', -⟩
      exact absurd hfits' hfits

/-- A triple that passes its check stays as it is. -/
theorem checked_eq_ok {c c' : Coord} (h : c.checked = .ok c') : c' = c :=
  (checked_eq_ok_iff.mp h).2

/-- The hex some steps away is the start plus the scaled unit step. -/
theorem offset_eq_ok {c c' : Coord} {d : Direction} {steps : Int}
    (h : c.offset d steps = .ok c') : c' = c + d.unit.scale steps := by
  unfold offset at h
  obtain ⟨way, hway, hsum⟩ := bind_eq_ok.mp h
  have hplace : c' = c + way := checked_eq_ok hsum
  rw [hplace, checked_eq_ok hway]

/-- No steps lead nowhere. -/
theorem offset_zero {c c' : Coord} {d : Direction} (h : c.offset d (0 : Nat) = .ok c') :
    c' = c := by
  rw [offset_eq_ok h]
  ext
  · simp [scale]
  · simp [scale]
  · simp [scale]

/-! ## The number of steps -/

/-- The number of steps of a way: with one axis folded into the others, steps
along both remaining axes at once are steps along the folded one. -/
def norm (way : Coord) : Nat :=
  max (max (way.x + way.y).natAbs (way.z + way.y).natAbs) (way.x - way.z).natAbs

/-- The length of a way is the largest of two sums and a difference of its components. -/
theorem norm_le {way : Coord} {n : Nat} :
    way.norm ≤ n ↔ (way.x + way.y).natAbs ≤ n ∧ (way.z + way.y).natAbs ≤ n ∧
      (way.x - way.z).natAbs ≤ n := by
  simp only [norm, Nat.max_le, and_assoc]

/-- There is no way from a hex to itself. -/
theorem norm_sub_self (a : Coord) : (a - a).norm = 0 := by
  simp [norm]

/-- Two ways in a row need at most the steps of both. -/
theorem norm_add_le (a b : Coord) : (a + b).norm ≤ a.norm + b.norm := by
  obtain ⟨hax, haz, hay⟩ := norm_le.mp (Nat.le_refl a.norm)
  obtain ⟨hbx, hbz, hby⟩ := norm_le.mp (Nat.le_refl b.norm)
  refine norm_le.mpr ⟨?_, ?_, ?_⟩
  · simp only [add_x, add_y]
    omega
  · simp only [add_z, add_y]
    omega
  · simp only [add_x, add_z]
    omega

/-- A detour over a second hex is no shorter than the way. -/
theorem norm_sub_le (a b c : Coord) : (c - a).norm ≤ (c - b).norm + (b - a).norm := by
  rw [← sub_add_sub a b c]
  exact norm_add_le (c - b) (b - a)

/-- A straight way has as many steps as its unit step was taken. -/
theorem norm_scale_unit (d : Direction) (steps : Nat) : (d.unit.scale steps).norm = steps := by
  cases d with
  | _ => simp [norm, scale, Direction.unit]

/-- Moving the common part of two components onto a third axis leaves the size
of the larger one, or of their difference if they have opposite signs. -/
theorem common_size (p q : Int) :
    (p - common p q).natAbs + (common p q).natAbs + (q - common p q).natAbs =
      max (max p.natAbs q.natAbs) (p - q).natAbs := by
  unfold common
  split
  · omega
  · split
    · omega
    · omega

/-- The shortest triple of a hex has the number of steps as its size. -/
theorem size_of_vector {way shortest : Coord} (h : way.vector = .ok shortest) :
    shortest.size = way.norm := by
  unfold vector at h
  obtain ⟨r, hreduce, hvector⟩ := bind_eq_ok.mp h
  have hr : r = way.reduced := checked_eq_ok hreduce
  have hshortest : shortest = ⟨r.x - common r.x r.z, common r.x r.z, r.z - common r.x r.z⟩ :=
    checked_eq_ok hvector
  have hdifference : way.x + way.y - (way.z + way.y) = way.x - way.z := by
    omega
  rw [hshortest, size, common_size, hr, norm, reduced, hdifference]

/-- The distance of two hexes is the number of steps of the way between them. -/
theorem distance_eq_ok {a b : Coord} {n : Nat} (h : a.distance b = .ok n) :
    n = (b - a).norm := by
  unfold distance at h
  obtain ⟨way, hway, hrest⟩ := bind_eq_ok.mp h
  obtain ⟨shortest, hvector, hsize⟩ := bind_eq_ok.mp hrest
  have hdifference : way = b - a := checked_eq_ok hway
  split at hsize
  · cases hsize
    rw [← hdifference]
    exact size_of_vector hvector
  · cases hsize

/-! ## Places on a board -/

/-- A triple is the way to it from the middle. -/
theorem sub_origin (c : Coord) : c - origin = c := by
  ext
  · exact Int.sub_zero c.x
  · exact Int.sub_zero c.y
  · exact Int.sub_zero c.z

/-- The hex is at most {lit}`radius` steps from the center. -/
def Within (c : Coord) (radius : Nat) : Prop :=
  ∃ n, origin.distance c = .ok n ∧ n ≤ radius

/-- A hex on the board is not farther from the middle than the radius. -/
theorem Within.norm_le {c : Coord} {radius : Nat} (h : c.Within radius) : c.norm ≤ radius := by
  obtain ⟨n, hdistance, hle⟩ := h
  rw [distance_eq_ok hdistance, sub_origin] at hle
  exact hle

/-- A hex whose distance does not overflow can be reduced. -/
theorem Within.fits {c : Coord} {radius : Nat} (h : c.Within radius) : c.reduced.Fits := by
  obtain ⟨n, hdistance, -⟩ := h
  unfold distance at hdistance
  obtain ⟨way, hway, hrest⟩ := bind_eq_ok.mp hdistance
  obtain ⟨shortest, hvector, -⟩ := bind_eq_ok.mp hrest
  obtain ⟨r, hreduce, -⟩ := bind_eq_ok.mp hvector
  have hsame : way = c := by
    rw [checked_eq_ok hway, sub_origin]
  rw [hsame] at hreduce
  exact (checked_eq_ok_iff.mp hreduce).1

/-- Two triples that can be reduced address one hex if they reduce to one
triple. -/
theorem sameHex_eq_ok {a b : Coord} {same : Bool} :
    a.sameHex b = .ok same ↔
      a.reduced.Fits ∧ b.reduced.Fits ∧ same = decide (a.reduced = b.reduced) := by
  unfold sameHex reduce
  constructor
  · intro h
    obtain ⟨r, hr, hrest⟩ := bind_eq_ok.mp h
    obtain ⟨r', hr', hsame⟩ := bind_eq_ok.mp hrest
    obtain ⟨hfits, rfl⟩ := checked_eq_ok_iff.mp hr
    obtain ⟨hfits', rfl⟩ := checked_eq_ok_iff.mp hr'
    cases hsame
    exact ⟨hfits, hfits', rfl⟩
  · rintro ⟨hfits, hfits', rfl⟩
    rw [checked_eq_ok_iff.mpr ⟨hfits, rfl⟩, checked_eq_ok_iff.mpr ⟨hfits', rfl⟩]
    rfl

/-- The two triples address different hexes. -/
def Apart (a b : Coord) : Prop :=
  a.sameHex b = .ok false

/-- Triples are apart exactly if both can be reduced and are not equal then. -/
theorem apart_iff {a b : Coord} :
    a.Apart b ↔ a.reduced.Fits ∧ b.reduced.Fits ∧ a.reduced ≠ b.reduced := by
  unfold Apart
  rw [sameHex_eq_ok]
  simp

/-- Being apart does not depend on the order. -/
theorem Apart.symm {a b : Coord} (h : a.Apart b) : b.Apart a := by
  obtain ⟨hfits, hfits', hne⟩ := apart_iff.mp h
  exact apart_iff.mpr ⟨hfits', hfits, hne.symm⟩

end HexArena.Coord
