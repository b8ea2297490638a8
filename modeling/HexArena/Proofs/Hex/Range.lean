import HexArena.Proofs.Hex.Metric
import Mathlib.Logic.Basic
import Mathlib.Order.Bounds.Defs

/-!
# Where distances overflow

A distance is computed in four stages: the difference of the two triples, the sums
that fold one axis into the others, the differences that move the common part back
onto that axis, and the sum of the three magnitudes.  Only the first two can leave
their range.  The common part lies between zero and both components, so taking it
away brings them nearer to zero; and where nothing is taken away, the components have
opposite signs and their magnitudes just fit an unsigned number.

Main results:

- Theorem {lit}`Coord.defined_reduce_iff`: which triples can be reduced.
- Theorem {lit}`Coord.fits_sub_common`: the common part can be taken away.
- Theorem {lit}`Coord.defined_vector_iff`: a triple that can be reduced has a vector.
- Theorem {lit}`Coord.norm_le_maxCount`: the magnitudes of a vector can be added up.
- Theorem {lit}`Coord.overflows_iff_out_of_range`: exactly when each stage overflows.
-/

namespace HexArena.Coord

open Checked

variable {a b c shortest : Coord}

/-! ## Reducing -/

theorem defined_checked_iff : Defined c.checked ↔ c.Fits := by
  constructor
  · rintro ⟨c', hc'⟩
    exact (checked_eq_ok_iff.mp hc').1
  · intro hfits
    exact ⟨c, checked_eq_ok_iff.mpr ⟨hfits, rfl⟩⟩

theorem fits_reduced_iff : c.reduced.Fits ↔ Fits32 (c.x + c.y) ∧ Fits32 (c.z + c.y) := by
  have hzero : Fits32 0 := by decide
  simp only [Fits, reduced, hzero, true_and]

/-- A triple can be reduced if both sums are in range. -/
theorem defined_reduce_iff : Defined c.reduce ↔ Fits32 (c.x + c.y) ∧ Fits32 (c.z + c.y) :=
  defined_checked_iff.trans fits_reduced_iff

/-! ## Vectors -/

/-- Taking away the common part of two components does not leave the range, whatever
their signs. -/
theorem fits_sub_common {x z : Int} (hx : Fits32 x) (hz : Fits32 z) :
    Fits32 (x - common x z) ∧ Fits32 (common x z) ∧ Fits32 (z - common x z) := by
  unfold Fits32 common at *
  split
  · omega
  · split
    · omega
    · omega

/-- A triple that can be reduced has a vector, and no other has one. -/
theorem defined_vector_iff : Defined c.vector ↔ Defined c.reduce := by
  constructor
  · rintro ⟨shortest, hvector⟩
    obtain ⟨r, hreduce, -⟩ := bind_eq_ok.mp hvector
    exact ⟨r, hreduce⟩
  · intro hreduce
    refine hreduce.bind fun r hr => defined_checked_iff.mpr ?_
    obtain ⟨⟨hx, -, hz⟩, rfl⟩ := checked_eq_ok_iff.mp hr
    exact fits_sub_common hx hz

/-- The number of steps of a way that can be reduced is an unsigned 32-bit number. -/
theorem norm_le_maxCount (h : Defined c.reduce) : c.norm ≤ maxCount := by
  obtain ⟨⟨hx, hx'⟩, hz, hz'⟩ := defined_reduce_iff.mp h
  unfold maxCount
  refine norm_le.mpr ⟨?_, ?_, ?_⟩
  · omega
  · omega
  · omega

theorem size_le_maxCount (h : c.vector = .ok shortest) : shortest.size ≤ maxCount := by
  rw [size_of_vector h]
  exact norm_le_maxCount (defined_vector_iff.mp ⟨shortest, h⟩)

/-! ## Distances -/

/-- The distance of two triples overflows with their difference and with the reduction
of it, and nowhere else. -/
theorem defined_distance_iff :
    Defined (a.distance b) ↔ (b - a).Fits ∧ Defined (b - a).reduce := by
  constructor
  · rintro ⟨n, hdistance⟩
    obtain ⟨way, hway, hrest⟩ := bind_eq_ok.mp hdistance
    obtain ⟨shortest, hvector, -⟩ := bind_eq_ok.mp hrest
    obtain ⟨hfits, rfl⟩ := checked_eq_ok_iff.mp hway
    exact ⟨hfits, defined_vector_iff.mp ⟨shortest, hvector⟩⟩
  · rintro ⟨hfits, hreduce⟩
    refine Defined.bind (defined_checked_iff.mpr hfits) fun way hway => ?_
    obtain ⟨-, rfl⟩ := checked_eq_ok_iff.mp hway
    refine (defined_vector_iff.mpr hreduce).bind fun shortest hvector => ?_
    rw [if_pos (size_le_maxCount hvector)]
    exact .ok _

/-- The sizes of the vectors of triples whose components are in range. -/
def vectorSizes : Set Nat :=
  { n | ∃ c shortest : Coord, c.Fits ∧ c.vector = .ok shortest ∧ shortest.size = n }

/-- The magnitudes of a vector add up to the largest unsigned number at most, and reach
it between the ends of the signed range. -/
theorem isGreatest_vectorSizes : IsGreatest vectorSizes maxCount := by
  constructor
  · exact ⟨⟨-2147483648, 0, 2147483647⟩, ⟨-2147483648, 0, 2147483647⟩,
      by decide, rfl, rfl⟩
  · rintro _ ⟨c, shortest, -, hvector, rfl⟩
    exact size_le_maxCount hvector

/-- A triple cannot be reduced exactly if one of the two sums leaves the range, and
then it has no vector either; in between, nothing overflows when the common part is
taken away.  A distance overflows exactly if a difference of components leaves the
range, or a sum that reduces the difference does; the sum of the magnitudes never
does. -/
theorem overflows_iff_out_of_range :
    (∀ c : Coord,
      (Overflows c.reduce ↔ ¬ Fits32 (c.x + c.y) ∨ ¬ Fits32 (c.z + c.y)) ∧
      (Overflows c.vector ↔ Overflows c.reduce) ∧
      ∀ r, c.reduce = .ok r →
        Fits32 (r.x - common r.x r.z) ∧ Fits32 (r.z - common r.x r.z)) ∧
    (∀ a b : Coord, Overflows (a.distance b) ↔
      (¬ Fits32 (b.x - a.x) ∨ ¬ Fits32 (b.y - a.y) ∨ ¬ Fits32 (b.z - a.z)) ∨
      ¬ Fits32 (b.x - a.x + (b.y - a.y)) ∨ ¬ Fits32 (b.z - a.z + (b.y - a.y))) ∧
    IsGreatest vectorSizes maxCount := by
  refine ⟨fun c => ⟨?_, ?_, ?_⟩, fun a b => ?_, isGreatest_vectorSizes⟩
  · rw [overflows_iff, defined_reduce_iff, not_and_or]
  · rw [overflows_iff, overflows_iff, defined_vector_iff]
  · intro r hr
    obtain ⟨⟨hx, -, hz⟩, rfl⟩ := checked_eq_ok_iff.mp hr
    obtain ⟨hx', -, hz'⟩ := fits_sub_common hx hz
    exact ⟨hx', hz'⟩
  · rw [overflows_iff, defined_distance_iff, defined_reduce_iff, not_and_or, not_and_or, Fits,
      not_and_or, not_and_or]
    rfl

/-- The lower end of the range has a magnitude beyond it; still the common part of two
such components is taken away, while the way back to the center overflows. -/
theorem overflows_iff_out_of_range_edge :
    reduce ⟨0, -2147483648, 0⟩ = .ok ⟨-2147483648, 0, -2147483648⟩ ∧
      Fits32 (-2147483648 - common (-2147483648) (-2147483648)) ∧
      Overflows (distance ⟨-2147483648, 0, 0⟩ origin) := by
  have hreduce : reduce ⟨0, -2147483648, 0⟩ = .ok ⟨-2147483648, 0, -2147483648⟩ :=
    rfl
  have hout : ¬ Fits32 (origin.x - -2147483648) := by
    decide
  exact ⟨hreduce, ((overflows_iff_out_of_range.1 _).2.2 _ hreduce).1,
    (overflows_iff_out_of_range.2.1 _ _).mpr (Or.inl (Or.inl hout))⟩

end HexArena.Coord
