import HexArena.Proofs.Hex.Range
import HexArena.Proofs.Hex.Reach

/-!
# Straight ways

A piece that moves or shoots finds the hex at the end of its way in one jump, while
one that looks goes there step by step.  Only one component changes along a straight
way, and always in the same sense, so a way that starts and ends in range is in range
all along: the jump overflows exactly if some step does.

Main results:

- Theorem {lit}`Coord.offset_eq_ok_iff`: where a jump leads, and when it leads
  somewhere.
- Definition {lit}`Coord.march`: the hex at the end of single steps.
- Theorem {lit}`Coord.march_eq_ok_iff`: where single steps lead, and when they do.
- Theorem {lit}`Coord.overflows_march_iff`: single steps overflow at one of them.
- Theorem {lit}`Coord.distance_add_scale`: the length of a straight way is the
  distance of its ends.
- Theorem {lit}`Coord.offset_eq_march`: jumping is stepping.
-/

namespace HexArena.Coord

open Checked

/-! ## Jumps -/

theorem scale_zero (c : Coord) : c.scale (0 : Nat) = origin := by
  simp [scale, origin]

theorem add_origin (c : Coord) : c + origin = c := by
  ext
  · exact Int.add_zero c.x
  · exact Int.add_zero c.y
  · exact Int.add_zero c.z

/-- A straight way goes on where its first part ends. -/
theorem add_scale_add (c way : Coord) (first later : Nat) :
    c + way.scale first + way.scale later = c + way.scale (first + later : Nat) := by
  ext
  · simp only [add_x, scale, Int.natCast_add, Int.mul_add, Int.add_assoc]
  · simp only [add_y, scale, Int.natCast_add, Int.mul_add, Int.add_assoc]
  · simp only [add_z, scale, Int.natCast_add, Int.mul_add, Int.add_assoc]

/-- A hex is some steps away if neither the way nor the hex overflows. -/
theorem offset_eq_ok_iff {c cell : Coord} {d : Direction} {steps : Int} :
    c.offset d steps = .ok cell ↔
      (d.unit.scale steps).Fits ∧ (c + d.unit.scale steps).Fits ∧
        cell = c + d.unit.scale steps := by
  unfold offset
  rw [bind_eq_ok]
  constructor
  · rintro ⟨way, hway, hsum⟩
    obtain ⟨hfits, rfl⟩ := checked_eq_ok_iff.mp hway
    exact ⟨hfits, checked_eq_ok_iff.mp hsum⟩
  · rintro ⟨hway, hcell⟩
    exact ⟨_, checked_eq_ok_iff.mpr ⟨hway, rfl⟩, checked_eq_ok_iff.mpr hcell⟩

theorem offset_none {c : Coord} (hfits : c.Fits) (d : Direction) :
    c.offset d (0 : Nat) = .ok c := by
  rw [offset_eq_ok_iff, scale_zero, add_origin]
  exact ⟨by decide, hfits, rfl⟩

/-- The second part of a way does not overflow if the whole way does not. -/
theorem fits_scale_of_le {d : Direction} {first later : Nat} (hle : first ≤ later)
    (h : (d.unit.scale later).Fits) : (d.unit.scale first).Fits := by
  obtain ⟨⟨hx, hx'⟩, ⟨hy, hy'⟩, hz, hz'⟩ := h
  cases d with
  | _ =>
    simp only [scale, Direction.unit] at hx hx' hy hy' hz hz'
    refine ⟨⟨?_, ?_⟩, ⟨?_, ?_⟩, ?_, ?_⟩ <;> simp only [scale, Direction.unit] <;> omega

/-- From the end of the first part, the rest of a way leads to the end of the
whole. -/
theorem offset_of_offset_add {c cell : Coord} {d : Direction} {first later : Nat}
    (h : c.offset d (first + later : Nat) = .ok cell) :
    (c + d.unit.scale first).offset d later = .ok cell := by
  obtain ⟨hway, hfits, hcell⟩ := offset_eq_ok_iff.mp h
  rw [← add_scale_add] at hfits hcell
  exact offset_eq_ok_iff.mpr ⟨fits_scale_of_le (Nat.le_add_left _ _) hway, hfits, hcell⟩

/-! ## Steps -/

/-- The hex at the end of {lit}`n` single steps in a direction, of which every one is
checked. -/
def march (c : Coord) (d : Direction) : Nat → Checked Coord
  | 0 => .ok c
  | n + 1 => do
    let c ← c.march d n
    c.neighbor d

variable {a b c : Coord} {d : Direction} {n : Nat}

theorem neighbor_eq_ok_iff : c.neighbor d = .ok b ↔ (c + d.unit).Fits ∧ b = c + d.unit :=
  checked_eq_ok_iff

/-- A straight way between triples in range stays in range. -/
theorem fits_of_between {j k : Nat} (hjk : j ≤ k) (hstart : c.Fits)
    (hstop : (c + d.unit.scale k).Fits) : (c + d.unit.scale j).Fits := by
  cases d with
  | _ =>
    simp only [Fits, Fits32, add_x, add_y, add_z, scale, Direction.unit] at hstart hstop ⊢
    omega

/-- Single steps lead as far as one jump would, if that is in range. -/
theorem march_eq_ok_iff (hfits : c.Fits) :
    c.march d n = .ok b ↔ (c + d.unit.scale n).Fits ∧ b = c + d.unit.scale n := by
  induction n generalizing b with
  | zero =>
    rw [scale_zero, add_origin, march, Except.ok.injEq, eq_comm]
    exact (and_iff_right hfits).symm
  | succ n ih =>
    rw [march, bind_eq_ok, ← add_scale_succ]
    constructor
    · rintro ⟨mid, hmid, hstep⟩
      obtain ⟨-, rfl⟩ := ih.mp hmid
      exact neighbor_eq_ok_iff.mp hstep
    · intro hstep
      have hmid : (c + d.unit.scale n).Fits := by
        rw [add_scale_succ] at hstep
        exact fits_of_between (Nat.le_succ n) hfits hstep.1
      exact ⟨_, ih.mpr ⟨hmid, rfl⟩, neighbor_eq_ok_iff.mpr hstep⟩

/-- Single steps overflow if one of them does that is reached. -/
theorem overflows_march_iff :
    Overflows (c.march d n) ↔ ∃ k < n, ∃ mid, c.march d k = .ok mid ∧
      Overflows (mid.neighbor d) := by
  induction n with
  | zero =>
    constructor
    · rintro ⟨cause, hcause⟩
      cases hcause
    · rintro ⟨k, hk, -⟩
      omega
  | succ n ih =>
    cases hmarch : c.march d n with
    | error cause =>
      have hover : Overflows (c.march d (n + 1)) := ⟨cause, by rw [march, hmarch]; rfl⟩
      obtain ⟨k, hk, hstep⟩ := ih.mp ⟨cause, hmarch⟩
      exact iff_of_true hover ⟨k, by omega, hstep⟩
    | ok mid =>
      have hnext : c.march d (n + 1) = mid.neighbor d := by
        rw [march, hmarch]
        rfl
      rw [hnext]
      constructor
      · intro hover
        exact ⟨n, Nat.lt_succ_self n, mid, hmarch, hover⟩
      · rintro ⟨k, hk, mid', hmid', hover⟩
        by_cases hlast : k = n
        · rw [hlast, hmarch] at hmid'
          rwa [← Except.ok.inj hmid'] at hover
        · -- An earlier step cannot overflow: the march got past it.
          obtain ⟨cause, hcause⟩ := ih.mpr ⟨k, by omega, mid', hmid', hover⟩
          rw [hmarch] at hcause
          cases hcause

/-! ## Lengths -/

/-- As many steps as a component can count do not overflow by themselves. -/
theorem fits_scale_unit (hn : n ≤ 2147483647) : (d.unit.scale n).Fits := by
  apply fits_of_reach
  rw [reach_scale_unit]
  exact hn

/-- The distance of the ends of a straight way is the number of its steps. -/
theorem distance_add_scale (hn : n ≤ 2147483647) : a.distance (a + d.unit.scale n) = .ok n := by
  have hreduce : Defined (d.unit.scale n).reduce := by
    apply defined_reduce_iff.mpr
    cases d with
    | _ =>
      simp only [Fits32, scale, Direction.unit]
      omega
  have hdefined : Defined (a.distance (a + d.unit.scale n)) := by
    rw [defined_distance_iff, add_sub_cancel_start]
    exact ⟨fits_scale_unit hn, hreduce⟩
  obtain ⟨steps, hsteps⟩ := hdefined
  rw [hsteps, distance_eq_ok hsteps, add_sub_cancel_start, norm_scale_unit]

/-- From a triple in range, a jump over as many hexes as a component can count
overflows exactly if one of as many single steps overflows.  If none does, the steps
lead to the same triple as the jump, and the number of steps is the distance. -/
theorem offset_eq_march (ha : a.Fits) (hn : n ≤ 2147483647) :
    (Overflows (a.offset d n) ↔
      ∃ k < n, ∃ mid, a.march d k = .ok mid ∧ Overflows (mid.neighbor d)) ∧
    ∀ b, a.offset d n = .ok b → a.march d n = .ok b ∧ a.distance b = .ok n := by
  have hsame : ∀ b, a.offset d n = .ok b ↔ a.march d n = .ok b := by
    intro b
    rw [offset_eq_ok_iff, march_eq_ok_iff ha]
    exact and_iff_right (fits_scale_unit hn)
  constructor
  · rw [← overflows_march_iff, overflows_iff, overflows_iff]
    exact not_congr (exists_congr hsame)
  · intro b hb
    refine ⟨(hsame b).mp hb, ?_⟩
    rw [offset_eq_ok hb]
    exact distance_add_scale hn

/-- The longest way of all leads from the center to the last triple in range; a step
farther out, one of its steps overflows. -/
theorem offset_eq_march_edge :
    origin.march .positiveX 2147483647 = .ok ⟨2147483647, 0, 0⟩ ∧
    origin.distance ⟨2147483647, 0, 0⟩ = .ok 2147483647 ∧
    ∃ k < 2147483647, ∃ mid,
      march ⟨1, 0, 0⟩ .positiveX k = .ok mid ∧ Overflows (mid.neighbor .positiveX) := by
  have hjump : origin.offset .positiveX (2147483647 : Nat) = .ok ⟨2147483647, 0, 0⟩ :=
    rfl
  have hbeyond : Overflows (offset ⟨1, 0, 0⟩ .positiveX (2147483647 : Nat)) :=
    ⟨.component, rfl⟩
  obtain ⟨hmarch, hdistance⟩ := (offset_eq_march (by decide) (Nat.le_refl _)).2 _ hjump
  exact ⟨hmarch, hdistance, (offset_eq_march (by decide) (Nat.le_refl _)).1.mp hbeyond⟩

end HexArena.Coord
