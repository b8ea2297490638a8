import HexArena.Proofs.Hex.Reach
import HexArena.Proofs.Script.Change

/-!
# Scripts with headroom

A script looks as far as its piece can go, as far as it can shoot, and as far as
the board is wide; a ray that leaves the board is not followed any farther.  If
the triples that its piece and the others have are that far below the bound up to
which triples are computed with, no word of the script overflows.

Main results:

- Theorem {lit}`Word.firstSeen_defined`: a ray ends before its triples overflow.
- Theorem {lit}`Machine.Headroom.not_overflows`: a machine with headroom computes
  with coordinates without overflow.
- Theorem {lit}`Machine.reach_stable`: the reach of a piece grows by no more than
  the movement it spends.
-/

namespace HexArena

open Checked

/-! ## Queries of the board -/

namespace Board

variable {b : Board} {cell : Coord}

/-- The triples of the pieces on the board are computed with. -/
def Safe (b : Board) : Prop :=
  ∀ s ∈ b.snapshots, s.position.reach ≤ Coord.safeReach

theorem contains_defined (hcell : cell.reach ≤ Coord.safeReach) : Defined (b.contains cell) := by
  have horigin : Coord.origin.reach ≤ Coord.safeReach := Nat.zero_le _
  exact (Coord.distance_of_reach horigin hcell).bind fun steps _ => .ok _

theorem firstOn_defined {l : List Snapshot}
    (hl : ∀ s ∈ l, s.position.reach ≤ Coord.safeReach) (hcell : cell.reach ≤ Coord.safeReach) :
    Defined (firstOn cell l) := by
  induction l with
  | nil => exact .ok none
  | cons s rest ih =>
    obtain ⟨hs, hrest⟩ := List.forall_mem_cons.mp hl
    unfold firstOn
    exact (Coord.sameHex_of_reach hs hcell).bind fun same _ => .ite (.ok _) (ih hrest)

theorem nearTo_defined {l : List Snapshot}
    (hl : ∀ s ∈ l, s.position.reach ≤ Coord.safeReach) (hcell : cell.reach ≤ Coord.safeReach)
    (range : Nat) : Defined (nearTo cell range l) := by
  induction l with
  | nil => exact .ok []
  | cons s rest ih =>
    obtain ⟨hs, hrest⟩ := List.forall_mem_cons.mp hl
    unfold nearTo
    refine (Coord.distance_of_reach hcell hs).bind fun steps _ => ?_
    exact (ih hrest).bind fun others _ => .ok _

end Board

namespace Script

variable {scene : Scene} {actor : PieceId} {start cell : Coord} {d : Direction}

theorem otherOccupant_defined (hb : scene.board.Safe) (hcell : cell.reach ≤ Coord.safeReach) :
    Defined (otherOccupant scene actor cell) := by
  unfold otherOccupant
  exact (Board.firstOn_defined hb hcell).bind fun found _ => .ok _

/-- A hex some steps away is looked at if it is in reach. -/
theorem occupantAt_defined (hb : scene.board.Safe) {steps : Nat}
    (hreach : start.reach + steps ≤ Coord.safeReach) :
    Defined (occupantAt scene actor start d steps) := by
  have hcell := Nat.le_trans (Coord.reach_add_scale_le start d steps) hreach
  have hoffset : start.reach + steps ≤ 2147483647 := Nat.le_trans hreach (by decide)
  unfold occupantAt
  rw [Coord.offset_of_reach d steps hoffset]
  exact otherOccupant_defined hb hcell

namespace Word

theorem isFree_defined (hb : scene.board.Safe) (hcell : cell.reach ≤ Coord.safeReach) :
    Defined (isFree scene actor cell) := by
  unfold isFree
  refine (Board.contains_defined hcell).bind fun inside _ => .ite ?_ (.ok false)
  exact (otherOccupant_defined hb hcell).bind fun other _ => .ok _

/-- The way ahead is looked at if its end is in reach. -/
theorem freeSteps_defined (hb : scene.board.Safe) {walked budget : Nat}
    (hreach : start.reach + (walked + budget) ≤ Coord.safeReach) :
    Defined (freeSteps scene actor start d walked budget) := by
  induction budget generalizing walked with
  | zero => exact .ok walked
  | succ budget ih =>
    have hstep : start.reach + (walked + 1) ≤ Coord.safeReach := by omega
    have hcell := Nat.le_trans (Coord.reach_add_scale_le start d (walked + 1)) hstep
    have hoffset : start.offset d (walked + 1 : Nat) = _ :=
      Coord.offset_of_reach d (walked + 1) (Nat.le_trans hstep (by decide))
    have hcomponent : walked + 1 ≤ maxComponent :=
      Nat.le_trans (Nat.le_add_left _ _) (Nat.le_trans hstep (by decide))
    rw [freeSteps_succ_eq budget hcomponent]
    refine Defined.bind ⟨_, hoffset⟩ fun place hplace => ?_
    have hsame : place = start + d.unit.scale (walked + 1 : Nat) :=
      Except.ok.inj (hplace.symm.trans hoffset)
    rw [hsame]
    refine (isFree_defined hb hcell).bind fun free _ => .ite (ih ?_) (.ok walked)
    omega

/-- Every hex of a ray that is not longer than the board is wide is in reach. -/
theorem safe_of_ray {radius : Nat}
    (hreach : start.reach + (2 * radius + 1) ≤ Coord.safeReach) {walked : Nat}
    (hwalked : walked ≤ 2 * radius + 1) (hcell : cell = start + d.unit.scale walked) :
    cell.reach ≤ Coord.safeReach := by
  have hplace := Coord.reach_add_scale_le start d walked
  rw [hcell]
  omega

/-- The ray goes on from a hex of the board. -/
theorem neighbor_of_contains (hnorm : start.norm ≤ scene.board.radius)
    (hreach : start.reach + (2 * scene.board.radius + 1) ≤ Coord.safeReach) {walked : Nat}
    (hcell : cell = start + d.unit.scale walked) (hinside : scene.board.contains cell = .ok true) :
    walked ≤ 2 * scene.board.radius ∧
      cell.neighbor d = .ok (start + d.unit.scale (walked + 1 : Nat)) := by
  have hwithin := (Board.contains_eq_true hinside).norm_le
  rw [hcell] at hwithin
  have hwalked := Coord.steps_le_of_norm hnorm hwithin
  have hplace := Coord.reach_add_scale_le start d walked
  refine ⟨hwalked, ?_⟩
  unfold Coord.safeReach at hreach
  rw [hcell, Coord.neighbor_of_reach d (by omega), Coord.add_scale_succ]

/-- A ray is followed to its end: on the board it is no longer than the board is
wide, and one step farther it has left the board. -/
theorem firstSeen_defined (hb : scene.board.Safe) (hnorm : start.norm ≤ scene.board.radius)
    (hreach : start.reach + (2 * scene.board.radius + 1) ≤ Coord.safeReach) {walked : Nat}
    (hwalked : walked ≤ 2 * scene.board.radius + 1) {step : Int}
    (hcell : cell = start + d.unit.scale walked) :
    Defined (firstSeen scene actor d step cell) := by
  -- The ray goes on only from hexes of the board, so the number of its steps stays below the width.
  fun_induction firstSeen scene actor d step cell generalizing walked with
  | case1 step cell cause hcause =>
    exact absurd hcause ((Board.contains_defined (safe_of_ray hreach hwalked hcell)).ne_error cause)
  | case2 => exact .ok 0
  | case3 step cell _ cause hcause =>
    have hsafe := safe_of_ray hreach hwalked hcell
    exact absurd hcause ((otherOccupant_defined hb hsafe).ne_error cause)
  | case4 step => exact .ok step
  | case5 step cell hinside _ cause hcause =>
    obtain ⟨-, hnext⟩ := neighbor_of_contains hnorm hreach hcell hinside
    rw [hnext] at hcause
    cases hcause
  | case6 step cell hinside _ next htaken ih =>
    obtain ⟨hle, hnext⟩ := neighbor_of_contains hnorm hreach hcell hinside
    exact ih (Nat.succ_le_succ hle) (Except.ok.inj (htaken.symm.trans hnext))

end Word

end Script

/-! ## Machines -/

/-- A piece moves if the end of its way is in reach. -/
theorem Piece.move_defined {p : Piece} {spaces : Nat}
    (hreach : p.position.reach + spaces ≤ Coord.safeReach) (d : Direction) :
    Defined (p.move spaces d) := by
  unfold Piece.move
  split
  · exact .ok _
  · split
    · exact .ok _
    · rename_i henough
      have hoffset := Coord.offset_of_reach d spaces (Nat.le_trans hreach (by decide))
      rw [p.toComponent?_spaces (Nat.le_of_not_lt henough)]
      exact Defined.bind ⟨_, hoffset⟩ fun position _ => .ok _

namespace Script.Machine

/-- The piece is as far below the bound for triples as its script can look. -/
structure Headroom (scene : Scene) (m : Machine) : Prop where
  board : scene.board.Safe
  norm_le : m.piece.position.norm ≤ scene.board.radius
  movement : m.piece.position.reach + m.piece.movement ≤ Coord.safeReach
  range : m.piece.position.reach + m.piece.stats.range ≤ Coord.safeReach
  width : m.piece.position.reach + (2 * scene.board.radius + 1) ≤ Coord.safeReach

/-- A machine with headroom computes with coordinates without overflow. -/
theorem Headroom.not_overflows {scene : Scene} {m : Machine} (h : m.Headroom scene)
    (cause : Overflow) : ¬ m.Overflows scene cause := by
  have hmovement := h.movement
  have hrange := h.range
  have hwidth := h.width
  intro hoverflows
  cases hoverflows with
  | survey hbudget hfails =>
    exact (Word.freeSteps_defined h.board (by omega)).ne_error cause hfails
  | walk hbudget hfree hfails =>
    have hbound := m.piece.movement_le
    have hwalked := (Word.freeSteps_eq_ok (by omega) hfree).1
    exact (m.piece.move_defined (by omega) _).ne_error cause hfails
  | @occupant d steps hpositive hnear hfails =>
    obtain ⟨n, rfl⟩ := Int.eq_ofNat_of_zero_le (Int.le_trans (by decide) hpositive)
    exact (occupantAt_defined h.board (by omega)).ne_error cause hfails
  | @look d hfails =>
    have hfirst := Coord.neighbor_of_reach (c := m.piece.position) d
      (by unfold Coord.safeReach at hwidth; omega)
    rw [← Coord.scale_one d.unit] at hfirst
    refine Defined.ne_error (Defined.bind ⟨_, hfirst⟩ fun cell hcell => ?_) cause hfails
    exact Word.firstSeen_defined h.board h.norm_le hwidth (Nat.le_add_left 1 _)
      (Except.ok.inj (hcell.symm.trans hfirst))
  | enemies hfails =>
    have hcell : m.piece.position.reach ≤ Coord.safeReach := by omega
    exact (Board.nearTo_defined h.board hcell _).ne_error cause hfails

/-- What a piece gains in reach it has paid for with its movement. -/
theorem reach_stable (scene : Scene) (n : Nat) :
    Stable scene fun m => m.piece.position.reach + m.piece.movement ≤ n := by
  intro m m' hchange hm
  cases hchange with
  | stack | print | turn | send | receive | clearMail => exact hm
  | miss hshoot | hit hshoot =>
    obtain ⟨-, -, -, rfl⟩ := Piece.shoot_eq_ok hshoot
    exact hm
  | @walk d _ walked _ _ _ hmove =>
    obtain ⟨-, hle, position, hposition, rfl⟩ := Piece.move_eq_ok hmove
    have hplace := Coord.reach_add_scale_le m.piece.position d walked
    rw [← Coord.offset_eq_ok hposition] at hplace
    show position.reach + (m.piece.movement - walked) ≤ n
    omega

end Script.Machine

end HexArena
