import HexArena.Board
import HexArena.Proofs.Hex.Metric

/-!
# What queries of the board report

A query of the board computes with coordinates and opens no mailbox, so the only
overflow it reports is that of a component.  What it finds stands on the board.

Main results:

- Theorems {lit}`Board.occupant_ofComponent` and {lit}`Board.within_ofComponent`:
  queries report no overflow but that of a component.
- Theorem {lit}`Board.mem_of_occupant`: the occupant of a hex is one of the
  snapshots of the board.
- Definition {lit}`Board.Legal`: every piece stands on the board, and no two on
  one hex.
- Theorem {lit}`Board.Legal.apart_of_occupant`: on such a board nobody is hidden
  by the occupant of a hex.
-/

namespace HexArena

open Checked

/-! ## Coordinates -/

namespace Coord

/-- A triple that does not fit is reported as an overflow of a component. -/
theorem checked_ofComponent (c : Coord) : OfComponent c.checked :=
  .ite (.ok c) .error

/-- A distance overflows only in a component. -/
theorem distance_ofComponent (a b : Coord) : OfComponent (a.distance b) := by
  unfold distance vector
  refine (checked_ofComponent _).bind fun way => ?_
  refine ((checked_ofComponent _).bind fun r => checked_ofComponent _).bind fun shortest => ?_
  exact .ite (.ok _) .error

/-- A comparison of hexes overflows only in a component. -/
theorem sameHex_ofComponent (a b : Coord) : OfComponent (a.sameHex b) := by
  unfold sameHex
  refine (checked_ofComponent _).bind fun a => ?_
  refine (checked_ofComponent _).bind fun b => ?_
  exact .ok _

/-- A step overflows only in a component. -/
theorem neighbor_ofComponent (c : Coord) (d : Direction) : OfComponent (c.neighbor d) :=
  checked_ofComponent _

/-- A way overflows only in a component. -/
theorem offset_ofComponent (c : Coord) (d : Direction) (steps : Int) :
    OfComponent (c.offset d steps) := by
  unfold offset
  exact (checked_ofComponent _).bind fun way => checked_ofComponent _

end Coord

/-- A move overflows only in a component. -/
theorem Piece.move_ofComponent (p : Piece) (spaces : Nat) (d : Direction) :
    OfComponent (p.move spaces d) := by
  unfold move
  split
  · exact .ok _
  · refine .ite (.ok _) ?_
    exact (Coord.offset_ofComponent _ _ _).bind fun position => .ok _

/-! ## Queries -/

namespace Board

/-- Asking for a hex on the board overflows only in a component. -/
theorem contains_ofComponent (b : Board) (cell : Coord) : OfComponent (b.contains cell) := by
  unfold contains
  exact (Coord.distance_ofComponent _ _).bind fun steps => .ok _

/-- Asking for the occupant of a hex overflows only in a component. -/
theorem occupant_ofComponent (b : Board) (cell : Coord) : OfComponent (b.occupant cell) := by
  unfold occupant
  induction b.snapshots with
  | nil => exact .ok none
  | cons s rest ih =>
    unfold firstOn
    exact (Coord.sameHex_ofComponent _ _).bind fun same => .ite (.ok _) ih

/-- Asking for the pieces in a range overflows only in a component. -/
theorem within_ofComponent (b : Board) (center : Coord) (range : Nat) :
    OfComponent (b.within center range) := by
  unfold within
  induction b.snapshots with
  | nil => exact .ok []
  | cons s rest ih =>
    unfold nearTo
    refine (Coord.distance_ofComponent _ _).bind fun steps => ?_
    exact ih.bind fun others => .ok _

/-- A hex on the board is within its radius. -/
theorem contains_eq_true {b : Board} {cell : Coord} (h : b.contains cell = .ok true) :
    cell.Within b.radius := by
  obtain ⟨steps, hdistance, hle⟩ := bind_eq_ok.mp h
  exact ⟨steps, hdistance, of_decide_eq_true (Except.ok.inj hle)⟩

/-- The first piece on a hex is one of those that are looked at. -/
theorem mem_of_firstOn {cell : Coord} {s : Snapshot} {l : List Snapshot}
    (h : firstOn cell l = .ok (some s)) : s ∈ l := by
  induction l with
  | nil => cases h
  | cons t rest ih =>
    unfold firstOn at h
    obtain ⟨same, -, hrest⟩ := bind_eq_ok.mp h
    cases same with
    | true =>
      cases hrest
      exact List.mem_cons_self
    | false => exact List.mem_cons_of_mem t (ih hrest)

/-- The occupant of a hex is one of the snapshots. -/
theorem mem_of_occupant {b : Board} {cell : Coord} {s : Snapshot}
    (h : b.occupant cell = .ok (some s)) : s ∈ b.snapshots :=
  mem_of_firstOn h

/-- The occupant of a hex stands on it. -/
theorem sameHex_of_firstOn {cell : Coord} {s : Snapshot} {l : List Snapshot}
    (h : firstOn cell l = .ok (some s)) : s.position.sameHex cell = .ok true := by
  induction l with
  | nil => cases h
  | cons t rest ih =>
    unfold firstOn at h
    obtain ⟨same, hsame, hrest⟩ := bind_eq_ok.mp h
    cases same with
    | true =>
      cases hrest
      exact hsame
    | false => exact ih hrest

/-- Nobody stands on a hex without an occupant. -/
theorem apart_of_firstOn {cell : Coord} {l : List Snapshot} (h : firstOn cell l = .ok none) :
    ∀ s ∈ l, s.position.Apart cell := by
  induction l with
  | nil =>
    intro s hs
    cases hs
  | cons t rest ih =>
    unfold firstOn at h
    obtain ⟨same, hsame, hrest⟩ := bind_eq_ok.mp h
    cases same with
    | true => cases hrest
    | false =>
      intro s hs
      rcases List.mem_cons.mp hs with rfl | hs
      · exact hsame
      · exact ih hrest s hs

/-! ## Legal boards -/

/-- Every piece stands on the board, and no two on one hex. -/
structure Legal (b : Board) : Prop where
  within : ∀ s ∈ b.snapshots, s.position.Within b.radius
  apart : ∀ s ∈ b.snapshots, ∀ t ∈ b.snapshots, s.id ≠ t.id → s.position.Apart t.position

/-- Somebody who stands on a hex hides nobody else: the others are apart from
the hex. -/
theorem Legal.apart_of_occupant {b : Board} (hb : b.Legal) {cell : Coord} {t : Snapshot}
    (h : b.occupant cell = .ok (some t)) {s : Snapshot} (hs : s ∈ b.snapshots)
    (hne : s.id ≠ t.id) : s.position.Apart cell := by
  obtain ⟨-, hfits, hsame⟩ := Coord.sameHex_eq_ok.mp (sameHex_of_firstOn h)
  obtain ⟨hfits', -, hapart⟩ := Coord.apart_iff.mp (hb.apart s hs t (mem_of_occupant h) hne)
  refine Coord.apart_iff.mpr ⟨hfits', hfits, ?_⟩
  rw [← of_decide_eq_true hsame.symm]
  exact hapart

/-- A snapshot that is put in its place is there with all others. -/
theorem mem_place {s t : Snapshot} {l : List Snapshot} : t ∈ place s l ↔ t = s ∨ t ∈ l := by
  induction l with
  | nil => simp [place]
  | cons u rest ih =>
    unfold place
    split
    · simp
    · rw [List.mem_cons, ih, List.mem_cons]
      exact or_left_comm

/-- A board has the snapshots it is made of. -/
theorem mem_ofSnapshots {radius : Nat} {l : List Snapshot} {t : Snapshot} :
    t ∈ (ofSnapshots radius l).snapshots ↔ t ∈ l := by
  have hplaced : ∀ placed : List Snapshot,
      t ∈ l.foldl (fun placed s => place s placed) placed ↔ t ∈ l ∨ t ∈ placed := by
    induction l with
    | nil => simp
    | cons s rest ih =>
      intro placed
      rw [List.foldl_cons, ih, mem_place, List.mem_cons]
      exact or_left_comm.trans (or_assoc.symm)
  simpa [ofSnapshots] using hplaced []

end Board

end HexArena
