import HexArena.Proofs.Script.Action
import HexArena.Proofs.Script.Headroom
import HexArena.Proofs.Script.SameHex
import Mathlib.Algebra.Group.Nat.Defs
import Mathlib.Order.Bounds.Basic

/-!
# Looking along a ray

A script can look along a ray, which is followed hex by hex until it leaves the
board, and it can ask for the name of whoever stands a number of steps away,
which is computed in one jump.  Both find the same pieces: the board is convex,
so a ray that has left it does not come back, and on the board it is no longer
than the board is wide.

Main results:

- Theorem {lit}`Coord.norm_le_of_between`: a straight way between two hexes of
  the board stays on it.
- Definition {lit}`Word.firstSeenIn`: the loop of a look, given up after a number
  of hexes.
- Definition {lit}`Word.sightings`: the distances at which somebody else stands
  along a ray.
- Theorem {lit}`Word.exists_firstSeenIn`: the loop ends in time, at the nearest
  of them.
- Theorem {lit}`Machine.exists_view`: looking and identifying agree along every
  ray.
-/

namespace HexArena

open Checked

/-! ## The board -/

namespace Coord

/-- The board is convex: a straight way between two of its hexes stays on it. -/
theorem norm_le_of_between {c : Coord} {d : Direction} {radius j k : Nat} (hjk : j ≤ k)
    (hstart : c.norm ≤ radius) (hstop : (c + d.unit.scale k).norm ≤ radius) :
    (c + d.unit.scale j).norm ≤ radius := by
  rw [norm_le] at hstart hstop ⊢
  cases d with
  | _ =>
    simp only [add_x, add_y, add_z, scale, Direction.unit] at hstop ⊢
    omega

theorem Same.norm_eq {a b : Coord} (h : a.Same b) : b.norm = a.norm := by
  simpa only [sub_origin] using (Same.refl origin).norm_sub h

end Coord

/-- A hex whose triple is computed with is on the board if its distance from the
center is at most the radius. -/
theorem Board.contains_of_reach {cell : Coord} (b : Board) (hcell : cell.reach ≤ Coord.safeReach) :
    b.contains cell = .ok (decide (cell.norm ≤ b.radius)) := by
  have horigin : Coord.origin.reach ≤ Coord.safeReach := Nat.zero_le _
  obtain ⟨n, hn⟩ := Coord.distance_of_reach horigin hcell
  have hnorm : n = cell.norm := by
    rw [Coord.distance_eq_ok hn, Coord.sub_origin]
  unfold contains
  rw [hn, hnorm]
  rfl

namespace Script

/-! ## Rays -/

namespace Word

/-- The loop of {lit}`firstSeen`, given up if it has not ended after
{lit}`limit` hexes. -/
def firstSeenIn (scene : Scene) (self : PieceId) (d : Direction) :
    Nat → Int → Coord → Checked (Option Int)
  | 0, _, _ => .ok none
  | limit + 1, step, cell => do
    if ← scene.board.contains cell then
      match ← otherOccupant scene self cell with
      | some _ => return some step
      | none =>
        let next ← cell.neighbor d
        firstSeenIn scene self d limit (step + 1) next
    else return some 0

/-- If the loop ends in time, its result is that of the loop that is never given
up. -/
theorem firstSeen_of_firstSeenIn {scene : Scene} {self : PieceId} {d : Direction} {limit : Nat}
    {step n : Int} {cell : Coord} (h : firstSeenIn scene self d limit step cell = .ok (some n)) :
    firstSeen scene self d step cell = .ok n := by
  induction limit generalizing step cell with
  | zero => cases h
  | succ limit ih =>
    unfold firstSeenIn at h
    obtain ⟨inside, hinside, h⟩ := bind_eq_ok.mp h
    rw [firstSeen_eq, hinside]
    cases inside with
    | false =>
      cases h
      rfl
    | true =>
      obtain ⟨other, hother, h⟩ := bind_eq_ok.mp h
      show (otherOccupant scene self cell >>= _) = _
      rw [hother]
      cases other with
      | some s =>
        cases h
        rfl
      | none =>
        obtain ⟨next, hnext, h⟩ := bind_eq_ok.mp h
        show (cell.neighbor d >>= _) = _
        rw [hnext]
        exact ih h

/-- The distances at which somebody else stands along a ray. -/
def sightings (scene : Scene) (self : PieceId) (start : Coord) (d : Direction) : Set Nat :=
  {k | 1 ≤ k ∧ ∃ s, occupantAt scene self start d k = .ok (some s)}

section Rays

variable {scene : Scene} {actor : PieceId} {start : Coord} {d : Direction}

/-- Somebody who stands on the board is seen on the board. -/
theorem norm_le_of_sighting (hb : ∀ s ∈ scene.board.snapshots, s.position.Within scene.board.radius)
    {k : Nat} (hk : k ∈ sightings scene actor start d) :
    (start + d.unit.scale k).norm ≤ scene.board.radius := by
  obtain ⟨-, s, hs⟩ := hk
  obtain ⟨cell, hcell, hother⟩ := bind_eq_ok.mp hs
  have hsame : s.position.OneHex cell := sameHex_of_otherOccupant hother
  rw [← Coord.offset_eq_ok hcell, hsame.same.norm_eq]
  exact (hb s (otherOccupant_eq_some hother).1).norm_le

/-- Nobody is seen where a query of the board finds nobody. -/
theorem not_mem_sightings {k : Nat} (h : occupantAt scene actor start d k = .ok none) :
    k ∉ sightings scene actor start d := by
  rintro ⟨-, s, hs⟩
  rw [h] at hs
  cases hs

/-- The loop of a look ends before it is given up, at the nearest piece, or with
zero if there is none.  The ray has been followed up to {lit}`walked` steps, and
nobody was seen on the way. -/
theorem exists_firstSeenIn (hsafe : scene.board.Safe)
    (hb : ∀ s ∈ scene.board.snapshots, s.position.Within scene.board.radius)
    (hnorm : start.norm ≤ scene.board.radius)
    (hreach : start.reach + (2 * scene.board.radius + 1) ≤ Coord.safeReach) {walked limit : Nat}
    (hlimit : walked + limit = 2 * scene.board.radius + 2)
    (hwalked : walked ≤ 2 * scene.board.radius + 1) (hpos : 1 ≤ walked)
    (hbefore : ∀ j < walked, j ∉ sightings scene actor start d) :
    ∃ k : Nat,
      firstSeenIn scene actor d limit walked (start + d.unit.scale walked) = .ok (some k) ∧
      (k = 0 ∧ sightings scene actor start d = ∅ ∨ IsLeast (sightings scene actor start d) k) := by
  induction limit generalizing walked with
  | zero => omega
  | succ limit ih =>
    have hcell : (start + d.unit.scale walked).reach ≤ Coord.safeReach :=
      safe_of_ray hreach hwalked rfl
    have hinside := scene.board.contains_of_reach hcell
    unfold firstSeenIn
    rw [hinside]
    by_cases hon : (start + d.unit.scale walked).norm ≤ scene.board.radius
    · rw [decide_eq_true hon] at hinside ⊢
      have hoffset : start.offset d walked = .ok (start + d.unit.scale walked) :=
        Coord.offset_of_reach d walked (by unfold Coord.safeReach at hreach; omega)
      have hdefined : Defined (otherOccupant scene actor (start + d.unit.scale walked)) :=
        otherOccupant_defined hsafe hcell
      obtain ⟨other, hother⟩ := hdefined
      have hseen : occupantAt scene actor start d walked = .ok other :=
        bind_eq_ok.mpr ⟨_, hoffset, hother⟩
      show ∃ k : Nat, (otherOccupant scene actor _ >>= _) = _ ∧ _
      rw [hother]
      cases other with
      | some s =>
        refine ⟨walked, rfl, Or.inr ⟨⟨hpos, s, hseen⟩, ?_⟩⟩
        intro j hj
        by_contra hlt
        exact hbefore j (by omega) hj
      | none =>
        obtain ⟨hle, hnext⟩ := neighbor_of_contains hnorm hreach rfl hinside
        show ∃ k : Nat, (Coord.neighbor _ d >>= _) = _ ∧ _
        rw [hnext]
        have hbefore' : ∀ j < walked + 1, j ∉ sightings scene actor start d := by
          intro j hj
          by_cases hj' : j = walked
          · rw [hj']
            exact not_mem_sightings hseen
          · exact hbefore j (by omega)
        have hlimit' : walked + 1 + limit = 2 * scene.board.radius + 2 := by omega
        have hrest := ih hlimit' (by omega) (by omega) hbefore'
        exact hrest
    · -- Behind the edge there is nobody: the way there would have to come back to the board.
      rw [decide_eq_false hon]
      refine ⟨0, rfl, Or.inl ⟨rfl, ?_⟩⟩
      apply Set.eq_empty_of_forall_notMem
      intro j hj
      by_cases hj' : j < walked
      · exact hbefore j hj' hj
      · exact hon (Coord.norm_le_of_between (by omega) hnorm (norm_le_of_sighting hb hj))

end Rays

end Word

/-! ## Words -/

/-- Given operands on top of any stack, top first, the word replaces them by a
value and changes nothing else. -/
def Builtin.Answers (word : Builtin) (scene : Scene) (m : Machine) (operands : List Value)
    (value : Value) : Prop :=
  ∀ rest : List Value, rest.length < scene.stackLimit →
    word.perform scene { m with stack := operands ++ rest } =
      .ok .proceed { m with stack := value :: rest }

namespace Builtin

variable {scene : Scene} {m : Machine} {direction : Int}

/-- A look pushes what the loop along the ray returns. -/
theorem look_answers {first : Coord} {seen : Int}
    (hfirst : m.piece.position.neighbor (m.piece.heading direction) = .ok first)
    (hseen : Word.firstSeen scene m.piece.id (m.piece.heading direction) 1 first = .ok seen) :
    look.Answers scene m [.int direction] (.int seen) := by
  intro rest hroom
  have hray : (do
      let cell ← m.piece.position.neighbor (m.piece.heading direction)
      Word.firstSeen scene m.piece.id (m.piece.heading direction) 1 cell) = .ok seen :=
    bind_eq_ok.mpr ⟨first, hfirst, hseen⟩
  apply perform_of_action
  show (Action.ofChecked _ >>= pushInt scene) { m with stack := rest } = _
  rw [hray]
  exact push_of_room hroom (.int seen)

/-- Whoever stands a number of steps away is named, if it is not farther than the
board is wide. -/
theorem identify_answers {distance : Int} {other : Option Snapshot} (hfits : Fits32 distance)
    (hpos : 1 ≤ distance) (hnear : distance ≤ 2 * scene.board.radius)
    (hother : occupantAt scene m.piece.id m.piece.position (m.piece.heading direction) distance =
      .ok other) :
    identify.Answers scene m [.int direction, .int distance]
      (.text ((other.map (·.id.name)).getD "")) := by
  intro rest hroom
  apply perform_of_action
  show (if Fits32 distance ∧ 1 ≤ distance ∧ distance ≤ 2 * scene.board.radius then
    Action.ofChecked (occupantAt _ _ _ _ _) >>= _ else _ : Action Unit) { m with stack := rest } = _
  rw [if_pos ⟨hfits, hpos, hnear⟩, hother]
  exact push_of_room hroom _

/-- Farther than the board is wide, and behind the piece, nobody is named. -/
theorem identify_answers_far {distance : Int}
    (hfar : ¬ (1 ≤ distance ∧ distance ≤ 2 * scene.board.radius)) :
    identify.Answers scene m [.int direction, .int distance] (.text "") := by
  intro rest hroom
  apply perform_of_action
  show (if Fits32 distance ∧ 1 ≤ distance ∧ distance ≤ 2 * scene.board.radius then
    _ else _ : Action Unit) { m with stack := rest } = _
  rw [if_neg fun h => hfar h.2]
  exact push_of_room hroom _

end Builtin

/-! ## Agreement -/

namespace Machine

/-- The distances at which the piece sees somebody else in a relative direction. -/
def sightings (scene : Scene) (m : Machine) (direction : Int) : Set Nat :=
  Word.sightings scene m.piece.id m.piece.position (m.piece.heading direction)

/-- What a piece learns of a ray by looking along it and by asking for names: the
nearest other piece is {lit}`k` steps away, or there is none and {lit}`k` is
zero. -/
structure View (scene : Scene) (m : Machine) (direction : Int) (k : Nat) : Prop where
  /-- The loop of a look ends after at most as many hexes as the board is wide, and
  one more. -/
  ends : (do
    let first ← m.piece.position.neighbor (m.piece.heading direction)
    Word.firstSeenIn scene m.piece.id (m.piece.heading direction) (2 * scene.board.radius + 1) 1
      first) = .ok (some (k : Int))
  look : Builtin.look.Answers scene m [.int direction] (.int k)
  nearest : 0 < k → IsLeast (m.sightings scene direction) k ∧
    ∃ s, occupantAt scene m.piece.id m.piece.position (m.piece.heading direction) k =
        .ok (some s) ∧
      Builtin.identify.Answers scene m [.int direction, .int k] (.text s.id.name)
  before : ∀ j : Nat, 1 ≤ j → j < k →
    Builtin.identify.Answers scene m [.int direction, .int j] (.text "")
  nobody : k = 0 → m.sightings scene direction = ∅ ∧
    ∀ j : Int, Builtin.identify.Answers scene m [.int direction, .int j] (.text "")

/-- Everybody stands on the board, and no ray from the piece overflows. -/
structure Sighted (scene : Scene) (m : Machine) : Prop where
  board : ∀ s ∈ scene.board.snapshots, s.position.Within scene.board.radius
  safe : scene.board.Safe
  norm_le : m.piece.position.norm ≤ scene.board.radius
  width : m.piece.position.reach + (2 * scene.board.radius + 1) ≤ Coord.safeReach

variable {scene : Scene} {m : Machine} {direction : Int}

theorem Sighted.fits (h : m.Sighted scene) {distance : Int} (hpos : 1 ≤ distance)
    (hnear : distance ≤ 2 * scene.board.radius) : Fits32 distance := by
  have hwidth := h.width
  unfold Coord.safeReach at hwidth
  unfold Fits32
  omega

/-- A ray is followed to the nearest piece, or to the edge if there is none. -/
theorem Sighted.exists_nearest (h : m.Sighted scene) (direction : Int) :
    ∃ (first : Coord) (k : Nat),
      m.piece.position.neighbor (m.piece.heading direction) = .ok first ∧
      Word.firstSeenIn scene m.piece.id (m.piece.heading direction)
        (2 * scene.board.radius + 1) 1 first = .ok (some k) ∧
      (k = 0 ∧ m.sightings scene direction = ∅ ∨ IsLeast (m.sightings scene direction) k) := by
  have hfirst : m.piece.position.neighbor (m.piece.heading direction) =
      .ok (m.piece.position + (m.piece.heading direction).unit.scale (1 : Nat)) := by
    have hwidth := h.width
    rw [Coord.scale_one]
    apply Coord.neighbor_of_reach
    unfold Coord.safeReach at hwidth
    omega
  have hbefore : ∀ j < 1, j ∉ m.sightings scene direction := by
    intro j hj hmem
    have hpos : 1 ≤ j := hmem.1
    omega
  have hlimit : 1 + (2 * scene.board.radius + 1) = 2 * scene.board.radius + 2 := by omega
  obtain ⟨k, hseen, hnearest⟩ := Word.exists_firstSeenIn h.safe h.board h.norm_le h.width
    hlimit (by omega) (Nat.le_refl 1) hbefore
  exact ⟨_, k, hfirst, hseen, hnearest⟩

/-- Nobody is named who is not seen. -/
theorem Sighted.identify_nobody (h : m.Sighted scene) {distance : Int}
    (hnone : distance.toNat ∉ m.sightings scene direction) :
    Builtin.identify.Answers scene m [.int direction, .int distance] (.text "") := by
  by_cases hnear : 1 ≤ distance ∧ distance ≤ 2 * scene.board.radius
  · obtain ⟨n, rfl⟩ := Int.eq_ofNat_of_zero_le (Int.le_trans (by decide) hnear.1)
    have hwidth := h.width
    have hdefined : Defined
        (occupantAt scene m.piece.id m.piece.position (m.piece.heading direction) n) :=
      occupantAt_defined h.safe (by omega)
    obtain ⟨other, hother⟩ := hdefined
    cases other with
    | none => exact Builtin.identify_answers (h.fits hnear.1 hnear.2) hnear.1 hnear.2 hother
    | some s => exact absurd ⟨by omega, s, hother⟩ hnone
  · exact Builtin.identify_answers_far hnear

/-- Whoever is seen is named. -/
theorem Sighted.identify_seen (h : m.Sighted scene) {k : Nat}
    (hk : k ∈ m.sightings scene direction) :
    ∃ s, occupantAt scene m.piece.id m.piece.position (m.piece.heading direction) k =
        .ok (some s) ∧
      Builtin.identify.Answers scene m [.int direction, .int k] (.text s.id.name) := by
  have hwithin := Word.norm_le_of_sighting h.board hk
  have hnear := Coord.steps_le_of_norm h.norm_le hwithin
  obtain ⟨hpos, s, hs⟩ := hk
  exact ⟨s, hs, Builtin.identify_answers (h.fits (by omega) (by omega)) (by omega) (by omega) hs⟩

theorem Sighted.view (h : m.Sighted scene) (direction : Int) :
    ∃ k, m.View scene direction k := by
  obtain ⟨first, k, hfirst, hseen, hnearest⟩ := h.exists_nearest direction
  refine ⟨k, bind_eq_ok.mpr ⟨first, hfirst, hseen⟩,
    Builtin.look_answers hfirst (Word.firstSeen_of_firstSeenIn hseen), ?_, ?_, ?_⟩
  · intro hpos
    rcases hnearest with ⟨hzero, -⟩ | hleast
    · omega
    · exact ⟨hleast, h.identify_seen hleast.1⟩
  · intro j hj hlt
    apply h.identify_nobody
    rcases hnearest with ⟨hzero, -⟩ | ⟨-, hlower⟩
    · omega
    · intro hmem
      have hle : k ≤ j := hlower hmem
      omega
  · intro hzero
    rcases hnearest with ⟨-, hempty⟩ | ⟨⟨hpos, -⟩, -⟩
    · refine ⟨hempty, ?_⟩
      intro j
      apply h.identify_nobody
      rw [hempty]
      exact Set.notMem_empty _
    · omega

/-- The place is on the board, and its components have a magnitude of at most
{lit}`bound`. -/
structure Placed (board : Board) (bound : Nat) (place : Coord) : Prop where
  within : place.Within board.radius
  reach_le : place.reach ≤ bound

/-- Looking and identifying agree along every ray, on every board of moderate
width on which everybody stands: a look ends in time, at the nearest piece, and
exactly those who are seen are named. -/
theorem exists_view (hradius : scene.board.radius ≤ 2 ^ 16)
    (hboard : ∀ s ∈ scene.board.snapshots, Placed scene.board (2 ^ 28) s.position)
    (hpiece : Placed scene.board (2 ^ 28) m.piece.position) (direction : Int) :
    ∃ k, m.View scene direction k := by
  have hsafe : scene.board.Safe := by
    intro s hs
    exact Nat.le_trans (hboard s hs).reach_le (by decide)
  have hwidth : m.piece.position.reach + (2 * scene.board.radius + 1) ≤ Coord.safeReach := by
    have hle := hpiece.reach_le
    unfold Coord.safeReach
    omega
  have hsighted : m.Sighted scene :=
    ⟨fun s hs => (hboard s hs).within, hsafe, hpiece.within.norm_le, hwidth⟩
  exact hsighted.view direction

/-- A scout in the middle of a board, and two steps ahead of it a tank, whose place
is given by another triple of its hex. -/
def duel : Scene where
  board := ⟨3, [(Piece.spawn .ada ⟨"red"⟩ .scout .origin 0).snapshot,
    (Piece.spawn .bob ⟨"blue"⟩ .tank ⟨1, 1, -1⟩ 0).snapshot]⟩
  stackLimit := 8

/-- The scout sees the tank ahead and nobody behind it. -/
theorem exists_view_duel :
    (Interpreter.startMachine .lone []).View duel 0 2 ∧
      (Interpreter.startMachine .lone []).View duel 3 0 := by
  have hview : ∀ direction, ∃ k, (Interpreter.startMachine .lone []).View duel direction k := by
    apply exists_view (by decide)
    · intro s hs
      simp only [duel, List.mem_cons, List.not_mem_nil, or_false] at hs
      rcases hs with rfl | rfl
      · exact ⟨⟨0, rfl, by decide⟩, by decide⟩
      · exact ⟨⟨2, rfl, by decide⟩, by decide⟩
    · exact ⟨⟨0, rfl, by decide⟩, by decide⟩
  obtain ⟨k, hahead⟩ := hview 0
  obtain ⟨k', hbehind⟩ := hview 3
  have hk : (2 : Int) = k := by
    have hends := hahead.ends
    exact Option.some.inj (Except.ok.inj hends)
  have hk' : (0 : Int) = k' := by
    have hends := hbehind.ends
    exact Option.some.inj (Except.ok.inj hends)
  rw [show k = 2 by omega] at hahead
  rw [show k' = 0 by omega] at hbehind
  exact ⟨hahead, hbehind⟩

end Machine

end Script

end HexArena
