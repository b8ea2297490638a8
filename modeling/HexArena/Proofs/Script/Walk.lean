import HexArena.Proofs.Hex.Straight
import HexArena.Proofs.Script.Action
import HexArena.Proofs.Script.Turn
import Mathlib.Order.Bounds.Basic

/-!
# Walking

A walk goes as far as the way is free, as many steps as asked for, and as many as
the piece has left, whichever comes first.  It does not matter whether the steps
are asked for at once: where the first part of a walk ends early, the second does
not get farther, and where it does not, the second goes on from there.

Main results:

- Definition {lit}`Word.ways`: how far a piece can walk.
- Theorem {lit}`Word.freeSteps_eq_ok_iff`: how far the way ahead is found to be
  free.
- Theorems {lit}`Word.Surveyed.isGreatest` and {lit}`Word.Surveyed.split`: that is
  the longest way, and it can be walked in two parts.
- Definition {lit}`Piece.ahead`: the piece after a walk.
- Theorem {lit}`Machine.walk_longest`: what a walk does, and that it can be split.
-/

namespace HexArena

open Checked

/-! ## The piece after a walk -/

namespace Piece

/-- The piece some steps farther in a direction, which it has paid for. -/
def ahead (p : Piece) (d : Direction) (steps : Nat) : Piece :=
  p.moved (p.position + d.unit.scale steps) steps

variable {p : Piece} {d : Direction} {steps : Nat}

theorem ahead_zero (hcount : p.spacesMoved ≤ maxCount) (d : Direction) : p.ahead d 0 = p := by
  have hsame : addCount p.spacesMoved 0 = p.spacesMoved := Nat.min_eq_left hcount
  have hstays : p.position + d.unit.scale (0 : Nat) = p.position := by
    rw [Coord.scale_zero, Coord.add_origin]
  simp only [ahead, moved, hstays, hsame, Nat.sub_zero]

/-- A piece that walks on pays for both walks as for one. -/
theorem ahead_ahead (p : Piece) (d : Direction) (first later : Nat) :
    (p.ahead d first).ahead d later = p.ahead d (first + later) := by
  have hcount : addCount (addCount p.spacesMoved first) later =
      addCount p.spacesMoved (first + later) := by
    simp only [addCount]
    omega
  simp only [ahead, moved, Coord.add_scale_add, hcount, Nat.sub_sub]

theorem move_of_offset (hblocked : p.blocked? = none) (hle : steps ≤ p.movement)
    (hoffset : p.position.offset d steps = .ok (p.position + d.unit.scale steps)) :
    p.move steps d = .ok (.ok (p.ahead d steps)) := by
  unfold move
  rw [hblocked]
  show (if p.movement < steps then _ else _) = _
  rw [if_neg (Nat.not_lt.mpr hle), p.toComponent?_spaces hle, hoffset]
  rfl

theorem move_of_blocked {cause : Blocked} (hblocked : p.blocked? = some cause) :
    p.move steps d = .ok (.error (.blocked cause)) := by
  unfold move
  rw [hblocked]

end Piece

namespace Script

/-! ## The way ahead -/

namespace Word

/-- The hex some steps away lies on the board, and nobody else is seen on it. -/
def Open (scene : Scene) (actor : PieceId) (start : Coord) (d : Direction) (steps : Nat) : Prop :=
  ∃ cell, start.offset d steps = .ok cell ∧ scene.board.contains cell = .ok true ∧
    otherOccupant scene actor cell = .ok none

/-- The numbers of steps, up to a bound, that lead over open hexes only. -/
def ways (scene : Scene) (actor : PieceId) (start : Coord) (d : Direction) (bound : Nat) :
    Set Nat :=
  {k | k ≤ bound ∧ ∀ j, 1 ≤ j → j ≤ k → Open scene actor start d j}

/-- The hex some steps away is found to be free, or is found not to be. -/
def FoundFree (scene : Scene) (actor : PieceId) (start : Coord) (d : Direction) (steps : Nat)
    (free : Bool) : Prop :=
  ∃ cell, start.offset d steps = .ok cell ∧ isFree scene actor cell = .ok free

/-- The way ahead is looked at from {lit}`walked` steps on, and is free up to
{lit}`n` steps: there is a hex in the way, or the budget is used up. -/
structure Surveyed (scene : Scene) (actor : PieceId) (start : Coord) (d : Direction)
    (walked budget n : Nat) : Prop where
  low : walked ≤ n
  high : n ≤ walked + budget
  free : ∀ j, walked < j → j ≤ n → FoundFree scene actor start d j true
  stop : n < walked + budget → FoundFree scene actor start d (n + 1) false

section Ways

variable {scene : Scene} {actor : PieceId} {start : Coord} {d : Direction} {walked budget n : Nat}

theorem isFree_eq_true_iff {cell : Coord} :
    isFree scene actor cell = .ok true ↔
      scene.board.contains cell = .ok true ∧ otherOccupant scene actor cell = .ok none := by
  constructor
  · intro h
    refine ⟨?_, (isFree_eq_true h).2⟩
    obtain ⟨inside, hinside, hrest⟩ := bind_eq_ok.mp h
    cases inside with
    | false => cases hrest
    | true => exact hinside
  · rintro ⟨hinside, hother⟩
    simp only [isFree, hinside, hother]
    rfl

theorem open_iff {steps : Nat} :
    Open scene actor start d steps ↔ FoundFree scene actor start d steps true := by
  simp only [Open, FoundFree, isFree_eq_true_iff]

/-- A hex is not found to be both. -/
theorem FoundFree.unique {steps : Nat} {free free' : Bool}
    (h : FoundFree scene actor start d steps free)
    (h' : FoundFree scene actor start d steps free') : free = free' := by
  obtain ⟨cell, hcell, hfree⟩ := h
  obtain ⟨cell', hcell', hfree'⟩ := h'
  have hsame : cell = cell' := Except.ok.inj (hcell.symm.trans hcell')
  rw [← hsame, hfree] at hfree'
  exact Except.ok.inj hfree'

/-- What is found on a way is found from the end of its first part. -/
theorem FoundFree.later {first later : Nat} {free : Bool}
    (h : FoundFree scene actor start d (first + later) free) :
    FoundFree scene actor (start + d.unit.scale first) d later free := by
  obtain ⟨cell, hcell, hfree⟩ := h
  exact ⟨cell, Coord.offset_of_offset_add hcell, hfree⟩

/-- One more hex is looked at. -/
theorem freeSteps_succ (hwalked : walked < maxComponent) :
    freeSteps scene actor start d walked (budget + 1) = .ok n ↔
      n = walked ∧ FoundFree scene actor start d (walked + 1) false ∨
      FoundFree scene actor start d (walked + 1) true ∧
        freeSteps scene actor start d (walked + 1) budget = .ok n := by
  constructor
  · intro h
    rw [freeSteps_succ_eq budget hwalked] at h
    obtain ⟨cell, hcell, h⟩ := bind_eq_ok.mp h
    obtain ⟨free, hfree, h⟩ := bind_eq_ok.mp h
    cases free with
    | false =>
      cases h
      exact Or.inl ⟨rfl, cell, hcell, hfree⟩
    | true => exact Or.inr ⟨⟨cell, hcell, hfree⟩, h⟩
  · rw [freeSteps_succ_eq budget hwalked]
    rintro (⟨rfl, cell, hcell, hfree⟩ | ⟨⟨cell, hcell, hfree⟩, h⟩)
    · exact bind_eq_ok.mpr ⟨cell, hcell, bind_eq_ok.mpr ⟨false, hfree, rfl⟩⟩
    · exact bind_eq_ok.mpr ⟨cell, hcell, bind_eq_ok.mpr ⟨true, hfree, h⟩⟩

/-- The way ahead is free up to the first hex that is not, or up to the end of the
budget, as long as the steps are components. -/
theorem freeSteps_eq_ok_iff (hbound : walked + budget ≤ maxComponent) :
    freeSteps scene actor start d walked budget = .ok n ↔
      Surveyed scene actor start d walked budget n := by
  induction budget generalizing walked with
  | zero =>
    constructor
    · intro h
      cases h
      exact ⟨Nat.le_refl _, Nat.le_refl _, by omega, by omega⟩
    · intro h
      have hn : walked = n := Nat.le_antisymm h.low h.high
      rw [hn]
      rfl
  | succ budget ih =>
    rw [freeSteps_succ (by omega), ih (by omega)]
    constructor
    · rintro (⟨rfl, hstop⟩ | ⟨hnext, h⟩)
      · exact ⟨Nat.le_refl _, by omega, by omega, fun _ => hstop⟩
      · have hlow := h.low
        have hhigh := h.high
        refine ⟨by omega, by omega, ?_, fun hlt => h.stop (by omega)⟩
        intro j hj hle
        by_cases hfirst : j = walked + 1
        · rwa [hfirst]
        · exact h.free j (by omega) hle
    · intro h
      have hlow := h.low
      have hhigh := h.high
      by_cases hstart : n = walked
      · rw [hstart] at h
        exact Or.inl ⟨hstart, h.stop (by omega)⟩
      · refine Or.inr ⟨h.free _ (by omega) (by omega), by omega, by omega, ?_, ?_⟩
        · intro j hj hle
          exact h.free j (by omega) hle
        · intro hlt
          exact h.stop (by omega)

namespace Surveyed

/-- The way that is found to be free is the longest one that can be walked. -/
theorem isGreatest (h : Surveyed scene actor start d 0 budget n) :
    IsGreatest (ways scene actor start d budget) n := by
  have hhigh := h.high
  constructor
  · exact ⟨by omega, fun j hj hle => open_iff.mpr (h.free j hj hle)⟩
  · rintro k ⟨hk, hopen⟩
    by_contra hlt
    have hfree := open_iff.mp (hopen (n + 1) (by omega) (by omega))
    cases hfree.unique (h.stop (by omega))

/-- The end of the way does not overflow. -/
theorem offset_eq (h : Surveyed scene actor start d 0 budget n) (hfits : start.Fits) :
    start.offset d n = .ok (start + d.unit.scale n) := by
  by_cases hn : n = 0
  · rw [hn, Coord.scale_zero, Coord.add_origin]
    exact Coord.offset_none hfits d
  · obtain ⟨cell, hcell, -⟩ := h.free n (by omega) (Nat.le_refl n)
    rw [hcell, Coord.offset_eq_ok hcell]

/-- A walk can be split: what is left of the steps asked for, and of the movement,
leads from the end of the first part to the end of the whole. -/
theorem split {first later movement : Nat}
    (h : Surveyed scene actor start d 0 (min (first + later) movement) n) :
    Surveyed scene actor start d 0 (min first movement) (min n first) ∧
      Surveyed scene actor (start + d.unit.scale (min n first : Nat)) d 0
        (min later (movement - min n first)) (n - min n first) := by
  have hhigh := h.high
  refine ⟨⟨by omega, by omega, ?_, ?_⟩, ⟨by omega, by omega, ?_, ?_⟩⟩
  · intro j hj hle
    exact h.free j hj (by omega)
  · -- The first part ends early only where the whole walk does.
    intro hlt
    have hend : min n first = n := by omega
    rw [hend]
    exact h.stop (by omega)
  · intro j hj hle
    exact (h.free (min n first + j) (by omega) (by omega)).later
  · intro hlt
    have hend := h.stop (by omega)
    rw [show n + 1 = min n first + (n - min n first + 1) by omega] at hend
    exact hend.later

end Surveyed

end Ways

end Word

/-! ## Walks -/

namespace Machine

/-- The piece is asked to walk: the number of spaces and the direction are on top of
the stack. -/
def walk (scene : Scene) (m : Machine) (spaces relative : Int) (stack : List Value) :
    EStateM.Result Stop Machine Flow :=
  Builtin.move.perform scene { m with stack := .int relative :: .int spaces :: stack }

/-- The way ahead is free for {lit}`k` steps, as far as the piece would go. -/
def Surveyed (scene : Scene) (m : Machine) (spaces relative : Int) (k : Nat) : Prop :=
  Word.Surveyed scene m.piece.id m.piece.position (m.piece.heading relative) 0
    (min spaces.toNat m.piece.movement) k

section Walks

variable {scene : Scene} {m : Machine} {spaces relative : Int} {rest : List Value} {k : Nat}

/-- How far the way ahead is found to be free before a walk. -/
theorem freeSteps_eq_ok_iff_surveyed :
    Word.freeSteps scene m.piece.id m.piece.position (m.piece.heading relative) 0
        (min ((toCount? (max spaces 0)).getD maxCount) m.piece.movement) = .ok k ↔
      m.Surveyed scene spaces relative k := by
  have hmovement := m.piece.movement_le
  rw [m.piece.min_spaces, Word.freeSteps_eq_ok_iff (by omega)]
  rfl

/-- The way ahead is looked at without overflow if the walk does not overflow. -/
theorem exists_surveyed
    (hdefined : ∀ cause m', m.walk scene spaces relative rest ≠ .error (.overflow cause) m') :
    ∃ k, m.Surveyed scene spaces relative k := by
  cases hfree : Word.freeSteps scene m.piece.id m.piece.position (m.piece.heading relative) 0
      (min ((toCount? (max spaces 0)).getD maxCount) m.piece.movement) with
  | ok k => exact ⟨k, freeSteps_eq_ok_iff_surveyed.mp hfree⟩
  | error cause =>
    apply absurd ?_ (hdefined cause { m with stack := rest })
    apply Builtin.perform_of_error
    show (Action.ofChecked _ >>= _ : Action Unit) { m with stack := rest } = _
    rw [hfree]
    rfl

/-- A piece that can act walks to the end of the free way. -/
theorem walk_of_surveyed (h : m.Surveyed scene spaces relative k) (hfits : m.piece.position.Fits)
    (hcount : m.piece.spacesMoved ≤ maxCount) (hroom : rest.length < scene.stackLimit)
    (hblocked : m.piece.blocked? = none) :
    m.walk scene spaces relative rest =
      .ok .proceed
        { m with
          stack := .int k :: rest
          piece := m.piece.ahead (m.piece.heading relative) k } := by
  have hfree := freeSteps_eq_ok_iff_surveyed.mpr h
  have hhigh := h.high
  apply Builtin.perform_of_action
  show (Action.ofChecked _ >>= _ : Action Unit) { m with stack := rest } = _
  rw [hfree]
  show (if k = 0 then pushInt scene 0 else _ : Action Unit) { m with stack := rest } = _
  by_cases hk : k = 0
  · rw [if_pos hk, hk, Piece.ahead_zero hcount]
    exact push_of_room hroom (.int 0)
  · rw [if_neg hk, Piece.move_of_offset hblocked (by omega) (h.offset_eq hfits)]
    exact push_of_room (m := { m with stack := rest, piece := m.piece.ahead _ k }) hroom (.int k)

/-- A piece that cannot act stays where it is. -/
theorem walk_of_blocked (h : m.Surveyed scene spaces relative k)
    (hroom : rest.length < scene.stackLimit) (hblocked : m.piece.blocked? ≠ none) :
    m.walk scene spaces relative rest = .ok .proceed { m with stack := .int 0 :: rest } := by
  have hfree := freeSteps_eq_ok_iff_surveyed.mpr h
  obtain ⟨cause, hcause⟩ := Option.ne_none_iff_exists'.mp hblocked
  apply Builtin.perform_of_action
  show (Action.ofChecked _ >>= _ : Action Unit) { m with stack := rest } = _
  rw [hfree]
  show (if k = 0 then pushInt scene 0 else _ : Action Unit) { m with stack := rest } = _
  split
  · exact push_of_room hroom (.int 0)
  · rw [Piece.move_of_blocked hcause]
    exact push_of_room hroom (.int 0)

/-- A walk is split into two, of which the second starts where the first ends. -/
theorem Surveyed.split {a b : Nat} (h : m.Surveyed scene (a + b : Nat) relative k) :
    ∃ x y, k = x + y ∧ m.Surveyed scene a relative x ∧
      Surveyed scene { m with piece := m.piece.ahead (m.piece.heading relative) x } b relative
        y := by
  obtain ⟨hfirst, hlater⟩ := Word.Surveyed.split h
  exact ⟨min k a, k - min k a, by omega, hfirst, hlater⟩

/-- Less of the way can be looked at. -/
theorem Surveyed.part {a b : Nat} (h : m.Surveyed scene (a + b : Nat) relative k) :
    ∃ y, m.Surveyed scene b relative y := by
  rw [Nat.add_comm] at h
  obtain ⟨y, -, -, hy, -⟩ := h.split
  exact ⟨y, hy⟩

/-- The walk does what two walks in a row do, and counts as many steps as both. -/
def Splits (scene : Scene) (m : Machine) (a b : Nat) (relative : Int) (rest : List Value) : Prop :=
  ∃ (x y : Nat) (mid after : Piece),
    m.walk scene a relative rest = .ok .proceed { m with stack := .int x :: rest, piece := mid } ∧
    walk scene { m with piece := mid } b relative (.int x :: rest) =
      .ok .proceed { m with stack := .int y :: .int x :: rest, piece := after } ∧
    m.walk scene (a + b : Nat) relative rest =
      .ok .proceed { m with stack := .int (x + y : Nat) :: rest, piece := after }

theorem splits_of_surveyed {a b : Nat} (h : m.Surveyed scene (a + b : Nat) relative k)
    (hfits : m.piece.position.Fits) (hcount : m.piece.spacesMoved ≤ maxCount)
    (hroom : rest.length + 1 < scene.stackLimit) : m.Splits scene a b relative rest := by
  have hless : rest.length < scene.stackLimit := by omega
  cases hblocked : m.piece.blocked? with
  | none =>
    obtain ⟨x, y, rfl, hx, hy⟩ := h.split
    refine ⟨x, y, _, _, walk_of_surveyed hx hfits hcount hless hblocked, ?_,
      walk_of_surveyed h hfits hcount hless hblocked⟩
    rw [← Piece.ahead_ahead]
    have hend : (m.piece.ahead (m.piece.heading relative) x).position.Fits :=
      (Coord.offset_eq_ok_iff.mp (hx.offset_eq hfits)).2.1
    exact walk_of_surveyed hy hend (Nat.min_le_right _ _) hroom hblocked
  | some cause =>
    have hblocked : m.piece.blocked? ≠ none := by
      rw [hblocked]
      exact Option.some_ne_none cause
    obtain ⟨x, -, -, hx, -⟩ := h.split
    obtain ⟨y, hy⟩ := h.part
    exact ⟨0, 0, m.piece, m.piece, walk_of_blocked hx hless hblocked,
      walk_of_blocked hy hroom hblocked, walk_of_blocked h hless hblocked⟩

/-- A piece that can act walks as far as the way is free, and pays for that and
nothing else; one that cannot act stays where it is.  So a walk can be split. -/
theorem walk_longest (hfits : m.piece.position.Fits) (hcount : m.piece.spacesMoved ≤ maxCount)
    (hroom : rest.length + 2 ≤ scene.stackLimit)
    (hdefined : ∀ cause m', m.walk scene spaces relative rest ≠ .error (.overflow cause) m') :
    (m.piece.blocked? = none → ∃ (k : Nat) (position : Coord),
      IsGreatest (Word.ways scene m.piece.id m.piece.position (m.piece.heading relative)
        (min spaces.toNat m.piece.movement)) k ∧
      m.piece.position.offset (m.piece.heading relative) k = .ok position ∧
      m.walk scene spaces relative rest =
        .ok .proceed
          { m with
            stack := .int k :: rest
            piece :=
              { m.piece with
                position := position
                movement := m.piece.movement - k
                spacesMoved := addCount m.piece.spacesMoved k
                movement_le := Nat.le_trans (Nat.sub_le _ _) m.piece.movement_le } }) ∧
    (m.piece.blocked? ≠ none →
      m.walk scene spaces relative rest = .ok .proceed { m with stack := .int 0 :: rest }) ∧
    ∀ a b : Nat, spaces = (a + b : Nat) → m.Splits scene a b relative rest := by
  obtain ⟨k, hk⟩ := exists_surveyed hdefined
  refine ⟨?_, ?_, ?_⟩
  · intro hblocked
    exact ⟨k, _, hk.isGreatest, hk.offset_eq hfits,
      walk_of_surveyed hk hfits hcount (by omega) hblocked⟩
  · intro hblocked
    exact walk_of_blocked hk (by omega) hblocked
  · rintro a b rfl
    exact splits_of_surveyed hk hfits hcount hroom

end Walks

/-- A tank stands three steps ahead of the middle of a board. -/
def fence : Scene where
  board := ⟨4, [(Piece.spawn .ada ⟨"red"⟩ .scout .origin 0).snapshot,
    (Piece.spawn .bob ⟨"blue"⟩ .tank ⟨3, 0, 0⟩ 0).snapshot]⟩
  stackLimit := 4

/-- A scout that is asked for three steps stops before the tank after two; it stops
there as well if it is asked for one step and then for two. -/
theorem walk_longest_fence :
    (∃ position : Coord,
      IsGreatest (Word.ways fence .ada .origin .positiveX 3) 2 ∧
      Coord.origin.offset .positiveX 2 = .ok position ∧ position = ⟨2, 0, 0⟩) ∧
    (Interpreter.startMachine .lone []).Splits fence 1 2 0 [] := by
  have hwalk : (Interpreter.startMachine .lone []).walk fence 3 0 [] =
      .ok .proceed
        { Interpreter.startMachine .lone [] with
          stack := [.int 2]
          piece := (Interpreter.startMachine .lone []).piece.ahead .positiveX 2 } := by
    rfl
  have hdefined : ∀ cause m',
      (Interpreter.startMachine .lone []).walk fence 3 0 [] ≠ .error (.overflow cause) m' := by
    intro cause m'
    rw [hwalk]
    nofun
  obtain ⟨hfree, -, hsplit⟩ := walk_longest (by decide) (by decide) (by decide) hdefined
  obtain ⟨k, position, hgreatest, hoffset, hwalked⟩ := hfree (by decide)
  rw [hwalk] at hwalked
  have hafter := (EStateM.Result.ok.inj hwalked).2
  have hk : (2 : Int) = k := by
    have hstack := congrArg stack hafter
    exact Value.int.inj (List.cons.inj hstack).1
  have hposition : ⟨2, 0, 0⟩ = position := congrArg (·.piece.position) hafter
  rw [show k = 2 by omega] at hgreatest hoffset
  exact ⟨⟨position, hgreatest, hoffset, hposition.symm⟩, hsplit 1 2 rfl⟩

end Machine

end Script

end HexArena
