import HexArena.Proofs.Script.Lockstep

/-!
# Turns on the same hex

A script never sees the triple that says where its piece stands.  All it can ask
is answered by the hexes, so a turn goes in the same way from every triple of one
hex, as long as none of its computations overflows.

Main results:

- Definition {lit}`Coupling.sameHex`: two runs on the same hexes.
- Theorem {lit}`Coupling.sees_of_alike`: boards that are alike show the same.
- Theorem {lit}`Machine.stable_fits`: a piece is moved only to hexes that can be
  told from others.
- Definition {lit}`TurnReport.Alike`: the same report, but for a triple.
- Theorem {lit}`Interpreter.agree_runTurn`: turns on the same hexes are reported
  alike.
-/

namespace HexArena.Script

open Checked

/-! ## What words ask the board -/

section Queries

variable {scene scene' : Scene} {cell cell' : Coord}

/-- Who else stands on a hex does not depend on its triple. -/
theorem agree_otherOccupant (hboard : scene.board.Alike scene'.board) (hcell : cell.Same cell')
    (actor : PieceId) :
    Agree (Option.Rel (Snapshot.Alike Coord.Same)) (otherOccupant scene actor cell)
      (otherOccupant scene' actor cell') := by
  unfold otherOccupant
  refine (hboard.occupant hcell).bind fun found found' hfound => .ok ?_
  cases hfound with
  | none => exact .none
  | @some s _ hs =>
    obtain ⟨position, hsame, rfl⟩ := hs
    simp only [Option.filter_some]
    split
    · exact .some ⟨position, hsame, rfl⟩
    · exact .none

/-- Whether a hex is free does not depend on its triple. -/
theorem agree_isFree (hboard : scene.board.Alike scene'.board) (hcell : cell.Same cell')
    (actor : PieceId) :
    Agree Eq (Word.isFree scene actor cell) (Word.isFree scene' actor cell') := by
  unfold Word.isFree
  refine (hboard.contains hcell).bind_eq fun inside => ?_
  cases inside with
  | false => exact .ok rfl
  | true =>
    refine (agree_otherOccupant hboard hcell actor).bind fun other other' hother => .ok ?_
    cases hother with
    | none => rfl
    | some _ => rfl

/-- How far the way is free does not depend on the triple where it starts. -/
theorem agree_freeSteps (hboard : scene.board.Alike scene'.board) {start start' : Coord}
    (hstart : start.Same start') (actor : PieceId) (d : Direction) (walked budget : Nat) :
    Agree Eq (Word.freeSteps scene actor start d walked budget)
      (Word.freeSteps scene' actor start' d walked budget) := by
  induction budget generalizing walked with
  | zero => exact .ok rfl
  | succ budget ih =>
    unfold Word.freeSteps
    refine (hstart.offset d _).bind fun cell cell' hcell => ?_
    refine (agree_isFree hboard hcell actor).bind_eq fun free => ?_
    cases free with
    | false => exact .ok rfl
    | true => exact ih (walked + 1)

/-- The ray of a look, step by step. -/
theorem firstSeen_eq (scene : Scene) (actor : PieceId) (d : Direction) (step : Int)
    (cell : Coord) :
    Word.firstSeen scene actor d step cell = (do
      if ← scene.board.contains cell then
        match ← otherOccupant scene actor cell with
        | some _ => return step
        | none =>
          let next ← cell.neighbor d
          Word.firstSeen scene actor d (step + 1) next
      else return 0) := by
  rw [Word.firstSeen]
  cases scene.board.contains cell with
  | error cause => rfl
  | ok inside =>
    cases inside with
    | false => rfl
    | true =>
      cases otherOccupant scene actor cell with
      | error cause => rfl
      | ok other =>
        cases other with
        | some s => rfl
        | none =>
          dsimp only
          split
          · rename_i hnext
            simp [hnext, bind, Except.bind]
          · rename_i hnext
            simp [hnext, bind, Except.bind]

/-- What is seen first does not depend on the triple where the ray starts. -/
theorem agree_firstSeen (hboard : scene.board.Alike scene'.board) (hcell : cell.Same cell')
    (actor : PieceId) (d : Direction) (step : Int) :
    Agree Eq (Word.firstSeen scene actor d step cell)
      (Word.firstSeen scene' actor d step cell') := by
  -- The room that is left on the first ray shrinks with every step.
  induction hroom : cell.room d using Nat.strongRecOn generalizing cell cell' step with
  | ind room ih =>
    rw [firstSeen_eq, firstSeen_eq scene']
    refine (hboard.contains hcell).bind_eq fun inside => ?_
    cases inside with
    | false => exact .ok rfl
    | true =>
      refine (agree_otherOccupant hboard hcell actor).bind fun other other' hother => ?_
      cases hother with
      | some _ => exact .ok rfl
      | none =>
        intro a b ha hb
        obtain ⟨next, hnext, ha⟩ := bind_eq_ok.mp ha
        obtain ⟨next', hnext', hb⟩ := bind_eq_ok.mp hb
        have hlt := Coord.room_neighbor_lt hnext
        rw [hroom] at hlt
        exact ih _ hlt (hcell.neighbor d next next' hnext hnext') (step + 1) rfl a b ha hb

end Queries

/-- Two runs on the same hexes: an overflow of either excuses both, and nothing
else does. -/
def Coupling.sameHex : Coupling where
  near := Coord.Same
  lost := fun _ => False
  loose := True

/-- Boards that are alike show the same. -/
theorem Coupling.sees_of_alike {board board' : Board} (h : board.Alike board') (stackLimit : Nat) :
    Coupling.sameHex.Sees ⟨board, stackLimit⟩ ⟨board', stackLimit⟩ where
  stackLimit := Or.inl rfl
  radius := h.radius
  offset := fun hc d steps => .of_agree trivial (hc.offset d steps)
  freeSteps := fun hc actor d budget => .of_agree trivial (agree_freeSteps h hc actor d 0 budget)
  occupant := fun hc actor => .of_agree trivial (agree_otherOccupant h hc actor)
  look := fun hc actor d => .of_agree trivial
    ((hc.neighbor d).bind fun _ _ hcell => agree_firstSeen h hcell actor d 1)
  within := fun hc range => .of_agree trivial (h.within hc range)

/-! ## Turns -/

/-- Wherever a script moves its piece, the hex can be told from others: a step is
made onto the board or not at all. -/
theorem Machine.stable_fits (scene : Scene) :
    Machine.Stable scene fun m => m.piece.position.reduced.Fits := by
  intro m m' hchange hm
  cases hchange with
  | stack | print | turn | send | receive | clearMail => exact hm
  | miss hshoot | hit hshoot =>
    obtain ⟨-, -, -, rfl⟩ := Piece.shoot_eq_ok hshoot
    exact hm
  | walk hbudget hfree hmove =>
    have hbound := m.piece.movement_le
    obtain ⟨-, -, position, hposition, rfl⟩ := Piece.move_eq_ok hmove
    rcases (Word.freeSteps_eq_ok (by omega) hfree).2 with rfl | ⟨cell, hcell, hlast⟩
    · rw [← Coord.offset_zero hposition] at hm
      exact hm
    · have hsame : cell = position := Except.ok.inj (hcell.symm.trans hposition)
      subst hsame
      exact (Word.isFree_eq_true hlast).1.fits

/-- The same report, but for the triple that says where the piece stands. -/
def TurnReport.Alike (near : Coord → Coord → Prop) (report report' : TurnReport) : Prop :=
  ∃ piece, report.piece.Alike near piece ∧ report' = { report with piece := piece }

namespace Interpreter

variable (i : Interpreter) (script : String) {piece piece' : Piece} {board board' : Board}

/-- A turn leaves its piece on a triple whose reduced form fits, if it found it on one. -/
theorem runTurn_fits {i : Interpreter} {script : String} {context : TurnContext}
    {commands : List Command} {report : TurnReport}
    (hturn : i.runTurn script context commands = .ok report)
    (hfits : context.piece.position.reduced.Fits) : report.piece.position.reduced.Fits := by
  obtain ⟨m, hm, hreports⟩ := runTurn_stable (Machine.stable_fits _) hfits hturn
  rw [hreports.piece]
  exact hm

/-- Turns on one hex agree, as far as neither overflows. -/
theorem agree_runTurn_same (hpiece : piece.Alike Coord.Same piece') (hboard : board.Alike board')
    (mailboxes : Directory) (commands : List Command) :
    Agree (TurnReport.Alike Coord.Same) (i.runTurn script ⟨piece, board, mailboxes⟩ commands)
      (i.runTurn script ⟨piece', board', mailboxes⟩ commands) := by
  intro report report' hturn hturn'
  rcases runTurn_eq_ok hturn with ⟨error, hload, rfl⟩ | ⟨tokens, outcome, stop, hload, hrun, rfl⟩
  · rw [runTurn_of_refused hload] at hturn'
    cases hturn'
    exact ⟨piece', hpiece, rfl⟩
  · rcases runTurn_eq_ok hturn' with ⟨error, hload', rfl⟩ |
      ⟨tokens', outcome', stop', hload', hrun', rfl⟩
    · rw [hload] at hload'
      cases hload'
    · rw [hload] at hload'
      cases hload'
      have hstart : (i.start tokens ⟨piece, board, mailboxes⟩ commands).Alike Coord.Same
          (i.start tokens ⟨piece', board', mailboxes⟩ commands) :=
        ⟨_, ⟨piece', hpiece, rfl⟩, rfl⟩
      have hsees := Coupling.sees_of_alike hboard i.limits.stackLimit
      have hlasts : Coupling.sameHex.Lasts i.limits i.limits i.limits.stepLimit
          i.limits.stepLimit := Or.inl ⟨rfl, rfl⟩
      have hruns := Execution.coupled_run hsees (Or.inl rfl) hlasts hstart
      unfold run scene at hrun hrun'
      rw [hrun, hrun'] at hruns
      cases hruns with
      | stopped _ he =>
        obtain ⟨_, ⟨left, hleft, rfl⟩, rfl⟩ := he
        exact ⟨left, hleft, rfl⟩
      | lost h => exact h.elim

/-- Turns on the same hexes are reported alike. -/
theorem agree_runTurn (hpiece : piece.Alike Coord.OneHex piece') (hboard : board.Alike board')
    (mailboxes : Directory) (commands : List Command) :
    Agree (TurnReport.Alike Coord.OneHex) (i.runTurn script ⟨piece, board, mailboxes⟩ commands)
      (i.runTurn script ⟨piece', board', mailboxes⟩ commands) := by
  intro report report' hturn hturn'
  obtain ⟨position, hnear, rfl⟩ := hpiece
  obtain ⟨hfits, hfits', hsame⟩ := Coord.oneHex_iff.mp hnear
  obtain ⟨_, ⟨left, hleft, rfl⟩, rfl⟩ := i.agree_runTurn_same script ⟨position, hsame, rfl⟩ hboard
    mailboxes commands report report' hturn hturn'
  refine ⟨_, ⟨left, Coord.oneHex_iff.mpr ⟨?_, ?_, hleft⟩, rfl⟩, rfl⟩
  · exact runTurn_fits hturn hfits
  · exact runTurn_fits hturn' hfits'

end Interpreter

end HexArena.Script
