import HexArena.Proofs.Script.SameHex

/-!
# Tighter limits

A turn under tighter limits goes the way it goes under wider ones, until it hits
one of its limits.  So a limit can cut a turn short, but it cannot change what
the turn does.

Main results:

- Definition {lit}`Error.isLimit`: the faults of a turn that hits a limit.
- Definition {lit}`Coupling.tighter`: two runs of which the first has tighter
  limits.
- Theorem {lit}`Coupling.sees_of_board`: two scenes with one board show the same.
- Theorem {lit}`Interpreter.runTurn_of_limits_le`: a turn hits one of its limits,
  or it is the same turn under wider limits.
-/

namespace HexArena.Script

/-- The limits are nowhere wider than other ones. -/
instance : LE Limits where
  le l l' :=
    l.stepLimit ≤ l'.stepLimit ∧ l.expansionDepth ≤ l'.expansionDepth ∧
      l.stackLimit ≤ l'.stackLimit

instance (l l' : Limits) : Decidable (l ≤ l') :=
  inferInstanceAs (Decidable (_ ∧ _))

/-- The fault is that a limit was hit. -/
def Error.isLimit : Error → Bool
  | .stepLimitExceeded _ => true
  | .expansionTooDeep _ _ => true
  | .wordFailed _ (.stackOverflow _) => true
  | _ => false

/-! ## What two scenes with one board show -/

section Boards

variable {scene scene' : Scene} (hboard : scene'.board = scene.board) (actor : PieceId)

include hboard

theorem otherOccupant_of_board (cell : Coord) :
    otherOccupant scene' actor cell = otherOccupant scene actor cell := by
  unfold otherOccupant
  rw [hboard]

theorem freeSteps_of_board (start : Coord) (d : Direction) (walked budget : Nat) :
    Word.freeSteps scene' actor start d walked budget =
      Word.freeSteps scene actor start d walked budget := by
  have hfree : ∀ cell, Word.isFree scene' actor cell = Word.isFree scene actor cell := by
    intro cell
    unfold Word.isFree
    rw [hboard, otherOccupant_of_board hboard]
  induction budget generalizing walked with
  | zero => rfl
  | succ budget ih =>
    unfold Word.freeSteps
    simp only [hfree, ih]

theorem firstSeen_of_board (d : Direction) (step : Int) (cell : Coord) :
    Word.firstSeen scene' actor d step cell = Word.firstSeen scene actor d step cell := by
  have hother := otherOccupant_of_board hboard actor
  fun_induction Word.firstSeen scene actor d step cell with
  | case1 step cell cause hinside | case2 step cell hinside =>
    rw [firstSeen_eq, hboard, hinside]
    rfl
  | case3 step cell hinside cause hseen | case4 step cell hinside s hseen =>
    rw [firstSeen_eq, hboard, hinside, hother, hseen]
    rfl
  | case5 step cell hinside hseen cause hnext =>
    rw [firstSeen_eq, hboard, hinside, hother, hseen, hnext]
    rfl
  | case6 step cell hinside hseen next hnext ih =>
    rw [firstSeen_eq, hboard, hinside, hother, hseen, hnext]
    exact ih

end Boards

/-! ## Two runs under different limits -/

/-- Two runs of which the first has tighter limits: it may be lost to one of
them, and else both are the same. -/
def Coupling.tighter : Coupling where
  near := Eq
  lost := fun error => error.isLimit = true
  loose := False

namespace Coupling

variable {α : Type} {related : α → α → Prop}

theorem Checks.of_refl {C : Coupling} (h : ∀ a, related a a) (c : Checked α) :
    C.Checks related c c := by
  cases c with
  | ok a => exact .ok (h a)
  | error cause => exact .error cause

/-- Two scenes with one board show the same, up to a stack that is full. -/
theorem sees_of_board (board : Board) {stackLimit stackLimit' : Nat}
    (h : stackLimit ≤ stackLimit') :
    tighter.Sees ⟨board, stackLimit⟩ ⟨board, stackLimit'⟩ := by
  have hboard : Scene.board ⟨board, stackLimit'⟩ = Scene.board ⟨board, stackLimit⟩ := rfl
  have hsnapshot : ∀ s : Snapshot, s.Alike Eq s := fun s => ⟨s.position, rfl, rfl⟩
  constructor
  case stackLimit => exact Or.inr ⟨h, fun _ => rfl⟩
  case radius => rfl
  case offset =>
    rintro c _ rfl d steps
    exact .of_refl (fun _ => rfl) _
  case freeSteps =>
    rintro c _ rfl self d budget
    rw [freeSteps_of_board hboard]
    exact .of_refl (fun _ => rfl) _
  case occupant =>
    rintro c _ rfl self
    rw [otherOccupant_of_board hboard]
    refine .of_refl ?_ _
    rintro (_ | s)
    · exact .none
    · exact .some (hsnapshot s)
  case look =>
    rintro c _ rfl self d
    simp only [firstSeen_of_board hboard]
    exact .of_refl (fun _ => rfl) _
  case within =>
    rintro c _ rfl range
    exact .of_refl (fun near => List.forall₂_same.mpr fun s _ => hsnapshot s) _

end Coupling

/-! ## Turns -/

/-- The same interpreter under other limits. -/
def Interpreter.under (i : Interpreter) (limits : Limits) : Interpreter :=
  { i with limits := limits }

/-- The same report of an interpreter under other limits. -/
def TurnReport.under (report : TurnReport) (limits : Limits) : TurnReport :=
  { report with interpreter := report.interpreter.under limits }

namespace Interpreter

/-- Two runs from one start go on in lockstep, until the first one hits one of
its limits. -/
theorem tighter_run (i : Interpreter) {limits limits' : Limits} (h : limits ≤ limits')
    (tokens : List Token) (context : TurnContext) (commands : List Command) :
    Coupling.tighter.Runs ((i.under limits).run tokens context commands)
      ((i.under limits').run tokens context commands) := by
  obtain ⟨hsteps, hdepth, hstack⟩ := h
  have hsees := Coupling.sees_of_board context.board hstack
  have hexpands : Coupling.tighter.Expands limits limits' := Or.inr ⟨hdepth, fun _ => rfl⟩
  have hlasts : Coupling.tighter.Lasts limits limits' limits.stepLimit limits'.stepLimit :=
    Or.inr ⟨hsteps, rfl⟩
  have hstart : (i.start tokens context commands).Alike Eq (i.start tokens context commands) :=
    ⟨_, ⟨context.piece, ⟨_, rfl, rfl⟩, rfl⟩, rfl⟩
  exact Execution.coupled_run hsees hexpands hlasts hstart

/-- A turn hits one of its limits, or it is the same turn under wider limits. -/
theorem runTurn_of_limits_le (i : Interpreter) {limits limits' : Limits} (h : limits ≤ limits')
    (script : String) (context : TurnContext) (commands : List Command) :
    (∃ report error, (i.under limits).runTurn script context commands = .ok report ∧
        report.outcome = .faulted error ∧ error.isLimit = true) ∨
      (i.under limits').runTurn script context commands =
        ((i.under limits).runTurn script context commands).map (·.under limits') := by
  have hload (limits : Limits) : load (i.under limits).dictionary script =
      load i.dictionary script := rfl
  cases hscript : load i.dictionary script with
  | error error =>
    right
    rw [hscript] at hload
    rw [runTurn_of_refused (hload limits), runTurn_of_refused (hload limits')]
    rfl
  | ok tokens =>
    rw [hscript] at hload
    have hruns := tighter_run i h tokens context commands
    generalize hrun : (i.under limits).run tokens context commands = result,
      hrun' : (i.under limits').run tokens context commands = result' at hruns
    cases hruns with
    | stopped outcome he =>
      right
      obtain ⟨_, ⟨_, ⟨position, rfl, rfl⟩, rfl⟩, rfl⟩ := he
      rw [runTurn_of_stopped (hload limits) hrun, runTurn_of_stopped (hload limits') hrun']
      rfl
    | overflowed cause =>
      right
      rw [runTurn_of_overflowed (hload limits) hrun, runTurn_of_overflowed (hload limits') hrun']
      rfl
    | lost hlimit stop =>
      left
      exact ⟨_, _, runTurn_of_stopped (hload limits) hrun, rfl, hlimit⟩
    | left hloose => exact hloose.elim
    | right hloose => exact hloose.elim

/-- As many steps, expansions and values as the script below takes. -/
def scant : Limits :=
  ⟨7, 1, 2⟩

/-- A script that stays just within its limits does the same under wider ones. -/
theorem runTurn_of_limits_le_scant :
    scant ≤ .default ∧
    ∃ report,
      ((fresh .ada .default).under scant).runTurn ": twice 2 * ; 3 twice 1 +" .lone [] =
        .ok report ∧
      report.outcome = .completed ∧ report.interpreter.stack = [.int 7] ∧
      ((fresh .ada .default).under .default).runTurn ": twice 2 * ; 3 twice 1 +" .lone [] =
        .ok (report.under .default) := by
  let twice : UserWord := ⟨"twice", [.number 2, .word "*"], by decide⟩
  let report : TurnReport :=
    { outcome := .completed
      interpreter := ⟨.ada, scant, Dictionary.standard.bind twice, [.int 7]⟩
      piece := TurnContext.lone.piece
      mailboxes := .empty
      commands := []
      log := [] }
  have hle : scant ≤ .default := by decide
  have hturn : ((fresh .ada .default).under scant).runTurn ": twice 2 * ; 3 twice 1 +" .lone [] =
      .ok report := by
    decide +kernel
  rcases runTurn_of_limits_le (fresh .ada .default) hle ": twice 2 * ; 3 twice 1 +" .lone [] with
    ⟨cut, error, hcut, hfault, -⟩ | hsame
  · rw [hturn] at hcut
    cases hcut
    cases hfault
  · rw [hturn] at hsame
    exact ⟨hle, report, hturn, rfl, rfl, hsame⟩

end Interpreter

end HexArena.Script
