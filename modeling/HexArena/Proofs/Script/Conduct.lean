import HexArena.Proofs.Hex.Metric
import HexArena.Proofs.Script.Turn

/-!
# No script cheats

What a script can do with its piece and its shot, whatever it says: the piece
stays who it is, pays for every step with its movement, and shoots at most once,
at somebody else, with the damage of its kind.

Main results:

- Definition {lit}`Piece.Conduct`: what a piece may become in the course of its
  turn.
- Definition {lit}`Machine.Conduct`: what it may queue besides.
- Theorem {lit}`Machine.Change.conduct`: every elementary change is within these
  rules.
- Theorem {lit}`Interpreter.runTurn_fair`: so is every turn.
-/

namespace HexArena

/-! ## Pieces -/

namespace Piece

/-- The two are one piece with one history: they differ at most in place and
facing, in what is left of movement and shot, and in the spaces moved. -/
structure Same (p p' : Piece) : Prop where
  id : p'.id = p.id
  team : p'.team = p.team
  kind : p'.kind = p.kind
  stats : p'.stats = p.stats
  health : p'.health = p.health
  alive : p'.alive = p.alive
  deathFlag : p'.deathFlag = p.deathFlag
  turnFinished : p'.turnFinished = p.turnFinished
  damageDealt : p'.damageDealt = p.damageDealt
  damageTaken : p'.damageTaken = p.damageTaken
  enemiesDefeated : p'.enemiesDefeated = p.enemiesDefeated
  turnsTaken : p'.turnsTaken = p.turnsTaken

/-- What a piece does in its turn changes these fields alone. -/
theorem Same.update (p : Piece) (position : Coord) (facing : Direction) {movement : Nat}
    (movement_le : movement ≤ maxComponent) (hasShot : Bool) (spacesMoved : Nat) :
    p.Same
      { p with
        position := position
        facing := facing
        movement := movement
        hasShot := hasShot
        spacesMoved := spacesMoved
        movement_le := movement_le } :=
  ⟨rfl, rfl, rfl, rfl, rfl, rfl, rfl, rfl, rfl, rfl, rfl, rfl⟩

theorem Same.refl (p : Piece) : p.Same p :=
  .update p p.position p.facing p.movement_le p.hasShot p.spacesMoved

theorem Same.trans {p p' p'' : Piece} (h : p.Same p') (h' : p'.Same p'') : p.Same p'' where
  id := h'.id.trans h.id
  team := h'.team.trans h.team
  kind := h'.kind.trans h.kind
  stats := h'.stats.trans h.stats
  health := h'.health.trans h.health
  alive := h'.alive.trans h.alive
  deathFlag := h'.deathFlag.trans h.deathFlag
  turnFinished := h'.turnFinished.trans h.turnFinished
  damageDealt := h'.damageDealt.trans h.damageDealt
  damageTaken := h'.damageTaken.trans h.damageTaken
  enemiesDefeated := h'.enemiesDefeated.trans h.enemiesDefeated
  turnsTaken := h'.turnsTaken.trans h.turnsTaken

/-- Whether a piece can act does not change in the course of its turn. -/
theorem Same.blocked? {p p' : Piece} (h : p.Same p') : p'.blocked? = p.blocked? := by
  unfold Piece.blocked? isActive
  rw [h.alive, h.deathFlag, h.turnFinished]

/-- A piece can act if it is active and its turn is not finished. -/
theorem blocked?_eq_none {p : Piece} :
    p.blocked? = none ↔ p.isActive = true ∧ p.turnFinished = false := by
  unfold blocked?
  cases p.isActive <;> cases p.turnFinished <;> simp

/-- What a piece may become in the course of its turn. -/
structure Conduct (p p' : Piece) : Prop where
  same : p.Same p'
  movement_le : p'.movement ≤ p.movement
  /-- The spaces moved are counted, as long as the counter does not stop. -/
  spacesMoved : p.spacesMoved + (p.movement - p'.movement) ≤ maxCount →
    p'.spacesMoved = p.spacesMoved + (p.movement - p'.movement)
  /-- Every step is paid for. -/
  norm_le : (p'.position - p.position).norm ≤ p.movement - p'.movement
  hasShot : p.hasShot = true → p'.hasShot = true
  /-- A piece that cannot act turns at most. -/
  idle : p.blocked? ≠ none → p' = { p with facing := p'.facing }

namespace Conduct

theorem refl (p : Piece) : p.Conduct p where
  same := .refl p
  movement_le := Nat.le_refl p.movement
  spacesMoved := by
    intro _
    omega
  norm_le := by
    rw [Coord.norm_sub_self]
    exact Nat.zero_le _
  hasShot := fun hshot => hshot
  idle := fun _ => rfl

/-- The movement two stretches cost adds up, and so do the steps. -/
theorem trans {p p' p'' : Piece} (h : p.Conduct p') (h' : p'.Conduct p'') : p.Conduct p'' where
  same := h.same.trans h'.same
  movement_le := Nat.le_trans h'.movement_le h.movement_le
  spacesMoved := by
    intro hcount
    have hle := h.movement_le
    have hle' := h'.movement_le
    have hfirst := h.spacesMoved (by omega)
    have hsecond := h'.spacesMoved (by omega)
    omega
  norm_le := by
    have hle := h.movement_le
    have hle' := h'.movement_le
    have hfirst := h.norm_le
    have hsecond := h'.norm_le
    have hway := Coord.norm_sub_le p.position p'.position p''.position
    omega
  hasShot := fun hshot => h'.hasShot (h.hasShot hshot)
  idle := by
    intro hblocked
    have hfirst := h.idle hblocked
    have hblocked' : p'.blocked? ≠ none := by
      rw [h.same.blocked?]
      exact hblocked
    have hsecond := h'.idle hblocked'
    rw [hfirst] at hsecond
    exact hsecond

/-- A move costs as much movement as it has steps. -/
theorem move {p p' : Piece} {spaces : Nat} {d : Direction}
    (h : p.move spaces d = .ok (.ok p')) : p.Conduct p' := by
  obtain ⟨hblocked, hle, position, hposition, rfl⟩ := move_eq_ok h
  have hplace := Coord.offset_eq_ok hposition
  refine ⟨.update p _ _ _ _ _, ?_, ?_, ?_, fun hshot => hshot, ?_⟩
  · exact Nat.sub_le p.movement spaces
  · intro hcount
    simp only [moved, addCount] at hcount ⊢
    omega
  · show (position - p.position).norm ≤ p.movement - (p.movement - spaces)
    rw [hplace, Coord.add_sub_cancel_start, Coord.norm_scale_unit]
    omega
  · intro hne
    exact absurd hblocked hne

/-- A shot is spent once. -/
theorem shoot {p p' : Piece} {damage : Nat} (h : p.shoot = .ok (damage, p')) :
    p.Conduct p' ∧ p.blocked? = none ∧ p.hasShot = false ∧ p'.hasShot = true ∧
      damage = p.stats.attack := by
  obtain ⟨hblocked, hshot, hdamage, rfl⟩ := shoot_eq_ok h
  have hconduct : p.Conduct { p with hasShot := true } := by
    have hself := refl p
    refine ⟨.update p _ _ _ _ _, hself.movement_le, hself.spacesMoved, hself.norm_le,
      fun _ => rfl, ?_⟩
    intro hne
    exact absurd hblocked hne
  exact ⟨hconduct, hblocked, hshot, rfl, hdamage⟩

/-- A turn on the spot costs nothing. -/
theorem rotate (p : Piece) (steps : Int) : p.Conduct (p.rotate steps) := by
  have hself := refl p
  exact ⟨.update p _ _ _ _ _, hself.movement_le, hself.spacesMoved, hself.norm_le,
    fun hshot => hshot, fun _ => rfl⟩

end Conduct

end Piece

/-! ## Machines -/

namespace Script

/-- What a machine may become in the course of a turn: the piece keeps to the
rules, and queues at most one shot, when it spends the shot of its turn. -/
structure Machine.Conduct (board : Board) (m m' : Machine) : Prop where
  piece : m.piece.Conduct m'.piece
  commands : m'.commands = m.commands ∨
    m.piece.blocked? = none ∧ m.piece.hasShot = false ∧ m'.piece.hasShot = true ∧
      ∃ target ∈ board.snapshots, target.active = true ∧ target.id ≠ m.piece.id ∧
        m'.commands = m.commands ++ [.resolveShot m.piece.id target.id m.piece.stats.attack]

namespace Machine.Conduct

variable {board : Board} {m m' m'' : Machine}

theorem refl (board : Board) (m : Machine) : m.Conduct board m :=
  ⟨.refl m.piece, Or.inl rfl⟩

/-- A machine with the same piece and the same commands. -/
theorem of_eq (hpiece : m'.piece = m.piece) (hcommands : m'.commands = m.commands) :
    m.Conduct board m' := by
  refine ⟨?_, Or.inl hcommands⟩
  rw [hpiece]
  exact .refl m.piece

/-- The shot of a turn is spent in one of two stretches at most. -/
theorem trans (h : m.Conduct board m') (h' : m'.Conduct board m'') : m.Conduct board m'' := by
  refine ⟨h.piece.trans h'.piece, ?_⟩
  have hsame := h.piece.same
  rcases h.commands with hnone | ⟨hfree, hunspent, hspent, target, htarget, hactive, hother, hshot⟩
  · rcases h'.commands with
      hnone' | ⟨hfree', hunspent', hspent', target, htarget, hactive, hother, hshot⟩
    · exact Or.inl (hnone'.trans hnone)
    · have hunspent : m.piece.hasShot = false := by
        cases hspent : m.piece.hasShot with
        | false => rfl
        | true =>
          rw [h.piece.hasShot hspent] at hunspent'
          cases hunspent'
      rw [hsame.blocked?] at hfree'
      rw [hsame.id] at hother
      rw [hsame.id, hsame.stats, hnone] at hshot
      exact Or.inr ⟨hfree', hunspent, hspent', target, htarget, hactive, hother, hshot⟩
  · have hspent' : m''.piece.hasShot = true := h'.piece.hasShot hspent
    rcases h'.commands with hnone' | ⟨-, hunspent', -⟩
    · rw [← hnone'] at hshot
      exact Or.inr ⟨hfree, hunspent, hspent', target, htarget, hactive, hother, hshot⟩
    · rw [hspent] at hunspent'
      cases hunspent'

end Machine.Conduct

/-- Every elementary change is within the rules. -/
theorem Machine.Change.conduct {scene : Scene} {m m' : Machine} (h : m.Change scene m') :
    m.Conduct scene.board m' := by
  cases h with
  | stack | print | send | receive | clearMail => exact .of_eq rfl rfl
  | walk _ _ hmove => exact ⟨.move hmove, Or.inl rfl⟩
  | turn steps => exact ⟨.rotate m.piece steps, Or.inl rfl⟩
  | miss hshoot =>
    obtain ⟨hconduct, -⟩ := Piece.Conduct.shoot hshoot
    exact ⟨hconduct, Or.inl rfl⟩
  | hit hshoot htarget hactive =>
    obtain ⟨hconduct, hfree, hunspent, hspent, rfl⟩ := Piece.Conduct.shoot hshoot
    obtain ⟨hmem, hother⟩ := otherOccupant_eq_some htarget
    exact ⟨hconduct, Or.inr ⟨hfree, hunspent, hspent, _, hmem, hactive, hother, rfl⟩⟩

/-- To have kept to the rules since some moment is stable. -/
theorem Machine.Conduct.stable (scene : Scene) (start : Machine) :
    Machine.Stable scene (start.Conduct scene.board) :=
  fun _ _ hchange hstart => hstart.trans hchange.conduct

/-! ## Turns -/

/-- A turn that kept to the rules. -/
structure TurnReport.Fair (report : TurnReport) (context : TurnContext)
    (commands : List Command) : Prop where
  /-- The piece is who it was. -/
  same : context.piece.Same report.piece
  movement_le : report.piece.movement ≤ context.piece.movement
  /-- The spaces moved are counted, as long as the counter does not stop. -/
  spacesMoved :
    context.piece.spacesMoved + (context.piece.movement - report.piece.movement) ≤ maxCount →
      report.piece.spacesMoved =
        context.piece.spacesMoved + (context.piece.movement - report.piece.movement)
  /-- Every step is paid for. -/
  distance_le : ∀ n, context.piece.position.distance report.piece.position = .ok n →
    n ≤ context.piece.movement - report.piece.movement
  hasShot : context.piece.hasShot = true → report.piece.hasShot = true
  /-- A piece that cannot act neither moves nor shoots. -/
  idle : context.piece.isActive = false ∨ context.piece.turnFinished = true →
    report.piece = { context.piece with facing := report.piece.facing } ∧
      report.commands = commands
  /-- A fault takes back what was queued. -/
  fault : report.outcome.isFault = true → report.commands = commands
  /-- At most one shot is queued, when it is spent, at somebody else on the
  board who is active. -/
  queued : report.commands = commands ∨
    context.piece.hasShot = false ∧ report.piece.hasShot = true ∧
      ∃ target ∈ context.board.snapshots, target.active = true ∧
        target.id ≠ context.piece.id ∧
        report.commands =
          commands ++ [.resolveShot context.piece.id target.id context.piece.stats.attack]

namespace Interpreter

/-- The report of a machine that kept to the rules is fair. -/
theorem Reports.fair {context : TurnContext} {commands : List Command} {report : TurnReport}
    {m : Machine} (hm : (startMachine context commands).Conduct context.board m)
    (h : Reports report commands m) : report.Fair context commands := by
  have hpiece : context.piece.Conduct report.piece := by
    rw [h.piece]
    exact hm.piece
  have hfault : report.outcome.isFault = true → report.commands = commands := by
    intro hfault
    rw [h.commands, if_pos hfault]
  have hqueued : report.commands = commands ∨
      context.piece.blocked? = none ∧ context.piece.hasShot = false ∧
        report.piece.hasShot = true ∧ ∃ target ∈ context.board.snapshots, target.active = true ∧
          target.id ≠ context.piece.id ∧ report.commands =
            commands ++ [.resolveShot context.piece.id target.id context.piece.stats.attack] := by
    cases houtcome : report.outcome.isFault with
    | true => exact Or.inl (hfault houtcome)
    | false =>
      have hcommands : report.commands = m.commands := by
        rw [h.commands, houtcome]
        rfl
      rw [hcommands, h.piece]
      exact hm.commands
  refine ⟨hpiece.same, hpiece.movement_le, hpiece.spacesMoved, ?_, hpiece.hasShot, ?_, hfault, ?_⟩
  · intro n hdistance
    rw [Coord.distance_eq_ok hdistance]
    exact hpiece.norm_le
  · intro hidle
    have hblocked : context.piece.blocked? ≠ none := by
      intro hfree
      obtain ⟨hactive, hunfinished⟩ := Piece.blocked?_eq_none.mp hfree
      rw [hactive, hunfinished] at hidle
      simp at hidle
    refine ⟨hpiece.idle hblocked, ?_⟩
    rcases hqueued with hnone | ⟨hfree, -⟩
    · exact hnone
    · exact absurd hfree hblocked
  · rcases hqueued with hnone | ⟨-, hshot⟩
    · exact Or.inl hnone
    · exact Or.inr hshot

/-- A turn reports a machine that kept to the rules. -/
theorem runTurn_conduct {i : Interpreter} {script : String} {context : TurnContext}
    {commands : List Command} {report : TurnReport}
    (h : i.runTurn script context commands = .ok report) :
    ∃ m, (startMachine context commands).Conduct context.board m ∧ Reports report commands m := by
  have hstable := Machine.Conduct.stable (i.scene context) (startMachine context commands)
  have hstart := Machine.Conduct.refl context.board (startMachine context commands)
  exact runTurn_stable hstable hstart h

/-- A turn leaves the piece it was given. -/
theorem runTurn_same {i : Interpreter} {script : String} {context : TurnContext}
    {commands : List Command} {report : TurnReport}
    (h : i.runTurn script context commands = .ok report) : context.piece.Same report.piece := by
  obtain ⟨m, hm, hreports⟩ := runTurn_conduct h
  rw [hreports.piece]
  exact hm.piece.same

/-- Every turn that is reported is fair, whatever its script and its outcome. -/
theorem runTurn_fair {i : Interpreter} {script : String} {context : TurnContext}
    {commands : List Command} {report : TurnReport}
    (h : i.runTurn script context commands = .ok report) : report.Fair context commands := by
  obtain ⟨m, hm, hreports⟩ := runTurn_conduct h
  exact hreports.fair hm

/-- A scout and an enemy next to it. -/
def duel : TurnContext :=
  { TurnContext.lone with
    board := ⟨3, [(Piece.spawn .bob ⟨"blue"⟩ .tank ⟨1, 0, 0⟩ 3).snapshot]⟩ }

/-- A scout that shoots an enemy twice and runs away hits once and pays for its
steps. -/
theorem runTurn_fair_duel :
    ∃ report,
      (fresh .ada .default).runTurn "1 0 shoot 1 0 shoot 2 3 move" duel [.finishRound] =
        .ok report ∧
      report.commands = [.finishRound, .resolveShot .ada .bob 1] ∧
      report.piece.position = ⟨-2, 0, 0⟩ ∧ report.piece.movement = 1 ∧
      report.Fair duel [.finishRound] := by
  let report : TurnReport :=
    { outcome := .completed
      interpreter := { fresh .ada .default with stack := [.int 2, .int 0, .int 1] }
      piece :=
        { duel.piece with
          position := ⟨-2, 0, 0⟩
          movement := 1
          hasShot := true
          spacesMoved := 2
          movement_le := by decide }
      mailboxes := .empty
      commands := [.finishRound, .resolveShot .ada .bob 1]
      log := [] }
  have hturn : (fresh .ada .default).runTurn "1 0 shoot 1 0 shoot 2 3 move" duel [.finishRound] =
      .ok report := by
    rfl
  exact ⟨report, hturn, rfl, rfl, rfl, runTurn_fair hturn⟩

end Interpreter

end Script

end HexArena
