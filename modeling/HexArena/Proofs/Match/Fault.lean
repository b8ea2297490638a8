import HexArena.Match.Play
import HexArena.Proofs.Lookup
import HexArena.Proofs.Script.Conduct
import HexArena.Proofs.Script.Leftover
import HexArena.Proofs.World.Turn

/-!
# A faulted turn is an empty turn

A turn that faults is rolled back in three places: the interpreter drops its
commands and definitions, the world restores the piece and the mailboxes from
the checkpoint, and the match reports a fault where a turn would have ended.
Together they leave the match as the empty script would have left it.

Main results:

- Theorem {lit}`Match.runScript_of_faulted`: what a script that faults leaves.
- Theorem {lit}`Match.runScript_of_empty`: what an empty script leaves.
- Theorem {lit}`Match.takeTurn_faulted`: a faulted turn cannot be told from an
  empty one.
-/

namespace HexArena

open Script

/-! ## Rosters -/

namespace Roster

variable {r : Roster} {id : PieceId} {entrant : Entrant}

theorem owner_of_find? (h : r.find? id = some entrant) : entrant.interpreter.owner = id := by
  have howner := List.find?_some h
  exact of_decide_eq_true howner

/-- An entrant that is changed and keeps its owner is found in its place. -/
theorem find?_update (hentrant : r.find? id = some entrant) {f : Entrant → Entrant}
    (hf : ∀ e, e.interpreter.owner = id → (f e).interpreter.owner = id) :
    (r.update id f).find? id = some (f entrant) := by
  have hkeeps : ∀ e ∈ r.entrants, decide (e.interpreter.owner = id) = true →
      decide ((f e).interpreter.owner = id) = true :=
    fun e _ howner => decide_eq_true (hf e (of_decide_eq_true howner))
  unfold find? at hentrant ⊢
  unfold update
  rw [find?_updateFirst hkeeps, hentrant]
  rfl

/-- A piece that is enlisted again keeps its interpreter and gets the new
script. -/
theorem find?_enlist (hentrant : r.find? id = some entrant) (script : String) (limits : Limits) :
    (r.enlist id script limits).find? id = some { entrant with script := script } := by
  have henlist : r.enlist id script limits = r.update id fun e => { e with script := script } := by
    rw [enlist, hentrant]
  rw [henlist]
  exact find?_update hentrant fun e howner => howner

end Roster

/-! ## Turns -/

/-- The empty script changes nothing. -/
theorem Script.Interpreter.runTurn_empty (i : Interpreter) (context : TurnContext)
    (commands : List Command) :
    i.runTurn "" context commands =
      .ok {
        outcome := .completed
        interpreter := { i with stack := [] }
        piece := context.piece
        mailboxes := context.mailboxes
        commands := commands
        log := [] } := by
  have hload : load i.dictionary "" = .ok [] := rfl
  have hrun : i.run [] context commands = .ok (.completed, i.start [] context commands) :=
    Execution.run_nil rfl i.limits.stepLimit
  rw [Interpreter.runTurn_of_stopped hload hrun]
  rfl

namespace Match

variable {m : Match} {id : PieceId} {piece : Piece} {entrant : Entrant}

/-- The turn of an active piece with a script is run in the world in which it
has begun. -/
theorem takeTurn_of_active (hpiece : m.world.piece? id = some piece)
    (hactive : piece.isActive = true) (hentrant : m.roster.find? id = some entrant) :
    m.takeTurn id =
      ({ m with world := m.world.begun id piece }.runScript entrant piece.beginTurn).map
        fun (m, done) =>
          (m, Transcript.ofEvents [.turnStarted id piece.beginTurn.turnsTaken] ++ done) := by
  have hfound : (m.world.begun id piece).piece? id = some piece.beginTurn := by
    have hid := World.id_of_piece? hpiece
    exact World.piece?_updatePiece hpiece hid
  rw [takeTurn, hentrant]
  simp only [World.apply, World.beginTurn_of_active hpiece hactive, Prod.map, id_eq, bind,
    Except.bind, hfound]
  cases { m with world := m.world.begun id piece }.runScript entrant piece.beginTurn with
  | ok result => rfl
  | error cause => rfl

/-- A script that faults leaves its log, and what aborting the turn leaves. -/
theorem runScript_of_faulted {report : TurnReport} {error : Error}
    (hturn : entrant.interpreter.runTurn entrant.script
      ⟨piece, m.world.boardView, m.world.mailboxes⟩ [] = .ok report)
    (hfault : report.outcome = .faulted error) :
    m.runScript entrant piece =
      let aborted := (m.world.settle piece.id report.piece report.mailboxes).abortTurn piece.id
        error.message
      .ok (⟨m.roster.update piece.id fun e => { e with interpreter := report.interpreter },
          aborted.1⟩,
        ⟨[], report.log⟩ ++ .ofNotice (.faulted piece.id error.message) ++ aborted.2) := by
  simp only [runScript, bind, Except.bind, hturn, hfault, World.apply]
  rfl

/-- An empty script leaves what ending the turn leaves. -/
theorem runScript_of_empty (hscript : entrant.script = "") (piece : Piece) :
    m.runScript entrant piece =
      let ended := (m.world.settle piece.id piece m.world.mailboxes).endTurn piece.id
      .ok (⟨m.roster.update piece.id fun e =>
            { e with interpreter := { entrant.interpreter with stack := [] } },
          ended.1⟩,
        .ofEvents ended.2) := by
  have hturn := entrant.interpreter.runTurn_empty ⟨piece, m.world.boardView, m.world.mailboxes⟩ []
  have happly : (m.world.settle piece.id piece m.world.mailboxes).applyAll [.endTurn piece.id] =
      .ok (((m.world.settle piece.id piece m.world.mailboxes).endTurn piece.id).map id
        Transcript.ofEvents) :=
    World.applyAll_singleton rfl
  simp only [runScript, bind, Except.bind, hscript, hturn, List.nil_append, happly]
  rfl

/-- A faulted turn leaves the world of an empty turn. -/
theorem takeTurn_of_faulted (hpiece : m.world.piece? id = some piece)
    (hactive : piece.isActive = true) (hentrant : m.roster.find? id = some entrant)
    {report : TurnReport} {error : Error}
    (hturn : entrant.interpreter.runTurn entrant.script
      ⟨piece.beginTurn, (m.world.begun id piece).boardView, m.world.mailboxes⟩ [] = .ok report)
    (hfault : report.outcome = .faulted error) :
    m.takeTurn id =
      .ok (⟨m.roster.update id fun e => { e with interpreter := report.interpreter },
          m.world.rested id piece⟩,
        ⟨[.turnStarted id piece.beginTurn.turnsTaken, .turnFaulted id error.message],
          report.log ++ [.faulted id error.message]⟩) := by
  have hid : piece.id = id := World.id_of_piece? hpiece
  have hbegun : piece.beginTurn.id = id := hid
  have hleft : report.piece.id = id := (Interpreter.runTurn_same hturn).id.trans hbegun
  have hscript := runScript_of_faulted (m := { m with world := m.world.begun id piece }) hturn
    hfault
  rw [takeTurn_of_active hpiece hactive hentrant, hscript, hbegun,
    World.abortTurn_settle hid hleft]
  refine congrArg Except.ok (Prod.ext rfl (Transcript.ext rfl ?_))
  simp [Transcript.ofEvents, Transcript.ofNotice]

/-- So does an empty turn. -/
theorem takeTurn_of_empty (hpiece : m.world.piece? id = some piece)
    (hactive : piece.isActive = true) (hentrant : m.roster.find? id = some entrant)
    (hscript : entrant.script = "") :
    m.takeTurn id =
      .ok (⟨m.roster.update id fun e =>
            { e with interpreter := { entrant.interpreter with stack := [] } },
          m.world.rested id piece⟩,
        ⟨[.turnStarted id piece.beginTurn.turnsTaken, .turnEnded id], []⟩) := by
  have hid : piece.id = id := World.id_of_piece? hpiece
  have hbegun : piece.beginTurn.id = id := hid
  have hrun := runScript_of_empty (m := { m with world := m.world.begun id piece }) hscript
    piece.beginTurn
  have hended : ((m.world.begun id piece).settle id piece.beginTurn
      (m.world.begun id piece).mailboxes).endTurn id = (m.world.rested id piece, [.turnEnded id]) :=
    World.endTurn_settle hpiece
  rw [takeTurn_of_active hpiece hactive hentrant, hrun, hbegun, hended]
  rfl

/-- A faulted turn cannot be told from an empty one: the worlds they leave are
equal, the events differ in how the turn is reported to end, and the interpreter
keeps its dictionary and does later whatever it would have done before; it also leaves the
same stack then, unless the script of the later turn cannot be loaded, which does not
depend on the uses between. -/
theorem takeTurn_faulted (hpiece : m.world.piece? id = some piece)
    (hactive : piece.isActive = true) (hentrant : m.roster.find? id = some entrant)
    {report : TurnReport} {error : Error}
    (hturn : entrant.interpreter.runTurn entrant.script
      ⟨piece.beginTurn, (m.world.beginTurn id).1.boardView, m.world.mailboxes⟩ [] = .ok report)
    (hfault : report.outcome = .faulted error) (limits : Limits) :
    ∃ faulted quiet : Match × Transcript,
      m.takeTurn id = .ok faulted ∧
      { m with roster := m.roster.enlist id "" limits }.takeTurn id = .ok quiet ∧
      faulted.1.world = quiet.1.world ∧
      faulted.2.events =
        [.turnStarted id piece.beginTurn.turnsTaken, .turnFaulted id error.message] ∧
      quiet.2.events = [.turnStarted id piece.beginTurn.turnsTaken, .turnEnded id] ∧
      ∃ after, faulted.1.roster.find? id = some after ∧
        after.interpreter.dictionary = entrant.interpreter.dictionary ∧
        ∀ uses script context commands,
          Checked.Both (TurnReport.Agrees entrant.interpreter.dictionary script)
            (entrant.interpreter.later uses script context commands)
            (after.interpreter.later uses script context commands) := by
  rw [World.beginTurn_of_active hpiece hactive] at hturn
  have hfaulted := takeTurn_of_faulted hpiece hactive hentrant hturn hfault
  have hquiet := takeTurn_of_empty (m := { m with roster := m.roster.enlist id "" limits }) hpiece
    hactive (Roster.find?_enlist hentrant "" limits) rfl
  have halike : entrant.interpreter.Alike report.interpreter :=
    Interpreter.alike_of_faulted hturn hfault
  have howner : report.interpreter.owner = id := by
    rw [halike]
    exact Roster.owner_of_find? hentrant
  have hdictionary : report.interpreter.dictionary = entrant.interpreter.dictionary := by
    rw [halike]
  let settled (e : Entrant) : Entrant := { e with interpreter := report.interpreter }
  have hafter : (m.roster.update id settled).find? id = some (settled entrant) :=
    Roster.find?_update hentrant fun _ _ => howner
  refine ⟨_, _, hfaulted, hquiet, rfl, rfl, rfl, _, hafter, hdictionary, ?_⟩
  intro uses script context commands
  exact Interpreter.later_alike halike uses script context commands

/-- A script that walks, turns, shoots, writes and empties its mailbox before it
takes a value too many from the stack. -/
def brawlScript : String :=
  ": go 1 0 move drop ; go 1 turn 1 5 shoot \"hi\" \"bob\" send clearmail drop drop drop"

/-- Two pieces, one of them with that script. -/
def brawl : Match where
  roster := ⟨[⟨.fresh .ada .default, brawlScript⟩]⟩
  world :=
    { World.fresh with
      pieces := [.spawn .ada ⟨"red"⟩ .scout .origin 0, .spawn .bob ⟨"blue"⟩ .tank ⟨2, 0, 0⟩ 3]
      mailboxes := ⟨[.empty .ada 8, .empty .bob 8]⟩ }

/-- Nothing is left of the brawl but the report of the fault. -/
theorem takeTurn_faulted_brawl :
    ∃ faulted quiet : Match × Transcript,
      brawl.takeTurn .ada = .ok faulted ∧
      { brawl with roster := brawl.roster.enlist .ada "" .default }.takeTurn .ada = .ok quiet ∧
      faulted.1.world = quiet.1.world ∧
      faulted.2.events =
        [.turnStarted .ada 1, .turnFaulted .ada "`drop` failed: stack underflow"] ∧
      quiet.2.events = [.turnStarted .ada 1, .turnEnded .ada] ∧
      ∃ after, faulted.1.roster.find? .ada = some after ∧
        after.interpreter.dictionary = .standard ∧
        ∀ uses script context commands,
          Checked.Both (TurnReport.Agrees .standard script)
            ((Interpreter.fresh .ada .default).later uses script context commands)
            (after.interpreter.later uses script context commands) := by
  have hpiece : brawl.world.piece? .ada = some (.spawn .ada ⟨"red"⟩ .scout .origin 0) := by
    rfl
  have hentrant : brawl.roster.find? .ada = some ⟨.fresh .ada .default, brawlScript⟩ := by
    rfl
  have hturn : (Interpreter.fresh .ada .default).runTurn brawlScript
      ⟨(Piece.spawn .ada ⟨"red"⟩ .scout .origin 0).beginTurn,
        (brawl.world.beginTurn .ada).1.boardView, brawl.world.mailboxes⟩ [] =
        .ok {
          outcome := .faulted (.wordFailed "drop" .stackUnderflow)
          interpreter := .fresh .ada .default
          piece :=
            { (Piece.spawn .ada ⟨"red"⟩ .scout .origin 0).beginTurn with
              position := ⟨1, 0, 0⟩
              facing := .positiveY
              movement := 2
              hasShot := true
              spacesMoved := 1
              movement_le := by decide }
          mailboxes := ⟨[.empty .ada 8, ⟨.bob, 8, [⟨"ada", "hi"⟩]⟩]⟩
          commands := []
          log := [] } := by
    rfl
  exact takeTurn_faulted hpiece rfl hentrant hturn rfl .default

end Match

end HexArena
