import HexArena.Proofs.Match.Fault
import HexArena.Proofs.World.Pieces

/-!
# The course of a match

A match is set up piece by piece, and then goes on by turns and ends of rounds,
however it is called to play.  What one turn can do to the world is said once
here, together with the events it leaves, so that whatever a turn and the end of
a round keep holds for the whole match.

Main results:

- Definition {lit}`World.Turn`: what the turn of an active piece can do.
- Theorem {lit}`World.Turn.led`: it moves nobody but that piece.
- Theorem {lit}`Match.takeTurn_cases`: every turn that is taken is such a turn,
  unless a computation of its script overflows.
- Definitions {lit}`World.Assembled` and {lit}`World.Course`: worlds as they are
  set up and as they go on.
- Theorems {lit}`Match.ofSetup_assembled` and {lit}`Match.callAll_course`: every
  match is set up and goes on in this way.
-/

namespace HexArena

open Script

/-! ## Turns -/

namespace World

/-- The machine with which the turn of a piece starts. -/
def turnStart (w : World) (id : PieceId) (piece : Piece) : Machine :=
  Interpreter.startMachine ⟨piece.beginTurn, (w.begun id piece).boardView, w.mailboxes⟩ []

/-- What the script of a piece sees in its turn. -/
def turnScene (w : World) (id : PieceId) (piece : Piece) (stackLimit : Nat) : Scene :=
  ⟨(w.begun id piece).boardView, stackLimit⟩

/-- The world in which the script of a piece has left a machine. -/
def acted (w : World) (id : PieceId) (piece : Piece) (m : Machine) : World :=
  (w.begun id piece).settle id m.piece m.mailboxes

/-- What the turn of an active piece can do to the world, and the events it
leaves. -/
inductive Turn (w : World) (id : PieceId) (piece : Piece) : World → List Event → Prop
  /-- The piece has no script. -/
  | skipped : Turn w id piece w []
  | faulted (reason : String) :
    Turn w id piece (w.rested id piece)
      [.turnStarted id piece.beginTurn.turnsTaken, .turnFaulted id reason]
  /-- The script has queued nothing. -/
  | ended {stackLimit : Nat} {m : Machine}
    (hreaches : (w.turnStart id piece).Reaches (w.turnScene id piece stackLimit) m)
    (hcommands : m.commands = []) :
    Turn w id piece ((w.acted id piece m).endTurn id).1
      (.turnStarted id piece.beginTurn.turnsTaken :: ((w.acted id piece m).endTurn id).2)
  /-- The script has queued a shot at somebody else on the board. -/
  | shot {stackLimit : Nat} {m : Machine} {target : Snapshot}
    (hreaches : (w.turnStart id piece).Reaches (w.turnScene id piece stackLimit) m)
    (htarget : target ∈ (w.begun id piece).boardView.snapshots) (hactive : target.active = true)
    (hother : target.id ≠ id)
    (hcommands : m.commands = [.resolveShot id target.id piece.stats.attack])
    {struck : World} {strike : List Event}
    (hshot : (w.acted id piece m).resolveShot id target.id piece.stats.attack = (struck, strike)) :
    Turn w id piece (struck.endTurn id).1
      (.turnStarted id piece.beginTurn.turnsTaken :: strike ++ (struck.endTurn id).2)

variable {w w' : World} {id : PieceId} {piece : Piece} {stackLimit : Nat} {m : Machine}

/-- What a script leaves is within the rules. -/
theorem conduct_of_reaches
    (h : (w.turnStart id piece).Reaches (w.turnScene id piece stackLimit) m) :
    (w.turnStart id piece).Conduct (w.begun id piece).boardView m :=
  (Machine.Conduct.stable (w.turnScene id piece stackLimit) (w.turnStart id piece)).of_reaches
    (.refl _ _) h

/-- The machine goes on to act for the piece. -/
theorem id_of_reaches (hpiece : w.piece? id = some piece)
    (h : (w.turnStart id piece).Reaches (w.turnScene id piece stackLimit) m) : m.piece.id = id := by
  have hid := id_of_piece? hpiece
  exact (conduct_of_reaches h).piece.same.id.trans hid

/-- The commands of a script and the end of its turn can be applied, and make the
turn. -/
theorem applyAll_turn (hid : piece.id = id)
    (hreaches : (w.turnStart id piece).Reaches (w.turnScene id piece stackLimit) m) :
    ∃ w' t, (w.acted id piece m).applyAll (m.commands ++ [.endTurn id]) = .ok (w', t) ∧
      Turn w id piece w' (.turnStarted id piece.beginTurn.turnsTaken :: t.events) := by
  rcases (conduct_of_reaches hreaches).commands with
    hnone | ⟨-, -, -, target, htarget, hactive, hother, hshot⟩
  · have hcommands : m.commands = [] := hnone
    rw [hcommands, List.nil_append]
    exact ⟨_, _, applyAll_singleton rfl, .ended hreaches hcommands⟩
  · have hbegun : (w.turnStart id piece).piece.id = id := hid
    rw [hbegun] at hother hshot
    have hcommands : m.commands = [.resolveShot id target.id piece.stats.attack] := hshot
    rw [hcommands]
    cases hstruck : (w.acted id piece m).resolveShot id target.id piece.stats.attack with
    | mk struck strike =>
      refine ⟨(struck.endTurn id).1, Transcript.ofEvents (strike ++ (struck.endTurn id).2), ?_,
        .shot hreaches htarget hactive hother hcommands hstruck⟩
      simp only [List.cons_append, List.nil_append, applyAll, apply, hstruck, bind, Except.bind,
        pure, Except.pure, Prod.map, id_eq, Transcript.append_empty]
      rfl

/-! ## Who moves in a turn -/

/-- Everybody stays in place but one piece, which stands where its script has
left it. -/
structure Led (w : World) (id : PieceId) (left : Piece) (w' : World) : Prop where
  radius : w'.radius = w.radius
  ids : w'.pieces.map (·.id) = w.pieces.map (·.id)
  pieces : ∀ p' ∈ w'.pieces, (∃ q ∈ w.pieces, q.id ≠ id ∧ q.Steady p') ∨ left.Steady p'

variable {w'' : World} {left : Piece} {events : List Event}

theorem Led.steady (h : w.Led id left w') (h' : w'.Steady w'') : w.Led id left w'' where
  radius := h'.radius.trans h.radius
  ids := h'.ids.trans h.ids
  pieces := by
    intro p'' hp''
    obtain ⟨p', hp', hsteady⟩ := h'.pieces p'' hp''
    rcases h.pieces p' hp' with ⟨q, hq, hne, hq'⟩ | hleft
    · exact Or.inl ⟨q, hq, hne, hq'.trans hsteady⟩
    · exact Or.inr (hleft.trans hsteady)

/-- Nobody has moved when a turn starts. -/
theorem Led.start (hw : w.Distinct) (hpiece : w.piece? id = some piece) :
    w.Led id piece.beginTurn w where
  radius := rfl
  ids := rfl
  pieces := by
    intro p hp
    by_cases hp' : p.id = id
    · rw [hw.eq_of_id hp (mem_of_piece? hpiece) (hp'.trans (id_of_piece? hpiece).symm)]
      exact Or.inr ⟨rfl, rfl, rfl, rfl, rfl, rfl⟩
    · exact Or.inl ⟨p, hp, hp', .refl p⟩

theorem Led.acted (hw : w.Distinct) (hpiece : w.piece? id = some piece)
    (hid : m.piece.id = id) : w.Led id m.piece (w.acted id piece m) where
  radius := rfl
  ids := (ids_updatePiece fun _ _ => hid).trans (steady_begun hw hpiece).ids
  pieces := by
    have hbegun := steady_begun hw hpiece
    intro p' hp'
    rcases mem_updatePiece (hbegun.distinct hw) hp' with ⟨hmem, hne⟩ | ⟨-, -, rfl⟩
    · obtain ⟨p, hp, hsteady⟩ := hbegun.pieces p' hmem
      rw [hsteady.id] at hne
      exact Or.inl ⟨p, hp, hne, hsteady⟩
    · exact Or.inr (.refl m.piece)

theorem Led.distinct (h : w.Led id left w') (hw : w.Distinct) : w'.Distinct :=
  hw.of_ids h.ids

/-- The end of a turn reports the move from the checkpoint to where the script
has left the piece. -/
theorem Led.endTurn_events (h : w.Led id left w') (hpiece : w.piece? id = some piece)
    {saved : Checkpoint} (hcheckpoint : w'.checkpoint = some saved) (hsaved : saved.piece.id = id) :
    (w'.endTurn id).2 = movedSince saved left ++ [.turnEnded id] := by
  have hfound : ∃ p', w'.piece? id = some p' := by
    have hmem : id ∈ w'.pieces.map (·.id) := by
      rw [h.ids]
      exact List.mem_map.mpr ⟨piece, mem_of_piece? hpiece, id_of_piece? hpiece⟩
    obtain ⟨p', hp', hid⟩ := List.mem_map.mp hmem
    exact Option.isSome_iff_exists.mp (List.find?_isSome.mpr ⟨p', hp', decide_eq_true hid⟩)
  obtain ⟨p', hp'⟩ := hfound
  have hsteady : left.Steady p' := by
    rcases h.pieces p' (mem_of_piece? hp') with ⟨q, -, hne, hq⟩ | hleft
    · exact absurd (hq.id.symm.trans (id_of_piece? hp')) hne
    · exact hleft
  have hmoved : movedSince saved p' = movedSince saved left := by
    unfold movedSince
    rw [hsteady.spacesMoved, hsteady.position]
  have hof : w'.checkpointOf? id = some saved := by
    simp [checkpointOf?, hcheckpoint, hsaved]
  have hkept : { w' with checkpoint := none }.piece? id = some p' := hp'
  simp only [endTurn, hof, hkept, Option.map_some, Option.getD_some, hmoved]

/-- A turn moves nobody but its piece, and that one as its script does; it
reports this move and no other. -/
theorem Turn.led (h : w.Turn id piece w' events) (hw : w.Distinct)
    (hpiece : w.piece? id = some piece) :
    ∃ stackLimit m, (w.turnStart id piece).Reaches (w.turnScene id piece stackLimit) m ∧
      w.Led id m.piece w' ∧
      events.filter Event.isMoved = movedSince ⟨piece.beginTurn, w.mailboxes⟩ m.piece := by
  have hid := id_of_piece? hpiece
  have hacted : ∀ {stackLimit : Nat} {m : Machine},
      (w.turnStart id piece).Reaches (w.turnScene id piece stackLimit) m →
      w.Led id m.piece (w.acted id piece m) := fun hreaches =>
    .acted hw hpiece (id_of_reaches hpiece hreaches)
  have hstill : movedSince ⟨piece.beginTurn, w.mailboxes⟩ (w.turnStart id piece).piece = [] := by
    simp [movedSince, turnStart, Interpreter.startMachine]
  cases h with
  | skipped => exact ⟨0, _, .refl, .start hw hpiece, hstill.symm⟩
  | faulted reason =>
    exact ⟨0, _, .refl, (Led.start hw hpiece).steady (steady_rested hw hpiece), hstill.symm⟩
  | @ended _ m hreaches =>
    have hled := hacted hreaches
    refine ⟨_, _, hreaches, hled.steady (steady_endTurn (hled.distinct hw) id), ?_⟩
    have hsaved : (w.acted id piece m).checkpoint = some ⟨piece.beginTurn, w.mailboxes⟩ := rfl
    rw [hled.endTurn_events hpiece hsaved hid, List.filter_cons_of_neg Bool.false_ne_true,
      List.filter_append, filter_movedSince]
    exact List.append_nil _
  | @shot _ m target hreaches _ _ _ _ struck strike hshot =>
    have hled := hacted hreaches
    have hsteady := steady_resolveShot (hled.distinct hw) id target.id piece.stats.attack
    have hcheckpoint := checkpoint_resolveShot (w.acted id piece m) id target.id piece.stats.attack
    have hstrike := filter_resolveShot (w.acted id piece m) id target.id piece.stats.attack
    rw [hshot] at hsteady hcheckpoint hstrike
    have hstruck := hled.steady hsteady
    refine ⟨_, _, hreaches, hstruck.steady (steady_endTurn (hstruck.distinct hw) id), ?_⟩
    rw [hstruck.endTurn_events hpiece hcheckpoint hid, List.cons_append,
      List.filter_cons_of_neg Bool.false_ne_true, List.filter_append, hstrike, List.filter_append,
      filter_movedSince]
    exact List.append_nil _

end World

namespace Match

variable {m m' : Match} {id : PieceId} {piece : Piece} {entrant : Entrant} {t : Transcript}

/-- A script that does not fault leaves what its commands and the end of the turn
leave. -/
theorem runScript_of_done {report : TurnReport}
    (hturn : entrant.interpreter.runTurn entrant.script
      ⟨piece, m.world.boardView, m.world.mailboxes⟩ [] = .ok report)
    (hdone : report.outcome.isFault = false) :
    m.runScript entrant piece =
      ((m.world.settle piece.id report.piece report.mailboxes).applyAll
        (report.commands ++ [.endTurn piece.id])).map fun (world, applied) =>
          (⟨m.roster.update piece.id fun e => { e with interpreter := report.interpreter }, world⟩,
            ⟨[], report.log⟩ ++ applied) := by
  have happly : ∀ (c : Checked (World × Transcript)) (f : World × Transcript → Match × Transcript),
      (c >>= fun result => pure (f result)) = c.map f := by
    intro c f
    cases c with
    | ok result => rfl
    | error cause => rfl
  unfold runScript
  simp only [hturn, bind, Except.bind]
  cases houtcome : report.outcome with
  | faulted error =>
    rw [houtcome] at hdone
    cases hdone
  | completed => exact happly _ _
  | ended => exact happly _ _

/-- A script that overflows has no result. -/
theorem runScript_of_overflowed {cause : Overflow}
    (hturn : entrant.interpreter.runTurn entrant.script
      ⟨piece, m.world.boardView, m.world.mailboxes⟩ [] = .error cause) :
    m.runScript entrant piece = .error cause := by
  unfold runScript
  simp only [hturn, bind, Except.bind]

/-- An active piece takes one of the described turns, unless a computation of its
script overflows. -/
theorem takeTurn_cases (hpiece : m.world.piece? id = some piece)
    (hactive : piece.isActive = true) :
    (∃ m' t, m.takeTurn id = .ok (m', t) ∧ World.Turn m.world id piece m'.world t.events) ∨
      ∃ cause stackLimit machine, m.takeTurn id = .error cause ∧
        (m.world.turnStart id piece).Reaches (m.world.turnScene id piece stackLimit) machine ∧
        machine.Overflows (m.world.turnScene id piece stackLimit) cause := by
  cases hentrant : m.roster.find? id with
  | none =>
    refine Or.inl ⟨m, .ofNotice (.unscripted id), ?_, .skipped⟩
    rw [takeTurn, hentrant]
    rfl
  | some entrant =>
    have hid := World.id_of_piece? hpiece
    have hbegun : piece.beginTurn.id = id := hid
    cases hturn : entrant.interpreter.runTurn entrant.script
        ⟨piece.beginTurn, (m.world.begun id piece).boardView, m.world.mailboxes⟩ [] with
    | error cause =>
      obtain ⟨machine, hreaches, hoverflows⟩ := Interpreter.runTurn_overflows hturn
      have hscript := runScript_of_overflowed
        (m := { m with world := m.world.begun id piece }) hturn
      refine Or.inr ⟨cause, _, machine, ?_, hreaches, hoverflows⟩
      rw [takeTurn_of_active hpiece hactive hentrant, hscript]
      rfl
    | ok report =>
      cases houtcome : report.outcome with
      | faulted error =>
        exact Or.inl ⟨_, _, takeTurn_of_faulted hpiece hactive hentrant hturn houtcome,
          .faulted error.message⟩
      | completed | ended =>
        have hdone : report.outcome.isFault = false := by
          rw [houtcome]
          rfl
        obtain ⟨machine, hreaches, hreports⟩ := Interpreter.runTurn_reaches hturn
        have hcommands : report.commands = machine.commands := by
          rw [hreports.commands, hdone]
          rfl
        obtain ⟨world, applied, happly, hturn'⟩ := World.applyAll_turn hid hreaches
        have hscript := runScript_of_done (m := { m with world := m.world.begun id piece }) hturn
          hdone
        rw [hbegun, hreports.piece, hreports.mailboxes, hcommands, ← World.acted, happly]
          at hscript
        have htaken := takeTurn_of_active hpiece hactive hentrant
        rw [hscript] at htaken
        exact Or.inl ⟨_, _, htaken, hturn'⟩

theorem takeTurn_turn (hpiece : m.world.piece? id = some piece) (hactive : piece.isActive = true)
    (h : m.takeTurn id = .ok (m', t)) : World.Turn m.world id piece m'.world t.events := by
  rcases takeTurn_cases hpiece hactive with ⟨m'', t', htaken, hturn⟩ | ⟨_, _, _, hfails, -⟩
  · rw [h] at htaken
    cases htaken
    exact hturn
  · rw [h] at hfails
    cases hfails

end Match

/-! ## From turn to turn -/

namespace World

variable {w w' w'' : World} {id : PieceId} {piece : Piece} {events later : List Event}

/-- The world goes on by turns and ends of rounds, and leaves events. -/
inductive Course (w : World) : World → List Event → Prop
  | start : Course w w []
  | turn {w' w'' : World} {events turn : List Event} {id : PieceId} {piece : Piece}
    (hcourse : Course w w' events) (hpiece : w'.piece? id = some piece)
    (hactive : piece.isActive = true) (hturn : Turn w' id piece w'' turn) :
    Course w w'' (events ++ turn)
  | round {w' : World} {events : List Event} (hcourse : Course w w' events) :
    Course w w'.finishRound.1 (events ++ w'.finishRound.2)

theorem Course.trans (h : Course w w' events) (h' : Course w' w'' later) :
    Course w w'' (events ++ later) := by
  induction h' with
  | start =>
    rw [List.append_nil]
    exact h
  | turn _ hpiece hactive hturn ih =>
    rw [← List.append_assoc]
    exact .turn ih hpiece hactive hturn
  | round _ ih =>
    rw [← List.append_assoc]
    exact .round ih

theorem exists_of_isActive (h : w.isActive id = true) :
    ∃ piece, w.piece? id = some piece ∧ piece.isActive = true :=
  (Option.any_eq_true ..).mp h

end World

namespace Match

variable {m m' : Match} {t : Transcript}

theorem takeTurns_course {ids : List PieceId} (h : m.takeTurns ids = .ok (m', t)) :
    m.world.Course m'.world t.events := by
  induction ids generalizing m t with
  | nil =>
    cases h
    exact .start
  | cons id rest ih =>
    unfold takeTurns at h
    split at h
    · rename_i hactive
      obtain ⟨piece, hpiece, hactive⟩ := World.exists_of_isActive hactive
      obtain ⟨⟨mid, turn⟩, hturn, hrest⟩ := bind_eq_ok.mp h
      obtain ⟨⟨final, later⟩, hlater, hdone⟩ := bind_eq_ok.mp hrest
      cases hdone
      have hfirst := World.Course.start.turn hpiece hactive (takeTurn_turn hpiece hactive hturn)
      exact hfirst.trans (ih hlater)
    · exact ih h

theorem playRound_course (h : m.playRound = .ok (m', t)) : m.world.Course m'.world t.events := by
  unfold playRound at h
  obtain ⟨⟨played, turns⟩, hturns, hrest⟩ := bind_eq_ok.mp h
  obtain ⟨⟨world, finished⟩, hfinish, hdone⟩ := bind_eq_ok.mp hrest
  cases hdone
  cases hfinish
  exact .round (takeTurns_course hturns)

theorem playRounds_course {rounds played : Nat} (h : m.playRounds rounds = .ok (played, m', t)) :
    m.world.Course m'.world t.events := by
  induction rounds generalizing m played t with
  | zero =>
    cases h
    exact .start
  | succ rounds ih =>
    unfold playRounds at h
    split at h
    · cases h
      exact .start
    · obtain ⟨⟨mid, round⟩, hround, hrest⟩ := bind_eq_ok.mp h
      obtain ⟨⟨count, final, later⟩, hlater, hdone⟩ := bind_eq_ok.mp hrest
      cases hdone
      exact (playRound_course hround).trans (ih hlater)

/-! ## Calls -/

/-- What a match in progress can be called to do. -/
inductive Call where
  | round
  | play (rounds : Nat)
  | enlist (piece : PieceId) (script : String) (limits : Limits)

/-- The most rounds that are played when a match is called. -/
def Call.rounds : Call → Nat
  | round => 1
  | play rounds => rounds
  | enlist .. => 0

/-- The match after a call. -/
def call (m : Match) : Call → Checked (Match × Transcript)
  | .round => m.playRound
  | .play rounds => (m.play rounds).map fun (_, m, t) => (m, t)
  | .enlist piece script limits =>
    .ok ({ m with roster := m.roster.enlist piece script limits }, .empty)

/-- The match after calls in order. -/
def callAll (m : Match) : List Call → Checked (Match × Transcript)
  | [] => .ok (m, .empty)
  | first :: rest => do
    let (m, done) ← m.call first
    let (m, later) ← m.callAll rest
    return (m, done ++ later)

/-- A call to play leaves what playing leaves. -/
theorem call_play_eq_ok {rounds : Nat} (h : m.call (.play rounds) = .ok (m', t)) :
    ∃ score, m.play rounds = .ok (score, m', t) := by
  unfold Match.call at h
  dsimp only at h
  cases hplay : m.play rounds with
  | error cause =>
    rw [hplay] at h
    cases h
  | ok result =>
    obtain ⟨score, final, events⟩ := result
    rw [hplay] at h
    cases h
    exact ⟨score, rfl⟩

/-- The score is read off the world that the rounds leave. -/
theorem play_eq_ok {rounds : Nat} {score : Score} (h : m.play rounds = .ok (score, m', t)) :
    ∃ played, m.playRounds rounds = .ok (played, m', t) ∧
      score = ⟨played, m'.world.concluded, winner? m'.world⟩ := by
  obtain ⟨⟨played, final, events⟩, hplayed, hdone⟩ := bind_eq_ok.mp h
  cases hdone
  exact ⟨played, hplayed, rfl⟩

theorem call_course {call : Call} (h : m.call call = .ok (m', t)) :
    m.world.Course m'.world t.events := by
  cases call with
  | round => exact playRound_course h
  | play rounds =>
    obtain ⟨score, hplay⟩ := call_play_eq_ok h
    obtain ⟨played, hplayed, -⟩ := play_eq_ok hplay
    exact playRounds_course hplayed
  | enlist piece script limits =>
    cases h
    exact .start

/-- However a match is called, its world goes on by turns and ends of rounds. -/
theorem callAll_course {calls : List Call} (h : m.callAll calls = .ok (m', t)) :
    m.world.Course m'.world t.events := by
  induction calls generalizing m t with
  | nil =>
    cases h
    exact .start
  | cons first rest ih =>
    unfold callAll at h
    obtain ⟨⟨mid, done⟩, hfirst, hrest⟩ := bind_eq_ok.mp h
    obtain ⟨⟨final, later⟩, hlater, hend⟩ := bind_eq_ok.mp hrest
    cases hend
    exact (call_course hfirst).trans (ih hlater)

end Match

/-! ## Setups -/

namespace World

variable {s : Setup} {w w' : World} {events : List Event}

/-- Nobody living stands on a hex that is not occupied. -/
theorem apart_of_anyAliveOn {cell : Coord} {pieces : List Piece}
    (h : anyAliveOn cell pieces = .ok false) :
    ∀ p ∈ pieces, p.alive = true → p.position.Apart cell := by
  induction pieces with
  | nil =>
    intro p hp
    cases hp
  | cons q rest ih =>
    unfold anyAliveOn at h
    intro p hp halive
    cases hq : q.alive with
    | false =>
      simp only [hq, Bool.false_eq_true, if_false] at h
      rcases List.mem_cons.mp hp with rfl | hp
      · rw [hq] at halive
        cases halive
      · exact ih h p hp halive
    | true =>
      simp only [hq, if_true] at h
      obtain ⟨same, hsame, hrest⟩ := bind_eq_ok.mp h
      cases same with
      | true => cases hrest
      | false =>
        rcases List.mem_cons.mp hp with rfl | hp
        · exact hsame
        · exact ih hrest p hp halive

/-- A piece is put on the board if its identifier is new, its hex is on the board
and nobody living stands there. -/
theorem spawn_eq_ok {new : Placement} (h : w.spawn new = .ok (.ok w')) :
    (∀ p ∈ w.pieces, p.id ≠ new.id) ∧ new.position.Within w.radius ∧
      (∀ p ∈ w.pieces, p.alive = true → p.position.Apart new.position) ∧
      ∃ mailboxes, w' =
        { w with
          pieces := w.pieces ++ [.spawn new.id new.team new.kind new.position new.rotation]
          mailboxes := mailboxes } := by
  unfold spawn at h
  split at h
  · cases h
  rename_i hfresh
  obtain ⟨inside, hinside, h⟩ := bind_eq_ok.mp h
  cases inside with
  | false => cases h
  | true =>
    obtain ⟨steps, hdistance, hle⟩ := bind_eq_ok.mp hinside
    obtain ⟨occupied, hoccupied, h⟩ := bind_eq_ok.mp h
    cases occupied with
    | true => cases h
    | false =>
      obtain ⟨opened, -, h⟩ := bind_eq_ok.mp h
      cases opened with
      | error e => cases h
      | ok mailboxes =>
        cases h
        refine ⟨?_, ⟨steps, hdistance, of_decide_eq_true (Except.ok.inj hle)⟩,
          apart_of_anyAliveOn hoccupied, mailboxes, rfl⟩
        intro p hp hid
        refine hfresh (List.any_eq_true.mpr ⟨p, hp, ?_⟩)
        rw [hid]
        exact Text.same_iff.mpr rfl

/-- The world of a setup on the way to its first turn. -/
inductive Assembled (s : Setup) : World → List Event → Prop
  | blank :
    Assembled s
      { fresh with radius := s.boardRadius, mailboxCapacity := s.mailboxCapacity }
      [.boardConfigured s.boardRadius]
  | spawned {w w' : World} {events : List Event} {c : Contestant} (hc : c ∈ s.contestants)
    (hassembled : Assembled s w events) (hspawn : w.spawn c.placement = .ok (.ok w')) :
    Assembled s w'
      (events ++ [.pieceSpawned c.placement.id c.placement.team c.placement.position])
  | rejected {w : World} {events : List Event} {c : Contestant} {reason : SpawnError}
    (hc : c ∈ s.contestants) (hassembled : Assembled s w events)
    (hspawn : w.spawn c.placement = .ok (.error reason)) :
    Assembled s w (events ++ [.pieceSpawnRejected c.placement.id reason])

/-- What holds of every contestant as it is put on the board holds of every piece
before the first turn. -/
theorem Assembled.forall_pieces {holds : Piece → Prop} (h : w.Assembled s events)
    (hspawned : ∀ c ∈ s.contestants,
      holds (.spawn c.placement.id c.placement.team c.placement.kind c.placement.position
        c.placement.rotation)) :
    ∀ p ∈ w.pieces, holds p := by
  induction h with
  | blank =>
    intro p hp
    cases hp
  | rejected _ _ _ ih => exact ih
  | spawned hc _ hspawn ih =>
    obtain ⟨-, -, -, mailboxes, rfl⟩ := spawn_eq_ok hspawn
    intro p hp
    rcases List.mem_append.mp hp with hp | hp
    · exact ih p hp
    · rw [List.mem_singleton.mp hp]
      exact hspawned _ hc

theorem Assembled.applyAll {contestants : List Contestant}
    (hsub : ∀ c ∈ contestants, c ∈ s.contestants) (hassembled : Assembled s w events)
    {t : Transcript}
    (h : w.applyAll (contestants.map (.spawnPiece ·.placement)) = .ok (w', t)) :
    Assembled s w' (events ++ t.events) := by
  induction contestants generalizing w events t with
  | nil =>
    cases h
    simpa using hassembled
  | cons c rest ih =>
    have hc := hsub c List.mem_cons_self
    have hrest := fun c' hc' => hsub c' (List.mem_cons_of_mem c hc')
    obtain ⟨mid, first, later, hfirst, happly, rfl⟩ := applyAll_cons_eq_ok h
    obtain ⟨spawned, hspawn, hmid⟩ := bind_eq_ok.mp hfirst
    rw [Transcript.events_append, ← List.append_assoc]
    cases spawned with
    | ok world =>
      cases hmid
      exact ih hrest (.spawned hc hassembled hspawn) happly
    | error reason =>
      cases hmid
      exact ih hrest (.rejected hc hassembled hspawn) happly

end World

/-- A setup is put on the board piece by piece. -/
theorem Match.ofSetup_assembled {s : Setup} {m : Match} {t : Transcript}
    (h : Match.ofSetup s = .ok (m, t)) : World.Assembled s m.world t.events := by
  unfold Match.ofSetup at h
  obtain ⟨⟨world, transcript⟩, happly, hdone⟩ := bind_eq_ok.mp h
  cases hdone
  obtain ⟨_, _, later, hboard, hrest, rfl⟩ := World.applyAll_cons_eq_ok happly
  cases hboard
  obtain ⟨_, _, spawned, hmailboxes, hspawn, rfl⟩ := World.applyAll_cons_eq_ok hrest
  cases hmailboxes
  exact World.Assembled.blank.applyAll (fun c hc => hc) hspawn

namespace Match

/-- What is read off the world of a match after calls. -/
def readAfter {α : Type} (read : World → α) (s : Setup) (calls : List Call) : Checked α := do
  let (m, _) ← ofSetup s
  let (m', _) ← m.callAll calls
  return read m'.world

theorem exists_of_readAfter {α : Type} {read : World → α} {s : Setup} {calls : List Call} {a : α}
    (h : readAfter read s calls = .ok a) :
    ∃ m t m' t', ofSetup s = .ok (m, t) ∧ m.callAll calls = .ok (m', t') ∧ read m'.world = a := by
  obtain ⟨⟨m, t⟩, hstart, hrest⟩ := bind_eq_ok.mp h
  obtain ⟨⟨m', t'⟩, hcalls, hread⟩ := bind_eq_ok.mp hrest
  exact ⟨m, t, m', t', hstart, hcalls, Except.ok.inj hread⟩

end Match

end HexArena
