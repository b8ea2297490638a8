import HexArena.Proofs.Match.Course
import HexArena.Proofs.Script.SameHex
import HexArena.Proofs.World.Alike

/-!
# Matches on the same hexes

Every hex has many triples, and a setup is free to choose among them.  Two setups
that choose differently are played in the same way: scripts see, do and print the
same, and everything that is reported is the same but for the triples.

Main results:

- Definitions {lit}`Setup.Alike` and {lit}`Match.Alike`: the same setup and the
  same match, but for triples.
- Theorem {lit}`Match.agree_takeTurn`: turns are taken alike.
- Theorem {lit}`Match.agree_playRounds`: so are rounds, and equally many.
- Theorem {lit}`Match.alike_of_playOut`: setups on the same hexes come to the same.
-/

namespace HexArena

open Script Checked

/-! ## Setups and matches -/

section

variable (near : Coord → Coord → Prop)

/-- The same contestant, but for the triple that says where it starts. -/
def Contestant.Alike (c c' : Contestant) : Prop :=
  ∃ placement, c.placement.Alike near placement ∧ c' = { c with placement := placement }

/-- The same setup, but for the triples that say where its pieces start. -/
def Setup.Alike (s s' : Setup) : Prop :=
  ∃ contestants, List.Forall₂ (Contestant.Alike near) s.contestants contestants ∧
    s' = { s with contestants := contestants }

/-- The same match with the same roster, but for the triples of its world. -/
def Match.Alike (m m' : Match) : Prop :=
  ∃ world, m.world.Alike near world ∧ m' = { m with world := world }

end

/-- A match and the transcript that led to it, but for triples. -/
def Match.PlayedAlike (near : Coord → Coord → Prop) (played played' : Match × Transcript) : Prop :=
  played.1.Alike near played'.1 ∧ played.2.Alike near played'.2

/-! ## Turns -/

/-- A script puts nobody on the board. -/
theorem Script.Interpreter.runTurn_spawns_nobody {i : Interpreter} {script : String}
    {context : TurnContext} {report : TurnReport} (h : i.runTurn script context [] = .ok report) :
    ∀ c ∈ report.commands, ∀ new, c ≠ .spawnPiece new := by
  obtain ⟨m, hm, hreports⟩ := runTurn_conduct h
  rw [hreports.commands]
  split
  · intro c hc
    cases hc
  · intro c hc new
    rcases hm.commands with hnone | ⟨-, -, -, target, -, -, -, hshot⟩
    · rw [hnone] at hc
      cases hc
    · rw [hshot] at hc
      rw [List.mem_singleton.mp hc]
      nofun

namespace Match

variable {near : Coord → Coord → Prop} {m m' : Match}

/-- Matches with one roster are alike if their worlds are. -/
theorem alike_of_world (roster : Roster) {w w' : World} (h : w.Alike near w') :
    Match.Alike near ⟨roster, w⟩ ⟨roster, w'⟩ :=
  ⟨w', h, rfl⟩

/-- A script does the same in both matches. -/
theorem agree_runScript (h : m.Alike Coord.OneHex m') (entrant : Entrant) {piece piece' : Piece}
    (hpiece : piece.Alike Coord.OneHex piece') :
    Agree (PlayedAlike Coord.OneHex) (m.runScript entrant piece) (m'.runScript entrant piece') := by
  obtain ⟨world, hworld, rfl⟩ := h
  have hid : piece'.id = piece.id := hpiece.reading _ fun _ _ => rfl
  unfold runScript
  dsimp only
  rw [hid, hworld.mailboxes]
  intro result result' hresult hresult'
  obtain ⟨report, hturn, hresult⟩ := bind_eq_ok.mp hresult
  obtain ⟨report', hturn', hresult'⟩ := bind_eq_ok.mp hresult'
  have hcommands : List.Forall₂ (Command.Alike Coord.OneHex)
      (report.commands ++ [.endTurn piece.id]) (report.commands ++ [.endTurn piece.id]) := by
    refine List.rel_append (List.forall₂_same.mpr fun c hc => ?_)
      (.cons (.same (.endTurn piece.id) nofun) .nil)
    exact .same c (Interpreter.runTurn_spawns_nobody hturn c hc)
  obtain ⟨left, hleft, rfl⟩ := entrant.interpreter.agree_runTurn entrant.script hpiece
    hworld.boardView m.world.mailboxes [] report report' hturn hturn'
  -- The reports agree on everything but the piece, so both turns end in the same way.
  have hsettled := hworld.settle piece.id hleft report.mailboxes
  have hprinted : Transcript.Alike Coord.OneHex ⟨[], report.log⟩ ⟨[], report.log⟩ := ⟨.nil, rfl⟩
  refine (?_ : Agree (PlayedAlike Coord.OneHex) _ _) result result' hresult hresult'
  dsimp only
  cases report.outcome with
  | faulted error =>
    refine (World.agree_apply hsettled (.same (.abortTurn piece.id error.message) nofun)).bind ?_
    rintro aborted aborted' ⟨hfinal, htold⟩
    exact .ok ⟨alike_of_world _ hfinal, (hprinted.append ⟨.nil, rfl⟩).append htold⟩
  | completed | ended =>
    refine (World.agree_applyAll hsettled hcommands).bind ?_
    rintro applied applied' ⟨hfinal, htold⟩
    exact .ok ⟨alike_of_world _ hfinal, hprinted.append htold⟩

/-- Turns are taken alike. -/
theorem agree_takeTurn (h : m.Alike Coord.OneHex m') (id : PieceId) :
    Agree (PlayedAlike Coord.OneHex) (m.takeTurn id) (m'.takeTurn id) := by
  obtain ⟨world, hworld, rfl⟩ := h
  unfold takeTurn
  dsimp only
  split
  · exact .ok ⟨alike_of_world _ hworld, .nil, rfl⟩
  · rename_i entrant _
    refine (World.agree_apply hworld (.same (.beginTurn id) nofun)).bind ?_
    rintro ⟨begun, told⟩ ⟨begun', told'⟩ ⟨hbegun, htold⟩
    dsimp only
    have hpiece := World.alike_piece? hbegun id
    revert hpiece
    generalize begun.piece? id = found, begun'.piece? id = found'
    rintro (hpiece | _)
    · refine (agree_runScript (alike_of_world _ hbegun) entrant hpiece).bind ?_
      rintro played played' ⟨hplayed, hdone⟩
      exact .ok ⟨hplayed, htold.append hdone⟩
    · exact .ok ⟨alike_of_world _ hbegun, htold⟩

/-! ## Rounds -/

/-- Turns in a row do the same in both matches. -/
theorem agree_takeTurns (h : m.Alike Coord.OneHex m') (ids : List PieceId) :
    Agree (PlayedAlike Coord.OneHex) (m.takeTurns ids) (m'.takeTurns ids) := by
  induction ids generalizing m m' with
  | nil => exact .ok ⟨h, .nil, rfl⟩
  | cons id rest ih =>
    have hactive : m'.world.isActive id = m.world.isActive id := by
      obtain ⟨world, hworld, rfl⟩ := h
      exact hworld.isActive id
    unfold takeTurns
    rw [hactive]
    split
    · refine (agree_takeTurn h id).bind ?_
      rintro turn turn' ⟨hmid, hturn⟩
      refine (ih hmid).bind ?_
      rintro later later' ⟨hfinal, hlater⟩
      exact .ok ⟨hfinal, hturn.append hlater⟩
    · exact ih h

/-- So does a round. -/
theorem agree_playRound (h : m.Alike Coord.OneHex m') :
    Agree (PlayedAlike Coord.OneHex) m.playRound m'.playRound := by
  have horder : m'.world.turnOrder = m.world.turnOrder := by
    obtain ⟨world, hworld, rfl⟩ := h
    exact hworld.turnOrder
  unfold playRound
  rw [horder]
  refine (agree_takeTurns h _).bind ?_
  rintro ⟨played, turns⟩ ⟨_, turns'⟩ ⟨⟨world, hworld, rfl⟩, hturns⟩
  refine (World.agree_apply hworld (.same .finishRound nofun)).bind ?_
  rintro final final' ⟨hfinal, hfinished⟩
  exact .ok ⟨alike_of_world _ hfinal, hturns.append hfinished⟩

/-- Equally many rounds are played, and alike. -/
theorem agree_playRounds (h : m.Alike Coord.OneHex m') (rounds : Nat) :
    Agree (fun played played' => played'.1 = played.1 ∧ PlayedAlike Coord.OneHex played.2 played'.2)
      (m.playRounds rounds) (m'.playRounds rounds) := by
  induction rounds generalizing m m' with
  | zero => exact .ok ⟨rfl, h, .nil, rfl⟩
  | succ rounds ih =>
    have hconcluded : m'.world.concluded = m.world.concluded := by
      obtain ⟨world, hworld, rfl⟩ := h
      exact hworld.concluded
    unfold playRounds
    rw [hconcluded]
    split
    · exact .ok ⟨rfl, h, .nil, rfl⟩
    · refine (agree_playRound h).bind ?_
      rintro round round' ⟨hmid, hround⟩
      refine (ih hmid).bind ?_
      rintro ⟨played, later⟩ ⟨_, later'⟩ ⟨rfl, hfinal, hlater⟩
      exact .ok ⟨rfl, hfinal, hround.append hlater⟩

/-- The same score, and a match that was played alike. -/
def ScoredAlike (near : Coord → Coord → Prop) (scored scored' : Score × Match × Transcript) :
    Prop :=
  scored'.1 = scored.1 ∧ PlayedAlike near scored.2 scored'.2

/-- So do several rounds, with the same score. -/
theorem agree_play (h : m.Alike Coord.OneHex m') (rounds : Nat) :
    Agree (ScoredAlike Coord.OneHex) (m.play rounds) (m'.play rounds) := by
  refine (agree_playRounds h rounds).bind ?_
  rintro ⟨played, final, told⟩ ⟨played', final', told'⟩ ⟨hplayed, hfinal, htold⟩
  dsimp only at hplayed hfinal
  obtain ⟨world, hworld, rfl⟩ := hfinal
  refine .ok ⟨?_, alike_of_world _ hworld, htold⟩
  simp only [winner?, hplayed, hworld.concluded, hworld.livingTeams]

/-! ## Calls -/

/-- So does a call. -/
theorem agree_call (h : m.Alike Coord.OneHex m') (call : Call) :
    Agree (PlayedAlike Coord.OneHex) (m.call call) (m'.call call) := by
  cases call with
  | round => exact agree_playRound h
  | play rounds =>
    rintro ⟨final, told⟩ ⟨final', told'⟩ hcall hcall'
    obtain ⟨score, hplay⟩ := call_play_eq_ok hcall
    obtain ⟨score', hplay'⟩ := call_play_eq_ok hcall'
    exact (agree_play h rounds _ _ hplay hplay').2
  | enlist piece script limits =>
    obtain ⟨world, hworld, rfl⟩ := h
    exact .ok ⟨alike_of_world _ hworld, .nil, rfl⟩

/-- So do calls in a row. -/
theorem agree_callAll (h : m.Alike Coord.OneHex m') (calls : List Call) :
    Agree (PlayedAlike Coord.OneHex) (m.callAll calls) (m'.callAll calls) := by
  induction calls generalizing m m' with
  | nil => exact .ok ⟨h, .nil, rfl⟩
  | cons first rest ih =>
    unfold callAll
    refine (agree_call h first).bind ?_
    rintro done done' ⟨hmid, hdone⟩
    refine (ih hmid).bind ?_
    rintro later later' ⟨hfinal, hlater⟩
    exact .ok ⟨hfinal, hdone.append hlater⟩

end Match

/-! ## Setups -/

namespace Setup.Alike

variable {near : Coord → Coord → Prop} {s s' : Setup}

/-- The roster does not depend on where the pieces start. -/
theorem roster (h : s.Alike near s') : Roster.ofSetup s' = Roster.ofSetup s := by
  obtain ⟨contestants, hcontestants, rfl⟩ := h
  unfold Roster.ofSetup
  dsimp only
  generalize Roster.empty = r
  generalize s.contestants = l at hcontestants ⊢
  induction hcontestants generalizing r with
  | nil => rfl
  | cons hc _ ih =>
    obtain ⟨_, ⟨position, -, rfl⟩, rfl⟩ := hc
    exact ih _

/-- Setups that are alike give commands that are alike. -/
theorem commands (h : s.Alike near s') :
    List.Forall₂ (Command.Alike near) s.commands s'.commands := by
  obtain ⟨contestants, hcontestants, rfl⟩ := h
  refine .cons (.same (.configureBoard _) nofun) (.cons (.same (.configureMailboxes _) nofun) ?_)
  refine List.rel_map ?_ hcontestants
  rintro c _ ⟨placement, hplacement, rfl⟩
  exact .spawnPiece hplacement

end Setup.Alike

namespace Match

/-- Matches are set up alike. -/
theorem agree_ofSetup {s s' : Setup} (h : s.Alike Coord.OneHex s') :
    Agree (PlayedAlike Coord.OneHex) (ofSetup s) (ofSetup s') := by
  have hfresh : World.fresh.Alike Coord.OneHex World.fresh := ⟨[], none, .nil, .none, rfl⟩
  unfold ofSetup
  rw [h.roster]
  refine (World.agree_applyAll hfresh h.commands).bind ?_
  rintro left left' ⟨hworld, htold⟩
  exact .ok ⟨alike_of_world _ hworld, htold⟩

/-- Set a match up, call it, and play at most {lit}`rounds` more rounds. -/
def playOut (s : Setup) (calls : List Call) (rounds : Nat) :
    Checked (Score × Match × Transcript) := do
  let (m, setup) ← ofSetup s
  let (m, called) ← m.callAll calls
  let (score, m, played) ← m.play rounds
  return (score, m, setup ++ called ++ played)

/-- Setups on the same hexes come to the same, whatever triples they choose: the
scores, the rosters with their interpreters and the logs are equal, and the worlds
and the events but for triples of the same hexes. -/
theorem alike_of_playOut {s s' : Setup} (hsetups : s.Alike Coord.OneHex s') {calls : List Call}
    {rounds : Nat} {score score' : Score} {m m' : Match} {t t' : Transcript}
    (hplay : playOut s calls rounds = .ok (score, m, t))
    (hplay' : playOut s' calls rounds = .ok (score', m', t')) :
    score' = score ∧ m.Alike Coord.OneHex m' ∧ t.Alike Coord.OneHex t' := by
  have hagree : Agree (ScoredAlike Coord.OneHex) (playOut s calls rounds)
      (playOut s' calls rounds) := by
    refine (agree_ofSetup hsetups).bind ?_
    rintro start start' ⟨hstart, hsetup⟩
    refine (agree_callAll hstart calls).bind ?_
    rintro mid mid' ⟨hmid, hcalled⟩
    refine (agree_play hmid rounds).bind ?_
    rintro final final' ⟨hscore, hfinal, hplayed⟩
    exact .ok ⟨hscore, hfinal, (hsetup.append hcalled).append hplayed⟩
  exact hagree _ _ hplay hplay'

/-- A tank that comes closer to a sniper, by any triples. -/
def standoff (blue red : Coord) : Setup where
  boardRadius := 4
  mailboxCapacity := 1
  limits := .default
  contestants :=
    [⟨⟨.bob, ⟨"blue"⟩, .tank, blue, 3⟩, "1 0 move enemies ."⟩,
      ⟨⟨.ada, ⟨"red"⟩, .sniper, red, 0⟩, "3 0 identify . 3 0 shoot"⟩]

/-- A round, after which the tank stays where it is. -/
def standoffCalls : List Call :=
  [.round, .enlist .bob "" .default]

/-- Who has won, and where everybody stands. -/
def standings (s : Setup) (calls : List Call) (rounds : Nat) :
    Checked (Option Team × List Coord) := do
  let (score, m, _) ← playOut s calls rounds
  return (score.winner, m.world.pieces.map (·.position))

theorem alike_of_playOut_standoff :
    ∃ score m m' t t', playOut (standoff ⟨4, 0, 0⟩ .origin) standoffCalls 3 = .ok (score, m, t) ∧
      playOut (standoff ⟨3, 1, -1⟩ ⟨-7, 7, -7⟩) standoffCalls 3 = .ok (score, m', t') ∧
      score.winner = some ⟨"red"⟩ ∧
      m.world.pieces.map (·.position) = [⟨3, 0, 0⟩, .origin] ∧
      m'.world.pieces.map (·.position) = [⟨2, 1, -1⟩, ⟨-7, 7, -7⟩] ∧
      m.Alike Coord.OneHex m' ∧ t.Alike Coord.OneHex t' := by
  have hsetups : (standoff ⟨4, 0, 0⟩ .origin).Alike Coord.OneHex
      (standoff ⟨3, 1, -1⟩ ⟨-7, 7, -7⟩) := by
    have hblue : Coord.OneHex ⟨4, 0, 0⟩ ⟨3, 1, -1⟩ := by decide
    have hred : Coord.OneHex .origin ⟨-7, 7, -7⟩ := by decide
    exact ⟨_, .cons ⟨_, ⟨_, hblue, rfl⟩, rfl⟩ (.cons ⟨_, ⟨_, hred, rfl⟩, rfl⟩ .nil), rfl⟩
  have hends : standings (standoff ⟨4, 0, 0⟩ .origin) standoffCalls 3 =
      .ok (some ⟨"red"⟩, [⟨3, 0, 0⟩, .origin]) := by
    rfl
  have hends' : standings (standoff ⟨3, 1, -1⟩ ⟨-7, 7, -7⟩) standoffCalls 3 =
      .ok (some ⟨"red"⟩, [⟨2, 1, -1⟩, ⟨-7, 7, -7⟩]) := by
    rfl
  obtain ⟨⟨score, m, t⟩, hplay, hread⟩ := bind_eq_ok.mp hends
  obtain ⟨⟨score', m', t'⟩, hplay', hread'⟩ := bind_eq_ok.mp hends'
  obtain ⟨hwinner, hplaces⟩ := Prod.mk.inj (Except.ok.inj hread)
  obtain ⟨-, hplaces'⟩ := Prod.mk.inj (Except.ok.inj hread')
  obtain ⟨rfl, halike⟩ := alike_of_playOut hsetups hplay hplay'
  exact ⟨score', m, m', t, t', hplay, hplay', hwinner, hplaces, hplaces', halike⟩

end Match

end HexArena
