import HexArena.Proofs.Hex.SameHex
import HexArena.Proofs.Match.Record
import HexArena.Proofs.Script.Attempts
import HexArena.Proofs.World.Sound

/-!
# Hits are what they seem

A script is told at once whether its shot hits, from the board as it was when the
turn began; the shot itself is resolved when the script is done.  What it is told is
what happens then: identifiers are unique, nobody else acts in the turn, and a piece
that is seen to be active has health to lose.

Main results:

- Theorem {lit}`World.Sound.course`: the pieces of a match are sound.
- Definition {lit}`Match.turns`: all turns of a match.
- Theorem {lit}`Match.comes_of_mem_turns`: what is kept by turns holds before each of
  them.
- Definition {lit}`Match.attempts`: the shots of a turn.
- Definition {lit}`Match.TellsHits`: what a script is told of its shots is what
  happens.
- Theorem {lit}`Match.tellsHits_of_turn`: so it is in every turn of every match.
-/

namespace HexArena

open Script

/-! ## Sound pieces -/

theorem Kind.attack_pos (k : Kind) : 0 < k.stats.attack := by
  cases k <;> decide

/-- A piece that is not downed has health to lose. -/
theorem Piece.Sound.health_pos {p : Piece} (h : p.Sound) (hactive : p.isActive = true) :
    0 < p.health := by
  apply Nat.pos_of_ne_zero
  intro hzero
  simp [isActive, h.deathFlag.mpr hzero] at hactive

theorem Piece.Sound.attack_pos {p : Piece} (h : p.Sound) : 0 < p.stats.attack := by
  rw [h.stats]
  exact p.kind.attack_pos

namespace World

variable {w w' : World} {id : PieceId} {piece : Piece} {events : List Event}

namespace Sound

/-- Whatever a script does, its piece is sound. -/
theorem acted (h : w.Sound) (hpiece : w.piece? id = some piece) {stackLimit : Nat} {m : Machine}
    (hreaches : (w.turnStart id piece).Reaches (w.turnScene id piece stackLimit) m) :
    (w.acted id piece m).Sound := by
  apply (h.begun hpiece).settle
  have hconduct := (conduct_of_reaches hreaches).piece
  exact (h.piece hpiece).beginTurn.conduct hconduct

/-- A turn keeps the pieces sound. -/
theorem turn (h : w.Sound) (hpiece : w.piece? id = some piece)
    (hturn : w.Turn id piece w' events) : w'.Sound := by
  cases hturn with
  | skipped => exact h
  | faulted reason =>
    have hrested := (h.piece hpiece).beginTurn.finishTurn
    exact (h.updatePiece fun _ _ => hrested).unsaved
  | @ended _ m hreaches =>
    exact (h.acted hpiece hreaches).effect (effect_of_endTurn _ id)
  | @shot _ m target hreaches _ _ _ _ struck strike hshot =>
    have heffect := effect_of_resolveShot (w.acted id piece m) id target.id piece.stats.attack
    rw [hshot] at heffect
    exact ((h.acted hpiece hreaches).effect heffect).effect (effect_of_endTurn _ id)

theorem course (h : w.Sound) (hcourse : w.Course w' events) : w'.Sound := by
  induction hcourse with
  | start => exact h
  | turn _ hpiece _ hturn ih => exact ih.turn hpiece hturn
  | round _ ih => exact ih.finishRound

theorem assembled {s : Setup} (h : w.Assembled s events) : w.Sound := by
  induction h with
  | blank => exact ⟨sound_fresh.pieces, sound_fresh.saved⟩
  | rejected _ _ _ ih => exact ih
  | spawned _ _ hspawn ih =>
    obtain ⟨-, rfl⟩ := eq_joined_of_spawn hspawn
    exact ih.joined _

end Sound

end World

/-! ## The turns of a match -/

namespace Match

variable {m m' : Match} {id : PieceId}

/-- The turns that some pieces take one after the other, each with the match before
it. -/
def turnsIn (m : Match) : List PieceId → List (Match × PieceId)
  | [] => []
  | id :: rest =>
    if m.world.isActive id then
      (m, id) :: match m.takeTurn id with
        | .ok (m, _) => m.turnsIn rest
        | .error _ => []
    else m.turnsIn rest

/-- The events that a turn leaves. -/
def eventsOf (turn : Match × PieceId) : List Event :=
  match turn.1.takeTurn turn.2 with
  | .ok (_, t) => t.events
  | .error _ => []

/-- No turn is left out: together they leave the events of all. -/
theorem events_takeTurns {ids : List PieceId} {t : Transcript}
    (h : m.takeTurns ids = .ok (m', t)) : t.events = (m.turnsIn ids).flatMap eventsOf := by
  induction ids generalizing m t with
  | nil =>
    cases h
    rfl
  | cons id rest ih =>
    unfold takeTurns at h
    unfold turnsIn
    split at h
    · rename_i hactive
      obtain ⟨⟨next, first⟩, hturn, hrest⟩ := bind_eq_ok.mp h
      obtain ⟨⟨last, later⟩, hlater, hdone⟩ := bind_eq_ok.mp hrest
      cases hdone
      rw [if_pos hactive]
      simp only [hturn, List.flatMap_cons, eventsOf, ← ih hlater]
      rfl
    · rename_i hactive
      rw [if_neg hactive]
      exact ih h

/-- The turns of rounds until the match is concluded. -/
def turnsOfRounds (m : Match) : Nat → List (Match × PieceId)
  | 0 => []
  | rounds + 1 =>
    if m.world.concluded then []
    else m.turnsIn m.world.turnOrder ++ match m.playRound with
      | .ok (m, _) => m.turnsOfRounds rounds
      | .error _ => []

/-- The turns that are taken when a match is called. -/
def turnsOfCall (m : Match) : Call → List (Match × PieceId)
  | .round => m.turnsIn m.world.turnOrder
  | .play rounds => m.turnsOfRounds rounds
  | .enlist .. => []

/-- All turns that are taken when a match is called again and again. -/
def turns (m : Match) : List Call → List (Match × PieceId)
  | [] => []
  | first :: rest =>
    m.turnsOfCall first ++ match m.call first with
      | .ok (m, _) => m.turns rest
      | .error _ => []

/-- The match that is before a turn has come to it by turns and ends of rounds, and the
piece whose turn it is is active. -/
def Comes (m : Match) (turn : Match × PieceId) : Prop :=
  (∃ events, m.world.Course turn.1.world events) ∧ turn.1.world.isActive turn.2 = true

theorem Comes.later {turn : Match × PieceId} {events : List Event}
    (hcourse : m.world.Course m'.world events) (h : m'.Comes turn) : m.Comes turn := by
  obtain ⟨⟨later, hlater⟩, hactive⟩ := h
  exact ⟨⟨_, hcourse.trans hlater⟩, hactive⟩

theorem comes_of_mem_turnsIn {ids : List PieceId} {turn : Match × PieceId}
    (h : turn ∈ m.turnsIn ids) : m.Comes turn := by
  induction ids generalizing m with
  | nil => cases h
  | cons id rest ih =>
    unfold turnsIn at h
    split at h
    · rename_i hactive
      rcases List.mem_cons.mp h with rfl | h
      · exact ⟨⟨[], .start⟩, hactive⟩
      · cases hturn : m.takeTurn id with
        | error cause =>
          rw [hturn] at h
          cases h
        | ok result =>
          rw [hturn] at h
          obtain ⟨piece, hpiece, hactive⟩ := World.exists_of_isActive hactive
          have hfirst := World.Course.start.turn hpiece hactive
            (takeTurn_turn hpiece hactive hturn)
          exact (ih h).later hfirst
    · exact ih h

theorem comes_of_mem_turnsOfRounds {rounds : Nat} {turn : Match × PieceId}
    (h : turn ∈ m.turnsOfRounds rounds) : m.Comes turn := by
  induction rounds generalizing m with
  | zero => cases h
  | succ rounds ih =>
    unfold turnsOfRounds at h
    split at h
    · cases h
    · rcases List.mem_append.mp h with h | h
      · exact comes_of_mem_turnsIn h
      · cases hround : m.playRound with
        | error cause =>
          rw [hround] at h
          cases h
        | ok result =>
          rw [hround] at h
          exact (ih h).later (playRound_course hround)

theorem comes_of_mem_turnsOfCall {call : Call} {turn : Match × PieceId}
    (h : turn ∈ m.turnsOfCall call) : m.Comes turn := by
  cases call with
  | round => exact comes_of_mem_turnsIn h
  | play rounds => exact comes_of_mem_turnsOfRounds h
  | enlist piece script limits => cases h

/-- However a match is called, its turns come by turns and ends of rounds. -/
theorem comes_of_mem_turns {calls : List Call} {turn : Match × PieceId}
    (h : turn ∈ m.turns calls) : m.Comes turn := by
  induction calls generalizing m with
  | nil => cases h
  | cons first rest ih =>
    unfold turns at h
    rcases List.mem_append.mp h with h | h
    · exact comes_of_mem_turnsOfCall h
    · cases hcall : m.call first with
      | error cause =>
        rw [hcall] at h
        cases h
      | ok result =>
        rw [hcall] at h
        exact (ih h).later (call_course hcall)

end Match

/-! ## Shots that are resolved -/

/-- The event tells that a shot of a piece is resolved. -/
def Event.isShotBy (id : PieceId) : Event → Bool
  | .shotResolved attacker _ _ => attacker = id
  | _ => false

namespace World

variable {w w' : World} {id attacker target : PieceId} {piece victim : Piece} {damage : Nat}
  {t : Transcript}

/-- The end of a turn resolves no shot. -/
theorem filter_isShotBy_endTurn (w : World) (id attacker : PieceId) :
    (w.endTurn id).2.filter (Event.isShotBy attacker) = [] := by
  have hmoved : ∀ saved p, (movedSince saved p).filter (Event.isShotBy attacker) = [] := by
    intro saved p
    unfold movedSince
    dsimp only
    split
    · rfl
    · rfl
  unfold endTurn
  dsimp only
  split
  · rfl
  · cases w.checkpointOf? id with
    | none => rfl
    | some saved => simp [hmoved, Event.isShotBy]

/-- A shot at an active piece takes what it can of its health. -/
theorem filter_isShotBy_resolveShot {shooter : Piece} (hshooter : w.piece? attacker = some shooter)
    (hvictim : w.piece? target = some victim) (hactive : victim.isActive = true) :
    (w.resolveShot attacker target damage).2.filter (Event.isShotBy attacker) =
      [.shotResolved attacker target (min damage victim.health)] := by
  have hstrike : (w.resolveShot attacker target damage).2 =
      strike attacker target victim damage := by
    simp [resolveShot, hshooter, hvictim, hactive, strike]
  rw [hstrike]
  unfold strike
  cases (victim.takeDamage damage).1.downed with
  | true => simp [Event.isShotBy, Piece.takeDamage, hactive]
  | false => simp [Event.isShotBy, Piece.takeDamage, hactive]

/-- If a script has queued nothing, no shot is resolved. -/
theorem filter_isShotBy_idle (h : w.applyAll [.endTurn id] = .ok (w', t)) (attacker : PieceId) :
    t.events.filter (Event.isShotBy attacker) = [] := by
  have hended : w.applyAll [.endTurn id] = .ok ((w.endTurn id).1, .ofEvents (w.endTurn id).2) :=
    applyAll_singleton rfl
  rw [hended] at h
  cases h
  exact filter_isShotBy_endTurn w id attacker

/-- If a script has queued a shot at an active piece, that shot is resolved. -/
theorem filter_isShotBy_queued {shooter : Piece} (hshooter : w.piece? id = some shooter)
    (hvictim : w.piece? target = some victim) (hactive : victim.isActive = true)
    (h : w.applyAll [.resolveShot id target damage, .endTurn id] = .ok (w', t)) :
    t.events.filter (Event.isShotBy id) =
      [.shotResolved id target (min damage victim.health)] := by
  obtain ⟨struck, first, later, hfirst, hlater, rfl⟩ := applyAll_cons_eq_ok h
  cases hfirst
  have hshot : (w.resolveShot id target damage).2.filter (Event.isShotBy id) = _ :=
    filter_isShotBy_resolveShot hshooter hvictim hactive
  have hrest := filter_isShotBy_idle hlater id
  calc ((w.resolveShot id target damage).2 ++ later.events).filter (Event.isShotBy id)
    _ = (w.resolveShot id target damage).2.filter (Event.isShotBy id) ++
          later.events.filter (Event.isShotBy id) := List.filter_append ..
    _ = [.shotResolved id target (min damage victim.health)] := by
      rw [hshot, hrest, List.append_nil]

theorem id_beginTurn (hpiece : w.piece? id = some piece) : piece.beginTurn.id = id := by
  have hid := id_of_piece? hpiece
  exact hid

/-- When a script is done, its piece is found as it has left it. -/
theorem piece?_settled {left : Piece} (hpiece : w.piece? id = some piece) (hleft : left.id = id)
    (mailboxes : Directory) :
    ((w.begun id piece).settle id left mailboxes).piece? id = some left := by
  have hid := id_beginTurn hpiece
  have hbegun : (w.begun id piece).piece? id = some piece.beginTurn :=
    piece?_updatePiece hpiece hid
  exact piece?_updatePiece hbegun hleft

/-- The others are found as they were. -/
theorem piece?_settled_ne {left : Piece} {other : PieceId} (hpiece : w.piece? id = some piece)
    (hleft : left.id = id) (mailboxes : Directory) (hother : other ≠ id) :
    ((w.begun id piece).settle id left mailboxes).piece? other = w.piece? other := by
  have hid := id_beginTurn hpiece
  have hbegun : (w.begun id piece).piece? other = w.piece? other :=
    piece?_updatePiece_ne hother fun _ _ => hid
  exact (piece?_updatePiece_ne hother fun _ _ => hleft).trans hbegun

/-- Apart from the acting piece, an active piece is the only one that lives on a
hex. -/
structure StandsAlone (w : World) (actor : PieceId) (victim : Piece) (cell : Coord) : Prop where
  mem : victim ∈ w.pieces
  active : victim.isActive = true
  other : victim.id ≠ actor
  oneHex : victim.position.OneHex cell
  alone : ∀ p ∈ w.pieces, p.alive = true → p.id ≠ actor → p.position.OneHex cell → p = victim

/-- Whoever a script sees on a hex in its turn stands there, and nobody else does. -/
theorem Tidy.standsAlone (h : w.Tidy) (hpiece : w.piece? id = some piece) {stackLimit : Nat}
    {cell : Coord} {s : Snapshot}
    (hseen : otherOccupant (w.turnScene id piece stackLimit) id cell = .ok (some s))
    (hactive : s.active = true) :
    ∃ victim, victim.id = s.id ∧ w.StandsAlone id victim cell := by
  obtain ⟨hmem, hother⟩ := otherOccupant_eq_some hseen
  have honeHex : s.position.OneHex cell := sameHex_of_otherOccupant hseen
  obtain ⟨victim, hvictim, halive, rfl⟩ := mem_boardView.mp hmem
  rcases mem_updatePiece h.distinct hvictim with ⟨hvictim, -⟩ | ⟨p, -, rfl⟩
  · refine ⟨victim, rfl, hvictim, hactive, hother, honeHex, ?_⟩
    intro p hp halive' hne honeHex'
    -- Two that live on one hex would not be apart, so they are one piece.
    by_contra hdiffers
    have hids : p.id ≠ victim.id := fun hid => hdiffers (h.distinct.eq_of_id hp hvictim hid)
    have hapart := Coord.apart_iff.mp (h.apart p hp victim hvictim halive' halive hids)
    exact hapart.2.2 (honeHex'.same.symm.trans honeHex.same)
  · exact absurd (id_of_piece? hpiece) hother

/-- A shot at somebody whom a script sees to be active is resolved, whatever else the
script has done to its piece and the mailboxes. -/
theorem Tidy.resolves (h : w.Tidy) (hsound : w.Sound) (hpiece : w.piece? id = some piece)
    {stackLimit : Nat} {cell : Coord} {s : Snapshot}
    (hseen : otherOccupant (w.turnScene id piece stackLimit) id cell = .ok (some s))
    (hactive : s.active = true) {left : Piece} (hleft : left.id = id) {mailboxes : Directory}
    (happly : ((w.begun id piece).settle id left mailboxes).applyAll
      [.resolveShot id s.id piece.stats.attack, .endTurn id] = .ok (w', t)) :
    ∃ victim, w.StandsAlone id victim cell ∧ 1 ≤ min piece.stats.attack victim.health ∧
      t.events.filter (Event.isShotBy id) =
        [.shotResolved id victim.id (min piece.stats.attack victim.health)] := by
  obtain ⟨victim, hvictim, hstands⟩ := h.standsAlone hpiece hseen hactive
  have hshooter := piece?_settled hpiece hleft mailboxes
  have hfound : ((w.begun id piece).settle id left mailboxes).piece? victim.id = some victim := by
    rw [piece?_settled_ne hpiece hleft mailboxes hstands.other]
    exact h.distinct.piece?_eq hstands.mem
  rw [← hvictim] at happly
  refine ⟨victim, hstands, ?_, filter_isShotBy_queued hshooter hfound hstands.active happly⟩
  have hattack : 0 < piece.stats.attack := (hsound.piece hpiece).attack_pos
  have hhealth : 0 < victim.health := (hsound.pieces victim hstands.mem).health_pos hstands.active
  omega

end World

/-! ## Shots that are told -/

namespace Match

variable {m m' : Match} {id : PieceId} {piece : Piece} {entrant : Entrant} {t : Transcript}

/-- The shots of the turn of a piece, in order. -/
def attempts (m : Match) (id : PieceId) : List Attempt :=
  let world := (m.world.beginTurn id).1
  match m.roster.find? id, world.piece? id with
  | some entrant, some piece =>
    entrant.interpreter.attempts entrant.script ⟨piece, world.boardView, world.mailboxes⟩
  | _, _ => []

theorem attempts_of_active (hpiece : m.world.piece? id = some piece)
    (hactive : piece.isActive = true) (hentrant : m.roster.find? id = some entrant) :
    m.attempts id = entrant.interpreter.attempts entrant.script
      ⟨piece.beginTurn, (m.world.begun id piece).boardView, m.world.mailboxes⟩ := by
  have hid := World.id_beginTurn hpiece
  have hfound : (m.world.begun id piece).piece? id = some piece.beginTurn :=
    World.piece?_updatePiece hpiece hid
  unfold attempts
  simp only [World.beginTurn_of_active hpiece hactive, hentrant, hfound]
  rfl

/-- What a script is told of its shots in a turn is what the turn leaves. -/
structure TellsHits (m : Match) (id : PieceId) (events : List Event) : Prop where
  /-- A script is told one or zero. -/
  told : ∀ a ∈ m.attempts id, a.flag = some (.int 1) ∨ a.flag = some (.int 0)
  /-- It is told one of some shot if and only if just one shot is resolved. -/
  resolved : (∃ a ∈ m.attempts id, a.flag = some (.int 1)) ↔
    ∃ target damage, events.filter (Event.isShotBy id) = [.shotResolved id target damage]
  /-- That shot takes what it can of the health of the piece on the hex that it was
  aimed at. -/
  hit : ∀ a ∈ m.attempts id, a.flag = some (.int 1) →
    ∃ cell shooter victim, a.Aims cell ∧ m.world.piece? id = some shooter ∧
      m.world.StandsAlone id victim cell ∧ 1 ≤ min shooter.stats.attack victim.health ∧
      events.filter (Event.isShotBy id) =
        [.shotResolved id victim.id (min shooter.stats.attack victim.health)]
  /-- If it is told zero of every shot, none is resolved. -/
  missed : (∀ a ∈ m.attempts id, a.flag = some (.int 0)) →
    ∀ attacker target damage, .shotResolved attacker target damage ∉ events

/-- A turn without shots leaves none. -/
theorem tellsHits_skipped (hentrant : m.roster.find? id = none)
    (hturn : m.takeTurn id = .ok (m', t)) : m.TellsHits id t.events := by
  have hattempts : m.attempts id = [] := by
    simp [attempts, hentrant]
  have hskipped : m.takeTurn id = .ok (m, .ofNotice (.unscripted id)) := by
    rw [takeTurn, hentrant]
    rfl
  rw [hskipped] at hturn
  cases hturn
  constructor <;> simp [hattempts, Transcript.ofNotice]

section Turns

variable (hpiece : m.world.piece? id = some piece) (hactive : piece.isActive = true)
  (hentrant : m.roster.find? id = some entrant) (hturn : m.takeTurn id = .ok (m', t))
  (hdone : ∀ reason, .turnFaulted id reason ∉ t.events)

include hpiece hactive hentrant hturn hdone

/-- A turn that does not fault leaves what the commands of its script and its end
leave. -/
theorem exists_report :
    ∃ report world applied,
      entrant.interpreter.runTurn entrant.script
        ⟨piece.beginTurn, (m.world.begun id piece).boardView, m.world.mailboxes⟩ [] = .ok report ∧
      report.outcome.isFault = false ∧
      ((m.world.begun id piece).settle id report.piece report.mailboxes).applyAll
        (report.commands ++ [.endTurn id]) = .ok (world, applied) ∧
      t.events = .turnStarted id piece.beginTurn.turnsTaken :: applied.events := by
  have hid := World.id_beginTurn hpiece
  have hactive' := takeTurn_of_active hpiece hactive hentrant
  cases hrun : entrant.interpreter.runTurn entrant.script
      ⟨piece.beginTurn, (m.world.begun id piece).boardView, m.world.mailboxes⟩ [] with
  | error cause =>
    have hscript := runScript_of_overflowed (m := { m with world := m.world.begun id piece }) hrun
    rw [hactive', hscript] at hturn
    cases hturn
  | ok report =>
    cases hfault : report.outcome.isFault with
    | true =>
      obtain ⟨error, herror⟩ : ∃ error, report.outcome = .faulted error := by
        cases houtcome : report.outcome with
        | faulted error => exact ⟨error, rfl⟩
        | completed | ended =>
          rw [houtcome] at hfault
          cases hfault
      rw [takeTurn_of_faulted hpiece hactive hentrant hrun herror] at hturn
      cases hturn
      exact absurd (by simp) (hdone error.message)
    | false =>
      have hscript := runScript_of_done (m := { m with world := m.world.begun id piece }) hrun
        hfault
      rw [hid] at hscript
      rw [hactive', hscript] at hturn
      cases happly : ((m.world.begun id piece).settle id report.piece report.mailboxes).applyAll
          (report.commands ++ [.endTurn id]) with
      | error cause =>
        rw [happly] at hturn
        cases hturn
      | ok result =>
        rw [happly] at hturn
        cases hturn
        exact ⟨report, result.1, result.2, rfl, hfault, happly, rfl⟩

/-- If a script is told of no hit, no shot is resolved. -/
theorem filter_isShotBy_of_misses (hmisses : ∀ a ∈ m.attempts id, a.flag = some (.int 0))
    (attacker : PieceId) : t.events.filter (Event.isShotBy attacker) = [] := by
  obtain ⟨report, world, applied, hrun, hfault, happly, hevents⟩ :=
    exists_report hpiece hactive hentrant hturn hdone
  obtain ⟨-, hidle⟩ := Interpreter.runTurn_attempts hrun hfault
  rw [← attempts_of_active hpiece hactive hentrant] at hidle
  rw [hidle hmisses] at happly
  rw [hevents]
  exact World.filter_isShotBy_idle happly attacker

/-- A script is told of a shot that it does not hit, or that it does; then the shot is
resolved, if the board is tidy and its pieces are sound. -/
theorem told_of_mem_attempts (htidy : m.world.Tidy) (hsound : m.world.Sound) {a : Attempt}
    (ha : a ∈ m.attempts id) :
    a.flag = some (.int 0) ∨ a.flag = some (.int 1) ∧
      ∃ cell victim, a.Aims cell ∧ m.world.StandsAlone id victim cell ∧
        1 ≤ min piece.stats.attack victim.health ∧
        t.events.filter (Event.isShotBy id) =
          [.shotResolved id victim.id (min piece.stats.attack victim.health)] := by
  have hid := World.id_beginTurn hpiece
  obtain ⟨report, world, applied, hrun, hfault, happly, hevents⟩ :=
    exists_report hpiece hactive hentrant hturn hdone
  have hleft : report.piece.id = id := (Interpreter.runTurn_same hrun).id.trans hid
  obtain ⟨htold, -⟩ := Interpreter.runTurn_attempts hrun hfault
  rw [attempts_of_active hpiece hactive hentrant] at ha
  rcases htold a ha with hmiss | ⟨hflag, cell, target, haims, hseen, hactive', hcommands⟩
  · exact Or.inl hmiss
  · simp only [hid] at hseen hcommands
    rw [hcommands] at happly
    obtain ⟨victim, hstands, hdamage, hresolved⟩ :=
      htidy.resolves hsound hpiece hseen hactive' hleft happly
    refine Or.inr ⟨hflag, cell, victim, haims, hstands, hdamage, ?_⟩
    rw [hevents]
    exact hresolved

/-- What a script is told of its shots is what its turn leaves, if the board is tidy and
its pieces are sound. -/
theorem tellsHits_scripted (htidy : m.world.Tidy) (hsound : m.world.Sound) :
    m.TellsHits id t.events := by
  have htold : ∀ a ∈ m.attempts id, _ := fun _ =>
    told_of_mem_attempts hpiece hactive hentrant hturn hdone htidy hsound
  have hmissed := filter_isShotBy_of_misses hpiece hactive hentrant hturn hdone
  refine ⟨?_, ⟨?_, ?_⟩, ?_, ?_⟩
  · intro a ha
    exact (htold a ha).symm.imp_left And.left
  · rintro ⟨a, ha, hflag⟩
    rcases htold a ha with hmiss | ⟨-, cell, victim, -, -, -, hresolved⟩
    · rw [hflag] at hmiss
      cases hmiss
    · exact ⟨_, _, hresolved⟩
  · rintro ⟨target, damage, hresolved⟩
    by_contra hnone
    have hmisses : ∀ a ∈ m.attempts id, a.flag = some (.int 0) := by
      intro a ha
      apply (htold a ha).resolve_right
      intro hhit
      exact hnone ⟨a, ha, hhit.1⟩
    rw [hmissed hmisses id] at hresolved
    cases hresolved
  · intro a ha hflag
    rcases htold a ha with hmiss | ⟨-, cell, victim, haims, hstands, hdamage, hresolved⟩
    · rw [hflag] at hmiss
      cases hmiss
    · exact ⟨cell, piece, victim, haims, hpiece, hstands, hdamage, hresolved⟩
  · intro hmisses attacker target damage hmem
    have hnone := List.filter_eq_nil_iff.mp (hmissed hmisses attacker) _ hmem
    simp [Event.isShotBy] at hnone

end Turns

/-- In every turn of every match that does not fault, what a script is told of its shots
is what the turn leaves. -/
theorem tellsHits_of_turn {s : Setup} {calls : List Call} {start : Match} {t₀ : Transcript}
    (hstart : ofSetup s = .ok (start, t₀)) (hmem : (m, id) ∈ start.turns calls)
    (hturn : m.takeTurn id = .ok (m', t))
    (hdone : ∀ reason, .turnFaulted id reason ∉ t.events) : m.TellsHits id t.events := by
  obtain ⟨⟨events, hcourse⟩, hactive⟩ := comes_of_mem_turns hmem
  have hassembled := ofSetup_assembled hstart
  have htidy := ((World.Tidy.assembled hassembled).1.course hcourse).1
  have hsound := (World.Sound.assembled hassembled).course hcourse
  obtain ⟨piece, hpiece, hactive⟩ := World.exists_of_isActive hactive
  cases hentrant : m.roster.find? id with
  | none => exact tellsHits_skipped hentrant hturn
  | some entrant => exact tellsHits_scripted hpiece hactive hentrant hturn hdone htidy hsound

/-- What is read off the turn at a place among the turns of a match. -/
def readTurn {α : Type} (read : Match → PieceId → Transcript → α) (s : Setup) (calls : List Call)
    (place : Nat) : Checked (Option α) := do
  let (start, _) ← ofSetup s
  match (start.turns calls)[place]? with
  | none => return none
  | some (m, id) =>
    let (_, t) ← m.takeTurn id
    return some (read m id t)

theorem exists_of_readTurn {α : Type} {read : Match → PieceId → Transcript → α} {s : Setup}
    {calls : List Call} {place : Nat} {a : α} (h : readTurn read s calls place = .ok (some a)) :
    ∃ start t₀ m id m' t, ofSetup s = .ok (start, t₀) ∧ (m, id) ∈ start.turns calls ∧
      m.takeTurn id = .ok (m', t) ∧ read m id t = a := by
  obtain ⟨⟨start, t₀⟩, hstart, hrest⟩ := bind_eq_ok.mp h
  dsimp only at hrest
  split at hrest
  · cases hrest
  · rename_i m id hplace
    obtain ⟨⟨m', t⟩, hturn, hread⟩ := bind_eq_ok.mp hrest
    cases hread
    exact ⟨start, t₀, m, id, m', t, hstart, List.mem_of_getElem? hplace, hturn, rfl⟩

/-- A sniper that shoots out of its range, steps up, and shoots twice at a scout that has
had its turn. -/
def sniping : Setup where
  boardRadius := 2
  mailboxCapacity := 1
  limits := .default
  contestants :=
    [⟨⟨.bob, ⟨"blue"⟩, .scout, ⟨2, 0, 0⟩, 0⟩, ""⟩,
      ⟨⟨.ada, ⟨"red"⟩, .sniper, ⟨-2, 0, 0⟩, 0⟩, "5 0 shoot 1 0 move 3 0 shoot 3 0 shoot"⟩]

/-- The sniper is told of its second shot alone that it hits, and could have taken more
health than the scout has. -/
theorem tellsHits_of_turn_sniping :
    ∃ start t₀ m m' t, ofSetup sniping = .ok (start, t₀) ∧ (m, .ada) ∈ start.turns [.play 1] ∧
      m.takeTurn .ada = .ok (m', t) ∧
      (m.attempts .ada).map (·.flag) = [some (.int 0), some (.int 1), some (.int 0)] ∧
      t.events.filter (Event.isShotBy .ada) = [.shotResolved .ada .bob 2] ∧
      m.TellsHits .ada t.events := by
  have hread : readTurn (fun m id t => (id, (m.attempts id).map (·.flag), t.events)) sniping
      [.play 1] 1 =
        .ok (some (.ada, [some (.int 0), some (.int 1), some (.int 0)],
          [.turnStarted .ada 1, .shotResolved .ada .bob 2, .pieceDowned .bob .ada,
            .pieceMoved .ada ⟨-2, 0, 0⟩ ⟨-1, 0, 0⟩ 1, .turnEnded .ada])) := by
    rfl
  obtain ⟨start, t₀, m, id, m', t, hstart, hmem, hturn, hread⟩ := exists_of_readTurn hread
  obtain ⟨rfl, hread⟩ := Prod.mk.inj hread
  obtain ⟨hflags, hevents⟩ := Prod.mk.inj hread
  refine ⟨start, t₀, m, m', t, hstart, hmem, hturn, hflags, ?_, ?_⟩
  · rw [hevents]
    rfl
  · apply tellsHits_of_turn hstart hmem hturn
    intro reason
    simp [hevents]

end Match

end HexArena
