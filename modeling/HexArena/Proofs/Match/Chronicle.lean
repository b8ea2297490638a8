import HexArena.Proofs.Match.Legal
import HexArena.Proofs.World.Account

/-!
# The log of a match

A script changes its piece without a word, and what it did is reported when the
turn ends, as a move from the checkpoint to where the piece stands.  Still the
events of a match are a faithful log of it: from the moment a piece is put on the
board they tell all that has become of it, as long as its counters count.

Main results:

- Theorem {lit}`World.Course.accounts`: the events of a match tell what has become
  of the pieces.
- Theorem {lit}`World.Course.tracks`: so they tell their ways.
- Definition {lit}`Piece.Logged`: a piece is as its log tells.
- Theorem {lit}`Match.logged_of_callAll`: every piece of a match is.
-/

namespace HexArena

open Script

/-! ## What is counted -/

namespace World

variable {teamOf : PieceId → Option Team} {w w' : World} {id : PieceId} {piece : Piece}
  {events : List Event}

/-- The events of a turn tell what has become of the pieces. -/
theorem Turn.accounts (h : w.Turn id piece w' events) (hw : w.Distinct)
    (hteamed : w.Teamed teamOf) (hpiece : w.piece? id = some piece) :
    w.Accounts teamOf events w' := by
  have hbegun : w.Accounts teamOf [.turnStarted id piece.beginTurn.turnsTaken]
      (w.begun id piece) := accounts_begun hw hpiece
  have hid := id_of_piece? hpiece
  have hfound : (w.begun id piece).piece? id = some piece.beginTurn :=
    piece?_updatePiece hpiece hid
  -- Nothing is told between the start of the turn and its first command.
  have hacted : ∀ {stackLimit : Nat} {m : Machine},
      (w.turnStart id piece).Reaches (w.turnScene id piece stackLimit) m →
      w.Accounts teamOf [.turnStarted id piece.beginTurn.turnsTaken] (w.acted id piece m) :=
    fun hreaches => hbegun.trans (accounts_settle (hbegun.distinct hw) hfound
      (conduct_of_reaches hreaches).piece.same _)
  cases h with
  | skipped => exact .refl w
  | faulted reason => exact accounts_rested hw hpiece reason
  | ended hreaches =>
    have haccounts := hacted hreaches
    exact haccounts.trans (accounts_endTurn (haccounts.distinct hw) id)
  | @shot _ m target hreaches _ _ hother _ struck strike hshot =>
    have haccounts := hacted hreaches
    have hstruck := accounts_resolveShot (haccounts.distinct hw) (haccounts.teamed hteamed) hother
      piece.stats.attack
    rw [hshot] at hstruck
    have hboth := haccounts.trans hstruck
    exact hboth.trans (accounts_endTurn (hboth.distinct hw) id)

/-- The events of a match tell what has become of the pieces. -/
theorem Course.accounts (h : w.Course w' events) (hw : w.Distinct) (hteamed : w.Teamed teamOf) :
    w.Accounts teamOf events w' := by
  induction h with
  | start => exact .refl w
  | turn _ hpiece _ hturn ih =>
    exact ih.trans (hturn.accounts (ih.distinct hw) (ih.teamed hteamed) hpiece)
  | round _ ih => exact ih.trans (accounts_finishRound (ih.distinct hw))

end World

/-- The piece is as it was put on the board. -/
def Piece.Fresh (p : Piece) : Prop :=
  ∃ rotation, p = .spawn p.id p.team p.kind p.position rotation

/-! ## Ways -/

/-- A piece has gone the way that a tally tells. -/
structure Piece.Travels (p : Piece) (t : Tally) (p' : Piece) : Prop where
  id : p'.id = p.id
  spaces : p'.spacesMoved < maxCount →
    p'.spacesMoved = p.spacesMoved + (t.moves.map (·.spaces)).sum
  way : p'.spacesMoved < maxCount → Chained p.position t.moves p'.position

namespace Piece.Travels

variable {p p' p'' : Piece} {t t' : Tally}

/-- A piece that stands still has gone no way. -/
theorem still (hid : p'.id = p.id) (hposition : p'.position = p.position)
    (hspaces : p'.spacesMoved = p.spacesMoved) (ht : t.moves = []) : p.Travels t p' := by
  refine ⟨hid, ?_, ?_⟩
  · intro _
    rw [ht]
    exact hspaces
  · intro _
    rw [ht]
    exact hposition.symm

theorem trans (h : p.Travels t p') (h' : p'.Travels t' p'') : p.Travels (t ++ t') p'' where
  id := h'.id.trans h.id
  spaces := by
    intro hlt
    have hlater := h'.spaces hlt
    have hfirst := h.spaces (by omega)
    rw [Tally.append_moves, List.map_append, List.sum_append]
    omega
  way := by
    intro hlt
    have hlater := h'.spaces hlt
    exact (h.way (by omega)).append (h'.way hlt)

end Piece.Travels

namespace Script.Machine

/-- As long as the spaces are counted, a piece that has counted no space in its
turn has not moved. -/
structure Tracked (start : Piece) (m : Machine) : Prop where
  le : m.piece.spacesMoved < maxCount → start.spacesMoved ≤ m.piece.spacesMoved
  still : m.piece.spacesMoved < maxCount → m.piece.spacesMoved = start.spacesMoved →
    m.piece.position = start.position

theorem Tracked.stable (scene : Scene) (start : Piece) : Stable scene (Tracked start) := by
  intro m m' hchange hm
  cases hchange with
  | stack | print | turn | send | receive | clearMail => exact ⟨hm.le, hm.still⟩
  | miss hshoot | hit hshoot =>
    obtain ⟨-, -, -, rfl⟩ := Piece.shoot_eq_ok hshoot
    exact ⟨hm.le, hm.still⟩
  | @walk d _ walked _ _ _ hmove =>
    obtain ⟨-, -, position, hposition, rfl⟩ := Piece.move_eq_ok hmove
    refine ⟨?_, ?_⟩
    · intro hlt
      obtain ⟨hcount, hlt'⟩ := addCount_lt hlt
      have hle := hm.le hlt'
      show start.spacesMoved ≤ addCount m.piece.spacesMoved walked
      omega
    · intro hlt hsame
      -- The count has grown by the steps, so if it is the old one there were none.
      obtain ⟨hcount, hlt'⟩ := addCount_lt hlt
      have hle := hm.le hlt'
      have hsum : m.piece.spacesMoved + walked = start.spacesMoved := hcount.symm.trans hsame
      have hnone : walked = 0 := by omega
      subst hnone
      exact (Coord.offset_zero hposition).trans (hm.still hlt' (by omega))

end Script.Machine

namespace World

variable {w w' w'' : World} {id : PieceId} {piece : Piece} {events later : List Event}

/-- The events tell the way of every piece. -/
def Tracks (w : World) (events : List Event) (w' : World) : Prop :=
  ∀ p' ∈ w'.pieces, ∃ p ∈ w.pieces, p.Travels (tally p'.id events) p'

theorem Tracks.refl (w : World) : w.Tracks [] w :=
  fun p hp => ⟨p, hp, .still rfl rfl rfl rfl⟩

theorem Tracks.trans (h : w.Tracks events w') (h' : w'.Tracks later w'') :
    w.Tracks (events ++ later) w'' := by
  intro p'' hp''
  obtain ⟨p', hp', hlater⟩ := h' p'' hp''
  obtain ⟨p, hp, hfirst⟩ := h p' hp'
  rw [← hlater.id] at hfirst
  rw [tally_append]
  exact ⟨p, hp, hfirst.trans hlater⟩

/-- The move since a checkpoint, read for a piece. -/
theorem moves_movedSince (saved : Checkpoint) (p : Piece) (x : PieceId) :
    (tally x (movedSince saved p)).moves =
      if saved.piece.id = x ∧ 0 < p.spacesMoved - saved.piece.spacesMoved then
        [⟨saved.piece.position, p.position, p.spacesMoved - saved.piece.spacesMoved⟩]
      else [] := by
  unfold movedSince
  dsimp only
  by_cases hmoved : 0 < p.spacesMoved - saved.piece.spacesMoved
  · rw [if_pos hmoved, tally_singleton]
    by_cases hx : saved.piece.id = x
    · simp [Event.move?, hx, hmoved]
    · simp [Event.move?, hx]
  · rw [if_neg hmoved, if_neg fun h => hmoved h.2]
    rfl

/-- The events of a turn tell the ways of the pieces: the move that is reported
is the way from the checkpoint to where the script has left the piece. -/
theorem Turn.tracks (h : w.Turn id piece w' events) (hw : w.Distinct)
    (hpiece : w.piece? id = some piece) : w.Tracks events w' := by
  obtain ⟨stackLimit, m, hreaches, hled, hmoved⟩ := h.led hw hpiece
  have hid := id_of_piece? hpiece
  have hmoves : ∀ x, (tally x events).moves =
      if piece.id = x ∧ 0 < m.piece.spacesMoved - piece.spacesMoved then
        [⟨piece.position, m.piece.position, m.piece.spacesMoved - piece.spacesMoved⟩]
      else [] := by
    intro x
    rw [← moves_filter, hmoved]
    exact moves_movedSince _ _ x
  have htracked : m.Tracked piece :=
    (Machine.Tracked.stable _ piece).of_reaches ⟨fun _ => Nat.le_refl _, fun _ _ => rfl⟩ hreaches
  intro p' hp'
  rcases hled.pieces p' hp' with ⟨q, hq, hne, hsteady⟩ | hsteady
  · refine ⟨q, hq, .still hsteady.id hsteady.position hsteady.spacesMoved ?_⟩
    rw [hmoves, if_neg]
    rintro ⟨hactor, -⟩
    exact hne (hsteady.id.symm.trans (hactor.symm.trans hid))
  · have hactor : p'.id = piece.id :=
      hsteady.id.trans ((id_of_reaches hpiece hreaches).trans hid.symm)
    have hmove := hmoves p'.id
    refine ⟨piece, mem_of_piece? hpiece, ?_⟩
    by_cases hspaces : 0 < m.piece.spacesMoved - piece.spacesMoved
    · rw [if_pos ⟨hactor.symm, hspaces⟩] at hmove
      refine ⟨hactor, ?_, ?_⟩
      · intro _
        rw [hmove, hsteady.spacesMoved, List.map_singleton, List.sum_singleton]
        show m.piece.spacesMoved = piece.spacesMoved + (m.piece.spacesMoved - piece.spacesMoved)
        omega
      · intro _
        rw [hmove, hsteady.position]
        exact ⟨rfl, rfl⟩
    · rw [if_neg fun h => hspaces h.2] at hmove
      have hsame : p'.spacesMoved < maxCount → m.piece.spacesMoved = piece.spacesMoved := by
        intro hlt
        rw [hsteady.spacesMoved] at hlt
        have hle := htracked.le hlt
        omega
      refine ⟨hactor, ?_, ?_⟩
      · intro hlt
        rw [hmove, hsteady.spacesMoved]
        exact hsame hlt
      · intro hlt
        rw [hmove, hsteady.position]
        exact (htracked.still (hsteady.spacesMoved ▸ hlt) (hsame hlt)).symm

theorem tracks_finishRound (w : World) : w.Tracks w.finishRound.2 w.finishRound.1 := by
  intro p' hp'
  obtain ⟨p, hp, rfl⟩ := mem_finishRound hp'
  rw [tally_finishRound]
  exact ⟨p, hp, .still rfl rfl rfl rfl⟩

/-- The events of a match tell the ways of the pieces. -/
theorem Course.tracks (h : w.Course w' events) (hw : w.Distinct) :
    w'.Distinct ∧ w.Tracks events w' := by
  induction h with
  | start => exact ⟨hw, .refl w⟩
  | turn _ hpiece _ hturn ih =>
    obtain ⟨_, _, -, hled, -⟩ := hturn.led ih.1 hpiece
    exact ⟨hled.distinct ih.1, ih.2.trans (hturn.tracks ih.1 hpiece)⟩
  | @round w' _ _ ih =>
    exact ⟨ih.1.of_ids (ids_finishRound w'), ih.2.trans (tracks_finishRound w')⟩

/-! ## The pieces of a setup -/

variable {s : Setup}

/-- Nothing is told of those who are not on the board. -/
theorem Assembled.tally_absent (h : w.Assembled s events) {x : PieceId}
    (hx : x ∉ w.pieces.map (·.id)) : tally x events = .empty := by
  induction h with
  | blank => rfl
  | rejected _ _ _ ih =>
    rw [tally_append, ih hx]
    rfl
  | @spawned w w' events c _ _ hspawn ih =>
    obtain ⟨-, -, -, mailboxes, rfl⟩ := spawn_eq_ok hspawn
    rw [List.map_append, List.mem_append, not_or] at hx
    have hne : c.placement.id ≠ x := fun hid => hx.2 (List.mem_singleton.mpr hid.symm)
    rw [tally_append, ih hx.1, tally_pieceSpawned, if_neg hne]
    rfl

/-- All that is told of a piece on the board is its entry. -/
theorem Assembled.tally_present (h : w.Assembled s events) {p : Piece} (hp : p ∈ w.pieces) :
    tally p.id events = { Tally.empty with entry := some (p.team, p.position) } := by
  induction h with
  | blank => cases hp
  | rejected _ _ _ ih =>
    rw [tally_append, ih hp]
    exact Tally.append_empty _
  | @spawned w w' events c _ hassembled hspawn ih =>
    obtain ⟨hnew, -, -, mailboxes, rfl⟩ := spawn_eq_ok hspawn
    rw [tally_append, tally_pieceSpawned]
    rcases List.mem_append.mp hp with hp | hp
    · rw [ih hp, if_neg (hnew p hp).symm]
      exact Tally.append_empty _
    · cases List.mem_singleton.mp hp
      have habsent : c.placement.id ∉ w.pieces.map (·.id) := by
        intro hmem
        obtain ⟨q, hq, hid⟩ := List.mem_map.mp hmem
        exact hnew q hq hid
      show tally c.placement.id events ++ _ = _
      rw [hassembled.tally_absent habsent, Tally.empty_append]
      exact if_pos rfl

end World

/-! ## Faithful logs -/

/-- No counter of the piece has stopped. -/
structure Piece.Counting (p : Piece) : Prop where
  damageDealt : p.damageDealt < maxCount
  damageTaken : p.damageTaken < maxCount
  spacesMoved : p.spacesMoved < maxCount
  enemiesDefeated : p.enemiesDefeated < maxCount
  turnsTaken : p.turnsTaken < maxCount

/-- The team with which a piece was put on the board. -/
def team? (id : PieceId) (log : List Event) : Option Team :=
  (tally id log).entry.map (·.1)

/-- The piece is as its log tells. -/
structure Piece.Logged (p : Piece) (log : List Event) : Prop where
  health : p.health + (tally p.id log).damageTaken = p.kind.stats.health
  damageTaken : p.damageTaken = (tally p.id log).damageTaken
  damageDealt : p.damageDealt = (tally p.id log).damageDealt
  /-- The defeated enemies are its victims from other teams. -/
  enemiesDefeated : p.enemiesDefeated =
    (tally p.id log).victims.countP fun victim => team? victim log ≠ team? p.id log
  /-- Its turns are numbered from one. -/
  turns : (tally p.id log).turns = List.range' 1 p.turnsTaken
  spacesMoved : p.spacesMoved = ((tally p.id log).moves.map (·.spaces)).sum
  /-- Its moves lead from where it was put on the board to where it stands. -/
  way : ∃ start, (tally p.id log).entry = some (p.team, start) ∧
    Chained start (tally p.id log).moves p.position
  downed : p.deathFlag = true ∨ p.alive = false ↔ (tally p.id log).downed = true
  destroyed : p.alive = false ↔ (tally p.id log).destroyed = true

/-- A fresh piece that goes on as events tell is as the whole log tells. -/
theorem Piece.Logged.of_fresh {p p' : Piece} {setup events : List Event} (hfresh : p.Fresh)
    (hentry : tally p.id setup = { Tally.empty with entry := some (p.team, p.position) })
    (hentries : ∀ x, (tally x events).entry = none)
    (hcounts : p.Counts (team? · setup) (tally p'.id events) p')
    (htravels : p.Travels (tally p'.id events) p') (hcounting : p'.Counting) :
    p'.Logged (setup ++ events) := by
  obtain ⟨rotation, hp⟩ := hfresh
  have htally : tally p'.id (setup ++ events) =
      { tally p'.id events with entry := some (p.team, p.position) } := by
    rw [tally_append, hcounts.id, hentry]
    ext1 <;> simp [Tally.empty]
  have hteams : ∀ x, team? x (setup ++ events) = team? x setup := by
    intro x
    unfold team?
    rw [tally_append, Tally.append_entry, hentries, Option.or_none]
  have hteam : team? p'.id setup = some p.team := by
    rw [hcounts.id, team?, hentry]
    rfl
  have hactive : p.isActive = true := congrArg Piece.isActive hp
  have halive : p.alive = true := congrArg Piece.alive hp
  constructor
  case health =>
    have hhealth : p.health = p.kind.stats.health := congrArg Piece.health hp
    rw [htally, hcounts.kind, ← hhealth]
    exact hcounts.health
  case damageTaken =>
    have hzero : p.damageTaken = 0 := congrArg Piece.damageTaken hp
    have hcount := hcounts.damageTaken hcounting.damageTaken
    rw [hzero, Nat.zero_add] at hcount
    rw [htally]
    exact hcount
  case damageDealt =>
    have hzero : p.damageDealt = 0 := congrArg Piece.damageDealt hp
    have hcount := hcounts.damageDealt hcounting.damageDealt
    rw [hzero, Nat.zero_add] at hcount
    rw [htally]
    exact hcount
  case enemiesDefeated =>
    have hzero : p.enemiesDefeated = 0 := congrArg Piece.enemiesDefeated hp
    have hcount := hcounts.enemiesDefeated hcounting.enemiesDefeated
    rw [hzero, Nat.zero_add] at hcount
    simp only [htally, hteams, hteam]
    exact hcount
  case turns =>
    have hzero : p.turnsTaken = 0 := congrArg Piece.turnsTaken hp
    obtain ⟨hcount, hnumbers⟩ := hcounts.turns hcounting.turnsTaken
    rw [hzero, Nat.zero_add] at hcount hnumbers
    rw [htally, hcount]
    exact hnumbers
  case spacesMoved =>
    have hzero : p.spacesMoved = 0 := congrArg Piece.spacesMoved hp
    have hcount := htravels.spaces hcounting.spacesMoved
    rw [hzero, Nat.zero_add] at hcount
    rw [htally]
    exact hcount
  case way =>
    refine ⟨p.position, ?_, ?_⟩
    · rw [htally, hcounts.team]
    · rw [htally]
      exact htravels.way hcounting.spacesMoved
  case downed =>
    have hdowned := hcounts.downed
    rw [hactive, Bool.not_true, Bool.false_or] at hdowned
    rw [htally, ← hdowned]
    unfold isActive
    cases p'.alive <;> cases p'.deathFlag <;> simp
  case destroyed =>
    have hdestroyed := hcounts.destroyed
    rw [halive, Bool.not_true, Bool.false_or] at hdestroyed
    rw [htally, ← hdestroyed]
    simp

namespace Match

/-- The events of a match are a faithful log of it: every piece is as they tell,
as long as none of its counters has stopped. -/
theorem logged_of_callAll {s : Setup} {m m' : Match} {t t' : Transcript} {calls : List Call}
    (hstart : ofSetup s = .ok (m, t)) (hcalls : m.callAll calls = .ok (m', t')) {p : Piece}
    (hp : p ∈ m'.world.pieces) (hcounting : p.Counting) : p.Logged (t.events ++ t'.events) := by
  have hassembled := ofSetup_assembled hstart
  have hcourse := callAll_course hcalls
  have hdistinct := (World.Tidy.assembled hassembled).1.distinct
  have hteamed : m.world.Teamed (team? · t.events) := by
    intro q hq
    show (tally q.id t.events).entry.map (·.1) = some q.team
    rw [hassembled.tally_present hq]
    rfl
  have haccounts := hcourse.accounts hdistinct hteamed
  obtain ⟨q, hq, hcounts⟩ := haccounts.pieces p hp
  obtain ⟨q', hq', htravels⟩ := (hcourse.tracks hdistinct).2 p hp
  cases hdistinct.eq_of_id hq' hq (htravels.id.symm.trans hcounts.id)
  have hfresh : q.Fresh := hassembled.forall_pieces (fun c _ => ⟨c.placement.rotation, rfl⟩) q hq
  exact .of_fresh hfresh (hassembled.tally_present hq) haccounts.entries hcounts htravels hcounting

/-- A scout walks into the sights of a sniper. -/
def ambush : Setup where
  boardRadius := 4
  mailboxCapacity := 1
  limits := .default
  contestants :=
    [⟨⟨.bob, ⟨"blue"⟩, .scout, ⟨4, 0, 0⟩, 3⟩, "1 0 move drop"⟩,
      ⟨⟨.ada, ⟨"red"⟩, .sniper, .origin, 0⟩, "1 0 move drop 2 0 shoot drop"⟩]

/-- The scout after the match. -/
def ambushed : Piece :=
  { Piece.spawn .bob ⟨"blue"⟩ .scout ⟨4, 0, 0⟩ 3 with
    position := ⟨3, 0, 0⟩
    health := 0
    movement := 2
    alive := false
    deathFlag := true
    turnFinished := true
    damageTaken := 2
    spacesMoved := 1
    turnsTaken := 1
    movement_le := by decide }

/-- The sniper after the match. -/
def ambusher : Piece :=
  { Piece.spawn .ada ⟨"red"⟩ .sniper .origin 0 with
    position := ⟨1, 0, 0⟩
    movement := 0
    hasShot := true
    turnFinished := true
    damageDealt := 2
    spacesMoved := 1
    enemiesDefeated := 1
    turnsTaken := 1
    movement_le := by decide }

theorem logged_of_callAll_ambush :
    ∃ m t m' t', ofSetup ambush = .ok (m, t) ∧ m.callAll [.play 3] = .ok (m', t') ∧
      m'.world.pieces = [ambushed, ambusher] ∧
      ambushed.Logged (t.events ++ t'.events) ∧ ambusher.Logged (t.events ++ t'.events) := by
  have hpieces : readAfter (·.pieces) ambush [.play 3] = .ok [ambushed, ambusher] := by
    rfl
  obtain ⟨m, t, m', t', hstart, hcalls, hpieces⟩ := exists_of_readAfter hpieces
  have hambushed : ambushed ∈ m'.world.pieces := by simp [hpieces]
  have hambusher : ambusher ∈ m'.world.pieces := by simp [hpieces]
  refine ⟨m, t, m', t', hstart, hcalls, hpieces, ?_, ?_⟩
  · exact logged_of_callAll hstart hcalls hambushed
      ⟨by decide, by decide, by decide, by decide, by decide⟩
  · exact logged_of_callAll hstart hcalls hambusher
      ⟨by decide, by decide, by decide, by decide, by decide⟩

end Match

end HexArena
