import HexArena.Proofs.Hex.SameHex
import HexArena.Proofs.Lookup
import HexArena.Proofs.World.Turn

/-!
# Worlds on the same hexes

Two worlds may say by different triples where their pieces stand.  As long as the
triples address the same hexes, every command does the same to both and is
reported in the same way, but for the triples.

Main results:

- Definition {lit}`World.Alike`: the same world, but for the triples that say where
  its pieces stand.
- Definition {lit}`Event.Alike`: the same event, but for triples.
- Theorem {lit}`World.agree_spawn`: pieces are put on the board alike.
- Theorem {lit}`World.agree_applyAll`: commands do the same to worlds that are
  alike.
-/

namespace HexArena

open Checked

/-! ## Worlds, events and commands -/

/-- The places that an event names. -/
def Event.places : Event → List Coord
  | .pieceSpawned _ _ position => [position]
  | .pieceMoved _ start stop _ => [start, stop]
  | _ => []

section

variable (near : Coord → Coord → Prop)

/-- The same checkpoint, but for the triple that says where its piece stood. -/
def Checkpoint.Alike (c c' : Checkpoint) : Prop :=
  ∃ piece, c.piece.Alike near piece ∧ c' = { c with piece := piece }

/-- The same world, but for the triples that say where its pieces stand. -/
def World.Alike (w w' : World) : Prop :=
  ∃ pieces checkpoint, List.Forall₂ (Piece.Alike near) w.pieces pieces ∧
    Option.Rel (Checkpoint.Alike near) w.checkpoint checkpoint ∧
    w' = { w with pieces := pieces, checkpoint := checkpoint }

/-- The same event, but for the triples of the places it names. -/
inductive Event.Alike : Event → Event → Prop
  | same (e : Event) (h : e.places = []) : Event.Alike e e
  | pieceSpawned (piece : PieceId) (team : Team) {position position' : Coord}
    (h : near position position') :
    Event.Alike (.pieceSpawned piece team position) (.pieceSpawned piece team position')
  | pieceMoved (piece : PieceId) {start start' stop stop' : Coord} (spaces : Nat)
    (hstart : near start start') (hstop : near stop stop') :
    Event.Alike (.pieceMoved piece start stop spaces) (.pieceMoved piece start' stop' spaces)

/-- The same log and the same events, but for triples. -/
structure Transcript.Alike (t t' : Transcript) : Prop where
  events : List.Forall₂ (Event.Alike near) t.events t'.events
  log : t'.log = t.log

/-- The same placement, but for the triple that says where. -/
def Placement.Alike (new new' : Placement) : Prop :=
  ∃ position, near new.position position ∧ new' = { new with position := position }

/-- The same command, but for the triple that says where a piece is put. -/
inductive Command.Alike : Command → Command → Prop
  | same (c : Command) (h : ∀ new, c ≠ .spawnPiece new) : Command.Alike c c
  | spawnPiece {new new' : Placement} (h : new.Alike near new') :
    Command.Alike (.spawnPiece new) (.spawnPiece new')

end

/-- Transcripts that are alike part by part are alike as a whole. -/
theorem Transcript.Alike.append {near : Coord → Coord → Prop} {s s' t t' : Transcript}
    (hs : s.Alike near s') (ht : t.Alike near t') : (s ++ t).Alike near (s' ++ t') where
  events := List.rel_append hs.events ht.events
  log := by
    rw [Transcript.log_append, Transcript.log_append, hs.log, ht.log]

/-- Events that name no place are reported alike. -/
theorem Event.alike_same {near : Coord → Coord → Prop} {events : List Event}
    (h : ∀ e ∈ events, e.places = []) : List.Forall₂ (Event.Alike near) events events :=
  List.forall₂_same.mpr fun e he => .same e (h e he)

namespace World

variable {near : Coord → Coord → Prop} {w w' : World}

/-! ## Queries -/

/-- Both worlds have a piece of an identifier, and alike, or neither has one. -/
theorem alike_piece? (h : w.Alike near w') (id : PieceId) :
    Option.Rel (Piece.Alike near) (w.piece? id) (w'.piece? id) := by
  obtain ⟨pieces, checkpoint, hpieces, -, rfl⟩ := h
  exact rel_find? hpieces fun _ _ hp => hp.reading (fun p => decide (p.id = id)) fun _ _ => rfl

/-- What does not depend on where a piece stands is read alike. -/
theorem Alike.readings {β : Type} (h : w.Alike near w') {counts : Piece → Bool}
    {reading : Piece → β}
    (hcounts : ∀ (p : Piece) (position : Coord), counts { p with position := position } = counts p)
    (hreading : ∀ (p : Piece) (position : Coord),
      reading { p with position := position } = reading p) :
    (w'.pieces.filter counts).map reading = (w.pieces.filter counts).map reading := by
  obtain ⟨pieces, checkpoint, hpieces, -, rfl⟩ := h
  exact map_filter_eq_of_rel hpieces (fun _ _ hp => hp.reading counts hcounts)
    fun _ _ hp => hp.reading reading hreading

/-- The same pieces are active. -/
theorem Alike.isActive (h : w.Alike near w') (id : PieceId) : w'.isActive id = w.isActive id := by
  unfold World.isActive
  have hpiece := alike_piece? h id
  revert hpiece
  generalize w.piece? id = found, w'.piece? id = found'
  rintro (hp | _)
  · exact hp.reading (·.isActive) fun _ _ => rfl
  · rfl

/-- The pieces take their turns in the same order. -/
theorem Alike.turnOrder (h : w.Alike near w') : w'.turnOrder = w.turnOrder :=
  h.readings (fun _ _ => rfl) fun _ _ => rfl

/-- The same teams are left. -/
theorem Alike.livingTeams (h : w.Alike near w') : w'.livingTeams = w.livingTeams :=
  congrArg (List.foldr insertTeam []) (h.readings (fun _ _ => rfl) fun _ _ => rfl)

/-- The same pieces die at the end of the round. -/
theorem Alike.deaths (h : w.Alike near w') : w'.deaths = w.deaths :=
  h.readings (fun _ _ => rfl) fun _ _ => rfl

/-- Worlds that are alike show the same board. -/
theorem Alike.boardView (h : w.Alike Coord.OneHex w') : w.boardView.Alike w'.boardView := by
  obtain ⟨pieces, checkpoint, hpieces, -, rfl⟩ := h
  refine Board.alike_ofSnapshots ?_ w.radius
  have hliving : List.Forall₂ (Piece.Alike Coord.OneHex) (w.pieces.filter (·.alive))
      (pieces.filter (·.alive)) := by
    refine List.rel_filter ?_ hpieces
    rintro p _ ⟨_, -, rfl⟩
    rfl
  refine List.rel_map ?_ hliving
  rintro p _ ⟨position, hnear, rfl⟩
  exact ⟨position, hnear.same, rfl⟩

/-! ## Changes -/

/-- Worlds stay alike when a piece of both is changed alike. -/
theorem Alike.updatePiece (h : w.Alike near w') (id : PieceId) {f f' : Piece → Piece}
    (hf : ∀ p p', p.Alike near p' → (f p).Alike near (f' p')) :
    (w.updatePiece id f).Alike near (w'.updatePiece id f') := by
  obtain ⟨pieces, checkpoint, hpieces, hcheckpoint, rfl⟩ := h
  refine ⟨_, checkpoint, rel_updateFirst hpieces ?_ hf, hcheckpoint, rfl⟩
  exact fun _ _ hp => hp.reading (fun p => decide (p.id = id)) fun _ _ => rfl

/-- Worlds stay alike when both get the same mailboxes. -/
theorem Alike.setMailboxes (h : w.Alike near w') (mailboxes : Directory) :
    World.Alike near { w with mailboxes := mailboxes } { w' with mailboxes := mailboxes } := by
  obtain ⟨pieces, checkpoint, hpieces, hcheckpoint, rfl⟩ := h
  exact ⟨pieces, checkpoint, hpieces, hcheckpoint, rfl⟩

/-- Worlds stay alike when a script leaves pieces that are alike and the same mailboxes.
-/
theorem Alike.settle (h : w.Alike near w') (id : PieceId) {p p' : Piece} (hp : p.Alike near p')
    (mailboxes : Directory) : (w.settle id p mailboxes).Alike near (w'.settle id p' mailboxes) :=
  (h.updatePiece id fun _ _ _ => hp).setMailboxes mailboxes

/-- Worlds stay alike when both get checkpoints that are alike. -/
theorem Alike.setCheckpoint (h : w.Alike near w') {checkpoint checkpoint' : Option Checkpoint}
    (hcheckpoint : Option.Rel (Checkpoint.Alike near) checkpoint checkpoint') :
    World.Alike near { w with checkpoint := checkpoint }
      { w' with checkpoint := checkpoint' } := by
  obtain ⟨pieces, _, hpieces, -, rfl⟩ := h
  exact ⟨pieces, checkpoint', hpieces, hcheckpoint, rfl⟩

/-- The mailboxes are the same. -/
theorem Alike.mailboxes (h : w.Alike near w') : w'.mailboxes = w.mailboxes := by
  obtain ⟨_, _, -, -, rfl⟩ := h
  rfl

/-- Both matches are concluded, or neither is. -/
theorem Alike.concluded (h : w.Alike near w') : w'.concluded = w.concluded := by
  obtain ⟨_, _, -, -, rfl⟩ := h
  rfl

end World

/-! ## Pieces in their turns -/

namespace Piece.Alike

variable {near : Coord → Coord → Prop} {p p' : Piece}

/-- Pieces that are alike begin their turns alike. -/
theorem beginTurn (h : p.Alike near p') : p.beginTurn.Alike near p'.beginTurn := by
  obtain ⟨position, hnear, rfl⟩ := h
  exact ⟨position, hnear, rfl⟩

/-- They finish their turns alike. -/
theorem finishTurn (h : p.Alike near p') : p.finishTurn.Alike near p'.finishTurn := by
  obtain ⟨position, hnear, rfl⟩ := h
  exact ⟨position, hnear, rfl⟩

/-- They are credited with a hit alike. -/
theorem recordHit (h : p.Alike near p') (damage : Nat) (defeated : Bool) :
    (p.recordHit damage defeated).Alike near (p'.recordHit damage defeated) := by
  obtain ⟨position, hnear, rfl⟩ := h
  exact ⟨position, hnear, rfl⟩

/-- They are destroyed alike. -/
theorem commitDeath (h : p.Alike near p') : p.commitDeath.Alike near p'.commitDeath := by
  obtain ⟨position, hnear, rfl⟩ := h
  have hdying : { p with position := position }.isDying = p.isDying := rfl
  unfold Piece.commitDeath
  rw [hdying]
  split
  · exact ⟨position, hnear, rfl⟩
  · exact ⟨position, hnear, rfl⟩

/-- A hit does the same damage to pieces that are alike, and leaves them so. -/
theorem takeDamage (h : p.Alike near p') (amount : Nat) :
    (p'.takeDamage amount).1 = (p.takeDamage amount).1 ∧
      (p.takeDamage amount).2.Alike near (p'.takeDamage amount).2 := by
  obtain ⟨position, hnear, rfl⟩ := h
  have hactive : { p with position := position }.isActive = p.isActive := rfl
  unfold Piece.takeDamage
  rw [hactive]
  cases p.isActive with
  | true => exact ⟨rfl, position, hnear, rfl⟩
  | false => exact ⟨rfl, position, hnear, rfl⟩

end Piece.Alike

/-! ## Commands -/

namespace World

variable {near : Coord → Coord → Prop} {w w' : World}

/-- A world and the events that led to it, but for triples. -/
def ToldAlike (near : Coord → Coord → Prop) (told told' : World × List Event) : Prop :=
  told.1.Alike near told'.1 ∧ List.Forall₂ (Event.Alike near) told.2 told'.2

/-- A turn begins in the same way in worlds that are alike. -/
theorem alike_beginTurn (h : w.Alike near w') (id : PieceId) :
    ToldAlike near (w.beginTurn id) (w'.beginTurn id) := by
  have hpiece := alike_piece? h id
  unfold beginTurn
  generalize w.piece? id = found, w'.piece? id = found' at hpiece ⊢
  cases hpiece with
  | none => exact ⟨h, .nil⟩
  | @some p p' hp =>
    have hactive : p'.isActive = p.isActive := hp.reading _ fun _ _ => rfl
    have hturns : p'.beginTurn.turnsTaken = p.beginTurn.turnsTaken :=
      hp.beginTurn.reading (·.turnsTaken) fun _ _ => rfl
    dsimp only
    rw [hactive, hturns, h.mailboxes]
    split
    · refine ⟨?_, .cons (.same _ rfl) .nil⟩
      exact (h.updatePiece id fun _ _ _ => hp.beginTurn).setCheckpoint
        (.some ⟨_, hp.beginTurn, rfl⟩)
    · exact ⟨h, .nil⟩

/-- A shot does the same in worlds that are alike, and the same is told of it. -/
theorem alike_resolveShot (h : w.Alike near w') (attacker target : PieceId) (damage : Nat) :
    ToldAlike near (w.resolveShot attacker target damage)
      (w'.resolveShot attacker target damage) := by
  have hshooter := alike_piece? h attacker
  have hvictim := alike_piece? h target
  unfold resolveShot
  generalize w.piece? attacker = shooter, w'.piece? attacker = shooter' at hshooter ⊢
  generalize w.piece? target = victim, w'.piece? target = victim' at hvictim ⊢
  cases hshooter with
  | none => exact ⟨h, .nil⟩
  | @some shooter _ hshooter =>
    cases hvictim with
    | none => exact ⟨h, .nil⟩
    | @some victim victim' hvictim =>
      have hteam : victim'.team = victim.team := hvictim.reading _ fun _ _ => rfl
      have hactive : victim'.isActive = victim.isActive := hvictim.reading _ fun _ _ => rfl
      obtain ⟨_, -, rfl⟩ := hshooter
      obtain ⟨hhit, hhurt⟩ := hvictim.takeDamage damage
      dsimp only
      rw [hactive, hteam, hhit]
      split
      · refine ⟨?_, Event.alike_same ?_⟩
        · exact (h.updatePiece target fun _ _ _ => hhurt).updatePiece attacker
            fun _ _ hp => hp.recordHit _ _
        · intro e he
          rcases List.mem_cons.mp he with rfl | he
          · rfl
          · split at he
            · rw [List.mem_singleton.mp he]
              rfl
            · cases he
      · exact ⟨h, .nil⟩

/-- The checkpoint of a piece is there in both worlds, or in neither. -/
theorem alike_checkpointOf? (h : w.Alike near w') (id : PieceId) :
    Option.Rel (Checkpoint.Alike near) (w.checkpointOf? id) (w'.checkpointOf? id) := by
  obtain ⟨pieces, checkpoint, -, hcheckpoint, rfl⟩ := h
  unfold checkpointOf?
  dsimp only
  generalize w.checkpoint = saved at hcheckpoint ⊢
  cases hcheckpoint with
  | none => exact .none
  | some hsaved =>
    obtain ⟨_, ⟨position, hnear, rfl⟩, rfl⟩ := hsaved
    simp only [Option.filter_some]
    split
    · exact .some ⟨_, ⟨position, hnear, rfl⟩, rfl⟩
    · exact .none

/-- A walk since a checkpoint is told alike, but for the triples it names. -/
theorem alike_movedSince {saved saved' : Checkpoint} {p p' : Piece}
    (hsaved : saved.Alike near saved') (hp : p.Alike near p') :
    List.Forall₂ (Event.Alike near) (movedSince saved p) (movedSince saved' p') := by
  obtain ⟨_, ⟨start, hstart, rfl⟩, rfl⟩ := hsaved
  obtain ⟨stop, hstop, rfl⟩ := hp
  unfold movedSince
  dsimp only
  split
  · exact .cons (.pieceMoved _ _ hstart hstop) .nil
  · exact .nil

/-- A turn ends in the same way in worlds that are alike. -/
theorem alike_endTurn (h : w.Alike near w') (id : PieceId) :
    ToldAlike near (w.endTurn id) (w'.endTurn id) := by
  have hsaved := alike_checkpointOf? h id
  have hdropped := h.setCheckpoint (.none : Option.Rel (Checkpoint.Alike near) none none)
  have hpiece := alike_piece? hdropped id
  unfold endTurn
  dsimp only
  generalize World.piece? { w with checkpoint := none } id = found,
    World.piece? { w' with checkpoint := none } id = found' at hpiece ⊢
  generalize w.checkpointOf? id = saved, w'.checkpointOf? id = saved' at hsaved ⊢
  cases hpiece with
  | none => exact ⟨hdropped, .nil⟩
  | some hp =>
    refine ⟨hdropped.updatePiece id fun _ _ hp => hp.finishTurn, ?_⟩
    refine List.rel_append ?_ (.cons (.same _ rfl) .nil)
    cases hsaved with
    | none => exact .nil
    | some hsaved => exact alike_movedSince hsaved hp

/-- A turn is aborted in the same way in worlds that are alike. -/
theorem alike_abortTurn (h : w.Alike near w') (id : PieceId) (reason : String) :
    (w.abortTurn id reason).1.Alike near (w'.abortTurn id reason).1 ∧
      (w.abortTurn id reason).2.Alike near (w'.abortTurn id reason).2 := by
  have hsaved := alike_checkpointOf? h id
  have hdropped := h.setCheckpoint (.none : Option.Rel (Checkpoint.Alike near) none none)
  unfold abortTurn
  dsimp only
  generalize w.checkpointOf? id = saved, w'.checkpointOf? id = saved' at hsaved ⊢
  cases hsaved with
  | none => exact ⟨hdropped, .cons (.same _ rfl) .nil, rfl⟩
  | some hsaved =>
    obtain ⟨piece, hpiece, rfl⟩ := hsaved
    exact ⟨hdropped.settle id hpiece.finishTurn _, .cons (.same _ rfl) .nil, rfl⟩

/-- The deaths of a round are carried out alike. -/
theorem alike_closeRound (h : w.Alike near w') : w.closeRound.Alike near w'.closeRound := by
  obtain ⟨pieces, checkpoint, hpieces, hcheckpoint, rfl⟩ := h
  exact ⟨_, checkpoint, List.rel_map (fun _ _ hp => hp.commitDeath) hpieces, hcheckpoint, rfl⟩

/-- A match is concluded alike, with the same winner. -/
theorem alike_conclude (h : w.Alike near w') : ToldAlike near w.conclude w'.conclude := by
  have hover : World.Alike near { w with concluded := true } { w' with concluded := true } := by
    obtain ⟨pieces, checkpoint, hpieces, hcheckpoint, rfl⟩ := h
    exact ⟨pieces, checkpoint, hpieces, hcheckpoint, rfl⟩
  unfold conclude
  rw [h.concluded, h.livingTeams]
  split
  · exact ⟨h, .nil⟩
  · split
    · exact ⟨hover, .cons (.same _ rfl) .nil⟩
    · exact ⟨hover, .cons (.same _ rfl) .nil⟩
    · exact ⟨h, .nil⟩

/-- A round ends in the same way in worlds that are alike. -/
theorem alike_finishRound (h : w.Alike near w') :
    ToldAlike near w.finishRound w'.finishRound := by
  obtain ⟨hfinal, hevents⟩ := alike_conclude (alike_closeRound h)
  have hround : w'.closeRound.round = w.closeRound.round := by
    obtain ⟨_, _, -, -, rfl⟩ := h
    rfl
  refine ⟨hfinal, ?_⟩
  unfold finishRound
  dsimp only
  rw [h.deaths, hround]
  refine List.rel_append (Event.alike_same ?_) (.cons (.same _ rfl) hevents)
  intro e he
  obtain ⟨p, -, rfl⟩ := List.mem_map.mp he
  rfl

/-! ## Putting pieces on the board -/

/-- One hex by two triples is on the board of both worlds, or of neither. -/
theorem agree_isOnBoard (h : w.Alike near w') {cell cell' : Coord} (hcell : cell.Same cell') :
    Agree Eq (w.isOnBoard cell) (w'.isOnBoard cell') := by
  obtain ⟨_, _, -, -, rfl⟩ := h
  exact ((Coord.Same.refl _).distance hcell).bind_eq fun _ => .ok rfl

/-- One hex by two triples is taken by a living piece in both lists, or in neither. -/
theorem agree_anyAliveOn {pieces pieces' : List Piece}
    (h : List.Forall₂ (Piece.Alike Coord.OneHex) pieces pieces') {cell cell' : Coord}
    (hcell : cell.Same cell') : Agree Eq (anyAliveOn cell pieces) (anyAliveOn cell' pieces') := by
  induction h with
  | nil => exact .ok rfl
  | @cons p _ rest rest' hp _ ih =>
    obtain ⟨position, hnear, rfl⟩ := hp
    unfold anyAliveOn
    cases halive : p.alive with
    | false => simpa [halive] using ih
    | true =>
      simp only [if_true]
      refine (hnear.same.sameHex hcell).bind_eq fun same => ?_
      cases same with
      | true => exact .ok rfl
      | false => exact ih

/-- Pieces are put on the board alike, and refused alike. -/
theorem agree_spawn (h : w.Alike Coord.OneHex w') {new new' : Placement}
    (hnew : new.Alike Coord.OneHex new') :
    Agree (ResultRel (World.Alike Coord.OneHex)) (w.spawn new) (w'.spawn new') := by
  obtain ⟨position, hnear, rfl⟩ := hnew
  have hinside := agree_isOnBoard h hnear.same
  obtain ⟨pieces, checkpoint, hpieces, hcheckpoint, rfl⟩ := h
  have hknown : pieces.any (·.id.answersTo new.id.name) =
      w.pieces.any (·.id.answersTo new.id.name) := by
    have hids : List.Forall₂ Eq (w.pieces.map (·.id)) (pieces.map (·.id)) := by
      refine List.rel_map ?_ hpieces
      exact fun _ _ hp => (hp.reading (·.id) fun _ _ => rfl).symm
    rw [List.forall₂_eq_eq_eq] at hids
    simpa only [List.any_map, Function.comp_def] using
      congrArg (List.any · (·.answersTo new.id.name)) hids.symm
  unfold spawn
  dsimp only
  rw [hknown]
  split
  · exact .ok (.error _)
  refine hinside.bind_eq fun inside => ?_
  cases inside with
  | false => exact .ok (.error _)
  | true =>
    refine (agree_anyAliveOn hpieces hnear.same).bind_eq fun occupied => ?_
    cases occupied with
    | true => exact .ok (.error _)
    | false =>
      refine (Agree.refl _).bind_eq fun opened => ?_
      cases opened with
      | error e => exact .ok (.error _)
      | ok mailboxes =>
        refine .ok (.ok ⟨_, checkpoint, ?_, hcheckpoint, rfl⟩)
        exact List.rel_append hpieces (.cons ⟨position, hnear, rfl⟩ .nil)

/-! ## Commands in order -/

/-- A world and the transcript that led to it, but for triples. -/
def LeftAlike (near : Coord → Coord → Prop) (left left' : World × Transcript) : Prop :=
  left.1.Alike near left'.1 ∧ left.2.Alike near left'.2

/-- Commands that tell events and print nothing leave worlds that are alike. -/
theorem ToldAlike.left {told told' : World × List Event} (h : ToldAlike near told told') :
    LeftAlike near (told.map id .ofEvents) (told'.map id .ofEvents) :=
  ⟨h.1, h.2, rfl⟩

/-- A command does the same in worlds that are alike, as far as neither overflows. -/
theorem agree_apply (h : w.Alike Coord.OneHex w') {c c' : Command} (hc : c.Alike Coord.OneHex c') :
    Agree (LeftAlike Coord.OneHex) (w.apply c) (w'.apply c') := by
  cases hc with
  | @spawnPiece new new' hnew =>
    refine (agree_spawn h hnew).bind fun spawned spawned' hspawned => ?_
    obtain ⟨position, hnear, rfl⟩ := hnew
    cases hspawned with
    | ok hworld => exact .ok ⟨hworld, .cons (.pieceSpawned _ _ hnear) .nil, rfl⟩
    | error reason => exact .ok ⟨h, .cons (.same _ rfl) .nil, rfl⟩
  | same c hother =>
    cases c with
    | spawnPiece new => exact absurd rfl (hother new)
    | configureBoard radius =>
      obtain ⟨pieces, checkpoint, hpieces, hcheckpoint, rfl⟩ := h
      exact .ok ⟨⟨pieces, checkpoint, hpieces, hcheckpoint, rfl⟩, .cons (.same _ rfl) .nil, rfl⟩
    | configureMailboxes capacity =>
      obtain ⟨pieces, checkpoint, hpieces, hcheckpoint, rfl⟩ := h
      exact .ok ⟨⟨pieces, checkpoint, hpieces, hcheckpoint, rfl⟩, .nil, rfl⟩
    | beginTurn piece => exact .ok (alike_beginTurn h piece).left
    | resolveShot attacker target damage =>
      exact .ok (alike_resolveShot h attacker target damage).left
    | endTurn piece => exact .ok (alike_endTurn h piece).left
    | abortTurn piece reason => exact .ok (alike_abortTurn h piece reason)
    | finishRound => exact .ok (alike_finishRound h).left

/-- Commands do the same to worlds that are alike, one after the other. -/
theorem agree_applyAll (h : w.Alike Coord.OneHex w') {commands commands' : List Command}
    (hcommands : List.Forall₂ (Command.Alike Coord.OneHex) commands commands') :
    Agree (LeftAlike Coord.OneHex) (w.applyAll commands) (w'.applyAll commands') := by
  induction hcommands generalizing w w' with
  | nil => exact .ok ⟨h, .nil, rfl⟩
  | cons hc _ ih =>
    unfold applyAll
    refine (agree_apply h hc).bind fun left left' hleft => ?_
    refine (ih hleft.1).bind fun final final' hfinal => .ok ?_
    exact ⟨hfinal.1, hleft.2.append hfinal.2⟩

end World

end HexArena
