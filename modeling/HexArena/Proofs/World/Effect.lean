import HexArena.Proofs.Script.Turn
import HexArena.Proofs.World.Pieces

/-!
# The effects of commands

What each command can do to a world, said once, with the events it leaves.  The
commands may come in any order, so whatever every effect keeps holds of every
world that commands lead to.

Main results:

- Definition {lit}`World.Effect`: what a command can do.
- Theorem {lit}`World.effect_of_apply`: a command does nothing else.
- Theorem {lit}`World.applyAll_induction`: from single commands to all of them.
-/

namespace HexArena

/-- A scout in the middle of the board. -/
def Placement.ada : Placement :=
  ⟨.ada, ⟨"red"⟩, .scout, .origin, 0⟩

/-- A scout of another team beside it. -/
def Placement.bob : Placement :=
  ⟨.bob, ⟨"blue"⟩, .scout, ⟨1, 0, 0⟩, 0⟩

namespace World

variable {w w' : World} {id : PieceId} {command : Command} {t : Transcript}

/-- The world in which a piece has been put on the board and has its mailbox. -/
def joined (w : World) (new : Placement) : World :=
  { w with
    pieces := w.pieces ++ [.spawn new.id new.team new.kind new.position new.rotation]
    mailboxes := ⟨w.mailboxes.boxes ++ [.empty new.id w.mailboxCapacity]⟩ }

/-- The world without its checkpoint. -/
def unsaved (w : World) : World :=
  { w with checkpoint := none }

/-- What a command can do to a world, and the events it leaves. -/
inductive Effect (w : World) : Command → World → List Event → Prop
  | resized (radius : Nat) :
    Effect w (.configureBoard radius) { w with radius := radius } [.boardConfigured radius]
  | provided (capacity : Nat) :
    Effect w (.configureMailboxes capacity) { w with mailboxCapacity := capacity } []
  /-- Nobody answers to the name of the new piece. -/
  | spawned {new : Placement}
    (hfree : ∀ p ∈ w.pieces, p.id.answersTo new.id.name = false) :
    Effect w (.spawnPiece new) (w.joined new) [.pieceSpawned new.id new.team new.position]
  | rejected (new : Placement) (reason : SpawnError) :
    Effect w (.spawnPiece new) w [.pieceSpawnRejected new.id reason]
  | begun {id : PieceId} {piece : Piece} (hpiece : w.piece? id = some piece)
    (hactive : piece.isActive = true) :
    Effect w (.beginTurn id) (w.begun id piece) [.turnStarted id piece.beginTurn.turnsTaken]
  /-- There is no such piece, or it is not active. -/
  | passed (id : PieceId) : Effect w (.beginTurn id) w []
  | struck {attacker target : PieceId} {shooter victim : Piece} (damage : Nat)
    (hshooter : w.piece? attacker = some shooter) (hvictim : w.piece? target = some victim)
    (hactive : victim.isActive = true) :
    Effect w (.resolveShot attacker target damage)
      (w.struck attacker target shooter victim damage) (strike attacker target victim damage)
  | missed (attacker target : PieceId) (damage : Nat) :
    Effect w (.resolveShot attacker target damage) w []
  | ended {id : PieceId} {piece : Piece} (hpiece : w.piece? id = some piece) :
    Effect w (.endTurn id) (w.unsaved.updatePiece id Piece.finishTurn)
      (((w.checkpointOf? id).map (movedSince · piece)).getD [] ++ [.turnEnded id])
  /-- There is no such piece. -/
  | unended {id : PieceId} (hpiece : w.piece? id = none) : Effect w (.endTurn id) w.unsaved []
  | restored {id : PieceId} {saved : Checkpoint} (hsaved : w.checkpointOf? id = some saved)
    (reason : String) :
    Effect w (.abortTurn id reason)
      (w.unsaved.settle id saved.piece.finishTurn saved.mailboxes) [.turnFaulted id reason]
  | unrestored {id : PieceId} (hsaved : w.checkpointOf? id = none) (reason : String) :
    Effect w (.abortTurn id reason) w.unsaved [.turnFaulted id reason]
  | finished : Effect w .finishRound w.finishRound.1 w.finishRound.2

/-- A piece that is put on the board has a new name, and gets an empty mailbox. -/
theorem eq_joined_of_spawn {new : Placement} (h : w.spawn new = .ok (.ok w')) :
    (∀ p ∈ w.pieces, p.id.answersTo new.id.name = false) ∧ w' = w.joined new := by
  unfold spawn at h
  split at h
  · cases h
  rename_i hknown
  obtain ⟨inside, -, h⟩ := bind_eq_ok.mp h
  cases inside with
  | false => cases h
  | true =>
    obtain ⟨occupied, -, h⟩ := bind_eq_ok.mp h
    cases occupied with
    | true => cases h
    | false =>
      obtain ⟨opened, hopened, h⟩ := bind_eq_ok.mp h
      unfold Directory.openBox at hopened
      split at hopened
      · cases hopened
        cases h
      · split at hopened
        · cases hopened
          cases h
          refine ⟨fun p hp => ?_, rfl⟩
          exact eq_false_of_ne_true fun hanswers =>
            hknown (List.any_eq_true.mpr ⟨p, hp, hanswers⟩)
        · cases hopened

/-- Putting a piece on the board has its effect, or is refused. -/
theorem effect_of_spawn {new : Placement} (h : w.apply (.spawnPiece new) = .ok (w', t)) :
    w.Effect (.spawnPiece new) w' t.events := by
  unfold apply at h
  obtain ⟨spawned, hspawned, h⟩ := bind_eq_ok.mp h
  cases spawned with
  | error reason =>
    cases h
    exact .rejected new reason
  | ok joined =>
    cases h
    obtain ⟨hfree, rfl⟩ := eq_joined_of_spawn hspawned
    exact .spawned hfree

/-- Beginning a turn has the effect of the command. -/
theorem effect_of_beginTurn (w : World) (id : PieceId) :
    w.Effect (.beginTurn id) (w.beginTurn id).1 (w.beginTurn id).2 := by
  cases hpiece : w.piece? id with
  | none =>
    rw [beginTurn, hpiece]
    exact .passed id
  | some piece =>
    cases hactive : piece.isActive with
    | true =>
      rw [beginTurn_of_active hpiece hactive]
      exact .begun hpiece hactive
    | false =>
      simp only [beginTurn, hpiece, hactive]
      exact .passed id

/-- Resolving a shot has the effect of the command. -/
theorem effect_of_resolveShot (w : World) (attacker target : PieceId) (damage : Nat) :
    w.Effect (.resolveShot attacker target damage) (w.resolveShot attacker target damage).1
      (w.resolveShot attacker target damage).2 := by
  rcases resolveShot_cases w attacker target damage with
    hnone | ⟨shooter, victim, hshooter, hvictim, hactive, hstruck⟩
  · rw [hnone]
    exact .missed attacker target damage
  · rw [hstruck]
    exact .struck damage hshooter hvictim hactive

/-- Ending a turn has the effect of the command. -/
theorem effect_of_endTurn (w : World) (id : PieceId) :
    w.Effect (.endTurn id) (w.endTurn id).1 (w.endTurn id).2 := by
  cases hpiece : w.piece? id with
  | none =>
    have hnone : w.unsaved.piece? id = none := hpiece
    rw [unsaved] at hnone
    simp only [endTurn, hnone]
    exact .unended hpiece
  | some piece =>
    have hfound : w.unsaved.piece? id = some piece := hpiece
    rw [unsaved] at hfound
    simp only [endTurn, hfound]
    exact .ended hpiece

/-- Aborting a turn has the effect of the command. -/
theorem effect_of_abortTurn (w : World) (id : PieceId) (reason : String) :
    w.Effect (.abortTurn id reason) (w.abortTurn id reason).1 (w.abortTurn id reason).2.events := by
  cases hsaved : w.checkpointOf? id with
  | none =>
    rw [abortTurn, hsaved]
    exact .unrestored hsaved reason
  | some saved =>
    rw [abortTurn, hsaved]
    exact .restored hsaved reason

/-- A command has one of the effects described. -/
theorem effect_of_apply (h : w.apply command = .ok (w', t)) : w.Effect command w' t.events := by
  cases command with
  | configureBoard radius =>
    cases h
    exact .resized radius
  | configureMailboxes capacity =>
    cases h
    exact .provided capacity
  | spawnPiece new => exact effect_of_spawn h
  | beginTurn id =>
    cases h
    exact effect_of_beginTurn w id
  | resolveShot attacker target damage =>
    cases h
    exact effect_of_resolveShot w attacker target damage
  | endTurn id =>
    cases h
    exact effect_of_endTurn w id
  | abortTurn id reason =>
    have haborted : w.abortTurn id reason = (w', t) := Except.ok.inj h
    have heffect := effect_of_abortTurn w id reason
    rw [haborted] at heffect
    exact heffect
  | finishRound =>
    cases h
    exact .finished

/-- What every effect keeps, commands keep in any order, and what holds of the
events of every effect holds of all events. -/
theorem applyAll_induction (kept : World → Prop) (holds : Event → Prop)
    (hstep : ∀ {w command w' events}, kept w → w.Effect command w' events →
      kept w' ∧ ∀ e ∈ events, holds e)
    {commands : List Command} (hw : kept w) (h : w.applyAll commands = .ok (w', t)) :
    kept w' ∧ ∀ e ∈ t.events, holds e := by
  induction commands generalizing w t with
  | nil =>
    cases h
    exact ⟨hw, fun _ he => absurd he List.not_mem_nil⟩
  | cons command rest ih =>
    obtain ⟨mid, first, later, hfirst, hlater, rfl⟩ := applyAll_cons_eq_ok h
    obtain ⟨hmid, hnow⟩ := hstep hw (effect_of_apply hfirst)
    obtain ⟨hw', hthen⟩ := ih hmid hlater
    refine ⟨hw', fun e he => ?_⟩
    rcases List.mem_append.mp he with he | he
    · exact hnow e he
    · exact hthen e he

end World

end HexArena
