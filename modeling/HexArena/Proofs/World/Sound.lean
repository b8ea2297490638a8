import HexArena.Proofs.Script.Conduct
import HexArena.Proofs.World.Owners

/-!
# Sound pieces

What a piece has lost of its health is what it has taken as damage, and it is downed
exactly when nothing is left.  A world may be given commands in any order, and the
piece it lends out may be operated on and driven by scripts between them; its pieces
stay sound all the same, and so does the one in the checkpoint, which an aborted turn
puts back.

Main results:

- Definition {lit}`Piece.Sound`: the fields of a piece agree with each other.
- Theorem {lit}`Piece.Sound.operate`: every operation on a piece keeps it sound.
- Definition {lit}`World.Act`: a command, or what may be done with a piece that is
  lent out.
- Theorem {lit}`World.acts_induction`: from single acts to all of them.
- Theorem {lit}`World.Sound.act`: every act keeps the pieces of a world sound.
- Theorem {lit}`World.sound_of_acts`: so do any acts, whatever their order.
-/

namespace HexArena

/-! ## Pieces -/

theorem Kind.health_pos (k : Kind) : 0 < k.stats.health := by
  cases k <;> decide

theorem Kind.health_lt (k : Kind) : k.stats.health < maxCount := by
  cases k <;> decide

theorem Direction.index_le (d : Direction) : d.index ≤ 5 := by
  cases d <;> decide

namespace Piece

variable {p p' : Piece}

/-- What may be done with a piece. -/
inductive Operation where
  | beginTurn
  | finishTurn
  | move (spaces : Nat) (d : Direction)
  | shoot
  | rotate (steps : Int)
  | takeDamage (amount : Nat)
  | recordHit (damage : Nat) (defeated : Bool)
  | commitDeath
deriving DecidableEq, Repr

/-- The piece after an operation; what is refused changes nothing. -/
def operate (p : Piece) : Operation → Checked Piece
  | .beginTurn => .ok p.beginTurn
  | .finishTurn => .ok p.finishTurn
  | .move spaces d => do
    match ← p.move spaces d with
    | .ok moved => return moved
    | .error _ => return p
  | .shoot =>
    match p.shoot with
    | .ok (_, spent) => .ok spent
    | .error _ => .ok p
  | .rotate steps => .ok (p.rotate steps)
  | .takeDamage amount => .ok (p.takeDamage amount).2
  | .recordHit damage defeated => .ok (p.recordHit damage defeated)
  | .commitDeath => .ok p.commitDeath

/-- The fields of the piece agree with each other. -/
structure Sound (p : Piece) : Prop where
  stats : p.stats = p.kind.stats
  /-- What is lost of the health was taken as damage. -/
  health : p.health + p.damageTaken = p.stats.health
  deathFlag : p.deathFlag = true ↔ p.health = 0
  /-- Only a downed piece is destroyed. -/
  alive : p.alive = false → p.deathFlag = true
  movement : p.movement ≤ p.stats.movement
  facing : p.facing.index ≤ 5

theorem sound_spawn (id : PieceId) (team : Team) (kind : Kind) (position : Coord) (rotation : Nat) :
    (spawn id team kind position rotation).Sound where
  stats := rfl
  health := rfl
  deathFlag := by
    have hpos := kind.health_pos
    simp only [spawn, Bool.false_eq_true, false_iff]
    omega
  alive := by simp [spawn]
  movement := Nat.le_refl _
  facing := Direction.index_le _

namespace Sound

theorem beginTurn (h : p.Sound) : p.beginTurn.Sound :=
  ⟨h.stats, h.health, h.deathFlag, h.alive, Nat.le_refl _, h.facing⟩

theorem finishTurn (h : p.Sound) : p.finishTurn.Sound :=
  ⟨h.stats, h.health, h.deathFlag, h.alive, h.movement, h.facing⟩

/-- Whatever a piece does in its turn. -/
theorem conduct (h : p.Sound) (hconduct : p.Conduct p') : p'.Sound := by
  have hsame := hconduct.same
  refine ⟨?_, ?_, ?_, ?_, ?_, Direction.index_le _⟩
  · rw [hsame.stats, hsame.kind]
    exact h.stats
  · rw [hsame.health, hsame.damageTaken, hsame.stats]
    exact h.health
  · rw [hsame.deathFlag, hsame.health]
    exact h.deathFlag
  · rw [hsame.alive, hsame.deathFlag]
    exact h.alive
  · rw [hsame.stats]
    exact Nat.le_trans hconduct.movement_le h.movement

/-- The damage counter does not stop before the health is used up. -/
theorem takeDamage (h : p.Sound) (amount : Nat) : (p.takeDamage amount).2.Sound := by
  by_cases hactive : p.isActive = true
  · obtain ⟨halive, hflag⟩ : p.alive = true ∧ p.deathFlag = false := by
      simpa [isActive] using hactive
    have hcount : p.health + p.damageTaken < maxCount := by
      rw [h.health, h.stats]
      exact p.kind.health_lt
    have htotal := h.health
    simp only [Piece.takeDamage, hactive, if_true]
    refine ⟨h.stats, ?_, ?_, ?_, h.movement, h.facing⟩
    · simp only [addCount]
      omega
    · simp [hflag]
    · simp [halive]
  · simp only [Piece.takeDamage, hactive]
    exact h

theorem recordHit (h : p.Sound) (damage : Nat) (defeated : Bool) :
    (p.recordHit damage defeated).Sound :=
  ⟨h.stats, h.health, h.deathFlag, h.alive, h.movement, h.facing⟩

/-- Only a downed piece dies. -/
theorem commitDeath (h : p.Sound) : p.commitDeath.Sound := by
  rw [commitDeath_eq]
  refine ⟨h.stats, h.health, h.deathFlag, ?_, h.movement, h.facing⟩
  intro hinactive
  by_cases halive : p.alive = true
  · simpa [isActive, halive] using hinactive
  · exact h.alive (eq_false_of_ne_true halive)

/-- Every operation keeps a piece sound. -/
theorem operate (h : p.Sound) {operation : Operation} (hp' : p.operate operation = .ok p') :
    p'.Sound := by
  cases operation with
  | beginTurn =>
    cases hp'
    exact h.beginTurn
  | finishTurn =>
    cases hp'
    exact h.finishTurn
  | move spaces d =>
    obtain ⟨result, hmove, hresult⟩ := bind_eq_ok.mp hp'
    cases result with
    | error refusal =>
      cases hresult
      exact h
    | ok moved =>
      cases hresult
      exact h.conduct (.move hmove)
  | shoot =>
    simp only [Piece.operate] at hp'
    split at hp'
    · rename_i damage spent hshoot
      cases hp'
      exact h.conduct (Conduct.shoot hshoot).1
    · cases hp'
      exact h
  | rotate steps =>
    cases hp'
    exact h.conduct (.rotate p steps)
  | takeDamage amount =>
    cases hp'
    exact h.takeDamage amount
  | recordHit damage defeated =>
    cases hp'
    exact h.recordHit damage defeated
  | commitDeath =>
    cases hp'
    exact h.commitDeath

end Sound

end Piece

/-! ## Worlds -/

namespace World

variable {w w' : World} {id : PieceId} {command : Command} {events : List Event}

/-- What may be done to a world: it is given a command, or the piece with an identifier
is lent out, to be operated on or to be driven by a script, whatever board the script
is shown and whatever is queued before it.  The mailboxes that are lent out with the
piece may be left in any state. -/
inductive Act where
  | command (command : Command)
  | post (mailboxes : Directory)
  | operate (id : PieceId) (operation : Piece.Operation)
  | drive (id : PieceId) (interpreter : Script.Interpreter) (script : String) (board : Board)
      (queued : List Command)
deriving DecidableEq, Repr

/-- The world after an act; nothing is done with a piece that does not exist. -/
def act (w : World) : Act → Checked World
  | .command command => do
    let (w, _) ← w.apply command
    return w
  | .post mailboxes => .ok { w with mailboxes := mailboxes }
  | .operate id operation =>
    match w.piece? id with
    | none => .ok w
    | some piece => do
      let piece ← piece.operate operation
      return w.updatePiece id fun _ => piece
  | .drive id interpreter script board queued =>
    match w.piece? id with
    | none => .ok w
    | some piece => do
      let report ← interpreter.runTurn script ⟨piece, board, w.mailboxes⟩ queued
      return w.settle id report.piece report.mailboxes

/-- What every one of some acts keeps, they keep in order. -/
theorem acts_induction {kept : World → Prop} {acts : List Act}
    (hstep : ∀ a ∈ acts, ∀ w w', kept w → w.act a = .ok w' → kept w') (hw : kept w)
    (h : acts.foldlM act w = .ok w') : kept w' := by
  induction acts generalizing w with
  | nil =>
    cases h
    exact hw
  | cons a rest ih =>
    rw [List.foldlM_cons] at h
    obtain ⟨mid, hfirst, hrest⟩ := bind_eq_ok.mp h
    have hmid := hstep a List.mem_cons_self w mid hw hfirst
    exact ih (fun b hb => hstep b (List.mem_cons_of_mem a hb)) hmid hrest

/-- The pieces of the world are sound, and so is the one in the checkpoint. -/
structure Sound (w : World) : Prop where
  pieces : ∀ p ∈ w.pieces, p.Sound
  saved : ∀ saved, w.checkpoint = some saved → saved.piece.Sound

theorem sound_fresh : fresh.Sound := by
  refine ⟨?_, ?_⟩
  · intro p hp
    cases hp
  · rintro saved ⟨⟩

namespace Sound

theorem piece (h : w.Sound) {piece : Piece} (hpiece : w.piece? id = some piece) : piece.Sound :=
  h.pieces piece (mem_of_piece? hpiece)

theorem unsaved (h : w.Sound) : w.unsaved.Sound := by
  refine ⟨h.pieces, ?_⟩
  rintro saved ⟨⟩

/-- A change that keeps pieces sound. -/
theorem updatePiece (h : w.Sound) {f : Piece → Piece} (hf : ∀ p, p.Sound → (f p).Sound) :
    (w.updatePiece id f).Sound := by
  refine ⟨?_, h.saved⟩
  intro p hp
  rcases mem_updateFirst hp with hold | ⟨q, hq, -, rfl⟩
  · exact h.pieces p hold
  · exact hf q (h.pieces q hq)

/-- A sound piece is put in place of the old one, whatever is left in the mailboxes. -/
theorem settle (h : w.Sound) {new : Piece} (hnew : new.Sound) (mailboxes : Directory) :
    (w.settle id new mailboxes).Sound := by
  have hupdated : (w.updatePiece id fun _ => new).Sound := h.updatePiece fun _ _ => hnew
  exact ⟨hupdated.pieces, hupdated.saved⟩

theorem joined (h : w.Sound) (new : Placement) : (w.joined new).Sound := by
  refine ⟨?_, h.saved⟩
  intro p hp
  rcases List.mem_append.mp hp with hold | hnew
  · exact h.pieces p hold
  · rw [List.mem_singleton.mp hnew]
    exact Piece.sound_spawn _ _ _ _ _

/-- The piece is sound when its turn begins, so the checkpoint is. -/
theorem begun (h : w.Sound) {piece : Piece} (hpiece : w.piece? id = some piece) :
    (w.begun id piece).Sound := by
  have hbegun := (h.piece hpiece).beginTurn
  refine ⟨(h.updatePiece fun _ _ => hbegun).pieces, ?_⟩
  rintro saved ⟨⟩
  exact hbegun

theorem struck (h : w.Sound) {attacker target : PieceId} {shooter victim : Piece}
    (hvictim : w.piece? target = some victim) (damage : Nat) :
    (w.struck attacker target shooter victim damage).Sound := by
  have hhurt := (h.piece hvictim).takeDamage damage
  unfold World.struck
  exact (h.updatePiece fun _ _ => hhurt).updatePiece fun p hp => hp.recordHit _ _

/-- An aborted turn puts back a piece that is sound. -/
theorem restored (h : w.Sound) {saved : Checkpoint} (hsaved : w.checkpointOf? id = some saved) :
    (w.unsaved.settle id saved.piece.finishTurn saved.mailboxes).Sound := by
  have hcheckpoint : w.checkpoint = some saved := (checkpointOf?_eq_some.mp hsaved).1
  have hpiece : saved.piece.finishTurn.Sound := (h.saved saved hcheckpoint).finishTurn
  exact h.unsaved.settle hpiece saved.mailboxes

theorem finishRound (h : w.Sound) : w.finishRound.1.Sound := by
  obtain ⟨concluded, last, hfinish, -⟩ := finishRound_cases w
  rw [hfinish]
  refine ⟨?_, h.saved⟩
  intro p' hp'
  obtain ⟨p, hp, rfl⟩ := List.mem_map.mp hp'
  exact (h.pieces p hp).commitDeath

/-- Every command keeps the pieces sound. -/
theorem effect (h : w.Sound) (heffect : w.Effect command w' events) : w'.Sound := by
  cases heffect with
  | resized | provided | rejected | passed | missed => exact ⟨h.pieces, h.saved⟩
  | spawned hfree => exact h.joined _
  | begun hpiece hactive => exact h.begun hpiece
  | struck damage hshooter hvictim hactive => exact h.struck hvictim damage
  | ended hpiece => exact h.unsaved.updatePiece fun _ hp => hp.finishTurn
  | unended hpiece => exact h.unsaved
  | restored hsaved reason => exact h.restored hsaved
  | unrestored hsaved reason => exact h.unsaved
  | finished => exact h.finishRound

/-- Every act keeps the pieces sound. -/
theorem act (h : w.Sound) {a : Act} (ha : w.act a = .ok w') : w'.Sound := by
  cases a with
  | command command =>
    obtain ⟨⟨left, t⟩, happly, hleft⟩ := bind_eq_ok.mp ha
    cases hleft
    exact h.effect (effect_of_apply happly)
  | post mailboxes =>
    cases ha
    exact ⟨h.pieces, h.saved⟩
  | operate id operation =>
    simp only [World.act] at ha
    split at ha
    · cases ha
      exact h
    · rename_i piece hpiece
      obtain ⟨left, hoperate, hleft⟩ := bind_eq_ok.mp ha
      cases hleft
      exact h.updatePiece fun _ _ => (h.piece hpiece).operate hoperate
  | drive id interpreter script board queued =>
    simp only [World.act] at ha
    split at ha
    · cases ha
      exact h
    · rename_i piece hpiece
      obtain ⟨report, hturn, hleft⟩ := bind_eq_ok.mp ha
      cases hleft
      obtain ⟨m, hconduct, hreports⟩ := Script.Interpreter.runTurn_conduct hturn
      have hpiece : report.piece.Sound := by
        rw [hreports.piece]
        exact (h.piece hpiece).conduct hconduct.piece
      exact h.settle hpiece report.mailboxes

/-- Acts keep the pieces sound in any order. -/
theorem acts {acts : List Act} (h : w.Sound) (hacts : acts.foldlM World.act w = .ok w') :
    w'.Sound :=
  acts_induction (fun _ _ _ _ hw ha => hw.act ha) h hacts

end Sound

/-- Whatever commands a world is given and whatever is done between them with the
pieces it lends out, its pieces are sound, and so is the one in the checkpoint. -/
theorem sound_of_acts {acts : List Act} (h : acts.foldlM act fresh = .ok w) : w.Sound := by
  apply sound_fresh.acts h

/-- The first piece moves by a script, is hit in its turn and hits the second harder
than that can bear; then its turn is aborted. -/
def brokenTurn : List Act :=
  [.command (.spawnPiece .ada), .command (.spawnPiece .bob), .command (.beginTurn .ada),
    .drive .ada (.fresh .ada .default) "1 0 move 2 turn" ⟨4, []⟩ [], .operate .ada (.takeDamage 1),
    .command (.resolveShot .ada .bob 9), .command .finishRound,
    .command (.abortTurn .ada "stack underflow")]

/-- The aborted turn takes back the damage with the health. -/
theorem sound_of_acts_brokenTurn :
    ∃ w, brokenTurn.foldlM act fresh = .ok w ∧
      w.pieces.map (fun p => (p.health, p.damageTaken, p.deathFlag, p.alive)) =
        [(2, 0, false, true), (0, 2, true, false)] ∧
      w.Sound := by
  have hrun : ∃ w, brokenTurn.foldlM act fresh = .ok w ∧
      w.pieces.map (fun p => (p.health, p.damageTaken, p.deathFlag, p.alive)) =
        [(2, 0, false, true), (0, 2, true, false)] :=
    ⟨_, rfl, by decide⟩
  obtain ⟨w, hrun, hpieces⟩ := hrun
  exact ⟨w, hrun, hpieces, sound_of_acts hrun⟩

end World

end HexArena
