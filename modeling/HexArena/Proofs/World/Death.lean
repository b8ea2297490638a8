import HexArena.Proofs.Match.Legal
import HexArena.Proofs.Match.Verdict
import HexArena.Proofs.World.Owners

/-!
# The end of a piece

The end of a round destroys the pieces that were downed.  No command gives life
to a destroyed piece but one that aborts its own turn, if this turn began before
the end of the round and is still open: the checkpoint holds the piece as it was.

Main results:

- Definition {lit}`World.Lacks`: a piece is not to be seen in a world.
- Definition {lit}`World.Gone`: a destroyed piece of which there is no checkpoint.
- Theorem {lit}`World.gone_of_effect`: no command brings it back.
- Theorem {lit}`World.stays_destroyed_iff`: a destroyed piece stays so exactly if
  there is no checkpoint of it.
-/

namespace HexArena.World

variable {w w' : World} {id : PieceId} {command : Command} {events : List Event} {t : Transcript}

/-- The piece is not alive: it is not on the board, it takes no turns, and no team
lives by it. -/
structure Lacks (w : World) (id : PieceId) : Prop where
  alive : w.isAlive id = false
  board : ∀ s ∈ w.boardView.snapshots, s.id ≠ id
  turns : id ∉ w.turnOrder
  teams : ∀ team ∈ w.livingTeams, ∃ p ∈ w.pieces, p.alive = true ∧ p.id ≠ id ∧ p.team = team

/-- The piece is destroyed, and there is no checkpoint of it. -/
structure Gone (w : World) (id : PieceId) : Prop where
  known : id ∈ w.ids
  dead : ∀ p ∈ w.pieces, p.id = id → p.alive = false
  unsaved : w.checkpointOf? id = none

theorem Gone.lacks (h : w.Gone id) : w.Lacks id where
  alive := by
    rw [isAlive, Option.any_eq_false]
    intro p hp
    rw [h.dead p (mem_of_piece? hp) (id_of_piece? hp)]
  board := by
    intro s hs hid
    obtain ⟨p, hp, halive, rfl⟩ := mem_boardView.mp hs
    rw [h.dead p hp hid] at halive
    cases halive
  turns := by
    intro hturn
    obtain ⟨p, hp, hid⟩ := List.mem_map.mp hturn
    obtain ⟨hp, hactive⟩ := List.mem_filter.mp hp
    rw [Piece.isActive, h.dead p hp hid] at hactive
    cases hactive
  teams := by
    intro team hteam
    obtain ⟨p, hp, halive, hteam⟩ := mem_livingTeams.mp hteam
    refine ⟨p, hp, halive, ?_, hteam⟩
    intro hid
    rw [h.dead p hp hid] at halive
    cases halive

/-! ## Checkpoints -/

theorem checkpointOf?_eq_none :
    w.checkpointOf? id = none ↔ ∀ saved, w.checkpoint = some saved → saved.piece.id ≠ id := by
  rw [Option.eq_none_iff_forall_not_mem]
  constructor
  · intro h saved hsaved hid
    exact h saved (checkpointOf?_eq_some.mpr ⟨hsaved, hid⟩)
  · intro h saved hsaved
    obtain ⟨hcheckpoint, hid⟩ := checkpointOf?_eq_some.mp hsaved
    exact h saved hcheckpoint hid

theorem checkpoint_finishRound (w : World) : w.finishRound.1.checkpoint = w.checkpoint := by
  obtain ⟨concluded, last, hfinish, -⟩ := finishRound_cases w
  rw [hfinish]
  rfl

theorem checkpointOf?_finishRound (w : World) (id : PieceId) :
    w.finishRound.1.checkpointOf? id = w.checkpointOf? id := by
  rw [checkpointOf?, checkpoint_finishRound]
  rfl

/-- The piece of a checkpoint was active when its turn began. -/
def SavesActive (w : World) : Prop :=
  ∀ saved, w.checkpoint = some saved → saved.piece.isActive = true

theorem savesActive_of_effect (hw : w.SavesActive) (h : w.Effect command w' events) :
    w'.SavesActive := by
  cases h with
  | resized | provided | rejected | passed | missed | spawned | struck => exact hw
  | begun hpiece hactive =>
    rintro saved ⟨⟩
    exact hactive
  | ended | unended | restored | unrestored => rintro saved ⟨⟩
  | finished =>
    unfold SavesActive
    rw [checkpoint_finishRound]
    exact hw

theorem savesActive_of_applyAll {commands : List Command}
    (h : fresh.applyAll commands = .ok (w, t)) : w.SavesActive := by
  have hfresh : fresh.SavesActive := by
    rintro saved ⟨⟩
  obtain ⟨hw, -⟩ := applyAll_induction SavesActive (fun _ => True)
    (fun hw heffect => ⟨savesActive_of_effect hw heffect, fun _ _ => trivial⟩) hfresh h
  exact hw

/-! ## Destroyed pieces -/

/-- A change of a piece brings nobody back if it does not bring back that piece. -/
theorem Gone.updatePiece (h : w.Gone id) {changed : PieceId} {f : Piece → Piece}
    (hid : ∀ p, p.id = changed → (f p).id = changed)
    (hf : ∀ p ∈ w.pieces, p.id = changed → (f p).id = id → (f p).alive = false) :
    (w.updatePiece changed f).Gone id where
  known := by
    have hids : (w.updatePiece changed f).ids = w.ids := ids_updatePiece hid
    rw [hids]
    exact h.known
  dead := by
    intro p hp hpid
    rcases mem_updateFirst hp with hold | ⟨q, hq, hchanged, rfl⟩
    · exact h.dead p hold hpid
    · exact hf q hq (of_decide_eq_true hchanged) hpid
  unsaved := h.unsaved

/-- A piece that is active is another one. -/
theorem Gone.ne_of_active (h : w.Gone id) {other : PieceId} {piece : Piece}
    (hpiece : w.piece? other = some piece) (hactive : piece.isActive = true) : other ≠ id := by
  rintro rfl
  rw [Piece.isActive, h.dead piece (mem_of_piece? hpiece) (id_of_piece? hpiece)] at hactive
  cases hactive

/-- Another piece is put into a new state. -/
theorem Gone.replacePiece (h : w.Gone id) {other : PieceId} (hne : other ≠ id) {piece : Piece}
    (hid : piece.id = other) : (w.updatePiece other fun _ => piece).Gone id := by
  refine h.updatePiece (fun _ _ => hid) ?_
  intro _ _ _ hpid
  exact absurd (hid.symm.trans hpid) hne

theorem Gone.unsave (h : w.Gone id) : w.unsaved.Gone id :=
  ⟨h.known, h.dead, rfl⟩

/-- A new piece has another name. -/
theorem Gone.joined (h : w.Gone id) {new : Placement}
    (hfree : ∀ p ∈ w.pieces, p.id.answersTo new.id.name = false) : (w.joined new).Gone id where
  known := List.mem_map.mpr <| by
    obtain ⟨p, hp, hid⟩ := List.mem_map.mp h.known
    exact ⟨p, List.mem_append_left _ hp, hid⟩
  dead := by
    intro p hp hid
    rcases List.mem_append.mp hp with hold | hnew
    · exact h.dead p hold hid
    · -- A new piece of that name would have been refused.
      rw [List.mem_singleton.mp hnew] at hid
      obtain ⟨q, hq, hqid⟩ := List.mem_map.mp h.known
      have hanswers : q.id.answersTo new.id.name = true := by
        rw [hqid.trans hid.symm]
        exact Text.same_iff.mpr rfl
      rw [hfree q hq] at hanswers
      cases hanswers
  unsaved := h.unsaved

theorem Gone.begun (h : w.Gone id) {other : PieceId} {piece : Piece}
    (hpiece : w.piece? other = some piece) (hactive : piece.isActive = true) :
    (w.begun other piece).Gone id := by
  have hne := h.ne_of_active hpiece hactive
  have hid : piece.beginTurn.id = other :=
    (Piece.Steady.beginTurn piece).id.trans (id_of_piece? hpiece)
  have hreplaced := h.replacePiece hne hid
  refine ⟨hreplaced.known, hreplaced.dead, checkpointOf?_eq_none.mpr ?_⟩
  rintro saved ⟨⟩
  exact fun hsaved => hne (hid.symm.trans hsaved)

theorem Gone.struck (h : w.Gone id) {attacker target : PieceId} {shooter victim : Piece}
    (damage : Nat) (hvictim : w.piece? target = some victim) (hactive : victim.isActive = true) :
    (w.struck attacker target shooter victim damage).Gone id := by
  have hhurt := h.replacePiece (h.ne_of_active hvictim hactive) (takeDamage_id hvictim damage)
  unfold World.struck
  refine hhurt.updatePiece (fun _ hid => hid) ?_
  intro p hp _ hid
  exact hhurt.dead p hp hid

/-- The checkpoint that is restored is one of another piece. -/
theorem Gone.restored (h : w.Gone id) {other : PieceId} {saved : Checkpoint}
    (hsaved : w.checkpointOf? other = some saved) :
    (w.unsaved.settle other saved.piece.finishTurn saved.mailboxes).Gone id := by
  have hne : other ≠ id := by
    rintro rfl
    rw [h.unsaved] at hsaved
    cases hsaved
  have hid : saved.piece.finishTurn.id = other := (checkpointOf?_eq_some.mp hsaved).2
  have hreplaced := h.unsave.replacePiece hne hid
  exact ⟨hreplaced.known, hreplaced.dead, hreplaced.unsaved⟩

theorem Gone.finishRound (h : w.Gone id) : w.finishRound.1.Gone id where
  known := by
    rw [ids, ids_finishRound]
    exact h.known
  dead := by
    intro p' hp' hid
    obtain ⟨p, hp, rfl⟩ := mem_finishRound hp'
    have hdead := h.dead p hp hid
    simp [Piece.isActive, hdead]
  unsaved := (checkpointOf?_finishRound w id).trans h.unsaved

/-- No command brings a piece back of which there is no checkpoint. -/
theorem gone_of_effect (hw : w.Gone id) (h : w.Effect command w' events) : w'.Gone id := by
  cases h with
  | resized | provided | rejected | passed | missed => exact ⟨hw.known, hw.dead, hw.unsaved⟩
  | spawned hfree => exact hw.joined hfree
  | begun hpiece hactive => exact hw.begun hpiece hactive
  | struck damage hshooter hvictim hactive => exact hw.struck damage hvictim hactive
  | ended hpiece =>
    exact hw.unsave.updatePiece (fun _ hid => hid) fun p hp _ hid => hw.dead p hp hid
  | unended hpiece => exact hw.unsave
  | restored hsaved reason => exact hw.restored hsaved
  | unrestored hsaved reason => exact hw.unsave
  | finished => exact hw.finishRound

/-! ## Reports of destruction -/

/-- The end of a round reports exactly the dying as destroyed. -/
theorem pieceDestroyed_mem_finishRound :
    .pieceDestroyed id ∈ w.finishRound.2 ↔ ∃ p ∈ w.pieces, p.isDying = true ∧ p.id = id := by
  obtain ⟨concluded, last, hfinish, hlast⟩ := finishRound_cases w
  have hverdict : .pieceDestroyed id ∉ last := by
    rcases hlast with rfl | ⟨winner, rfl⟩
    · exact List.not_mem_nil
    · simp
  rw [hfinish]
  simp [deaths, hverdict, and_assoc]

/-- Nothing but a dying piece is reported as destroyed. -/
theorem Effect.exists_dying (h : w.Effect command w' events)
    (hdestroyed : .pieceDestroyed id ∈ events) : ∃ p ∈ w.pieces, p.isDying = true ∧ p.id = id := by
  cases h with
  | finished => exact pieceDestroyed_mem_finishRound.mp hdestroyed
  | resized | provided | spawned | rejected | begun | passed | missed | unended | restored
  | unrestored => simp at hdestroyed
  | struck =>
    unfold strike at hdestroyed
    dsimp only at hdestroyed
    split at hdestroyed
    · simp at hdestroyed
    · simp at hdestroyed
  | @ended other piece hpiece =>
    cases hsaved : w.checkpointOf? other with
    | none => simp [hsaved] at hdestroyed
    | some saved =>
      simp only [hsaved, Option.map_some, Option.getD_some, movedSince] at hdestroyed
      split at hdestroyed
      · simp at hdestroyed
      · simp at hdestroyed

/-- A piece that is gone stays so, whatever commands come, and is not reported as
destroyed again. -/
theorem Gone.applyAll (hw : w.Gone id) {commands : List Command}
    (h : w.applyAll commands = .ok (w', t)) :
    w'.Gone id ∧ ∀ e ∈ t.events, e ≠ .pieceDestroyed id := by
  refine applyAll_induction (·.Gone id) (· ≠ .pieceDestroyed id) ?_ hw h
  intro w command w' events hw heffect
  refine ⟨gone_of_effect hw heffect, ?_⟩
  rintro _ hdestroyed rfl
  obtain ⟨p, hp, hdying, hid⟩ := heffect.exists_dying hdestroyed
  rw [Piece.isDying, hw.dead p hp hid, Bool.and_false] at hdying
  cases hdying

/-! ## Worlds that commands lead to -/

theorem Registered.distinct (hw : w.Registered) : w.Distinct := by
  refine hw.apart.imp ?_
  rintro a _ hapart rfl
  rw [PieceId.answersTo, Text.same_iff.mpr rfl] at hapart
  cases hapart

/-- A piece that the end of a round destroys is still known. -/
theorem mem_ids_of_destroyed (hdestroyed : .pieceDestroyed id ∈ w.finishRound.2) :
    id ∈ w.finishRound.1.ids := by
  obtain ⟨p, hp, -, rfl⟩ := pieceDestroyed_mem_finishRound.mp hdestroyed
  rw [ids, ids_finishRound]
  exact List.mem_map_of_mem hp

/-- A piece that the end of a round destroys is gone if there is no checkpoint of
it. -/
theorem gone_of_destroyed (hw : w.Distinct) (hdestroyed : .pieceDestroyed id ∈ w.finishRound.2)
    (hunsaved : w.checkpointOf? id = none) : w.finishRound.1.Gone id := by
  have hknown := mem_ids_of_destroyed hdestroyed
  obtain ⟨p, hp, hdying, rfl⟩ := pieceDestroyed_mem_finishRound.mp hdestroyed
  have hinactive : p.isActive = false := by
    rw [Piece.isDying, Bool.and_eq_true] at hdying
    rw [Piece.isActive, hdying.1]
    exact Bool.and_false _
  refine ⟨hknown, ?_, ?_⟩
  · intro q' hq' hid
    obtain ⟨q, hq, rfl⟩ := mem_finishRound hq'
    rw [hw.eq_of_id hq hp hid]
    exact hinactive
  · exact (checkpointOf?_finishRound w p.id).trans hunsaved

/-- A piece is alive again when a turn is aborted that began before its end. -/
theorem isAlive_abortTurn (hw : w.SavesActive) (hknown : id ∈ w.ids)
    {saved : Checkpoint} (hsaved : w.checkpointOf? id = some saved) (reason : String) :
    (w.abortTurn id reason).1.isAlive id = true := by
  obtain ⟨hcheckpoint, hid⟩ := checkpointOf?_eq_some.mp hsaved
  have hactive := hw saved hcheckpoint
  obtain ⟨p, hp, hpid⟩ := List.mem_map.mp hknown
  obtain ⟨piece, hpiece⟩ : ∃ piece, w.piece? id = some piece :=
    Option.isSome_iff_exists.mp (List.find?_isSome.mpr ⟨p, hp, decide_eq_true hpid⟩)
  have hrestored : (w.updatePiece id fun _ => saved.piece.finishTurn).piece? id =
      some saved.piece.finishTurn := piece?_updatePiece hpiece hid
  have hfound : (w.abortTurn id reason).1.piece? id = some saved.piece.finishTurn := by
    rw [abortTurn, hsaved]
    exact hrestored
  rw [isAlive, hfound]
  rw [Piece.isActive, Bool.and_eq_true] at hactive
  exact hactive.1

/-- A piece that the end of a round destroys is not seen again, and not destroyed
again, exactly if there is no checkpoint of it. -/
theorem stays_destroyed_iff {commands : List Command} (h : fresh.applyAll commands = .ok (w, t))
    (hdestroyed : .pieceDestroyed id ∈ w.finishRound.2) :
    (∀ later w' t', w.finishRound.1.applyAll later = .ok (w', t') →
        w'.Lacks id ∧ .pieceDestroyed id ∉ t'.events) ↔
      w.checkpointOf? id = none := by
  have hdistinct : w.Distinct := (unserved_of_applyAll registered_fresh h).1.distinct
  constructor
  · intro hstays
    -- Otherwise the piece is back when its turn is aborted next.
    rw [Option.eq_none_iff_forall_ne_some]
    intro saved hsaved
    have hactive : w.SavesActive := savesActive_of_applyAll h
    have hknown := mem_ids_of_destroyed hdestroyed
    have hkept := (checkpointOf?_finishRound w id).trans hsaved
    have halive := isAlive_abortTurn (savesActive_of_effect hactive .finished) hknown hkept ""
    obtain ⟨hlacks, -⟩ := hstays [.abortTurn id ""] _ _ (applyAll_singleton rfl)
    exact Bool.false_ne_true (hlacks.alive.symm.trans halive)
  · intro hunsaved later w' t' hlater
    obtain ⟨hgone, hsilent⟩ := (gone_of_destroyed hdistinct hdestroyed hunsaved).applyAll hlater
    exact ⟨hgone.lacks, fun hagain => hsilent _ hagain rfl⟩

/-- A piece that is destroyed between turns stays so. -/
theorem stays_destroyed_iff_between_turns :
    ∃ w t, fresh.applyAll [.spawnPiece .ada, .spawnPiece .bob, .resolveShot .ada .bob 9] =
        .ok (w, t) ∧
      .pieceDestroyed .bob ∈ w.finishRound.2 ∧
      ∀ later w' t', w.finishRound.1.applyAll later = .ok (w', t') →
        w'.Lacks .bob ∧ .pieceDestroyed .bob ∉ t'.events := by
  have hrun : ∃ w t,
      fresh.applyAll [.spawnPiece .ada, .spawnPiece .bob, .resolveShot .ada .bob 9] = .ok (w, t) ∧
        .pieceDestroyed .bob ∈ w.finishRound.2 ∧ w.checkpointOf? .bob = none :=
    ⟨_, _, rfl, by decide, rfl⟩
  obtain ⟨w, t, hrun, hdestroyed, hunsaved⟩ := hrun
  exact ⟨w, t, hrun, hdestroyed, (stays_destroyed_iff hrun hdestroyed).mpr hunsaved⟩

/-- A piece that is destroyed in its turn is back when the turn is aborted. -/
theorem isAlive_of_destroyed_in_turn :
    ∃ w t, fresh.applyAll
        [.spawnPiece .ada, .spawnPiece .bob, .beginTurn .bob, .resolveShot .ada .bob 9,
          .finishRound, .abortTurn .bob "stack underflow"] = .ok (w, t) ∧
      .pieceDestroyed .bob ∈ t.events ∧ w.isAlive .bob = true ∧ .bob ∈ w.turnOrder :=
  ⟨_, _, rfl, by decide, by decide, by decide⟩

end HexArena.World
