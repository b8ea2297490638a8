import HexArena.Proofs.Script.Conduct
import HexArena.Proofs.World.Tally

/-!
# Accounts of events

What happens to the pieces of a world is told by its events: the health a piece
has lost, the hits it is credited with, its turns, and its end.  A counter that
has stopped growing tells less, so it is followed only as long as it has not.

Main results:

- Definition {lit}`Piece.Counts`: a piece has become another one as a tally
  tells.
- Definition {lit}`World.Accounts`: events tell what has become of every piece of
  a world.
- Theorems {lit}`World.accounts_begun`, {lit}`World.accounts_resolveShot`,
  {lit}`World.accounts_endTurn` and {lit}`World.accounts_finishRound`: the events
  of a turn and of the end of a round do.
-/

namespace HexArena

/-- A counter that has not stopped has counted everything. -/
theorem addCount_lt {a b : Nat} (h : addCount a b < maxCount) :
    addCount a b = a + b ∧ a < maxCount := by
  unfold addCount at h ⊢
  omega

/-! ## Pieces -/

/-- A piece has become another one as a tally tells; {lit}`teamOf` names the
teams of its victims. -/
structure Piece.Counts (teamOf : PieceId → Option Team) (p : Piece) (t : Tally) (p' : Piece) :
    Prop where
  id : p'.id = p.id
  team : p'.team = p.team
  kind : p'.kind = p.kind
  health : p'.health + t.damageTaken = p.health
  damageTaken : p'.damageTaken < maxCount → p'.damageTaken = p.damageTaken + t.damageTaken
  damageDealt : p'.damageDealt < maxCount → p'.damageDealt = p.damageDealt + t.damageDealt
  enemiesDefeated : p'.enemiesDefeated < maxCount →
    p'.enemiesDefeated = p.enemiesDefeated + t.victims.countP fun v => teamOf v ≠ some p.team
  /-- The turns are numbered. -/
  turns : p'.turnsTaken < maxCount →
    p'.turnsTaken = p.turnsTaken + t.turns.length ∧
      t.turns = List.range' (p.turnsTaken + 1) t.turns.length
  downed : (!p'.isActive) = (!p.isActive || t.downed)
  destroyed : (!p'.alive) = (!p.alive || t.destroyed)

namespace Piece.Counts

variable {teamOf : PieceId → Option Team} {p p' p'' : Piece} {t t' : Tally}

/-- A piece stays as it is as long as nothing is told but moves. -/
theorem quiet (ht : t.Quiet) : p.Counts teamOf t p := by
  rw [ht]
  exact {
    id := rfl
    team := rfl
    kind := rfl
    health := rfl
    damageTaken := fun _ => rfl
    damageDealt := fun _ => rfl
    enemiesDefeated := fun _ => rfl
    turns := fun _ => ⟨rfl, rfl⟩
    downed := (Bool.or_false _).symm
    destroyed := (Bool.or_false _).symm }

theorem trans (h : p.Counts teamOf t p') (h' : p'.Counts teamOf t' p'') :
    p.Counts teamOf (t ++ t') p'' where
  id := h'.id.trans h.id
  team := h'.team.trans h.team
  kind := h'.kind.trans h.kind
  health := by
    have hfirst := h.health
    have hlater := h'.health
    rw [Tally.append_damageTaken]
    omega
  damageTaken := by
    intro hlt
    have hlater := h'.damageTaken hlt
    have hfirst := h.damageTaken (by omega)
    rw [Tally.append_damageTaken]
    omega
  damageDealt := by
    intro hlt
    have hlater := h'.damageDealt hlt
    have hfirst := h.damageDealt (by omega)
    rw [Tally.append_damageDealt]
    omega
  enemiesDefeated := by
    intro hlt
    have hlater := h'.enemiesDefeated hlt
    have hfirst := h.enemiesDefeated (by omega)
    rw [h.team] at hlater
    rw [Tally.append_victims, List.countP_append]
    omega
  turns := by
    intro hlt
    obtain ⟨hcount, hnumbers⟩ := h'.turns hlt
    obtain ⟨hcount', hnumbers'⟩ := h.turns (by omega)
    rw [Tally.append_turns, List.length_append]
    refine ⟨by omega, ?_⟩
    rw [hcount', Nat.add_right_comm] at hnumbers
    rw [← List.range'_append_1, ← hnumbers, ← hnumbers']
  downed := by
    rw [h'.downed, h.downed, Tally.append_downed, Bool.or_assoc]
  destroyed := by
    rw [h'.destroyed, h.destroyed, Tally.append_destroyed, Bool.or_assoc]

/-- What a script does with its piece is not told before the turn ends. -/
theorem same (h : p.Counts teamOf t p') (hsame : p'.Same p'') : p.Counts teamOf t p'' where
  id := hsame.id.trans h.id
  team := hsame.team.trans h.team
  kind := hsame.kind.trans h.kind
  health := hsame.health ▸ h.health
  damageTaken := hsame.damageTaken ▸ h.damageTaken
  damageDealt := hsame.damageDealt ▸ h.damageDealt
  enemiesDefeated := hsame.enemiesDefeated ▸ h.enemiesDefeated
  turns := hsame.turnsTaken ▸ h.turns
  downed := by
    have hactive : p''.isActive = p'.isActive := by
      unfold isActive
      rw [hsame.alive, hsame.deathFlag]
    rw [hactive]
    exact h.downed
  destroyed := hsame.alive ▸ h.destroyed

theorem finishTurn (h : p.Counts teamOf t p') : p.Counts teamOf t p'.finishTurn where
  id := h.id
  team := h.team
  kind := h.kind
  health := h.health
  damageTaken := h.damageTaken
  damageDealt := h.damageDealt
  enemiesDefeated := h.enemiesDefeated
  turns := h.turns
  downed := h.downed
  destroyed := h.destroyed

/-- A turn that is begun is counted. -/
theorem beginTurn (p : Piece) :
    p.Counts teamOf { Tally.empty with turns := [p.beginTurn.turnsTaken] } p.beginTurn where
  id := rfl
  team := rfl
  kind := rfl
  health := rfl
  damageTaken := fun _ => rfl
  damageDealt := fun _ => rfl
  enemiesDefeated := fun _ => rfl
  turns := by
    intro hlt
    have hcount : p.beginTurn.turnsTaken = p.turnsTaken + 1 := (addCount_lt hlt).1
    rw [hcount]
    exact ⟨rfl, rfl⟩
  downed := (Bool.or_false _).symm
  destroyed := (Bool.or_false _).symm

/-- A hit is told as it hurts. -/
theorem takeDamage (hactive : p.isActive = true) (amount : Nat) :
    p.Counts teamOf
      { Tally.empty with
        damageTaken := (p.takeDamage amount).1.applied
        downed := (p.takeDamage amount).1.downed }
      (p.takeDamage amount).2 := by
  obtain ⟨halive, hflag⟩ := Bool.and_eq_true_iff.mp hactive
  have hflag : p.deathFlag = false := by simpa using hflag
  simp only [Piece.takeDamage, hactive, if_true]
  exact {
    id := rfl
    team := rfl
    kind := rfl
    health := by
      dsimp only
      omega
    damageTaken := fun hlt => (addCount_lt hlt).1
    damageDealt := fun _ => rfl
    enemiesDefeated := fun _ => rfl
    turns := fun _ => ⟨rfl, rfl⟩
    downed := by
      simp [isActive, halive, hflag]
    destroyed := (Bool.or_false _).symm }

/-- A hit is credited as it is told. -/
theorem recordHit (p : Piece) (damage : Nat) {target : PieceId} {team : Team}
    (hteam : teamOf target = some team) (downed : Bool) :
    p.Counts teamOf
      { Tally.empty with
        damageDealt := damage
        victims := if downed then [target] else [] }
      (p.recordHit damage (downed && decide (team ≠ p.team))) where
  id := rfl
  team := rfl
  kind := rfl
  health := rfl
  damageTaken := fun _ => rfl
  damageDealt := fun hlt => (addCount_lt hlt).1
  enemiesDefeated := by
    unfold Piece.recordHit
    dsimp only
    intro hlt
    cases downed with
    | false => rfl
    | true =>
      by_cases hsame : team = p.team
      · simp [hsame, hteam]
      · simp only [hsame, Bool.true_and, ne_eq, not_false_eq_true, decide_true, if_true] at hlt ⊢
        rw [(addCount_lt hlt).1]
        simp [hteam, hsame]
  turns := fun _ => ⟨rfl, rfl⟩
  downed := (Bool.or_false _).symm
  destroyed := (Bool.or_false _).symm

/-- A piece that is dying is destroyed when the round ends. -/
theorem commitDeath (p : Piece) :
    p.Counts teamOf { Tally.empty with destroyed := p.isDying } { p with alive := p.isActive } where
  id := rfl
  team := rfl
  kind := rfl
  health := rfl
  damageTaken := fun _ => rfl
  damageDealt := fun _ => rfl
  enemiesDefeated := fun _ => rfl
  turns := fun _ => ⟨rfl, rfl⟩
  downed := by
    unfold isActive
    cases p.alive <;> cases p.deathFlag <;> rfl
  destroyed := by
    unfold isActive isDying
    cases p.alive <;> cases p.deathFlag <;> rfl

end Piece.Counts

/-! ## Worlds -/

namespace World

variable {teamOf : PieceId → Option Team} {w w' w'' : World} {id : PieceId} {piece : Piece}
  {events later : List Event}

/-- The events tell what has become of every piece, and put no further piece on
the board. -/
structure Accounts (teamOf : PieceId → Option Team) (w : World) (events : List Event)
    (w' : World) : Prop where
  ids : w'.pieces.map (·.id) = w.pieces.map (·.id)
  entries : ∀ id, (tally id events).entry = none
  pieces : ∀ p' ∈ w'.pieces, ∃ p ∈ w.pieces, p.Counts teamOf (tally p'.id events) p'

/-- Every piece is of the team it is known by. -/
def Teamed (teamOf : PieceId → Option Team) (w : World) : Prop :=
  ∀ p ∈ w.pieces, teamOf p.id = some p.team

namespace Accounts

theorem refl (w : World) : w.Accounts teamOf [] w :=
  ⟨rfl, fun _ => rfl, fun p hp => ⟨p, hp, .quiet rfl⟩⟩

theorem trans (h : w.Accounts teamOf events w') (h' : w'.Accounts teamOf later w'') :
    w.Accounts teamOf (events ++ later) w'' where
  ids := h'.ids.trans h.ids
  entries := by
    intro id
    rw [tally_append, Tally.append_entry, h.entries, h'.entries]
    rfl
  pieces := by
    intro p'' hp''
    obtain ⟨p', hp', hlater⟩ := h'.pieces p'' hp''
    obtain ⟨p, hp, hfirst⟩ := h.pieces p' hp'
    rw [← hlater.id] at hfirst
    rw [tally_append]
    exact ⟨p, hp, hfirst.trans hlater⟩

theorem distinct (h : w.Accounts teamOf events w') (hw : w.Distinct) : w'.Distinct :=
  hw.of_ids h.ids

theorem teamed (h : w.Accounts teamOf events w') (hw : w.Teamed teamOf) : w'.Teamed teamOf := by
  intro p' hp'
  obtain ⟨p, hp, hcounts⟩ := h.pieces p' hp'
  rw [hcounts.id, hcounts.team]
  exact hw p hp

/-- Events that tell of one piece tell what has become of a world in which that
piece alone has changed. -/
theorem updatePiece (hw : w.Distinct) {f : Piece → Piece}
    (hkeeps : ∀ p, p.id = id → (f p).id = id) (hentries : ∀ x, (tally x events).entry = none)
    (hothers : ∀ x, x ≠ id → (tally x events).Quiet)
    (hself : ∀ p, w.piece? id = some p → p.Counts teamOf (tally id events) (f p)) :
    w.Accounts teamOf events (w.updatePiece id f) where
  ids := ids_updatePiece hkeeps
  entries := hentries
  pieces := by
    intro p' hp'
    rcases mem_updatePiece hw hp' with ⟨hmem, hne⟩ | ⟨p, hfound, rfl⟩
    · exact ⟨p', hmem, .quiet (hothers p'.id hne)⟩
    · rw [hkeeps p (id_of_piece? hfound)]
      exact ⟨p, mem_of_piece? hfound, hself p hfound⟩

theorem replacePiece (hw : w.Distinct) (hpiece : w.piece? id = some piece) {new : Piece}
    (hentries : ∀ x, (tally x events).entry = none)
    (hothers : ∀ x, x ≠ id → (tally x events).Quiet)
    (hself : piece.Counts teamOf (tally id events) new) :
    w.Accounts teamOf events (w.updatePiece id fun _ => new) := by
  refine .updatePiece hw (fun _ _ => hself.id.trans (id_of_piece? hpiece)) hentries hothers
    fun p hp => ?_
  rw [hpiece] at hp
  cases hp
  exact hself

end Accounts

/-! ## Turns and rounds -/

theorem tally_turnStarted_quiet {x : PieceId} (hne : x ≠ id) (turn : Nat) :
    (tally x [.turnStarted id turn]).Quiet := by
  rw [tally_turnStarted, if_neg hne.symm]
  rfl

theorem counts_turnStarted (piece : Piece) :
    piece.Counts teamOf (tally id [.turnStarted id piece.beginTurn.turnsTaken])
      piece.beginTurn := by
  rw [tally_turnStarted, if_pos rfl]
  exact .beginTurn piece

/-- The start of a turn is told. -/
theorem accounts_begun (hw : w.Distinct) (hpiece : w.piece? id = some piece) :
    w.Accounts teamOf [.turnStarted id piece.beginTurn.turnsTaken] (w.begun id piece) := by
  have hupdated : w.Accounts teamOf [.turnStarted id piece.beginTurn.turnsTaken] _ :=
    .replacePiece hw hpiece (fun _ => rfl) (fun x hne => tally_turnStarted_quiet hne _)
      (counts_turnStarted piece)
  exact ⟨hupdated.ids, hupdated.entries, hupdated.pieces⟩

/-- A turn without effect is told as a turn. -/
theorem accounts_rested (hw : w.Distinct) (hpiece : w.piece? id = some piece) (reason : String) :
    w.Accounts teamOf [.turnStarted id piece.beginTurn.turnsTaken, .turnFaulted id reason]
      (w.rested id piece) := by
  have htally : ∀ x, tally x [.turnStarted id piece.beginTurn.turnsTaken, .turnFaulted id reason] =
      tally x [.turnStarted id piece.beginTurn.turnsTaken] := by
    intro x
    rw [tally_cons]
    exact Tally.append_empty _
  have hupdated : w.Accounts teamOf
      [.turnStarted id piece.beginTurn.turnsTaken, .turnFaulted id reason]
      (w.updatePiece id fun _ => piece.beginTurn.finishTurn) := by
    refine .replacePiece hw hpiece (fun _ => rfl) (fun x hne => ?_) ?_
    · rw [htally]
      exact tally_turnStarted_quiet hne _
    · rw [htally]
      exact (counts_turnStarted piece).finishTurn
  exact ⟨hupdated.ids, hupdated.entries, hupdated.pieces⟩

/-- What a script does with its piece is not told. -/
theorem accounts_settle (hw : w.Distinct) (hpiece : w.piece? id = some piece) {left : Piece}
    (hsame : piece.Same left) (mailboxes : Directory) :
    w.Accounts teamOf [] (w.settle id left mailboxes) := by
  have hempty : (tally id []).Quiet := rfl
  have hupdated : w.Accounts teamOf [] (w.updatePiece id fun _ => left) :=
    .replacePiece hw hpiece (fun _ => rfl) (fun _ _ => rfl)
      ((Piece.Counts.quiet hempty).same hsame)
  exact ⟨hupdated.ids, hupdated.entries, hupdated.pieces⟩

/-! ### Shots -/

section Shots

variable {attacker target : PieceId} {shooter victim : Piece} {damage : Nat}

/-- A piece of the struck world is a bystander, the victim or the shooter. -/
theorem mem_struck (hw : w.Distinct) (hshooter : w.piece? attacker = some shooter)
    (hvictim : w.piece? target = some victim) (hother : target ≠ attacker) {p' : Piece}
    (hp' : p' ∈ (w.struck attacker target shooter victim damage).pieces) :
    p' ∈ w.pieces ∧ p'.id ≠ target ∧ p'.id ≠ attacker ∨
      p' = (victim.takeDamage damage).2 ∨
      p' = shooter.recordHit (victim.takeDamage damage).1.applied
        ((victim.takeDamage damage).1.downed && decide (victim.team ≠ shooter.team)) := by
  have hhurt := takeDamage_id hvictim damage
  have hdistinct : (w.updatePiece target fun _ => (victim.takeDamage damage).2).Distinct :=
    hw.of_ids (ids_updatePiece fun _ _ => hhurt)
  rcases mem_updatePiece hdistinct hp' with ⟨hmem, hne⟩ | ⟨p, hfound, rfl⟩
  · rcases mem_updatePiece hw hmem with ⟨hmem, hne'⟩ | ⟨-, -, rfl⟩
    · exact Or.inl ⟨hmem, hne', hne⟩
    · exact Or.inr (Or.inl rfl)
  · rw [piece?_updatePiece_ne hother.symm fun _ _ => hhurt, hshooter] at hfound
    cases hfound
    exact Or.inr (Or.inr rfl)

/-- What the events of a shot tell. -/
theorem tally_strike (attacker target x : PieceId) (victim : Piece) (damage : Nat) :
    tally x (strike attacker target victim damage) =
      { Tally.empty with
        damageTaken := if target = x then (victim.takeDamage damage).1.applied else 0
        damageDealt := if attacker = x then (victim.takeDamage damage).1.applied else 0
        victims :=
          if (victim.takeDamage damage).1.downed then if attacker = x then [target] else [] else []
        downed := (victim.takeDamage damage).1.downed && decide (target = x) } := by
  unfold strike
  dsimp only
  rw [tally_cons, tally_shotResolved]
  cases (victim.takeDamage damage).1.downed with
  | false => exact Tally.append_empty _
  | true =>
    rw [if_pos rfl, tally_pieceDowned]
    ext1 <;> simp [Tally.empty]

/-- A shot at somebody else is told. -/
theorem accounts_resolveShot (hw : w.Distinct) (hteamed : w.Teamed teamOf)
    (hother : target ≠ attacker) (damage : Nat) :
    w.Accounts teamOf (w.resolveShot attacker target damage).2
      (w.resolveShot attacker target damage).1 := by
  rcases resolveShot_cases w attacker target damage with
    hnone | ⟨shooter, victim, hshooter, hvictim, hactive, hstruck⟩
  · rw [hnone]
    exact .refl w
  · have hids := (steady_resolveShot hw attacker target damage).ids
    rw [hstruck] at hids ⊢
    refine ⟨hids, ?_, ?_⟩
    · intro x
      rw [tally_strike]
      rfl
    · intro p' hp'
      rcases mem_struck hw hshooter hvictim hother hp' with ⟨hmem, hne, hne'⟩ | rfl | rfl
      · refine ⟨p', hmem, .quiet ?_⟩
        rw [tally_strike, if_neg hne.symm, if_neg hne'.symm, if_neg hne'.symm,
          decide_eq_false hne.symm]
        simp [Tally.Quiet, Tally.empty]
      · refine ⟨victim, mem_of_piece? hvictim, ?_⟩
        have hcounts : victim.Counts teamOf _ _ := .takeDamage hactive damage
        rw [takeDamage_id hvictim, tally_strike, if_pos rfl, if_neg hother.symm, if_neg hother.symm]
        simpa [Tally.empty] using hcounts
      · refine ⟨shooter, mem_of_piece? hshooter, ?_⟩
        have hteam := hteamed victim (mem_of_piece? hvictim)
        rw [id_of_piece? hvictim] at hteam
        have hcounts := Piece.Counts.recordHit shooter (victim.takeDamage damage).1.applied hteam
          (victim.takeDamage damage).1.downed
        rw [hcounts.id, id_of_piece? hshooter, tally_strike, if_neg hother, if_pos rfl, if_pos rfl]
        simpa [Tally.empty, hother] using hcounts

end Shots

/-! ### Ends of turns and rounds -/

/-- The end of a turn changes nothing that is told. -/
theorem accounts_endTurn (hw : w.Distinct) (id : PieceId) :
    w.Accounts teamOf (w.endTurn id).2 (w.endTurn id).1 := by
  unfold endTurn
  dsimp only
  split
  · exact ⟨rfl, fun _ => rfl, fun p hp => ⟨p, hp, .quiet rfl⟩⟩
  · rename_i piece hpiece
    have hquiet : ∀ x, (tally x
        (((w.checkpointOf? id).map (movedSince · piece)).getD [] ++ [.turnEnded id])).Quiet := by
      intro x
      cases w.checkpointOf? id with
      | none => rfl
      | some saved => exact quiet_movedSince saved piece id
    have hupdated : w.Accounts teamOf
        (((w.checkpointOf? id).map (movedSince · piece)).getD [] ++ [.turnEnded id])
        (w.updatePiece id Piece.finishTurn) :=
      .updatePiece hw (fun _ hid => hid) (fun x => (hquiet x).entry) (fun x _ => hquiet x)
        fun p _ => (Piece.Counts.quiet (hquiet id)).finishTurn
    exact ⟨hupdated.ids, hupdated.entries, hupdated.pieces⟩

/-- Of pieces that are told apart by name, exactly the dying are told to be
destroyed. -/
theorem Distinct.any_dying (h : w.Distinct) {p : Piece} (hp : p ∈ w.pieces) :
    (w.pieces.filter (·.isDying)).any (·.id = p.id) = p.isDying := by
  cases hdying : p.isDying with
  | true =>
    exact List.any_eq_true.mpr ⟨p, List.mem_filter.mpr ⟨hp, hdying⟩, decide_eq_true rfl⟩
  | false =>
    refine List.any_eq_false.mpr ?_
    intro q hq hid
    obtain ⟨hmem, hdying'⟩ := List.mem_filter.mp hq
    rw [h.eq_of_id hmem hp (of_decide_eq_true hid), hdying] at hdying'
    cases hdying'

/-- What the events of the end of a round tell. -/
theorem tally_finishRound (w : World) (x : PieceId) :
    tally x w.finishRound.2 =
      { Tally.empty with destroyed := (w.pieces.filter (·.isDying)).any (·.id = x) } := by
  obtain ⟨concluded, last, hfinish, hlast⟩ := finishRound_cases w
  have hrest : tally x (.roundFinished w.closeRound.round :: last) = .empty := by
    rcases hlast with rfl | ⟨winner, rfl⟩
    · rfl
    · rfl
  rw [hfinish, tally_append, hrest, Tally.append_empty]
  exact tally_destroyed _

/-- The end of a round tells who is destroyed. -/
theorem accounts_finishRound (hw : w.Distinct) :
    w.Accounts teamOf w.finishRound.2 w.finishRound.1 := by
  refine ⟨ids_finishRound w, ?_, ?_⟩
  · intro x
    rw [tally_finishRound]
    rfl
  · intro p' hp'
    obtain ⟨p, hp, rfl⟩ := mem_finishRound hp'
    rw [tally_finishRound, hw.any_dying hp]
    exact ⟨p, hp, .commitDeath p⟩

end World

end HexArena
