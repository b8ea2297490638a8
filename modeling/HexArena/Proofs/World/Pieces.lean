import HexArena.Proofs.World.Turn
import Mathlib.Data.List.Nodup

/-!
# The pieces of a world

In a world whose pieces are told apart by their identifiers, an operation on the
piece with an identifier changes that piece and no other.  Shots, and the end of
a turn, leave every piece where it stands.

Main results:

- Definition {lit}`World.Distinct`: no two pieces have one identifier.
- Theorem {lit}`World.mem_updatePiece`: a piece of the changed world is another
  one, or the changed one.
- Definition {lit}`World.Steady`: every piece stays in its place, alive or not as
  it was.
- Theorem {lit}`World.resolveShot_cases`: a shot does nothing, or it hits an
  active piece.
- Theorem {lit}`World.mem_finishRound`: what the end of a round does to a piece.
-/

namespace HexArena

/-! ## Pieces in their place -/

/-- The same piece in the same place, alive or not as it was. -/
structure Piece.Steady (p p' : Piece) : Prop where
  id : p'.id = p.id
  kind : p'.kind = p.kind
  stats : p'.stats = p.stats
  position : p'.position = p.position
  alive : p'.alive = p.alive
  spacesMoved : p'.spacesMoved = p.spacesMoved

namespace Piece.Steady

variable {p p' p'' : Piece}

/-- A piece is the same piece in the same place. -/
theorem refl (p : Piece) : p.Steady p :=
  ⟨rfl, rfl, rfl, rfl, rfl, rfl⟩

/-- It is so after several changes if it is after each. -/
theorem trans (h : p.Steady p') (h' : p'.Steady p'') : p.Steady p'' where
  id := h'.id.trans h.id
  kind := h'.kind.trans h.kind
  stats := h'.stats.trans h.stats
  position := h'.position.trans h.position
  alive := h'.alive.trans h.alive
  spacesMoved := h'.spacesMoved.trans h.spacesMoved

/-- A piece begins its turn where it is. -/
theorem beginTurn (p : Piece) : p.Steady p.beginTurn :=
  ⟨rfl, rfl, rfl, rfl, rfl, rfl⟩

/-- A piece finishes its turn where it is. -/
theorem finishTurn (p : Piece) : p.Steady p.finishTurn :=
  ⟨rfl, rfl, rfl, rfl, rfl, rfl⟩

/-- A piece is credited with a hit where it is. -/
theorem recordHit (p : Piece) (damage : Nat) (defeated : Bool) :
    p.Steady (p.recordHit damage defeated) :=
  ⟨rfl, rfl, rfl, rfl, rfl, rfl⟩

/-- A piece takes damage where it is. -/
theorem takeDamage (p : Piece) (amount : Nat) : p.Steady (p.takeDamage amount).2 := by
  unfold Piece.takeDamage
  split
  · exact ⟨rfl, rfl, rfl, rfl, rfl, rfl⟩
  · exact .refl p

end Piece.Steady

/-- When a round ends, exactly the active pieces are left alive. -/
theorem Piece.commitDeath_eq (p : Piece) : p.commitDeath = { p with alive := p.isActive } := by
  obtain ⟨_, _, _, _, _, _, _, _, alive, deathFlag, _, _, _, _, _, _, _⟩ := p
  cases alive <;> cases deathFlag <;> rfl

namespace World

variable {w w' w'' : World} {id : PieceId} {piece : Piece}

/-! ## Identifiers -/

/-- No two pieces have one identifier. -/
def Distinct (w : World) : Prop :=
  (w.pieces.map (·.id)).Nodup

/-- Pieces with the same identifiers in the same order are as distinct. -/
theorem Distinct.of_ids (h : w.Distinct)
    (hids : w'.pieces.map (·.id) = w.pieces.map (·.id)) : w'.Distinct := by
  unfold Distinct
  rw [hids]
  exact h

/-- At most one piece has a given identifier. -/
theorem Distinct.unique (h : w.Distinct) (id : PieceId) :
    w.pieces.Pairwise fun p q => decide (p.id = id) = true → decide (q.id = id) = false := by
  refine (List.pairwise_map.mp h).imp ?_
  intro p q hne hp
  refine decide_eq_false ?_
  intro hq
  exact hne ((of_decide_eq_true hp).trans hq.symm)

/-- Distinct pieces with one identifier are one piece. -/
theorem Distinct.eq_of_id (h : w.Distinct) {p q : Piece} (hp : p ∈ w.pieces) (hq : q ∈ w.pieces)
    (hid : p.id = q.id) : p = q :=
  List.inj_on_of_nodup_map h hp hq hid

/-- A piece that is found is there. -/
theorem mem_of_piece? (h : w.piece? id = some piece) : piece ∈ w.pieces :=
  List.mem_of_find?_eq_some h

/-! ## Changing a piece -/

variable {f : Piece → Piece}

/-- A piece of the changed world is another one, or the changed one. -/
theorem mem_updatePiece (h : w.Distinct) {q : Piece} (hq : q ∈ (w.updatePiece id f).pieces) :
    q ∈ w.pieces ∧ q.id ≠ id ∨ ∃ p, w.piece? id = some p ∧ q = f p := by
  rcases mem_updateFirst_of_unique (h.unique id) hq with ⟨hmem, hother⟩ | hchanged
  · exact Or.inl ⟨hmem, of_decide_eq_false hother⟩
  · exact Or.inr hchanged

/-- Every other piece is kept. -/
theorem mem_updatePiece_of_ne {q : Piece} (hq : q ∈ w.pieces) (hne : q.id ≠ id) :
    q ∈ (w.updatePiece id f).pieces :=
  mem_updateFirst_of_not hq (decide_eq_false hne)

/-- A change of a piece keeps the identifiers if it keeps its own. -/
theorem ids_updatePiece (hf : ∀ p, p.id = id → (f p).id = id) :
    (w.updatePiece id f).pieces.map (·.id) = w.pieces.map (·.id) := by
  refine map_updateFirst fun p _ hp => ?_
  have hid : p.id = id := of_decide_eq_true hp
  rw [hf p hid, hid]

/-- Every other piece is found as it was. -/
theorem piece?_updatePiece_ne {other : PieceId} (hne : other ≠ id)
    (hf : ∀ p, p.id = id → (f p).id = id) :
    (w.updatePiece id f).piece? other = w.piece? other := by
  refine find?_updateFirst_of_disjoint ?_ ?_
  · intro p _ hp
    rw [of_decide_eq_true hp]
    exact decide_eq_false hne.symm
  · intro p _ hp
    rw [hf p (of_decide_eq_true hp)]
    exact decide_eq_false hne.symm

/-! ## Worlds in which nobody moves -/

/-- Every piece stays in its place, alive or not as it was. -/
structure Steady (w w' : World) : Prop where
  radius : w'.radius = w.radius
  ids : w'.pieces.map (·.id) = w.pieces.map (·.id)
  pieces : ∀ p' ∈ w'.pieces, ∃ p ∈ w.pieces, p.Steady p'

namespace Steady

/-- A world has the same pieces in the same places. -/
theorem refl (w : World) : w.Steady w :=
  ⟨rfl, rfl, fun p hp => ⟨p, hp, .refl p⟩⟩

/-- It does so after several changes if it does after each. -/
theorem trans (h : w.Steady w') (h' : w'.Steady w'') : w.Steady w'' where
  radius := h'.radius.trans h.radius
  ids := h'.ids.trans h.ids
  pieces := by
    intro p'' hp''
    obtain ⟨p', hp', hsteady'⟩ := h'.pieces p'' hp''
    obtain ⟨p, hp, hsteady⟩ := h.pieces p' hp'
    exact ⟨p, hp, hsteady.trans hsteady'⟩

/-- Distinct pieces in their places stay distinct. -/
theorem distinct (h : w.Steady w') (hw : w.Distinct) : w'.Distinct :=
  hw.of_ids h.ids

/-- A change of one piece that leaves it in its place. -/
theorem updatePiece (hw : w.Distinct) (hkeeps : ∀ p, p.id = id → (f p).id = id)
    (hf : ∀ p, w.piece? id = some p → p.Steady (f p)) : w.Steady (w.updatePiece id f) where
  radius := rfl
  ids := ids_updatePiece hkeeps
  pieces := by
    intro p' hp'
    rcases mem_updatePiece hw hp' with ⟨hmem, -⟩ | ⟨p, hfound, rfl⟩
    · exact ⟨p', hmem, .refl p'⟩
    · exact ⟨p, mem_of_piece? hfound, hf p hfound⟩

/-- A piece is replaced by itself in the same place. -/
theorem replacePiece (hw : w.Distinct) (hpiece : w.piece? id = some piece) {new : Piece}
    (hnew : piece.Steady new) : w.Steady (w.updatePiece id fun _ => new) := by
  refine .updatePiece hw (fun _ _ => hnew.id.trans (id_of_piece? hpiece)) fun p hp => ?_
  rw [hpiece] at hp
  cases hp
  exact hnew

end Steady

end World

/-! ## Moves -/

/-- The event reports a move. -/
def Event.isMoved : Event → Bool
  | .pieceMoved .. => true
  | _ => false

namespace World

variable {w w' w'' : World} {id : PieceId} {piece : Piece} {f : Piece → Piece}

/-- A walk since a checkpoint is told by nothing but a move. -/
theorem filter_movedSince (saved : Checkpoint) (p : Piece) :
    (movedSince saved p).filter Event.isMoved = movedSince saved p := by
  unfold movedSince
  dsimp only
  split
  · rfl
  · rfl

/-! ## Shots -/

/-- The world after a shot has hit its target. -/
def struck (w : World) (attacker target : PieceId) (shooter victim : Piece) (damage : Nat) :
    World :=
  let (hit, hurt) := victim.takeDamage damage
  (w.updatePiece target fun _ => hurt).updatePiece attacker fun p =>
    p.recordHit hit.applied (hit.downed && decide (victim.team ≠ shooter.team))

/-- The events of a shot that has hit its target. -/
def strike (attacker target : PieceId) (victim : Piece) (damage : Nat) : List Event :=
  let hit := (victim.takeDamage damage).1
  .shotResolved attacker target hit.applied ::
    if hit.downed then [.pieceDowned target attacker] else []

/-- A shot does nothing, or it hits an active piece. -/
theorem resolveShot_cases (w : World) (attacker target : PieceId) (damage : Nat) :
    w.resolveShot attacker target damage = (w, []) ∨
      ∃ shooter victim, w.piece? attacker = some shooter ∧ w.piece? target = some victim ∧
        victim.isActive = true ∧
        w.resolveShot attacker target damage =
          (w.struck attacker target shooter victim damage,
            strike attacker target victim damage) := by
  unfold resolveShot
  cases hshooter : w.piece? attacker with
  | none => exact Or.inl rfl
  | some shooter =>
    cases hvictim : w.piece? target with
    | none => exact Or.inl rfl
    | some victim =>
      cases hactive : victim.isActive with
      | false => exact Or.inl (by simp [hactive])
      | true => exact Or.inr ⟨shooter, victim, rfl, rfl, hactive, by simp [hactive, struck, strike]⟩

/-- Damage does not change an identifier. -/
theorem takeDamage_id {target : PieceId} {victim : Piece} (hvictim : w.piece? target = some victim)
    (damage : Nat) : ((victim.takeDamage damage).2).id = target :=
  (Piece.Steady.takeDamage victim damage).id.trans (id_of_piece? hvictim)

/-- A shot leaves the checkpoint as it is. -/
theorem checkpoint_resolveShot (w : World) (attacker target : PieceId) (damage : Nat) :
    (w.resolveShot attacker target damage).1.checkpoint = w.checkpoint := by
  rcases resolveShot_cases w attacker target damage with hnone | ⟨shooter, victim, -, -, -, hstruck⟩
  · rw [hnone]
  · rw [hstruck]
    rfl

/-- A shot reports no move. -/
theorem filter_resolveShot (w : World) (attacker target : PieceId) (damage : Nat) :
    (w.resolveShot attacker target damage).2.filter Event.isMoved = [] := by
  rcases resolveShot_cases w attacker target damage with hnone | ⟨shooter, victim, -, -, -, hstruck⟩
  · rw [hnone]
    rfl
  · rw [hstruck]
    unfold strike
    dsimp only
    split
    · rfl
    · rfl

/-- A shot moves nobody. -/
theorem steady_resolveShot (hw : w.Distinct) (attacker target : PieceId) (damage : Nat) :
    w.Steady (w.resolveShot attacker target damage).1 := by
  rcases resolveShot_cases w attacker target damage with
    hnone | ⟨shooter, victim, -, hvictim, -, hstruck⟩
  · rw [hnone]
    exact .refl w
  · rw [hstruck]
    have hfirst : w.Steady (w.updatePiece target fun _ => (victim.takeDamage damage).2) :=
      .replacePiece hw hvictim (.takeDamage victim damage)
    refine hfirst.trans ?_
    exact .updatePiece (hfirst.distinct hw) (fun _ hid => hid) fun p _ => .recordHit p _ _

/-! ## Ends of turns and rounds -/

/-- The end of a turn moves nobody. -/
theorem steady_endTurn (hw : w.Distinct) (id : PieceId) : w.Steady (w.endTurn id).1 := by
  have hdropped : w.Steady { w with checkpoint := none } :=
    ⟨rfl, rfl, fun p hp => ⟨p, hp, .refl p⟩⟩
  unfold endTurn
  dsimp only
  split
  · exact hdropped
  · refine hdropped.trans ?_
    exact .updatePiece (hdropped.distinct hw) (fun _ hid => hid) fun p _ => .finishTurn p

/-- A turn begins with all pieces in their places. -/
theorem steady_begun (hw : w.Distinct) (hpiece : w.piece? id = some piece) :
    w.Steady (w.begun id piece) := by
  have hupdated := Steady.replacePiece hw hpiece (.beginTurn piece)
  exact ⟨hupdated.radius, hupdated.ids, hupdated.pieces⟩

/-- An empty turn leaves all pieces in their places. -/
theorem steady_rested (hw : w.Distinct) (hpiece : w.piece? id = some piece) :
    w.Steady (w.rested id piece) := by
  have hupdated := Steady.replacePiece hw hpiece
    ((Piece.Steady.beginTurn piece).trans (.finishTurn _))
  exact ⟨hupdated.radius, hupdated.ids, hupdated.pieces⟩

/-- Concluding a match sets a flag and is reported. -/
theorem conclude_cases (w : World) :
    w.conclude = (w, []) ∨
      ∃ winner, w.conclude = ({ w with concluded := true }, [.matchConcluded winner]) := by
  unfold conclude
  split
  · exact Or.inl rfl
  · split
    · exact Or.inr ⟨none, rfl⟩
    · exact Or.inr ⟨some _, rfl⟩
    · exact Or.inl rfl

/-- The end of a round destroys the downed, counts the round and may conclude
the match. -/
theorem finishRound_cases (w : World) :
    ∃ concluded last, w.finishRound =
        ({ w.closeRound with concluded := concluded },
          w.deaths ++ .roundFinished w.closeRound.round :: last) ∧
      (last = [] ∨ ∃ winner, last = [.matchConcluded winner]) := by
  rcases conclude_cases w.closeRound with hgoesOn | ⟨winner, hover⟩
  · refine ⟨w.closeRound.concluded, [], ?_, Or.inl rfl⟩
    simp only [finishRound, hgoesOn]
  · refine ⟨true, [.matchConcluded winner], ?_, Or.inr ⟨winner, rfl⟩⟩
    simp only [finishRound, hover]

/-- The pieces after a round are those before it, the downed among them
destroyed. -/
theorem mem_finishRound {p' : Piece} (h : p' ∈ w.finishRound.1.pieces) :
    ∃ p ∈ w.pieces, p' = { p with alive := p.isActive } := by
  obtain ⟨concluded, last, hfinish, -⟩ := finishRound_cases w
  rw [hfinish] at h
  obtain ⟨p, hp, rfl⟩ := List.mem_map.mp h
  exact ⟨p, hp, p.commitDeath_eq⟩

/-- The end of a round keeps the identifiers. -/
theorem ids_finishRound (w : World) :
    w.finishRound.1.pieces.map (·.id) = w.pieces.map (·.id) := by
  obtain ⟨concluded, last, hfinish, -⟩ := finishRound_cases w
  rw [hfinish]
  simp [closeRound, Piece.commitDeath_eq]

/-- The end of a round keeps the board. -/
theorem radius_finishRound (w : World) : w.finishRound.1.radius = w.radius := by
  obtain ⟨concluded, last, hfinish, -⟩ := finishRound_cases w
  rw [hfinish]
  rfl

end World

end HexArena
