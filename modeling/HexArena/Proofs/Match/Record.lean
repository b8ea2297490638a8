import HexArena.Proofs.Match.Chronicle

/-!
# Records of turns and rounds

The events of a turn and of a round can be read as records: who acts, whom a shot
hits, where a move leads, who is destroyed when the round ends.  A piece is downed
at most once, destroyed at most once, and a match is concluded at most once,
because each of these events tells of the end of something that does not come
back.

Main results:

- Definitions {lit}`TurnRecord` and {lit}`RoundRecord`: what is told of a turn and
  of a round.
- Theorem {lit}`World.Turn.record`: the events of a turn make a record that is
  true of it.
- Definition {lit}`World.Spends`: the events that tell of the end of something are
  as many as there were ends.
- Theorems {lit}`World.Course.spends_active`, {lit}`World.Course.spends_alive` and
  {lit}`World.Course.spends_open`: so it is with being active, with being alive and
  with the match itself.
-/

namespace HexArena

open Script

/-! ## Records -/

/-- A shot as it is reported. -/
structure Shot where
  target : PieceId
  damage : Nat
  downed : Bool
deriving DecidableEq, Repr

/-- The report of a shot. -/
def Shot.events (attacker : PieceId) (shot : Shot) : List Event :=
  .shotResolved attacker shot.target shot.damage ::
    if shot.downed then [.pieceDowned shot.target attacker] else []

/-- The report of a move. -/
def Move.event (piece : PieceId) (move : Move) : Event :=
  .pieceMoved piece move.start move.stop move.spaces

/-- How a turn went. -/
inductive Ending where
  | faulted (reason : String)
  | ended (shot : Option Shot) (move : Option Move)
deriving DecidableEq, Repr

namespace Ending

/-- The report of how the turn of a piece went. -/
def events (piece : PieceId) : Ending → List Event
  | faulted reason => [.turnFaulted piece reason]
  | ended shot move =>
    (shot.map (·.events piece)).getD [] ++ (move.map (·.event piece)).toList ++ [.turnEnded piece]

/-- The shot of a turn. -/
def shot? : Ending → Option Shot
  | faulted _ => none
  | ended shot _ => shot

/-- Who was downed in a turn. -/
def downed? (ending : Ending) : Option PieceId :=
  ending.shot?.bind fun shot => if shot.downed then some shot.target else none

end Ending

/-- A turn as it is reported. -/
structure TurnRecord where
  piece : PieceId
  number : Nat
  ending : Ending
deriving DecidableEq, Repr

/-- The report of a turn. -/
def TurnRecord.events (r : TurnRecord) : List Event :=
  .turnStarted r.piece r.number :: r.ending.events r.piece

/-- A round as it is reported. -/
structure RoundRecord where
  turns : List TurnRecord
  destroyed : List PieceId
  number : Nat
  /-- The winner, if the match was concluded. -/
  verdict : Option (Option Team)
deriving DecidableEq, Repr

/-- The report of the end of a round. -/
def RoundRecord.closing (r : RoundRecord) : List Event :=
  r.destroyed.map .pieceDestroyed ++
    .roundFinished r.number :: (r.verdict.map .matchConcluded).toList

/-- The report of a round. -/
def RoundRecord.events (r : RoundRecord) : List Event :=
  r.turns.flatMap (·.events) ++ r.closing

namespace Event

/-- The turn of the piece starts. -/
def starts (id : PieceId) : Event → Bool
  | .turnStarted piece _ => piece = id
  | _ => false

/-- The winner that the event names. -/
def verdict? : Event → Option (Option Team)
  | .matchConcluded winner => some winner
  | _ => none

/-- The match is concluded. -/
def concludes (e : Event) : Bool :=
  e.verdict?.isSome

theorem filterMap_verdict? {events : List Event} (h : events.countP concludes = 0) :
    events.filterMap (·.verdict?) = [] := by
  refine List.filterMap_eq_nil_iff.mpr fun e he => ?_
  simpa [concludes] using List.countP_eq_zero.mp h e he

end Event

/-! ## Reading records -/

section

variable {tells : Event → Bool}

/-- Of what is told of a turn after its start, only who is downed may matter. -/
theorem Ending.countP_events
    (hresolved : ∀ attacker target damage, tells (.shotResolved attacker target damage) = false)
    (hmoved : ∀ piece start stop spaces, tells (.pieceMoved piece start stop spaces) = false)
    (hended : ∀ piece, tells (.turnEnded piece) = false)
    (hfaulted : ∀ piece reason, tells (.turnFaulted piece reason) = false)
    (piece : PieceId) (ending : Ending) :
    (ending.events piece).countP tells =
      (ending.downed?.map fun target => (tells (.pieceDowned target piece)).toNat).getD 0 := by
  cases ending with
  | faulted reason => simp [events, downed?, shot?, hfaulted]
  | ended shot move =>
    have hmove : (move.map (·.event piece)).toList.countP tells = 0 := by
      cases move with
      | none => rfl
      | some move => simp [Move.event, hmoved]
    rw [events, List.countP_append, List.countP_append, hmove]
    cases shot with
    | none => simp [downed?, shot?, hended]
    | some shot =>
      cases hdowned : shot.downed with
      | false => simp [downed?, shot?, Shot.events, hdowned, hresolved, hended]
      | true =>
        cases htells : tells (.pieceDowned shot.target piece) with
        | false => simp [downed?, shot?, Shot.events, hdowned, hresolved, hended, htells]
        | true => simp [downed?, shot?, Shot.events, hdowned, hresolved, hended, htells]

/-- Nothing is told of a turn after its start that is none of its events. -/
theorem Ending.countP_eq_zero
    (hresolved : ∀ attacker target damage, tells (.shotResolved attacker target damage) = false)
    (hmoved : ∀ piece start stop spaces, tells (.pieceMoved piece start stop spaces) = false)
    (hended : ∀ piece, tells (.turnEnded piece) = false)
    (hfaulted : ∀ piece reason, tells (.turnFaulted piece reason) = false)
    (hdowned : ∀ piece shooter, tells (.pieceDowned piece shooter) = false)
    (piece : PieceId) (ending : Ending) : (ending.events piece).countP tells = 0 := by
  rw [Ending.countP_events hresolved hmoved hended hfaulted]
  cases ending.downed? with
  | none => rfl
  | some target => simp [hdowned]

end

/-- No turn starts within another. -/
theorem Ending.countP_starts (ending : Ending) (piece x : PieceId) :
    (ending.events piece).countP (·.starts x) = 0 :=
  Ending.countP_eq_zero (fun _ _ _ => rfl) (fun _ _ _ _ => rfl) (fun _ => rfl) (fun _ _ => rfl)
    (fun _ _ => rfl) piece ending

namespace TurnRecord

variable (r : TurnRecord) (x : PieceId)

/-- A turn tells of at most one piece that is downed. -/
theorem countP_downs :
    r.events.countP (·.downs x) = if r.ending.downed? = some x then 1 else 0 := by
  rw [events, List.countP_cons_of_neg Bool.false_ne_true,
    Ending.countP_events (fun _ _ _ => rfl) (fun _ _ _ _ => rfl) (fun _ => rfl) (fun _ _ => rfl)]
  cases r.ending.downed? with
  | none => rfl
  | some target =>
    by_cases hx : target = x
    · simp [Event.downs, hx]
    · simp [Event.downs, hx]

/-- Nobody is destroyed in a turn. -/
theorem countP_destroys : r.events.countP (·.destroys x) = 0 := by
  rw [events, List.countP_cons_of_neg Bool.false_ne_true]
  exact Ending.countP_eq_zero (fun _ _ _ => rfl) (fun _ _ _ _ => rfl) (fun _ => rfl)
    (fun _ _ => rfl) (fun _ _ => rfl) r.piece r.ending

/-- No match is concluded in a turn. -/
theorem countP_concludes : r.events.countP (·.concludes) = 0 := by
  rw [events, List.countP_cons_of_neg Bool.false_ne_true]
  exact Ending.countP_eq_zero (fun _ _ _ => rfl) (fun _ _ _ _ => rfl) (fun _ => rfl)
    (fun _ _ => rfl) (fun _ _ => rfl) r.piece r.ending

end TurnRecord

namespace RoundRecord

variable (r : RoundRecord) (x : PieceId)

/-- The end of a round tells by name who is destroyed. -/
theorem countP_destroys : r.closing.countP (·.destroys x) = r.destroyed.count x := by
  have hverdict : (r.verdict.map Event.matchConcluded).toList.countP (·.destroys x) = 0 := by
    cases r.verdict <;> rfl
  rw [closing, List.countP_append, List.countP_cons_of_neg Bool.false_ne_true, hverdict,
    List.countP_map]
  exact List.countP_congr fun y _ => by simp [Event.destroys]

theorem countP_concludes : r.closing.countP (·.concludes) = r.verdict.isSome.toNat := by
  have hdestroyed : (r.destroyed.map Event.pieceDestroyed).countP (·.concludes) = 0 := by
    simp [Event.concludes, Event.verdict?]
  rw [closing, List.countP_append, List.countP_cons_of_neg Bool.false_ne_true, hdestroyed]
  cases r.verdict <;> rfl

/-- The end of a round names the winner once. -/
theorem filterMap_verdict? : r.closing.filterMap (·.verdict?) = r.verdict.toList := by
  have hdestroyed : (r.destroyed.map Event.pieceDestroyed).filterMap (·.verdict?) = [] := by
    simp [Event.verdict?]
  rw [closing, List.filterMap_append, hdestroyed]
  cases r.verdict <;> rfl

/-- Nobody is downed when a round ends. -/
theorem countP_downs : r.closing.countP (·.downs x) = 0 := by
  rw [closing]
  cases r.verdict <;> simp [Event.downs]

/-- No turn starts when a round ends. -/
theorem countP_starts : r.closing.countP (·.starts x) = 0 := by
  rw [closing]
  cases r.verdict <;> simp [Event.starts]

end RoundRecord

/-! ## Turns -/

namespace World

variable {w w' : World} {id : PieceId} {piece : Piece} {events : List Event}

/-- A piece is found by its identifier. -/
theorem Distinct.piece?_eq (h : w.Distinct) {p : Piece} (hp : p ∈ w.pieces) :
    w.piece? p.id = some p := by
  have hsome : (w.piece? p.id).isSome = true :=
    List.find?_isSome.mpr ⟨p, hp, decide_eq_true rfl⟩
  obtain ⟨q, hfound⟩ := Option.isSome_iff_exists.mp hsome
  rw [hfound, h.eq_of_id (mem_of_piece? hfound) hp (id_of_piece? hfound)]

end World

/-- A record is true of a turn that has led from one world to another: the shot
went at somebody else who was active, and downed it if no health was left. -/
structure TurnRecord.Tells (r : TurnRecord) (w w' : World) : Prop where
  other : ∀ shot, r.ending.shot? = some shot → shot.target ≠ r.piece
  active : ∀ shot, r.ending.shot? = some shot → w.isActive shot.target = true
  downed : ∀ shot, r.ending.shot? = some shot →
    ∃ victim, w'.piece? shot.target = some victim ∧ (shot.downed = true ↔ victim.health = 0)

/-- Whoever is downed was shot. -/
theorem Ending.shot?_of_downed? {ending : Ending} {x : PieceId} (hx : ending.downed? = some x) :
    ∃ shot, ending.shot? = some shot ∧ shot.target = x := by
  obtain ⟨shot, hshot, hdowned⟩ := Option.bind_eq_some_iff.mp hx
  cases hflag : shot.downed with
  | false => simp [hflag] at hdowned
  | true =>
    rw [hflag, if_pos rfl] at hdowned
    exact ⟨shot, hshot, Option.some.inj hdowned⟩

namespace TurnRecord.Tells

variable {r : TurnRecord} {w w' : World}

/-- Whoever is downed was active. -/
theorem active_of_downed (h : r.Tells w w') {x : PieceId} (hx : r.ending.downed? = some x) :
    w.isActive x = true := by
  obtain ⟨shot, hshot, rfl⟩ := Ending.shot?_of_downed? hx
  exact h.active shot hshot

/-- Nobody downs itself. -/
theorem downed?_ne (h : r.Tells w w') : r.ending.downed? ≠ some r.piece := by
  intro hx
  obtain ⟨shot, hshot, htarget⟩ := Ending.shot?_of_downed? hx
  exact h.other shot hshot htarget

end TurnRecord.Tells

namespace World

variable {w w' : World} {id : PieceId} {piece : Piece} {events : List Event}

/-- A turn without a shot is told by any record without one. -/
theorem tells_of_no_shot {r : TurnRecord} (h : r.ending.shot? = none) : r.Tells w w' := by
  refine ⟨?_, ?_, ?_⟩ <;> simp [h]

/-- The move since a checkpoint is one move at most. -/
theorem exists_movedSince (saved : Checkpoint) (p : Piece) :
    ∃ move : Option Move, movedSince saved p = (move.map (·.event saved.piece.id)).toList := by
  unfold movedSince
  dsimp only
  split
  · exact ⟨some ⟨saved.piece.position, p.position, p.spacesMoved - saved.piece.spacesMoved⟩, rfl⟩
  · exact ⟨none, rfl⟩

/-- Whoever is seen to be active by another piece in its turn is active. -/
theorem isActive_of_seen (hw : w.Distinct) (hid : piece.id = id) {target : Snapshot}
    (htarget : target ∈ (w.begun id piece).boardView.snapshots) (hactive : target.active = true)
    (hother : target.id ≠ id) : w.isActive target.id = true := by
  obtain ⟨p, hp, -, rfl⟩ := mem_boardView.mp htarget
  rcases mem_updatePiece hw hp with ⟨hmem, -⟩ | ⟨-, -, rfl⟩
  · exact (Option.any_eq_true ..).mpr ⟨p, hw.piece?_eq hmem, hactive⟩
  · exact absurd hid hother

/-- What a shot has left of its victim is found when the turn is over, and the
shot has downed it if no health is left. -/
theorem exists_victim {attacker target : PieceId} {shooter victim : Piece} {damage : Nat}
    (hother : target ≠ attacker) (hvictim : w.piece? target = some victim)
    (hactive : victim.isActive = true) :
    ∃ hurt, ((w.struck attacker target shooter victim damage).endTurn attacker).1.piece? target =
        some hurt ∧
      ((victim.takeDamage damage).1.downed = true ↔ hurt.health = 0) := by
  have hhurt := takeDamage_id hvictim damage
  have hstruck : (w.struck attacker target shooter victim damage).piece? target =
      some (victim.takeDamage damage).2 := by
    refine (piece?_updatePiece_ne hother ?_).trans (piece?_updatePiece hvictim hhurt)
    exact fun _ hid => hid
  have hended : ∀ w : World, (w.endTurn attacker).1.piece? target = w.piece? target := by
    intro w
    unfold endTurn
    dsimp only
    split
    · rfl
    · exact piece?_updatePiece_ne hother fun _ hid => hid
  refine ⟨_, (hended _).trans hstruck, ?_⟩
  simp [Piece.takeDamage, hactive]

/-- The events of a turn make a record that is true of it, unless the piece has
no script. -/
theorem Turn.record (h : w.Turn id piece w' events) (hw : w.Distinct)
    (hpiece : w.piece? id = some piece) :
    events = [] ∨ ∃ r : TurnRecord, r.piece = id ∧ r.events = events ∧ r.Tells w w' := by
  have hid := id_of_piece? hpiece
  have hended : ∀ {w' : World} {left : Piece}, w.Led id left w' →
      w'.checkpoint = some ⟨piece.beginTurn, w.mailboxes⟩ →
      ∃ move : Option Move,
        (w'.endTurn id).2 = (move.map (·.event id)).toList ++ [.turnEnded id] := by
    intro w' left hled hcheckpoint
    obtain ⟨move, hmove⟩ := exists_movedSince ⟨piece.beginTurn, w.mailboxes⟩ left
    have hsaved : (⟨piece.beginTurn, w.mailboxes⟩ : Checkpoint).piece.id = id := hid
    rw [hsaved] at hmove
    exact ⟨move, by rw [hled.endTurn_events hpiece hcheckpoint hid, hmove]⟩
  cases h with
  | skipped => exact Or.inl rfl
  | faulted reason =>
    exact Or.inr ⟨⟨id, piece.beginTurn.turnsTaken, .faulted reason⟩, rfl, rfl, tells_of_no_shot rfl⟩
  | @ended _ m hreaches =>
    have hled := Led.acted hw hpiece (id_of_reaches hpiece hreaches)
    obtain ⟨move, hmove⟩ := hended hled rfl
    refine Or.inr
      ⟨⟨id, piece.beginTurn.turnsTaken, .ended none move⟩, rfl, ?_, tells_of_no_shot rfl⟩
    rw [hmove]
    rfl
  | @shot _ m target hreaches htarget hactive hother _ struck strike hshot =>
    have hled := Led.acted hw hpiece (id_of_reaches hpiece hreaches)
    have hsteady := steady_resolveShot (hled.distinct hw) id target.id piece.stats.attack
    have hcheckpoint := checkpoint_resolveShot (w.acted id piece m) id target.id piece.stats.attack
    have hcases := resolveShot_cases (w.acted id piece m) id target.id piece.stats.attack
    rw [hshot] at hsteady hcheckpoint hcases
    obtain ⟨move, hmove⟩ := hended (hled.steady hsteady) hcheckpoint
    rw [hmove]
    rcases hcases with hnone | ⟨shooter, victim, -, hvictim, hactive', hstruck⟩
    · cases hnone
      exact Or.inr
        ⟨⟨id, piece.beginTurn.turnsTaken, .ended none move⟩, rfl, rfl, tells_of_no_shot rfl⟩
    · cases hstruck
      let damage := (victim.takeDamage piece.stats.attack).1
      let ending : Ending := .ended (some ⟨target.id, damage.applied, damage.downed⟩) move
      refine Or.inr ⟨⟨id, piece.beginTurn.turnsTaken, ending⟩, rfl, ?_, ?_, ?_, ?_⟩
      · simp [ending, damage, TurnRecord.events, Ending.events, Shot.events, World.strike]
      · rintro shot ⟨⟩
        exact hother
      · rintro shot ⟨⟩
        exact isActive_of_seen hw hid htarget hactive hother
      · rintro shot ⟨⟩
        exact exists_victim hother hvictim hactive'

/-! ## Ends of rounds -/

/-- The winner that is announced when a round has ended in a world. -/
def verdict? (w : World) : Option (Option Team) :=
  if w.concluded then none
  else
    match w.livingTeams with
    | [] => some none
    | [team] => some (some team)
    | _ => none

/-- The record of the end of a round. -/
def closingRecord (w : World) (turns : List TurnRecord) : RoundRecord where
  turns := turns
  destroyed := (w.pieces.filter (·.isDying)).map (·.id)
  number := w.closeRound.round
  verdict := w.closeRound.verdict?

theorem conclude_eq (w : World) :
    w.conclude = ({ w with concluded := w.concluded || w.verdict?.isSome },
      (w.verdict?.map .matchConcluded).toList) := by
  unfold conclude verdict?
  cases hconcluded : w.concluded with
  | true => simp [← hconcluded]
  | false =>
    rcases w.livingTeams with _ | ⟨team, _ | ⟨other, rest⟩⟩
    · rfl
    · rfl
    · simp [← hconcluded]

/-- The end of a round as it is told. -/
theorem finishRound_eq (w : World) (turns : List TurnRecord) :
    w.finishRound =
      ({ w.closeRound with concluded := w.concluded || w.closeRound.verdict?.isSome },
        (w.closingRecord turns).closing) := by
  have hclosed := conclude_eq w.closeRound
  simp only [finishRound, hclosed, closingRecord, RoundRecord.closing, deaths, List.map_map]
  rfl

/-! ## What is spent -/

/-- A turn changes nothing but the pieces, the mailboxes and the checkpoint. -/
theorem Turn.frame (h : w.Turn id piece w' events) :
    ∃ pieces mailboxes checkpoint, w' =
      { w with pieces := pieces, mailboxes := mailboxes, checkpoint := checkpoint } := by
  have hended : ∀ w : World, ∃ pieces, (w.endTurn id).1 =
      { w with pieces := pieces, checkpoint := none } := by
    intro w
    unfold endTurn
    dsimp only
    split
    · exact ⟨_, rfl⟩
    · exact ⟨_, rfl⟩
  cases h with
  | skipped => exact ⟨_, _, _, rfl⟩
  | faulted reason => exact ⟨_, _, _, rfl⟩
  | @ended _ m =>
    obtain ⟨pieces, hpieces⟩ := hended (w.acted id piece m)
    exact ⟨_, _, _, hpieces⟩
  | @shot _ m target _ _ _ _ _ struck _ hshot =>
    obtain ⟨pieces, hpieces⟩ := hended struck
    have hcases := resolveShot_cases (w.acted id piece m) id target.id piece.stats.attack
    rw [hshot] at hcases
    rcases hcases with hnone | ⟨_, _, -, -, -, hstruck⟩
    · cases hnone
      exact ⟨_, _, _, hpieces⟩
    · cases hstruck
      exact ⟨_, _, _, hpieces⟩

/-- The piece with an identifier exists and is not destroyed. -/
def isAlive (w : World) (id : PieceId) : Bool :=
  (w.piece? id).any (·.alive)

/-- What holds of a world may end once, and the events that tell of it are as many
as there were ends. -/
def Spends (holds : World → Bool) (tells : Event → Bool) (w : World) (events : List Event)
    (w' : World) : Prop :=
  events.countP tells + (holds w').toNat = (holds w).toNat

namespace Spends

variable {holds : World → Bool} {tells : Event → Bool} {w'' : World} {later : List Event}

theorem refl (w : World) : Spends holds tells w [] w :=
  Nat.zero_add _

theorem trans (h : Spends holds tells w events w') (h' : Spends holds tells w' later w'') :
    Spends holds tells w (events ++ later) w'' := by
  unfold Spends at *
  rw [List.countP_append]
  omega

theorem of_any (hholds : holds w' = (holds w && !events.any tells))
    (hone : events.countP tells ≤ 1) (hheld : 0 < events.countP tells → holds w = true) :
    Spends holds tells w events w' := by
  unfold Spends
  rw [hholds]
  cases hany : events.any tells with
  | false =>
    have hnone : events.countP tells = 0 := by
      rw [List.countP_eq_zero]
      exact List.any_eq_false.mp hany
    simp [hnone]
  | true =>
    have hsome : 0 < events.countP tells := by
      rw [List.countP_pos_iff]
      exact List.any_eq_true.mp hany
    rw [hheld hsome]
    show events.countP tells + 0 = 1
    omega

theorem of_none (hholds : holds w' = (holds w && !events.any tells))
    (hnone : events.countP tells = 0) : Spends holds tells w events w' :=
  .of_any hholds (by omega) (by omega)

/-- It is told once at most. -/
theorem le_one (h : Spends holds tells w events w') : events.countP tells ≤ 1 := by
  have hle := Bool.toNat_le (holds w)
  unfold Spends at h
  omega

/-- What is told to have ended does not hold any more. -/
theorem eq_false (h : Spends holds tells w events w') {e : Event} (he : e ∈ events)
    (htells : tells e = true) : holds w' = false := by
  have hpos : 0 < events.countP tells := List.countP_pos_iff.mpr ⟨e, he, htells⟩
  have hle := Bool.toNat_le (holds w)
  unfold Spends at h
  cases hholds : holds w' with
  | false => rfl
  | true =>
    rw [hholds, Bool.toNat_true] at h
    omega

/-- What holds has held. -/
theorem held (h : Spends holds tells w events w') (hholds : holds w' = true) :
    holds w = true := by
  unfold Spends at h
  rw [hholds, Bool.toNat_true] at h
  exact Bool.toNat_eq_one.mp (by have hle := Bool.toNat_le (holds w); omega)

end Spends

/-- What every turn and every end of a round spends is spent by the whole course. -/
theorem Course.spends {holds : World → Bool} {tells : Event → Bool} (h : w.Course w' events)
    (hw : w.Distinct)
    (hturn : ∀ {w w' : World} {id : PieceId} {piece : Piece} {events : List Event}, w.Distinct →
      w.piece? id = some piece → w.Turn id piece w' events → Spends holds tells w events w')
    (hround : ∀ w : World, w.Distinct →
      Spends holds tells w w.finishRound.2 w.finishRound.1) :
    Spends holds tells w events w' := by
  induction h with
  | start => exact .refl w
  | turn hcourse hpiece _ hturn' ih =>
    exact ih.trans (hturn (hcourse.tracks hw).1 hpiece hturn')
  | round hcourse ih => exact ih.trans (hround _ (hcourse.tracks hw).1)

/-! ### Lives -/

theorem Distinct.teamed (h : w.Distinct) :
    w.Teamed fun id => (w.piece? id).map (·.team) := by
  intro p hp
  show (w.piece? p.id).map (·.team) = some p.team
  rw [h.piece?_eq hp]
  rfl

theorem piece?_eq_none {x : PieceId} : w.piece? x = none ↔ x ∉ w.pieces.map (·.id) := by
  simp [piece?]

/-- What the events tell of an identifier has become of its piece. -/
theorem Accounts.found {teamOf : PieceId → Option Team} (h : w.Accounts teamOf events w')
    (hw : w.Distinct) (x : PieceId) :
    w.piece? x = none ∧ w'.piece? x = none ∨
      ∃ p p', w.piece? x = some p ∧ w'.piece? x = some p' ∧
        p.Counts teamOf (tally x events) p' := by
  cases hp' : w'.piece? x with
  | none =>
    rw [piece?_eq_none, h.ids, ← piece?_eq_none] at hp'
    exact Or.inl ⟨hp', rfl⟩
  | some p' =>
    obtain ⟨p, hp, hcounts⟩ := h.pieces p' (mem_of_piece? hp')
    have hid := id_of_piece? hp'
    rw [hid] at hcounts
    have hpid : p.id = x := hcounts.id.symm.trans hid
    exact Or.inr ⟨p, p', hpid ▸ hw.piece?_eq hp, rfl, hcounts⟩

theorem Accounts.isActive {teamOf : PieceId → Option Team} (h : w.Accounts teamOf events w')
    (hw : w.Distinct) (x : PieceId) :
    w'.isActive x = (w.isActive x && !events.any (·.downs x)) := by
  rcases h.found hw x with ⟨hnone, hnone'⟩ | ⟨p, p', hp, hp', hcounts⟩
  · simp [World.isActive, hnone, hnone']
  · have hdowned : (!p'.isActive) = (!p.isActive || events.any (·.downs x)) := hcounts.downed
    rw [World.isActive, World.isActive, hp, hp', Option.any_some, Option.any_some,
      ← Bool.not_not p'.isActive, hdowned, Bool.not_or, Bool.not_not]

theorem Accounts.isAlive {teamOf : PieceId → Option Team} (h : w.Accounts teamOf events w')
    (hw : w.Distinct) (x : PieceId) :
    w'.isAlive x = (w.isAlive x && !events.any (·.destroys x)) := by
  rcases h.found hw x with ⟨hnone, hnone'⟩ | ⟨p, p', hp, hp', hcounts⟩
  · simp [World.isAlive, hnone, hnone']
  · have hdestroyed : (!p'.alive) = (!p.alive || events.any (·.destroys x)) := hcounts.destroyed
    rw [World.isAlive, World.isAlive, hp, hp', Option.any_some, Option.any_some,
      ← Bool.not_not p'.alive, hdestroyed, Bool.not_or, Bool.not_not]

/-- A piece is downed once, and is not active from then on. -/
theorem Turn.spends_active (h : w.Turn id piece w' events) (hw : w.Distinct)
    (hpiece : w.piece? id = some piece) (x : PieceId) :
    Spends (·.isActive x) (·.downs x) w events w' := by
  have haccounts := h.accounts hw hw.teamed hpiece
  rcases h.record hw hpiece with rfl | ⟨r, -, rfl, htells⟩
  · exact .of_any (haccounts.isActive hw x) (Nat.zero_le 1) nofun
  · have hcount := r.countP_downs x
    by_cases hx : r.ending.downed? = some x
    · rw [if_pos hx] at hcount
      exact .of_any (haccounts.isActive hw x) (by omega) fun _ => htells.active_of_downed hx
    · rw [if_neg hx] at hcount
      exact .of_none (haccounts.isActive hw x) hcount

theorem Turn.spends_alive (h : w.Turn id piece w' events) (hw : w.Distinct)
    (hpiece : w.piece? id = some piece) (x : PieceId) :
    Spends (·.isAlive x) (·.destroys x) w events w' := by
  have haccounts := h.accounts hw hw.teamed hpiece
  have hnone : events.countP (·.destroys x) = 0 := by
    rcases h.record hw hpiece with rfl | ⟨r, -, rfl, -⟩
    · rfl
    · exact r.countP_destroys x
  exact .of_none (haccounts.isAlive hw x) hnone

/-- The end of a round downs nobody. -/
theorem spends_active_finishRound (hw : w.Distinct) (x : PieceId) :
    Spends (·.isActive x) (·.downs x) w w.finishRound.2 w.finishRound.1 := by
  have haccounts : w.Accounts (fun _ => none) w.finishRound.2 w.finishRound.1 :=
    accounts_finishRound hw
  refine .of_none (haccounts.isActive hw x) ?_
  rw [finishRound_eq w []]
  exact RoundRecord.countP_downs _ x

/-- Whoever is destroyed when a round ends was alive until then. -/
theorem spends_alive_finishRound (hw : w.Distinct) (x : PieceId) :
    Spends (·.isAlive x) (·.destroys x) w w.finishRound.2 w.finishRound.1 := by
  have haccounts : w.Accounts (fun _ => none) w.finishRound.2 w.finishRound.1 :=
    accounts_finishRound hw
  have halive := haccounts.isAlive hw x
  have hcount : w.finishRound.2.countP (·.destroys x) =
      ((w.pieces.filter (·.isDying)).map (·.id)).count x := by
    rw [finishRound_eq w []]
    exact RoundRecord.countP_destroys _ x
  have hnodup : ((w.pieces.filter (·.isDying)).map (·.id)).Nodup :=
    hw.sublist (List.filter_sublist.map _)
  refine .of_any halive ?_ ?_
  · rw [hcount]
    exact List.nodup_iff_count_le_one.mp hnodup x
  · intro hpos
    rw [hcount] at hpos
    obtain ⟨p, hp, rfl⟩ := List.mem_map.mp (List.count_pos_iff.mp hpos)
    obtain ⟨hmem, hdying⟩ := List.mem_filter.mp hp
    have hlives : p.alive = true := (Bool.and_eq_true_iff.mp hdying).2
    exact (Option.any_eq_true ..).mpr ⟨p, hw.piece?_eq hmem, hlives⟩

/-- Along a match a piece is downed at most once, and is not active from then on. -/
theorem Course.spends_active (h : w.Course w' events) (hw : w.Distinct) (x : PieceId) :
    Spends (·.isActive x) (·.downs x) w events w' :=
  h.spends hw (fun hw hpiece hturn => hturn.spends_active hw hpiece x)
    fun _ hw => spends_active_finishRound hw x

/-- Along a match a piece is destroyed at most once, and is not alive from then on. -/
theorem Course.spends_alive (h : w.Course w' events) (hw : w.Distinct) (x : PieceId) :
    Spends (·.isAlive x) (·.destroys x) w events w' :=
  h.spends hw (fun hw hpiece hturn => hturn.spends_alive hw hpiece x)
    fun _ hw => spends_alive_finishRound hw x

/-! ### Conclusions -/

theorem Turn.countP_concludes (h : w.Turn id piece w' events) (hw : w.Distinct)
    (hpiece : w.piece? id = some piece) : events.countP Event.concludes = 0 := by
  rcases h.record hw hpiece with rfl | ⟨r, -, rfl, -⟩
  · rfl
  · exact r.countP_concludes

theorem Turn.spends_open (h : w.Turn id piece w' events) (hw : w.Distinct)
    (hpiece : w.piece? id = some piece) :
    Spends (!·.concluded) Event.concludes w events w' := by
  have hnone := h.countP_concludes hw hpiece
  obtain ⟨_, _, _, rfl⟩ := h.frame
  unfold Spends
  rw [hnone, Nat.zero_add]

theorem spends_open_finishRound (w : World) :
    Spends (!·.concluded) Event.concludes w w.finishRound.2 w.finishRound.1 := by
  rw [finishRound_eq w []]
  unfold Spends
  rw [RoundRecord.countP_concludes]
  show w.closeRound.verdict?.isSome.toNat +
    (!(w.concluded || w.closeRound.verdict?.isSome)).toNat = (!w.concluded).toNat
  cases hconcluded : w.concluded with
  | true =>
    have hnone : w.closeRound.verdict? = none := if_pos hconcluded
    rw [hnone]
    rfl
  | false => cases w.closeRound.verdict?.isSome <;> rfl

/-- A match is concluded at most once, and is over from then on. -/
theorem Course.spends_open (h : w.Course w' events) (hw : w.Distinct) :
    Spends (!·.concluded) Event.concludes w events w' :=
  h.spends hw (fun hw hpiece hturn => hturn.spends_open hw hpiece)
    fun w _ => spends_open_finishRound w

end World

end HexArena
