import HexArena.Proofs.Match.Course

/-!
# The board stays legal

A script sees the board as it was when its turn began, so the place its own piece
has in that view goes stale with the first step.  A step is still never made onto
somebody else: the view is legal, so the only piece its own stale place could
hide is the piece itself.

Main results:

- Definition {lit}`World.Legal`: every living piece stands on the board, and no
  two on one hex.
- Theorem {lit}`Machine.Sited.stable`: however a script moves its piece, it stays
  on the board and apart from everybody else in view.
- Theorem {lit}`World.Tidy.turn`: a turn leaves a legal board.
- Theorem {lit}`Match.legal_of_callAll`: so does every match.
-/

namespace HexArena

open Script

/-! ## Steps of a script -/

namespace Script

/-- On a legal board, a hex on which nobody else is seen is apart from everybody
else: what the acting piece hides is itself. -/
theorem apart_of_otherOccupant {scene : Scene} {actor : PieceId} {cell : Coord}
    (hb : scene.board.Legal) (h : otherOccupant scene actor cell = .ok none) {s : Snapshot}
    (hs : s ∈ scene.board.snapshots) (hne : s.id ≠ actor) : s.position.Apart cell := by
  unfold otherOccupant at h
  obtain ⟨found, hfound, hnone⟩ := bind_eq_ok.mp h
  cases found with
  | none => exact Board.apart_of_firstOn hfound s hs
  | some t =>
    have hself : t.id = actor := by
      have hfilter : (some t).filter (·.id ≠ actor) = none := Except.ok.inj hnone
      simpa [Option.filter_eq_none_iff] using hfilter
    rw [← hself] at hne
    exact hb.apart_of_occupant hfound hs hne

end Script

namespace Script.Machine

/-- The piece stands on the board, apart from everybody else in view. -/
structure Sited (scene : Scene) (m : Machine) : Prop where
  within : m.piece.position.Within scene.board.radius
  apart : ∀ s ∈ scene.board.snapshots, s.id ≠ m.piece.id → s.position.Apart m.piece.position

/-- A machine whose piece is the same in the same place. -/
theorem Sited.of_eq {scene : Scene} {m m' : Machine} (h : m.Sited scene)
    (hid : m'.piece.id = m.piece.id) (hposition : m'.piece.position = m.piece.position) :
    m'.Sited scene := by
  refine ⟨?_, ?_⟩
  · rw [hposition]
    exact h.within
  · rw [hid, hposition]
    exact h.apart

/-- On a legal board, a piece stays on the board and apart from everybody else in
view, whatever its script does. -/
theorem Sited.stable {scene : Scene} (hb : scene.board.Legal) : Stable scene (Sited scene) := by
  intro m m' hchange hm
  cases hchange with
  | stack | print | turn | send | receive | clearMail => exact hm.of_eq rfl rfl
  | miss hshoot | hit hshoot =>
    obtain ⟨-, -, -, rfl⟩ := Piece.shoot_eq_ok hshoot
    exact hm.of_eq rfl rfl
  | walk hbudget hfree hmove =>
    have hbound := m.piece.movement_le
    obtain ⟨-, -, position, hposition, rfl⟩ := Piece.move_eq_ok hmove
    rcases (Word.freeSteps_eq_ok (by omega) hfree).2 with rfl | ⟨cell, hcell, hlast⟩
    · exact hm.of_eq rfl (Coord.offset_zero hposition)
    · have hsame : cell = position := Except.ok.inj (hcell.symm.trans hposition)
      subst hsame
      obtain ⟨hwithin, hnobody⟩ := Word.isFree_eq_true hlast
      exact ⟨hwithin, fun s hs hne => apart_of_otherOccupant hb hnobody hs hne⟩

end Script.Machine

/-! ## Worlds -/

namespace World

variable {w w' : World} {id : PieceId} {piece : Piece} {events : List Event}

/-- The living pieces are in view. -/
theorem mem_boardView {s : Snapshot} :
    s ∈ w.boardView.snapshots ↔ ∃ p ∈ w.pieces, p.alive = true ∧ s = p.snapshot := by
  unfold boardView
  rw [Board.mem_ofSnapshots, List.mem_map]
  constructor
  · rintro ⟨p, hp, rfl⟩
    obtain ⟨hp, halive⟩ := List.mem_filter.mp hp
    exact ⟨p, hp, halive, rfl⟩
  · rintro ⟨p, hp, halive, rfl⟩
    exact ⟨p, List.mem_filter.mpr ⟨hp, halive⟩, rfl⟩

/-- Every living piece stands on the board, and no two of them on one hex. -/
structure Legal (w : World) : Prop where
  within : ∀ p ∈ w.pieces, p.alive = true → p.position.Within w.radius
  apart : (w.pieces.filter (·.alive)).Pairwise fun p q => p.position.Apart q.position

/-- The board is legal, and its pieces are told apart by their identifiers. -/
structure Tidy (w : World) : Prop where
  distinct : w.Distinct
  within : ∀ p ∈ w.pieces, p.alive = true → p.position.Within w.radius
  apart : ∀ p ∈ w.pieces, ∀ q ∈ w.pieces, p.alive = true → q.alive = true → p.id ≠ q.id →
    p.position.Apart q.position

namespace Tidy

theorem legal (h : w.Tidy) : w.Legal := by
  refine ⟨h.within, ?_⟩
  have hids : w.pieces.Pairwise fun p q => p.id ≠ q.id := List.pairwise_map.mp h.distinct
  refine (hids.filter _).imp_of_mem ?_
  intro p q hp hq hne
  obtain ⟨hp, halive⟩ := List.mem_filter.mp hp
  obtain ⟨hq, halive'⟩ := List.mem_filter.mp hq
  exact h.apart p hp q hq halive halive' hne

/-- A world in which nobody moves stays tidy. -/
theorem steady (h : w.Tidy) (hsteady : w.Steady w') : w'.Tidy := by
  refine ⟨hsteady.distinct h.distinct, ?_, ?_⟩
  · intro p' hp' halive
    obtain ⟨p, hp, hp'⟩ := hsteady.pieces p' hp'
    rw [hp'.position, hsteady.radius]
    exact h.within p hp (hp'.alive.symm.trans halive)
  · intro p' hp' q' hq' halive halive' hne
    obtain ⟨p, hp, hp'⟩ := hsteady.pieces p' hp'
    obtain ⟨q, hq, hq'⟩ := hsteady.pieces q' hq'
    rw [hp'.position, hq'.position]
    rw [hp'.id, hq'.id] at hne
    exact h.apart p hp q hq (hp'.alive.symm.trans halive) (hq'.alive.symm.trans halive') hne

/-- The board in view is legal. -/
theorem boardView (h : w.Tidy) : w.boardView.Legal := by
  refine ⟨?_, ?_⟩
  · intro s hs
    obtain ⟨p, hp, halive, rfl⟩ := mem_boardView.mp hs
    exact h.within p hp halive
  · intro s hs t ht hne
    obtain ⟨p, hp, halive, rfl⟩ := mem_boardView.mp hs
    obtain ⟨q, hq, halive', rfl⟩ := mem_boardView.mp ht
    exact h.apart p hp q hq halive halive' hne

/-- A piece is sited when its turn starts. -/
theorem sited_turnStart (h : w.Tidy) (hpiece : w.piece? id = some piece)
    (hactive : piece.isActive = true) (stackLimit : Nat) :
    (w.turnStart id piece).Sited (w.turnScene id piece stackLimit) := by
  have halive : piece.alive = true := (Bool.and_eq_true_iff.mp hactive).1
  have hmem := mem_of_piece? hpiece
  refine ⟨h.within piece hmem halive, ?_⟩
  intro s hs hne
  obtain ⟨p', hp', halive', rfl⟩ := mem_boardView.mp hs
  obtain ⟨p, hp, hsteady⟩ := (steady_begun h.distinct hpiece).pieces p' hp'
  have hplace : p'.snapshot.position = p.position := hsteady.position
  have hother : p.id ≠ piece.id := hsteady.id ▸ hne
  rw [hplace]
  exact h.apart p hp piece hmem (hsteady.alive.symm.trans halive') halive hother

/-- The machine of a turn stays sited. -/
theorem sited (h : w.Tidy) (hpiece : w.piece? id = some piece) (hactive : piece.isActive = true)
    {stackLimit : Nat} {m : Machine}
    (hreaches : (w.turnStart id piece).Reaches (w.turnScene id piece stackLimit) m) :
    m.Sited (w.turnScene id piece stackLimit) :=
  (Machine.Sited.stable (h.steady (steady_begun h.distinct hpiece)).boardView).of_reaches
    (h.sited_turnStart hpiece hactive stackLimit) hreaches

/-- A turn keeps the board legal: its piece is apart from the others in view,
and those are the others in the world. -/
theorem turn (h : w.Tidy) (hpiece : w.piece? id = some piece) (hactive : piece.isActive = true)
    (hturn : w.Turn id piece w' events) : w'.Tidy := by
  obtain ⟨stackLimit, m, hreaches, hled, -⟩ := hturn.led h.distinct hpiece
  have hsited := h.sited hpiece hactive hreaches
  have hid := id_of_reaches hpiece hreaches
  have hother : ∀ q ∈ w.pieces, q.id ≠ id → q.alive = true →
      q.position.Apart m.piece.position := by
    intro q hq hne halive
    refine hsited.apart q.snapshot ?_ (hid ▸ hne)
    exact mem_boardView.mpr ⟨q, mem_updatePiece_of_ne hq hne, halive, rfl⟩
  refine ⟨hled.distinct h.distinct, ?_, ?_⟩
  · intro p' hp' halive
    rw [hled.radius]
    rcases hled.pieces p' hp' with ⟨p, hp, -, hsteady⟩ | hsteady
    · rw [hsteady.position]
      exact h.within p hp (hsteady.alive.symm.trans halive)
    · rw [hsteady.position]
      exact hsited.within
  · intro p' hp' q' hq' halive halive' hne
    -- Two bystanders stand as before; the acting piece is sited apart from any of them.
    rcases hled.pieces p' hp' with ⟨p, hp, hpne, hp'⟩ | hp' <;>
      rcases hled.pieces q' hq' with ⟨q, hq, hqne, hq'⟩ | hq' <;>
      rw [hp'.position, hq'.position]
    · rw [hp'.id, hq'.id] at hne
      exact h.apart p hp q hq (hp'.alive.symm.trans halive) (hq'.alive.symm.trans halive') hne
    · exact hother p hp hpne (hp'.alive.symm.trans halive)
    · exact (hother q hq hqne (hq'.alive.symm.trans halive')).symm
    · exact absurd (hp'.id.trans hq'.id.symm) hne

/-- The end of a round keeps the board legal: nobody moves, and nobody comes
back to life. -/
theorem finishRound (h : w.Tidy) : w.finishRound.1.Tidy := by
  have hlives : ∀ p : Piece, p.isActive = true → p.alive = true :=
    fun p hactive => (Bool.and_eq_true_iff.mp hactive).1
  refine ⟨h.distinct.of_ids (ids_finishRound w), ?_, ?_⟩
  · intro p' hp' halive
    obtain ⟨p, hp, rfl⟩ := mem_finishRound hp'
    rw [radius_finishRound]
    exact h.within p hp (hlives p halive)
  · intro p' hp' q' hq' halive halive' hne
    obtain ⟨p, hp, rfl⟩ := mem_finishRound hp'
    obtain ⟨q, hq, rfl⟩ := mem_finishRound hq'
    exact h.apart p hp q hq (hlives p halive) (hlives q halive') hne

/-- A piece is put on a hex of the board on which nobody stands. -/
theorem spawn (h : w.Tidy) {new : Placement} (hspawn : w.spawn new = .ok (.ok w')) : w'.Tidy := by
  obtain ⟨hnew, hwithin, hapart, mailboxes, rfl⟩ := spawn_eq_ok hspawn
  refine ⟨?_, ?_, ?_⟩
  · simpa [Distinct, Piece.spawn, List.nodup_append'] using ⟨h.distinct, hnew⟩
  · intro p hp halive
    rcases List.mem_append.mp hp with hp | hp
    · exact h.within p hp halive
    · rw [List.mem_singleton.mp hp]
      exact hwithin
  · intro p hp q hq halive halive' hne
    rcases List.mem_append.mp hp with hp | hp <;> rcases List.mem_append.mp hq with hq | hq
    · exact h.apart p hp q hq halive halive' hne
    · rw [List.mem_singleton.mp hq]
      exact hapart p hp halive
    · rw [List.mem_singleton.mp hp]
      exact (hapart q hq halive').symm
    · rw [List.mem_singleton.mp hp, List.mem_singleton.mp hq] at hne
      exact absurd rfl hne

/-- The board is legal before the first turn. -/
theorem assembled {s : Setup} (h : w.Assembled s events) : w.Tidy ∧ w.radius = s.boardRadius := by
  induction h with
  | blank =>
    refine ⟨⟨List.nodup_nil, ?_, ?_⟩, rfl⟩
    · intro p hp
      cases hp
    · intro p hp
      cases hp
  | rejected _ _ _ ih => exact ih
  | spawned _ _ hspawn ih =>
    refine ⟨ih.1.spawn hspawn, ?_⟩
    obtain ⟨-, -, -, mailboxes, rfl⟩ := spawn_eq_ok hspawn
    exact ih.2

/-- The board stays legal from turn to turn. -/
theorem course (h : w.Tidy) (hcourse : w.Course w' events) :
    w'.Tidy ∧ w'.radius = w.radius := by
  induction hcourse with
  | start => exact ⟨h, rfl⟩
  | turn _ hpiece hactive hturn ih =>
    obtain ⟨_, _, -, hled, -⟩ := hturn.led ih.1.distinct hpiece
    exact ⟨ih.1.turn hpiece hactive hturn, hled.radius.trans ih.2⟩
  | @round w' _ _ ih => exact ⟨ih.1.finishRound, (radius_finishRound w').trans ih.2⟩

end Tidy

end World

/-! ## Matches -/

namespace Match

/-- In every match the board stays legal, whatever the scripts do and however it
is called to go on. -/
theorem legal_of_callAll {s : Setup} {m m' : Match} {t t' : Transcript} {calls : List Call}
    (hstart : ofSetup s = .ok (m, t)) (hcalls : m.callAll calls = .ok (m', t')) :
    m'.world.radius = s.boardRadius ∧ m'.world.Legal := by
  obtain ⟨htidy, hradius⟩ := World.Tidy.assembled (ofSetup_assembled hstart)
  obtain ⟨htidy', hradius'⟩ := htidy.course (callAll_course hcalls)
  exact ⟨hradius'.trans hradius, htidy'.legal⟩

/-- Two scouts that walk at each other; a tank is refused the hex of the first,
which it asks for by another triple. -/
def meeting : Setup where
  boardRadius := 2
  mailboxCapacity := 1
  limits := .default
  contestants :=
    [⟨⟨.ada, ⟨"red"⟩, .scout, ⟨-1, 0, 0⟩, 0⟩, "3 0 move drop 1 turn 1 0 move"⟩,
      ⟨⟨.bob, ⟨"blue"⟩, .tank, ⟨0, -1, 1⟩, 0⟩, ""⟩,
      ⟨⟨.bob, ⟨"blue"⟩, .scout, ⟨1, 0, 0⟩, 0⟩, "3 3 move 9 0 move"⟩]

/-- A round, another script for the second scout, and two more rounds. -/
def meetingCalls : List Call :=
  [.round, .enlist .bob "2 4 move" .default, .play 2]

theorem legal_of_callAll_meeting :
    ∃ m t m' t', ofSetup meeting = .ok (m, t) ∧ m.callAll meetingCalls = .ok (m', t') ∧
      m'.world.pieces.map (·.position) = [⟨-1, 2, 0⟩, ⟨-2, 0, 0⟩] ∧
      m'.world.radius = 2 ∧ m'.world.Legal := by
  have hplaces : readAfter (·.pieces.map (·.position)) meeting meetingCalls =
      .ok [⟨-1, 2, 0⟩, ⟨-2, 0, 0⟩] := by
    rfl
  obtain ⟨m, t, m', t', hstart, hcalls, hplaces⟩ := exists_of_readAfter hplaces
  exact ⟨m, t, m', t', hstart, hcalls, hplaces, legal_of_callAll hstart hcalls⟩

end Match

end HexArena
