import HexArena.Proofs.World.Effect

/-!
# Pieces and their mailboxes

A piece and its mailbox come into the world together, but an aborted turn brings
back all mailboxes as they were when the turn began.  A mailbox that was opened
since then is lost, and its piece never gets another one.

Main results:

- Definition {lit}`World.Registered`: no two pieces answer to one name, and
  mailboxes belong to pieces, in the order of the pieces.
- Definition {lit}`World.closes`: how many mailboxes an aborted turn loses.
- Theorem {lit}`World.unserved_of_effect`: nothing else takes a mailbox from its
  piece, and nothing gives one back.
- Theorem {lit}`World.owners_eq_ids_iff`: every piece has its mailbox exactly if
  no mailbox was opened in a turn that was aborted.
-/

namespace HexArena

/-- The owners of the mailboxes, in opening order. -/
def Directory.owners (d : Directory) : List PieceId :=
  d.boxes.map (·.owner)

namespace World

variable {w w' : World} {id : PieceId} {command : Command} {events : List Event} {t : Transcript}

/-- The identifiers of the pieces, in the order they were put on the board. -/
def ids (w : World) : List PieceId :=
  w.pieces.map (·.id)

/-- No two pieces answer to one name, every mailbox belongs to a piece, and the
checkpoint holds the oldest mailboxes. -/
structure Registered (w : World) : Prop where
  apart : w.ids.Pairwise fun a b => a.answersTo b.name = false
  owners : w.mailboxes.owners.Sublist w.ids
  saved : ∀ saved, w.checkpoint = some saved → saved.mailboxes.boxes <+: w.mailboxes.boxes

/-- The number of pieces without a mailbox. -/
def unserved (w : World) : Nat :=
  w.ids.length - w.mailboxes.owners.length

/-- The number of mailboxes that were opened in the turn which the command
aborts. -/
def closes (w : World) : Command → Nat
  | .abortTurn id _ =>
    match w.checkpointOf? id with
    | some saved => w.mailboxes.boxes.length - saved.mailboxes.boxes.length
    | none => 0
  | _ => 0

/-- The number of mailboxes that were opened in turns which the commands abort. -/
def closesAll (w : World) : List Command → Nat
  | [] => 0
  | command :: rest =>
    w.closes command +
      match w.apply command with
      | .ok (w', _) => w'.closesAll rest
      | .error _ => 0

theorem checkpointOf?_eq_some {saved : Checkpoint} :
    w.checkpointOf? id = some saved ↔ w.checkpoint = some saved ∧ saved.piece.id = id := by
  simp [checkpointOf?, Option.filter_eq_some_iff]

theorem unserved_eq_zero_iff (hw : w.Registered) :
    w.unserved = 0 ↔ w.mailboxes.owners = w.ids := by
  have hle := hw.owners.length_le
  constructor
  · intro h
    refine hw.owners.eq_of_length ?_
    unfold unserved at h
    omega
  · intro h
    simp [unserved, h]

/-! ## One command -/

theorem ids_struck {attacker target : PieceId} {shooter victim : Piece} (damage : Nat)
    (hvictim : w.piece? target = some victim) :
    (w.struck attacker target shooter victim damage).ids = w.ids := by
  have hhurt : (w.updatePiece target fun _ => (victim.takeDamage damage).2).ids = w.ids :=
    ids_updatePiece fun _ _ => takeDamage_id hvictim damage
  refine Eq.trans ?_ hhurt
  unfold struck
  exact ids_updatePiece fun _ hid => hid

/-- A world with the same pieces and mailboxes, whose checkpoint is new or the
same. -/
theorem Registered.of_same (hw : w.Registered) (hids : w'.ids = w.ids)
    (hmail : w'.mailboxes = w.mailboxes)
    (hsaved : ∀ saved, w'.checkpoint = some saved →
      saved.mailboxes = w.mailboxes ∨ w.checkpoint = some saved) :
    w'.Registered ∧ w'.unserved = w.unserved := by
  refine ⟨⟨?_, ?_, ?_⟩, ?_⟩
  · rw [hids]
    exact hw.apart
  · rw [hids, hmail]
    exact hw.owners
  · intro saved h
    -- A checkpoint that is taken now holds all mailboxes, and an old one as many as before.
    rw [hmail]
    rcases hsaved saved h with hnew | hold
    · simp only [hnew, List.prefix_rfl]
    · exact hw.saved saved hold
  · rw [unserved, unserved, hids, hmail]

/-- The mailboxes do not depend on the checkpoint. -/
theorem Registered.unsaved (hw : w.Registered) :
    w.unsaved.Registered ∧ w.unsaved.unserved = w.unserved := by
  refine hw.of_same rfl rfl ?_
  rintro saved ⟨⟩

theorem ids_joined (w : World) (new : Placement) : (w.joined new).ids = w.ids ++ [new.id] := by
  simp [ids, World.joined, Piece.spawn]

theorem owners_joined (w : World) (new : Placement) :
    (w.joined new).mailboxes.owners = w.mailboxes.owners ++ [new.id] := by
  simp [Directory.owners, World.joined, Mailbox.empty]

/-- A new piece gets its mailbox. -/
theorem Registered.joined (hw : w.Registered) {new : Placement}
    (hfree : ∀ p ∈ w.pieces, p.id.answersTo new.id.name = false) :
    (w.joined new).Registered ∧ (w.joined new).unserved = w.unserved := by
  refine ⟨⟨?_, ?_, ?_⟩, ?_⟩
  · rw [ids_joined]
    refine List.pairwise_append.mpr ⟨hw.apart, List.pairwise_singleton _ _, ?_⟩
    intro a ha b hb
    obtain ⟨p, hp, rfl⟩ := List.mem_map.mp ha
    rw [List.mem_singleton.mp hb]
    exact hfree p hp
  · rw [ids_joined, owners_joined]
    exact hw.owners.append (.refl _)
  · intro saved h
    exact (hw.saved saved h).trans (List.prefix_append _ _)
  · rw [unserved, unserved, ids_joined, owners_joined]
    simp

/-- An aborted turn leaves the oldest mailboxes. -/
theorem Registered.restored (hw : w.Registered) {saved : Checkpoint}
    (hsaved : w.checkpointOf? id = some saved) :
    (w.unsaved.settle id saved.piece.finishTurn saved.mailboxes).Registered ∧
      (w.unsaved.settle id saved.piece.finishTurn saved.mailboxes).unserved =
        w.unserved + (w.mailboxes.boxes.length - saved.mailboxes.boxes.length) := by
  obtain ⟨hcheckpoint, hid⟩ := checkpointOf?_eq_some.mp hsaved
  have hprefix := hw.saved saved hcheckpoint
  have hids : (w.unsaved.settle id saved.piece.finishTurn saved.mailboxes).ids = w.ids :=
    ids_updatePiece fun _ _ => hid
  have hmail : (w.unsaved.settle id saved.piece.finishTurn saved.mailboxes).mailboxes =
      saved.mailboxes := rfl
  have howners : saved.mailboxes.owners.Sublist w.mailboxes.owners := hprefix.sublist.map _
  refine ⟨⟨?_, ?_, ?_⟩, ?_⟩
  · rw [hids]
    exact hw.apart
  · rw [hids]
    exact howners.trans hw.owners
  · intro later h
    cases h
  · have hle := hw.owners.length_le
    have hshorter := hprefix.length_le
    rw [unserved, unserved, hids, hmail]
    simp only [Directory.owners, List.length_map] at hle ⊢
    omega

/-- A command leaves every piece its mailbox, but for those that were opened in the
turn it aborts. -/
theorem unserved_of_effect (hw : w.Registered) (h : w.Effect command w' events) :
    w'.Registered ∧ w'.unserved = w.unserved + w.closes command := by
  cases h with
  | resized | provided | rejected | passed | missed =>
    exact hw.of_same rfl rfl fun _ h => Or.inr h
  | spawned hfree => exact hw.joined hfree
  | @begun id piece hpiece hactive =>
    have hid : piece.id = id := id_of_piece? hpiece
    have hsaved : ∀ saved, (w.begun id piece).checkpoint = some saved →
        saved.mailboxes = w.mailboxes ∨ w.checkpoint = some saved := by
      rintro saved ⟨⟩
      exact Or.inl rfl
    exact hw.of_same (ids_updatePiece fun _ _ => hid) rfl hsaved
  | struck damage hshooter hvictim hactive =>
    exact hw.of_same (ids_struck damage hvictim) rfl fun _ h => Or.inr h
  | ended hpiece =>
    obtain ⟨hunsaved, hunserved⟩ := hw.unsaved
    rw [← hunserved]
    exact hunsaved.of_same (ids_updatePiece fun _ hid => hid) rfl fun _ h => Or.inr h
  | unended hpiece => exact hw.unsaved
  | restored hsaved reason =>
    obtain ⟨hrestored, hunserved⟩ := hw.restored hsaved
    simp only [closes, hsaved]
    exact ⟨hrestored, hunserved⟩
  | unrestored hsaved reason =>
    simp only [closes, hsaved]
    exact hw.unsaved
  | finished =>
    obtain ⟨concluded, last, hfinish, -⟩ := finishRound_cases w
    have hids := ids_finishRound w
    rw [hfinish] at hids ⊢
    exact hw.of_same hids rfl fun _ h => Or.inr h

/-! ## Many commands -/

/-- Commands leave every piece its mailbox, but for those that were opened in turns
they abort. -/
theorem unserved_of_applyAll (hw : w.Registered) {commands : List Command}
    (h : w.applyAll commands = .ok (w', t)) :
    w'.Registered ∧ w'.unserved = w.unserved + w.closesAll commands := by
  induction commands generalizing w t with
  | nil =>
    cases h
    exact ⟨hw, rfl⟩
  | cons command rest ih =>
    obtain ⟨mid, first, later, hfirst, hlater, -⟩ := applyAll_cons_eq_ok h
    obtain ⟨hmid, hone⟩ := unserved_of_effect hw (effect_of_apply hfirst)
    obtain ⟨hw', hall⟩ := ih hmid hlater
    refine ⟨hw', ?_⟩
    simp only [closesAll, hfirst]
    omega

theorem registered_fresh : fresh.Registered := by
  refine ⟨.nil, .refl [], ?_⟩
  rintro saved ⟨⟩

/-- Whatever commands come, no two pieces answer to one name, and mailboxes belong
to pieces, in the order of the pieces.  Every piece has its mailbox exactly if no
mailbox was opened in a turn that was aborted. -/
theorem owners_eq_ids_iff {commands : List Command} (h : fresh.applyAll commands = .ok (w, t)) :
    w.ids.Pairwise (fun a b => a.answersTo b.name = false) ∧
      w.mailboxes.owners.Sublist w.ids ∧
      (w.mailboxes.owners = w.ids ↔ fresh.closesAll commands = 0) := by
  obtain ⟨hw, hunserved⟩ := unserved_of_applyAll registered_fresh h
  have hnone : fresh.unserved = 0 := rfl
  refine ⟨hw.apart, hw.owners, ?_⟩
  rw [← unserved_eq_zero_iff hw]
  omega

/-- A piece that joins after an aborted turn gets its mailbox. -/
theorem owners_eq_ids_iff_joined :
    ∃ w t, fresh.applyAll
        [.spawnPiece .ada, .beginTurn .ada, .abortTurn .ada "stack underflow", .spawnPiece .bob] =
          .ok (w, t) ∧
      w.ids = [.ada, .bob] ∧ w.mailboxes.owners = w.ids := by
  have hrun : ∃ w t, fresh.applyAll
      [.spawnPiece .ada, .beginTurn .ada, .abortTurn .ada "stack underflow", .spawnPiece .bob] =
        .ok (w, t) ∧ w.ids = [.ada, .bob] :=
    ⟨_, _, rfl, rfl⟩
  obtain ⟨w, t, hrun, hids⟩ := hrun
  exact ⟨w, t, hrun, hids, (owners_eq_ids_iff hrun).2.2.mpr rfl⟩

/-- A piece that joins in a turn which is aborted loses its mailbox. -/
theorem owners_ne_ids_of_joined_in_turn :
    ∃ w t, fresh.applyAll
        [.spawnPiece .ada, .beginTurn .ada, .spawnPiece .bob, .abortTurn .ada "stack underflow"] =
          .ok (w, t) ∧
      w.ids = [.ada, .bob] ∧ w.mailboxes.owners = [.ada] :=
  ⟨_, _, rfl, rfl, rfl⟩

end World

end HexArena
