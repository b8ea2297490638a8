import HexArena.Proofs.Hex.SameHex
import HexArena.Proofs.Script.Mail
import HexArena.Proofs.World.Sound

/-!
# Putting pieces on the board

A piece is put on the board if its name is new, its hex lies on the board and nobody
living stands there; otherwise the world tells the first reason that stands against it
and stays as it is.  The mailbox is opened last, and by then nothing can go wrong: every
mailbox belongs to a piece, and so do those that an aborted turn brings back, so a name
that no piece answers to leads to no mailbox.

Main results:

- Definition {lit}`World.refusal?`: why a piece is not put on the board.
- Definition {lit}`World.Owned`: every mailbox belongs to a piece.
- Theorems {lit}`World.Owned.effect` and {lit}`World.Owned.drive`: commands and scripts
  keep it so.
- Theorem {lit}`World.Owned.spawn_eq`: what comes of putting a piece on the board.
- Theorem {lit}`World.spawns_of_acts`: so it does after any commands and turns of
  scripts.
-/

namespace HexArena

/-- A script leaves every mailbox to its owner. -/
theorem Directory.Handled.owners {actor : PieceId} {old new : Directory}
    (h : old.Handled actor new) : new.owners = old.owners := by
  have howners : List.Forall₂ Eq (old.boxes.map (·.owner)) (new.boxes.map (·.owner)) :=
    List.rel_map (fun _ _ hbox => hbox.owner.symm) h
  rw [List.forall₂_eq_eq_eq] at howners
  exact howners.symm

namespace World

variable {w w' : World} {id : PieceId} {new : Placement} {cell : Coord} {command : Command}
  {events : List Event} {t : Transcript}

/-! ## Reasons against a piece -/

/-- A piece answers to the name, dead or alive. -/
def Knows (w : World) (name : String) : Prop :=
  ∃ p ∈ w.pieces, p.id.answersTo name = true

/-- The hex lies on the board: it is no more steps from the center than the radius. -/
def Covers (w : World) (cell : Coord) : Prop :=
  cell.norm ≤ w.radius

/-- A living piece stands on the hex, by whatever triples the two are addressed. -/
def Houses (w : World) (cell : Coord) : Prop :=
  ∃ p ∈ w.pieces, p.alive = true ∧ p.position.Same cell

instance (w : World) (name : String) : Decidable (w.Knows name) :=
  inferInstanceAs (Decidable (∃ p ∈ w.pieces, _))

instance (w : World) (cell : Coord) : Decidable (w.Covers cell) :=
  inferInstanceAs (Decidable (_ ≤ _))

instance (w : World) (cell : Coord) : Decidable (w.Houses cell) :=
  inferInstanceAs (Decidable (∃ p ∈ w.pieces, _))

/-- The first reason that stands against putting a piece on the board. -/
def refusal? (w : World) (new : Placement) : Option SpawnError :=
  if w.Knows new.id.name then some .duplicateId
  else if ¬ w.Covers new.position then some .outOfBounds
  else if w.Houses new.position then some .occupied
  else none

theorem refusal?_eq_none_iff :
    w.refusal? new = none ↔
      ¬ w.Knows new.id.name ∧ w.Covers new.position ∧ ¬ w.Houses new.position := by
  by_cases hknows : w.Knows new.id.name
  · simp [refusal?, hknows]
  · by_cases hcovers : w.Covers new.position
    · simp [refusal?, hknows, hcovers]
    · simp [refusal?, hknows, hcovers]

/-! ## What is found out about a hex -/

theorem isOnBoard_eq_ok {inside : Bool} (h : w.isOnBoard cell = .ok inside) :
    inside = true ↔ w.Covers cell := by
  obtain ⟨steps, hdistance, hinside⟩ := bind_eq_ok.mp h
  cases hinside
  rw [Coord.distance_eq_ok hdistance, Coord.sub_origin, decide_eq_true_iff]
  rfl

theorem anyAliveOn_eq_ok {pieces : List Piece} {found : Bool}
    (h : anyAliveOn cell pieces = .ok found) :
    found = true ↔ ∃ p ∈ pieces, p.alive = true ∧ p.position.Same cell := by
  induction pieces with
  | nil =>
    cases h
    simp
  | cons p rest ih =>
    unfold anyAliveOn at h
    cases halive : p.alive with
    | false =>
      simp only [halive, Bool.false_eq_true, if_false] at h
      simp [ih h, halive]
    | true =>
      simp only [halive, if_true] at h
      obtain ⟨same, hsame, hrest⟩ := bind_eq_ok.mp h
      have hhere : same = true ↔ p.position.Same cell := by
        obtain ⟨-, -, rfl⟩ := Coord.sameHex_eq_ok.mp hsame
        rw [decide_eq_true_iff, eq_comm]
        rfl
      cases same with
      | true =>
        cases hrest
        simp [halive, hhere.mp rfl]
      | false =>
        have helsewhere : ¬ p.position.Same cell :=
          fun hsame => Bool.false_ne_true (hhere.mpr hsame)
        simp [ih hrest, helsewhere]

/-! ## Mailboxes belong to pieces -/

/-- Every mailbox belongs to a piece, and so do those in the checkpoint. -/
structure Owned (w : World) : Prop where
  mailboxes : w.mailboxes.owners ⊆ w.ids
  saved : ∀ saved, w.checkpoint = some saved → saved.mailboxes.owners ⊆ w.ids

theorem owned_fresh : fresh.Owned := by
  refine ⟨List.nil_subset _, ?_⟩
  rintro saved ⟨⟩

namespace Owned

/-- A name that no piece answers to leads to no mailbox. -/
theorem find?_eq_none (hw : w.Owned) {name : String} (hnew : ¬ w.Knows name) :
    w.mailboxes.find? name = none := by
  refine List.find?_eq_none.mpr fun box hbox hanswers => hnew ?_
  have howner : box.owner ∈ w.ids := hw.mailboxes (List.mem_map.mpr ⟨box, hbox, rfl⟩)
  obtain ⟨p, hp, hid⟩ := List.mem_map.mp howner
  rw [← hid] at hanswers
  exact ⟨p, hp, hanswers⟩

/-- The same pieces, whose mailboxes and checkpoint are left to them. -/
theorem of_ids (hw : w.Owned) (hids : w'.ids = w.ids) (hmail : w'.mailboxes.owners ⊆ w.ids)
    (hsaved : ∀ saved, w'.checkpoint = some saved →
      saved.mailboxes = w.mailboxes ∨ w.checkpoint = some saved) : w'.Owned := by
  refine ⟨?_, ?_⟩
  · rw [hids]
    exact hmail
  · intro saved h
    rw [hids]
    rcases hsaved saved h with hnew | hold
    · rw [hnew]
      exact hw.mailboxes
    · exact hw.saved saved hold

theorem unsaved (hw : w.Owned) : w.unsaved.Owned := by
  refine hw.of_ids rfl hw.mailboxes ?_
  rintro saved ⟨⟩

theorem joined (hw : w.Owned) (new : Placement) : (w.joined new).Owned := by
  refine ⟨?_, ?_⟩
  · rw [ids_joined, owners_joined]
    exact List.append_subset_of_subset_of_subset
      (List.Subset.trans hw.mailboxes (List.subset_append_left _ _)) (List.subset_append_right _ _)
  · intro saved h
    rw [ids_joined]
    exact List.Subset.trans (hw.saved saved h) (List.subset_append_left _ _)

/-- A command leaves the mailboxes to the pieces, also when it aborts a turn. -/
theorem effect (hw : w.Owned) (h : w.Effect command w' events) : w'.Owned := by
  cases h with
  | resized | provided | rejected | passed | missed => exact ⟨hw.mailboxes, hw.saved⟩
  | spawned hfree => exact hw.joined _
  | @begun id piece hpiece hactive =>
    have hid : piece.id = id := id_of_piece? hpiece
    have hsaved : ∀ saved, (w.begun id piece).checkpoint = some saved →
        saved.mailboxes = w.mailboxes ∨ w.checkpoint = some saved := by
      rintro saved ⟨⟩
      exact Or.inl rfl
    exact hw.of_ids (ids_updatePiece fun _ _ => hid) hw.mailboxes hsaved
  | struck damage hshooter hvictim hactive =>
    exact hw.of_ids (ids_struck damage hvictim) hw.mailboxes fun _ h => Or.inr h
  | ended hpiece =>
    exact hw.unsaved.of_ids (ids_updatePiece fun _ hid => hid) hw.mailboxes fun _ h => Or.inr h
  | unended | unrestored => exact hw.unsaved
  | restored hsaved reason =>
    obtain ⟨hcheckpoint, hid⟩ := checkpointOf?_eq_some.mp hsaved
    exact hw.unsaved.of_ids (ids_updatePiece fun _ _ => hid) (hw.saved _ hcheckpoint)
      fun _ h => Or.inr h
  | finished =>
    obtain ⟨concluded, last, hfinish, -⟩ := finishRound_cases w
    have hids := ids_finishRound w
    rw [hfinish] at hids ⊢
    exact hw.of_ids hids hw.mailboxes fun _ h => Or.inr h

/-- So does the turn of a script. -/
theorem drive (hw : w.Owned) {piece : Piece} (hpiece : w.piece? id = some piece)
    {i : Script.Interpreter} {script : String} {board : Board} {queued : List Command}
    {report : Script.TurnReport}
    (hturn : i.runTurn script ⟨piece, board, w.mailboxes⟩ queued = .ok report) :
    (w.settle id report.piece report.mailboxes).Owned := by
  have hid : report.piece.id = id :=
    (Script.Interpreter.runTurn_same hturn).id.trans (id_of_piece? hpiece)
  have howners : report.mailboxes.owners = w.mailboxes.owners :=
    (Script.Interpreter.runTurn_handled hturn).owners
  refine hw.of_ids (ids_updatePiece fun _ _ => hid) ?_ fun _ h => Or.inr h
  show report.mailboxes.owners ⊆ w.ids
  rw [howners]
  exact hw.mailboxes

end Owned

/-! ## Commands and turns of scripts -/

/-- The act is a command, or the turn of a script. -/
def Act.isPlayed : Act → Bool
  | .command _ | .drive .. => true
  | .post _ | .operate .. => false

theorem Owned.act (hw : w.Owned) {a : Act} (hplayed : a.isPlayed = true)
    (ha : w.act a = .ok w') : w'.Owned := by
  cases a with
  | command command =>
    obtain ⟨⟨left, t⟩, happly, hleft⟩ := bind_eq_ok.mp ha
    cases hleft
    exact hw.effect (effect_of_apply happly)
  | post | operate => cases hplayed
  | drive id interpreter script board queued =>
    simp only [World.act] at ha
    split at ha
    · cases ha
      exact hw
    · rename_i piece hpiece
      obtain ⟨report, hturn, hleft⟩ := bind_eq_ok.mp ha
      cases hleft
      exact hw.drive hpiece hturn

theorem Owned.acts {acts : List Act} (hw : w.Owned) (hplayed : ∀ a ∈ acts, a.isPlayed = true)
    (hacts : acts.foldlM World.act w = .ok w') : w'.Owned :=
  acts_induction (fun a ha _ _ hw hact => hw.act (hplayed a ha) hact) hw hacts

/-! ## Putting a piece on the board -/

/-- If every mailbox belongs to a piece, a new piece gets one. -/
theorem Owned.openBox_ne_error (hw : w.Owned) (hnew : ¬ w.Knows new.id.name) (capacity : Nat)
    (refused : MailError) : w.mailboxes.openBox new.id capacity ≠ .ok (.error refused) := by
  rw [Directory.openBox, hw.find?_eq_none hnew]
  dsimp only
  split
  · nofun
  · nofun

/-- What comes of putting a piece on the board is told by the first reason against it. -/
theorem Owned.spawn_eq (hw : w.Owned) {result : Except SpawnError World}
    (h : w.spawn new = .ok result) :
    result = match w.refusal? new with
      | some reason => .error reason
      | none => .ok (w.joined new) := by
  have hspawn := h
  unfold spawn at h
  split at h
  · rename_i hany
    have hknows : w.Knows new.id.name := List.any_eq_true.mp hany
    cases h
    simp only [refusal?, hknows, if_true]
  rename_i hany
  have hknows : ¬ w.Knows new.id.name := fun hknows => hany (List.any_eq_true.mpr hknows)
  obtain ⟨inside, hinside, h⟩ := bind_eq_ok.mp h
  have hcovers := isOnBoard_eq_ok hinside
  cases inside with
  | false =>
    cases h
    simp only [refusal?, hknows, ← hcovers, if_false, Bool.false_eq_true, not_false_eq_true,
      if_true]
  | true =>
    obtain ⟨occupied, hoccupied, h⟩ := bind_eq_ok.mp h
    have hhouses : occupied = true ↔ w.Houses new.position := anyAliveOn_eq_ok hoccupied
    cases occupied with
    | true =>
      cases h
      simp only [refusal?, hknows, ← hcovers, ← hhouses, if_false, not_true_eq_false, if_true]
    | false =>
      have hnone : w.refusal? new = none :=
        refusal?_eq_none_iff.mpr ⟨hknows, hcovers.mp rfl, by simp [← hhouses]⟩
      obtain ⟨opened, hopened, h⟩ := bind_eq_ok.mp h
      cases opened with
      | error refused => exact absurd hopened (hw.openBox_ne_error hknows _ refused)
      | ok mailboxes =>
        cases h
        obtain ⟨-, hjoined⟩ := eq_joined_of_spawn hspawn
        rw [hnone, hjoined]

/-- So are the world and the events that the command leaves. -/
theorem Owned.apply_spawnPiece (hw : w.Owned) {result : World × Transcript}
    (h : w.apply (.spawnPiece new) = .ok result) :
    result = match w.refusal? new with
      | some reason => (w, .ofEvents [.pieceSpawnRejected new.id reason])
      | none => (w.joined new, .ofEvents [.pieceSpawned new.id new.team new.position]) := by
  obtain ⟨spawned, hspawn, h⟩ := bind_eq_ok.mp h
  rw [hw.spawn_eq hspawn] at h
  cases hrefusal : w.refusal? new with
  | some reason =>
    rw [hrefusal] at h
    exact (Except.ok.inj h).symm
  | none =>
    rw [hrefusal] at h
    exact (Except.ok.inj h).symm

/-- What a command to put a piece on the board leads to. -/
structure Spawns (w : World) (new : Placement) (w' : World) (t : Transcript) : Prop where
  /-- The piece is accepted if its name is new, its hex lies on the board and nobody
  living stands there. -/
  accepted_iff : .pieceSpawned new.id new.team new.position ∈ t.events ↔
    ¬ w.Knows new.id.name ∧ w.Covers new.position ∧ ¬ w.Houses new.position
  /-- Then it and its mailbox come last, and nothing else changes. -/
  accepted : w.refusal? new = none →
    w' = w.joined new ∧ t = .ofEvents [.pieceSpawned new.id new.team new.position]
  /-- Otherwise the first reason is told, and nothing changes. -/
  refused : ∀ reason, w.refusal? new = some reason →
    w' = w ∧ t = .ofEvents [.pieceSpawnRejected new.id reason]
  /-- The mailbox of a piece with a new name is never refused. -/
  opened : ¬ w.Knows new.id.name →
    ∀ refusal, w.mailboxes.openBox new.id w.mailboxCapacity ≠ .ok (.error refusal)

/-- Whatever commands a world was given and whatever turns scripts took in it, a piece is
put on the board, with an empty mailbox, exactly if nothing stands against it, and
otherwise the world stays as it is and tells the first reason.  Its mailbox is never what
a piece is refused for. -/
theorem spawns_of_acts {acts : List Act} (hplayed : ∀ a ∈ acts, a.isPlayed = true)
    (hacts : acts.foldlM act fresh = .ok w) (h : w.apply (.spawnPiece new) = .ok (w', t)) :
    w.Spawns new w' t := by
  have hw := owned_fresh.acts hplayed hacts
  have hresult := hw.apply_spawnPiece h
  refine ⟨?_, ?_, ?_, fun hnew => hw.openBox_ne_error hnew _⟩
  · rw [← refusal?_eq_none_iff]
    cases hrefusal : w.refusal? new with
    | some reason =>
      rw [hrefusal] at hresult
      cases hresult
      simp [Transcript.ofEvents]
    | none =>
      rw [hrefusal] at hresult
      cases hresult
      simp [Transcript.ofEvents]
  · intro hnone
    rw [hnone] at hresult
    exact Prod.mk.inj hresult
  · intro reason hreason
    rw [hreason] at hresult
    exact Prod.mk.inj hresult

/-- The first piece walks onto the hex beside it. -/
def takenHex : List Act :=
  [.command (.spawnPiece .ada), .command (.beginTurn .ada),
    .drive .ada (.fresh .ada .default) "1 0 move" ⟨4, []⟩ []]

/-- The first piece goes back, because its turn is aborted. -/
def vacatedHex : List Act :=
  takenHex ++ [.command (.abortTurn .ada "stack underflow")]

/-- The second piece is refused as long as the first stands on its hex. -/
theorem spawns_of_acts_takenHex :
    (∃ w w' t, takenHex.foldlM act fresh = .ok w ∧ w.apply (.spawnPiece .bob) = .ok (w', t) ∧
      w.refusal? .bob = some .occupied ∧ w' = w) ∧
    ∃ w w' t, vacatedHex.foldlM act fresh = .ok w ∧ w.apply (.spawnPiece .bob) = .ok (w', t) ∧
      w.refusal? .bob = none ∧ w' = w.joined .bob := by
  have htaken : ∃ w w' t, takenHex.foldlM act fresh = .ok w ∧
      w.apply (.spawnPiece .bob) = .ok (w', t) ∧ w.refusal? .bob = some .occupied :=
    ⟨_, _, _, rfl, rfl, by decide⟩
  have hvacated : ∃ w w' t, vacatedHex.foldlM act fresh = .ok w ∧
      w.apply (.spawnPiece .bob) = .ok (w', t) ∧ w.refusal? .bob = none :=
    ⟨_, _, _, rfl, rfl, by decide⟩
  constructor
  · obtain ⟨w, w', t, hacts, happly, hrefusal⟩ := htaken
    have hspawns := spawns_of_acts (by decide) hacts happly
    exact ⟨w, w', t, hacts, happly, hrefusal, (hspawns.refused _ hrefusal).1⟩
  · obtain ⟨w, w', t, hacts, happly, hrefusal⟩ := hvacated
    have hspawns := spawns_of_acts (by decide) hacts happly
    exact ⟨w, w', t, hacts, happly, hrefusal, (hspawns.accepted hrefusal).1⟩

end World

end HexArena
