import HexArena.Proofs.Checked
import HexArena.Proofs.Lookup
import HexArena.World.Apply

/-!
# Turns of the world

A world begins the turn of a piece by keeping a checkpoint of it.  Aborting the
turn leaves the same world as ending it when nothing has happened.

Main results:

- Definition {lit}`World.begun`: the world in which a turn has begun.
- Definition {lit}`World.rested`: the world after an empty turn.
- Theorem {lit}`World.abortTurn_settle`: aborting a turn leaves the world of an
  empty turn, whatever has become of the piece and the mailboxes.
- Theorem {lit}`World.endTurn_settle`: so does ending a turn in which nothing
  happened.
-/

namespace HexArena

/-! ## Transcripts -/

attribute [ext] Transcript

namespace Transcript

@[simp]
theorem events_append (s t : Transcript) : (s ++ t).events = s.events ++ t.events :=
  rfl

@[simp]
theorem events_empty : empty.events = [] :=
  rfl

@[simp]
theorem log_append (s t : Transcript) : (s ++ t).log = s.log ++ t.log :=
  rfl

@[simp]
theorem append_empty (t : Transcript) : t ++ empty = t := by
  ext1
  · exact List.append_nil t.events
  · exact List.append_nil t.log

end Transcript

/-- The effect of a single command. -/
theorem World.applyAll_singleton {w : World} {command : Command} {result : World × Transcript}
    (h : w.apply command = .ok result) : w.applyAll [command] = .ok result := by
  simp only [applyAll, h, bind, Except.bind, pure, Except.pure, Transcript.append_empty]

/-- The effect of a command and of those after it. -/
theorem World.applyAll_cons_eq_ok {w w' : World} {command : Command} {rest : List Command}
    {t : Transcript} (h : w.applyAll (command :: rest) = .ok (w', t)) :
    ∃ mid first later, w.apply command = .ok (mid, first) ∧
      mid.applyAll rest = .ok (w', later) ∧ t = first ++ later := by
  unfold applyAll at h
  obtain ⟨⟨mid, first⟩, hfirst, hrest⟩ := bind_eq_ok.mp h
  obtain ⟨⟨final, later⟩, hlater, hdone⟩ := bind_eq_ok.mp hrest
  cases hdone
  exact ⟨mid, first, later, hfirst, hlater, rfl⟩

/-! ## Turns -/

namespace World

variable {w : World} {id : PieceId} {piece : Piece}

/-- The world in which the turn of a piece has begun. -/
def begun (w : World) (id : PieceId) (piece : Piece) : World :=
  { w.updatePiece id (fun _ => piece.beginTurn) with
    checkpoint := some ⟨piece.beginTurn, w.mailboxes⟩ }

/-- The world in which a piece has taken an empty turn. -/
def rested (w : World) (id : PieceId) (piece : Piece) : World :=
  { w.updatePiece id (fun _ => piece.beginTurn.finishTurn) with checkpoint := none }

theorem id_of_piece? (h : w.piece? id = some piece) : piece.id = id := by
  have hid := List.find?_some h
  exact of_decide_eq_true hid

theorem beginTurn_of_active (hpiece : w.piece? id = some piece) (hactive : piece.isActive = true) :
    w.beginTurn id = (w.begun id piece, [.turnStarted id piece.beginTurn.turnsTaken]) := by
  rw [beginTurn, hpiece]
  simp only [hactive]
  rfl

/-- A piece that is replaced by one of the same name is found in its place. -/
theorem piece?_updatePiece {new : Piece} (hpiece : w.piece? id = some piece) (hnew : new.id = id) :
    (w.updatePiece id fun _ => new).piece? id = some new := by
  have hkeeps : ∀ p ∈ w.pieces, decide (p.id = id) = true → decide (new.id = id) = true :=
    fun _ _ _ => decide_eq_true hnew
  unfold piece? at hpiece ⊢
  unfold updatePiece
  rw [find?_updateFirst hkeeps, hpiece]
  rfl

/-- A change of a piece that was replaced changes the replacement. -/
theorem updateFirst_replaced {new : Piece} (hnew : new.id = id) (f : Piece → Piece)
    (pieces : List Piece) :
    updateFirst (fun p => decide (p.id = id)) f
        (updateFirst (fun p => decide (p.id = id)) (fun _ => new) pieces) =
      updateFirst (fun p => decide (p.id = id)) (fun _ => f new) pieces :=
  updateFirst_updateFirst fun _ _ _ => decide_eq_true hnew

/-- Aborting a turn leaves the world of an empty turn, whatever has become of
the piece and the mailboxes. -/
theorem abortTurn_settle (hid : piece.id = id) {left : Piece} (hleft : left.id = id)
    (mailboxes : Directory) (reason : String) :
    ((w.begun id piece).settle id left mailboxes).abortTurn id reason =
      (w.rested id piece, .ofEvents [.turnFaulted id reason]) := by
  have hbegun : piece.beginTurn.id = id := hid
  have hcheckpoint : ((w.begun id piece).settle id left mailboxes).checkpointOf? id =
      some ⟨piece.beginTurn, w.mailboxes⟩ := by
    simp [checkpointOf?, settle, updatePiece, begun, hbegun]
  rw [abortTurn, hcheckpoint]
  simp only [settle, updatePiece, begun, rested]
  rw [updateFirst_replaced hbegun, updateFirst_replaced hleft]

/-- Ending a turn in which nothing happened leaves that world too. -/
theorem endTurn_settle (hpiece : w.piece? id = some piece) :
    ((w.begun id piece).settle id piece.beginTurn w.mailboxes).endTurn id =
      (w.rested id piece, [.turnEnded id]) := by
  have hid := id_of_piece? hpiece
  have hbegun : piece.beginTurn.id = id := hid
  have hcheckpoint : ((w.begun id piece).settle id piece.beginTurn w.mailboxes).checkpointOf? id =
      some ⟨piece.beginTurn, w.mailboxes⟩ := by
    simp [checkpointOf?, settle, updatePiece, begun, hbegun]
  have hfound : { (w.begun id piece).settle id piece.beginTurn w.mailboxes with
      checkpoint := none }.piece? id = some piece.beginTurn := by
    have hreplaced := piece?_updatePiece hpiece hbegun
    simp only [piece?, settle, updatePiece, begun] at hreplaced ⊢
    rw [updateFirst_replaced hbegun]
    exact hreplaced
  have hstill : movedSince ⟨piece.beginTurn, w.mailboxes⟩ piece.beginTurn = [] := by
    simp [movedSince]
  simp only [endTurn, hcheckpoint, hfound, Option.map_some, Option.getD_some, hstill,
    List.nil_append]
  simp only [settle, updatePiece, begun, rested]
  rw [updateFirst_replaced hbegun, updateFirst_replaced hbegun]

end World

end HexArena
