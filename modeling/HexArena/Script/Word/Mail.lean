import HexArena.Script.Machine

/-!
# Words of mail

The words by which a script sends to any mailbox and reads its own.

Main results:

- Definitions {lit}`Word.send`, {lit}`Word.receive`, {lit}`Word.hasMessage` and
  {lit}`Word.clearMail`.
-/

namespace HexArena.Script.Word

/-- Send a payload: {lit}`( payload recipient -- delivered )`. -/
def send (scene : Scene) : Action Unit := do
  let recipient ← popText
  let payload ← popText
  let m ← get
  match m.mailboxes.send m.piece.id recipient payload with
  | .ok mailboxes =>
    modify fun m => { m with mailboxes := mailboxes }
    pushFlag scene true
  | .error _ => pushFlag scene false

/-- Take the oldest message of a sender: {lit}`( sender -- payload )`, the empty
text if there is none. -/
def receive (scene : Scene) : Action Unit := do
  let sender ← popText
  let m ← get
  match m.mailboxes.receive m.piece.id.name sender with
  | some (payload, mailboxes) =>
    modify fun m => { m with mailboxes := mailboxes }
    push scene (.text payload)
  | none => push scene (.text "")

/-- Ask for a message of a sender: {lit}`( sender -- flag )`. -/
def hasMessage (scene : Scene) : Action Unit := do
  let sender ← popText
  let m ← get
  pushFlag scene (m.mailboxes.hasMessage m.piece.id.name sender)

/-- Empty the mailbox of the piece. -/
def clearMail : Action Unit :=
  modify fun m => { m with mailboxes := m.mailboxes.clear m.piece.id.name }

end HexArena.Script.Word
