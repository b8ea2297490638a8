import HexArena.Piece.Id

/-!
# Messages

A message is a payload from a sender.  Its wire form puts the separator between
the two; the first separator divides, and later ones belong to the payload.

Main results:

- Definitions {lit}`Message.encode` and {lit}`Message.decode`: the wire form and
  its reading.
- Definition {lit}`MailError`: the ways mail is refused.
-/

namespace HexArena

/-- A payload from a sender. -/
structure Message where
  sender : String
  payload : String
deriving DecidableEq, Repr

/-- Why mail is refused. -/
inductive MailError where
  | unknownRecipient (name : String)
  | full (owner : String)
  | missingSeparator (raw : String)
  | duplicateOwner (owner : String)
deriving DecidableEq, Repr

/-- The wording of a refusal. -/
def MailError.message : MailError → String
  | .unknownRecipient name => "no mailbox belongs to `" ++ name ++ "`"
  | .full owner => "mailbox of `" ++ owner ++ "` is full"
  | .missingSeparator raw => "message `" ++ raw ++ "` lacks the `@` sender separator"
  | .duplicateOwner owner => "a mailbox for `" ++ owner ++ "` already exists"

namespace Message

/-- The wire form of a message. -/
def encode (m : Message) : String :=
  String.ofList (m.sender.toList ++ separator :: m.payload.toList)

/-- Read the wire form of a message. -/
def decode (raw : String) : Except MailError Message :=
  match raw.toList.span (· != separator) with
  | (_, []) => .error (.missingSeparator raw)
  | (sender, _ :: payload) => .ok ⟨String.ofList sender, String.ofList payload⟩

/-- The message comes from a sender, in any letter case; nothing comes from the
empty name. -/
def isFrom (m : Message) (sender : String) : Bool :=
  sender != "" && Text.same m.sender sender

end Message

end HexArena
