import HexArena.Mail.Message

/-!
# Mailboxes

A mailbox queues the messages to one piece, oldest first, up to its capacity.

Main results:

- Definition {lit}`Mailbox.deliver`: queue a message, unless the mailbox is
  full.
- Definition {lit}`Mailbox.receive`: take the oldest message of a sender.
- Definition {lit}`Mailbox.maxCapacity`: the largest capacity there is room for.
-/

namespace HexArena

/-- The queue of messages to one piece. -/
structure Mailbox where
  owner : PieceId
  capacity : Nat
  /-- The queued messages, oldest first. -/
  queue : List Message
deriving DecidableEq, Repr

namespace Mailbox

/-- The room a queued message takes, in bytes. -/
def messageBytes : Nat := 48

/-- The largest capacity: the room for all its messages is set aside at once, and
its size in bytes is a signed 64-bit number. -/
def maxCapacity : Nat := 9223372036854775807 / messageBytes

/-- A mailbox without messages. -/
def empty (owner : PieceId) (capacity : Nat) : Mailbox :=
  ⟨owner, capacity, []⟩

/-- No further message is accepted. -/
def isFull (m : Mailbox) : Bool :=
  decide (m.capacity ≤ m.queue.length)

/-- A message from a sender is queued. -/
def hasMessage (m : Mailbox) (sender : String) : Bool :=
  m.queue.any (·.isFrom sender)

/-- The payload of the oldest message from a sender, and the mailbox without
that message. -/
def receive (m : Mailbox) (sender : String) : Option (String × Mailbox) :=
  (m.queue.find? (·.isFrom sender)).map fun message =>
    (message.payload, { m with queue := m.queue.eraseP (·.isFrom sender) })

/-- Queue a message. -/
def deliver (m : Mailbox) (message : Message) : Except MailError Mailbox :=
  if m.isFull then .error (.full m.owner.name)
  else .ok { m with queue := m.queue ++ [message] }

/-- Read the wire form of a message and queue it. -/
def accept (m : Mailbox) (raw : String) : Except MailError Mailbox := do
  m.deliver (← Message.decode raw)

/-- The mailbox without its messages. -/
def clear (m : Mailbox) : Mailbox :=
  { m with queue := [] }

end Mailbox

end HexArena
