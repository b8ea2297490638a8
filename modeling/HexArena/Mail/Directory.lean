import HexArena.Lookup
import HexArena.Mail.Mailbox
import HexArena.Number

/-!
# The mailbox directory

All mailboxes of a match in the order they were opened.  A mailbox is found by
the name of its owner in any letter case.

Main results:

- Definition {lit}`Directory.openBox`: open a mailbox for a new owner.
- Definition {lit}`Directory.send`: deliver a payload to a recipient.
-/

namespace HexArena

/-- The mailboxes of a match, in opening order. -/
structure Directory where
  boxes : List Mailbox
deriving DecidableEq, Repr

namespace Directory

/-- A directory without mailboxes. -/
def empty : Directory := ⟨[]⟩

/-- The mailbox whose owner answers to a name. -/
def find? (d : Directory) (name : String) : Option Mailbox :=
  d.boxes.find? (·.owner.answersTo name)

/-- Replace the mailbox whose owner answers to a name. -/
def replace (d : Directory) (name : String) (box : Mailbox) : Directory :=
  ⟨updateFirst (·.owner.answersTo name) (fun _ => box) d.boxes⟩

/-- Open an empty mailbox, unless its owner has one; then there must be room for
its messages. -/
def openBox (d : Directory) (owner : PieceId) (capacity : Nat) :
    Checked (Except MailError Directory) :=
  match d.find? owner.name with
  | some _ => .ok (.error (.duplicateOwner owner.name))
  | none =>
    if capacity ≤ Mailbox.maxCapacity then .ok (.ok ⟨d.boxes ++ [.empty owner capacity]⟩)
    else .error .capacity

/-- Deliver a payload to the mailbox of a recipient. -/
def send (d : Directory) (sender : PieceId) (recipient payload : String) :
    Except MailError Directory :=
  match d.find? recipient with
  | none => .error (.unknownRecipient recipient)
  | some box => do
    let box ← box.deliver ⟨sender.name, payload⟩
    return d.replace recipient box

/-- Take the oldest message of a sender from the mailbox of an owner. -/
def receive (d : Directory) (owner sender : String) : Option (String × Directory) := do
  let box ← d.find? owner
  let (payload, box) ← box.receive sender
  return (payload, d.replace owner box)

/-- The mailbox of an owner holds a message from a sender. -/
def hasMessage (d : Directory) (owner sender : String) : Bool :=
  (d.find? owner).any (·.hasMessage sender)

/-- Empty the mailbox of an owner. -/
def clear (d : Directory) (owner : String) : Directory :=
  ⟨updateFirst (·.owner.answersTo owner) Mailbox.clear d.boxes⟩

end Directory

end HexArena
